import Declarative.Proofs.Text.Distance
import Declarative.Suggestion

/-!
# The closest name

Of the candidates for a name that is not known, the first of those that are nearest to it is to be
suggested, if it is near enough (`Suggestion.IsClosest`). A search that looks at every candidate finds
just this one (`Suggestion.nearest?_eq_some_iff`). But a candidate that is much wider or narrower than the
name is passed over without a look at its distance. The closest one is not passed over where all
characters are one byte wide (`Suggestion.isPlausible_of_isNarrow`); elsewhere it can be, since a single
character may be wider than by what a name may differ (`Suggestion.euro_passed_over`).
-/

namespace Declarative.Suggestion

open Text (distance)

/-- The candidate is near enough to the name, no candidate is nearer, and it comes first among those that
are as near. -/
structure IsClosest (name : String) (candidates : List String) (closest : String) : Prop where
  near : distance name closest ≤ allowance name
  least : ∀ other ∈ candidates, distance name closest ≤ distance name other
  first : ∃ front back, candidates = front ++ closest :: back
    ∧ ∀ other ∈ front, distance name closest < distance name other

section

variable {name closest other : String} {candidates : List String}

theorem IsClosest.mem (h : IsClosest name candidates closest) : closest ∈ candidates := by
  obtain ⟨front, back, rfl, -⟩ := h.first
  simp

theorem IsClosest.unique (h : IsClosest name candidates closest)
    (hother : IsClosest name candidates other) : closest = other := by
  have hle := h.least other hother.mem
  have hge := hother.least closest h.mem
  obtain ⟨front, back, hsplit, hfront⟩ := h.first
  obtain ⟨front', back', hsplit', hfront'⟩ := hother.first
  rcases List.append_eq_append_iff.mp (hsplit.symm.trans hsplit') with
    ⟨between, rfl, hbetween⟩ | ⟨between, rfl, hbetween⟩
  -- none of the two stands in front of the other
  · cases between with
    | nil => exact (List.cons.inj hbetween).1
    | cons c between =>
        obtain ⟨rfl, -⟩ := List.cons.inj hbetween
        have hlt := hfront' closest (by simp)
        omega
  · cases between with
    | nil => exact (List.cons.inj hbetween).1.symm
    | cons c between =>
        obtain ⟨rfl, -⟩ := List.cons.inj hbetween
        have hlt := hfront other (by simp)
        omega

/-- A candidate behind that is not nearer changes nothing. -/
theorem IsClosest.concat (h : IsClosest name candidates closest)
    (hle : distance name closest ≤ distance name other) :
    IsClosest name (candidates ++ [other]) closest := by
  obtain ⟨front, back, rfl, hfront⟩ := h.first
  refine ⟨h.near, fun c hc => ?_, front, back ++ [other], by simp, hfront⟩
  rcases List.mem_append.mp hc with hc | hc
  · exact h.least c hc
  · rwa [List.mem_singleton.mp hc]

/-- A candidate behind that is nearer than all others is the closest. -/
theorem isClosest_concat (hnear : distance name closest ≤ allowance name)
    (hlt : ∀ other ∈ candidates, distance name closest < distance name other) :
    IsClosest name (candidates ++ [closest]) closest := by
  refine ⟨hnear, fun c hc => ?_, candidates, [], rfl, hlt⟩
  rcases List.mem_append.mp hc with hc | hc
  · exact Nat.le_of_lt (hlt c hc)
  · rw [List.mem_singleton.mp hc]

end

/-! ## The search -/

/-- The better of the best candidate so far and the next one, which is not passed over. -/
def nearer (name : String) (best : Option (String × Nat)) (candidate : String) :
    Option (String × Nat) :=
  let d := distance name candidate
  if d ≤ allowance name ∧ best.all (d < ·.2) then some (candidate, d) else best

/-- The search that passes over no candidate. -/
def nearest? (name : String) (candidates : List String) : Option String :=
  (candidates.foldl (nearer name) none).map (·.1)

/-- The names that are suggested are found among those that are not passed over. -/
theorem closest?_eq_nearest?_filter (name : String) (candidates : List String) :
    closest? name candidates = nearest? name (candidates.filter (isPlausible name)) := by
  rw [nearest?, List.foldl_filter]
  rfl

/-- What is kept of the candidates that the search has seen. -/
def Keeps (name : String) (seen : List String) : Option (String × Nat) → Prop
  | none => ∀ c ∈ seen, allowance name < distance name c
  | some (closest, d) => d = distance name closest ∧ IsClosest name seen closest

variable {name : String} {candidates : List String}

theorem keeps_nearer {seen : List String} {best : Option (String × Nat)} (h : Keeps name seen best)
    (candidate : String) : Keeps name (seen ++ [candidate]) (nearer name best candidate) := by
  rw [nearer]
  split
  · rename_i hbetter
    refine ⟨rfl, isClosest_concat hbetter.1 fun other hother => ?_⟩
    match best, h with
    | none, hfar => exact Nat.lt_of_le_of_lt hbetter.1 (hfar other hother)
    | some (closest, d), ⟨hd, hclosest⟩ =>
        have hlt : distance name candidate < d := by simpa using hbetter.2
        exact Nat.lt_of_lt_of_le (hd ▸ hlt) (hclosest.least other hother)
  · rename_i hworse
    match best, h with
    | none, hfar =>
        intro c hc
        rcases List.mem_append.mp hc with hc | hc
        · exact hfar c hc
        · rw [List.mem_singleton.mp hc]
          simpa using hworse
    | some (closest, d), ⟨hd, hclosest⟩ =>
        refine ⟨hd, hclosest.concat (Nat.le_of_not_lt fun hlt => hworse ?_)⟩
        have hnear := hclosest.near
        exact ⟨by omega, by simpa [hd] using hlt⟩

theorem keeps_foldl (candidates : List String) : ∀ {seen : List String}
    {best : Option (String × Nat)}, Keeps name seen best →
      Keeps name (seen ++ candidates) (candidates.foldl (nearer name) best) := by
  induction candidates with
  | nil =>
      intro seen best h
      rwa [List.append_nil]
  | cons candidate candidates ih =>
      intro seen best h
      simpa using ih (keeps_nearer h candidate)

theorem nearest?_cases (name : String) (candidates : List String) :
    (nearest? name candidates = none ∧ ∀ c ∈ candidates, allowance name < distance name c)
      ∨ ∃ closest, nearest? name candidates = some closest ∧ IsClosest name candidates closest := by
  have hnone : Keeps name [] none := fun c hc => by cases hc
  have hkeeps := keeps_foldl candidates hnone
  rw [List.nil_append] at hkeeps
  rw [nearest?]
  generalize candidates.foldl (nearer name) none = best at hkeeps ⊢
  match best, hkeeps with
  | none, hfar => exact Or.inl ⟨rfl, hfar⟩
  | some (closest, _), ⟨_, hclosest⟩ => exact Or.inr ⟨closest, rfl, hclosest⟩

/-- The search finds the closest candidate, if there is one. -/
theorem nearest?_eq_some_iff {closest : String} :
    nearest? name candidates = some closest ↔ IsClosest name candidates closest := by
  rcases nearest?_cases name candidates with ⟨hnone, hfar⟩ | ⟨found, hsome, hfound⟩
  · rw [hnone]
    refine ⟨fun h => (by cases h), fun h => ?_⟩
    exact absurd h.near (Nat.not_le_of_lt (hfar closest h.mem))
  · rw [hsome]
    exact ⟨fun h => Option.some.inj h ▸ hfound, fun h => congrArg some (hfound.unique h)⟩

theorem nearest?_eq_none_iff :
    nearest? name candidates = none ↔ ∀ c ∈ candidates, allowance name < distance name c := by
  rcases nearest?_cases name candidates with ⟨hnone, hfar⟩ | ⟨found, hsome, hfound⟩
  · exact ⟨fun _ => hfar, fun _ => hnone⟩
  · rw [hsome]
    refine ⟨fun h => (by cases h), fun h => ?_⟩
    exact absurd hfound.near (Nat.not_le_of_lt (h found hfound.mem))

theorem mem_of_closest? {closest : String} (h : closest? name candidates = some closest) :
    closest ∈ candidates := by
  rw [closest?_eq_nearest?_filter, nearest?_eq_some_iff] at h
  exact (List.mem_filter.mp h.mem).1

/-! ## What is passed over -/

theorem isPlausible_iff {candidate : String} :
    isPlausible name candidate = true
      ↔ Text.width name.toList ≤ Text.width candidate.toList + allowance name
        ∧ Text.width candidate.toList ≤ Text.width name.toList + allowance name := by
  simp only [isPlausible, Bool.and_eq_true, decide_eq_true_eq]
  omega

/-- Where characters are one byte wide, only candidates that are too far away are passed over. -/
theorem isPlausible_of_isNarrow {candidate : String} (hname : Text.IsNarrow name)
    (hcandidate : Text.IsNarrow candidate) (hnear : distance name candidate ≤ allowance name) :
    isPlausible name candidate = true := by
  have hwidths := hname.width_le hcandidate
  rw [isPlausible_iff]
  omega

/-- To pass over others leaves the closest candidate the closest. -/
theorem IsClosest.filter {closest : String} (h : IsClosest name candidates closest)
    {keep : String → Bool} (hkeep : keep closest = true) :
    IsClosest name (candidates.filter keep) closest := by
  obtain ⟨front, back, rfl, hfront⟩ := h.first
  refine ⟨h.near, fun c hc => h.least c (List.mem_filter.mp hc).1, front.filter keep,
    back.filter keep, ?_, fun c hc => hfront c (List.mem_filter.mp hc).1⟩
  rw [List.filter_append, List.filter_cons_of_pos hkeep]

/-- What is found is the closest candidate, and nothing is found only where none is near enough. -/
structure Exact (name : String) (candidates : List String) : Prop where
  found : ∀ c, closest? name candidates = some c ↔ IsClosest name candidates c
  nothing : closest? name candidates = none ↔ ∀ c ∈ candidates, allowance name < distance name c

/-- The name itself is what is found just where it is among the candidates. -/
theorem eq_name_iff_of_closest? {closest : String} (h : closest? name candidates = some closest) :
    closest = name ↔ name ∈ candidates := by
  refine ⟨fun hsame => hsame ▸ mem_of_closest? h, fun hname => ?_⟩
  rw [closest?_eq_nearest?_filter, nearest?_eq_some_iff] at h
  have hplausible : isPlausible name name = true := isPlausible_iff.mpr ⟨by omega, by omega⟩
  have hle := h.least name (List.mem_filter.mpr ⟨hname, hplausible⟩)
  rw [Text.distance_self] at hle
  exact (Text.eq_of_distance_eq_zero (Nat.le_zero.mp hle)).symm

/-- The search is exact where the closest candidate is not passed over, whatever else is. -/
theorem exact_iff :
    Exact name candidates ↔ ∀ c, IsClosest name candidates c → isPlausible name c = true := by
  constructor
  · intro h c hc
    have hfound := (h.found c).mpr hc
    rw [closest?_eq_nearest?_filter, nearest?_eq_some_iff] at hfound
    exact (List.mem_filter.mp hfound.mem).2
  · intro h
    have hsame : closest? name candidates = nearest? name candidates := by
      rw [closest?_eq_nearest?_filter]
      rcases nearest?_cases name candidates with ⟨hnone, hfar⟩ | ⟨closest, hsome, hclosest⟩
      · rw [hnone, nearest?_eq_none_iff]
        exact fun c hc => hfar c (List.mem_filter.mp hc).1
      · rw [hsome, nearest?_eq_some_iff]
        exact hclosest.filter (h closest hclosest)
    exact ⟨fun c => hsame ▸ nearest?_eq_some_iff, hsame ▸ nearest?_eq_none_iff⟩

/-- **What is found is the closest candidate of those that are not passed over**, whatever the name and
the candidates are. It is the closest of all just where that one is not passed over, and this is always
so where all characters are one byte wide. -/
theorem isClosest_of_plausible (name : String) (candidates : List String) :
    (∀ a b : String, IsLeast {n | Text.Edits n a.toList b.toList} (distance a b))
      ∧ (∀ c, closest? name candidates = some c
        ↔ IsClosest name (candidates.filter (isPlausible name)) c)
      ∧ (Exact name candidates ↔ ∀ c, IsClosest name candidates c → isPlausible name c = true)
      ∧ (Text.IsNarrow name → (∀ c ∈ candidates, Text.IsNarrow c) → Exact name candidates) := by
  refine ⟨Text.isLeast_distance, fun c => ?_, exact_iff, fun hname hcandidates => ?_⟩
  · rw [closest?_eq_nearest?_filter, nearest?_eq_some_iff]
  · refine exact_iff.mpr fun c hc => ?_
    exact isPlausible_of_isNarrow hname (hcandidates c hc.mem) hc.near

/-- Of two candidates that are as near, the first one is found. -/
theorem isClosest_name :
    Text.IsNarrow "nam" ∧ (∀ c ∈ ["bed", "name", "nam0"], Text.IsNarrow c)
      ∧ closest? "nam" ["bed", "name", "nam0"] = some "name"
      ∧ IsClosest "nam" ["bed", "name", "nam0"] "name" := by
  have hname : Text.IsNarrow "nam" := by decide
  have hcandidates : ∀ c ∈ ["bed", "name", "nam0"], Text.IsNarrow c := by decide
  have hfound : closest? "nam" ["bed", "name", "nam0"] = some "name" := by decide +kernel
  obtain ⟨-, -, -, hexact⟩ := isClosest_of_plausible "nam" ["bed", "name", "nam0"]
  exact ⟨hname, hcandidates, hfound, ((hexact hname hcandidates).found "name").mp hfound⟩

/-- The sign is one edit away from the letter, but it is two bytes wider. -/
theorem euro_passed_over : IsClosest "e" ["€"] "€" ∧ closest? "e" ["€"] = none :=
  ⟨⟨by decide, by decide, [], [], rfl, by simp⟩, by decide⟩

end Declarative.Suggestion
