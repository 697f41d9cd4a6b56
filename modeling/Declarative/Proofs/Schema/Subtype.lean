import Declarative.Proofs.Schema.Lookup

/-!
# Subtypes are reached by declared steps

`search?` takes up names from a stack and remembers which it has been through. While it goes
on, nothing is lost: each direct supertype of what was reached is reached or pending
(`Schema.Searching`). No class is gone through twice, so as many steps as there are
supertypes declared are enough. What is filed for a class is therefore what one or more
declared steps lead to (`Schema.mem_of_allSupertypes?_eq_some`), there is no answer just for
a class that they lead back to (`Schema.allSupertypes?_eq_none_iff`), and a value is
assignable just where the declarations say so (`Schema.isAssignable_iff`).
-/

namespace Declarative

namespace Schema

open Relation (ReflTransGen TransGen)

/-! ## The search -/

theorem length_flatMap_erase {α β : Type} [DecidableEq α] (f : α → List β) {l : List α} {a : α}
    (h : a ∈ l) : (l.flatMap f).length = (f a).length + ((l.erase a).flatMap f).length := by
  rw [((List.perm_cons_erase h).flatMap_right f).length_eq, List.flatMap_cons, List.length_append]

/-- How a search from the class `name` stands, where nothing beyond the names `left` has
supertypes that are still to be taken up. -/
structure Searching (direct : String → List String) (name : String)
    (left reached pending : List String) : Prop where
  above : ∀ a, a ∈ reached ∨ a ∈ pending → TransGen (fun a b => b ∈ direct a) name a
  avoided : name ∉ reached
  started : ∀ a ∈ direct name, a ∈ reached ∨ a ∈ pending
  onwards : ∀ a ∈ reached, ∀ b ∈ direct a, b ∈ reached ∨ b ∈ pending
  fresh : ∀ a, a ∉ reached → a ≠ name → direct a ≠ [] → a ∈ left

namespace Searching

variable {direct : String → List String} {name next : String} {left reached pending : List String}

/-- A name that was reached before is dropped. -/
theorem again (h : Searching direct name left reached (next :: pending)) (hnext : next ∈ reached) :
    Searching direct name left reached pending := by
  have hmove : ∀ a, a ∈ reached ∨ a ∈ next :: pending → a ∈ reached ∨ a ∈ pending := by
    rintro a (ha | ha)
    · exact Or.inl ha
    · rcases List.mem_cons.mp ha with rfl | ha
      · exact Or.inl hnext
      · exact Or.inr ha
  refine ⟨?_, h.avoided, ?_, ?_, h.fresh⟩
  · exact fun a ha => h.above a (ha.imp_right (List.mem_cons_of_mem _))
  · exact fun a ha => hmove a (h.started a ha)
  · exact fun a ha b hb => hmove b (h.onwards a ha b hb)

/-- A name that is new is reached; its supertypes are pending in its stead. -/
theorem further (h : Searching direct name left reached (next :: pending)) (hname : next ≠ name)
    {remaining : List String} (hleft : ∀ a ∈ left, a ≠ next → a ∈ remaining) :
    Searching direct name remaining (reached ++ [next]) ((direct next).reverse ++ pending) := by
  have hnext := h.above next (Or.inr (List.mem_cons_self ..))
  have hmove : ∀ a, a ∈ reached ∨ a ∈ next :: pending →
      a ∈ reached ++ [next] ∨ a ∈ (direct next).reverse ++ pending := by
    rintro a (ha | ha)
    · exact Or.inl (List.mem_append_left _ ha)
    · rcases List.mem_cons.mp ha with rfl | ha
      · exact Or.inl (List.mem_append_right _ (List.mem_singleton_self a))
      · exact Or.inr (List.mem_append_right _ ha)
  refine ⟨?_, ?_, ?_, ?_, ?_⟩
  · intro a ha
    rw [List.mem_append, List.mem_singleton, List.mem_append, List.mem_reverse] at ha
    rcases ha with (ha | rfl) | ha | ha
    · exact h.above a (Or.inl ha)
    · exact hnext
    · exact hnext.tail ha
    · exact h.above a (Or.inr (List.mem_cons_of_mem _ ha))
  · rw [List.mem_append, List.mem_singleton]
    rintro (hreached | hself)
    · exact h.avoided hreached
    · exact hname hself.symm
  · exact fun a ha => hmove a (h.started a ha)
  · intro a ha b hb
    rcases List.mem_append.mp ha with ha | ha
    · exact hmove b (h.onwards a ha b hb)
    · obtain rfl := List.mem_singleton.mp ha
      exact Or.inr (List.mem_append_left _ (List.mem_reverse.mpr hb))
  · intro a ha hself hdirect
    rw [List.mem_append, List.mem_singleton, not_or] at ha
    exact hleft a (h.fresh a ha.1 hself hdirect) ha.2

/-- With nothing pending all is reached that can be. -/
theorem mem_iff (h : Searching direct name left reached []) {a : String} :
    a ∈ reached ↔ TransGen (fun a b => b ∈ direct a) name a := by
  constructor
  · exact fun ha => h.above a (Or.inl ha)
  · intro hpath
    induction hpath with
    | single hstep => exact (h.started _ hstep).resolve_right List.not_mem_nil
    | tail _ hstep ih => exact (h.onwards _ ih _ hstep).resolve_right List.not_mem_nil

/-- A search that may take up as many names as are pending or still to come ends with an answer,
which is all that can be reached, or has met the class that it started from. -/
theorem search?_cases : ∀ {steps : Nat} {left reached pending : List String},
    Searching direct name left reached pending →
    pending.length + (left.flatMap direct).length ≤ steps →
    (∃ above, search? direct name steps reached pending = some above ∧ name ∉ above
        ∧ ∀ a, a ∈ above ↔ TransGen (fun a b => b ∈ direct a) name a)
      ∨ search? direct name steps reached pending = none
        ∧ TransGen (fun a b => b ∈ direct a) name name
  | steps, _, reached, [], h, _ => by
      rw [search?]
      exact Or.inl ⟨reached, rfl, h.avoided, fun a => h.mem_iff⟩
  | 0, _, _, next :: pending, _, hsteps => by
      rw [List.length_cons] at hsteps
      omega
  | steps + 1, left, reached, next :: pending, h, hsteps => by
      rw [List.length_cons] at hsteps
      rw [search?]
      by_cases hname : next = name
      · rw [if_pos hname]
        exact Or.inr ⟨rfl, h.above name (Or.inr (hname ▸ List.mem_cons_self ..))⟩
      rw [if_neg hname]
      by_cases hnext : next ∈ reached
      · rw [if_pos hnext]
        exact (h.again hnext).search?_cases (by omega)
      rw [if_neg hnext]
      by_cases hdirect : direct next = []
      · refine (h.further hname fun a ha _ => ha).search?_cases ?_
        simp only [hdirect, List.reverse_nil, List.nil_append]
        omega
      · -- What is pending now is no longer to come.
        have hlength := length_flatMap_erase direct (h.fresh next hnext hname hdirect)
        refine (h.further hname fun a ha hne => (List.mem_erase_of_ne hne).mpr ha).search?_cases ?_
        rw [List.length_append, List.length_reverse]
        omega

end Searching

/-! ## The supertypes of a class -/

/-- A class of the name `a` declares `b` as a supertype of its own. -/
def DeclaresSupertype (classes : List DataClass) (a b : String) : Prop :=
  ∃ c ∈ classes, c.name = a ∧ b ∈ c.supertypes

section

variable {classes : List DataClass} (hnames : (classes.map (·.name)).Nodup)

include hnames

theorem directSupertypes_name {c : DataClass} (hc : c ∈ classes) :
    directSupertypes classes c.name = c.supertypes := by
  rw [directSupertypes, (find?_key_eq_some_iff hnames).mpr ⟨hc, rfl⟩]

theorem mem_directSupertypes_iff {a b : String} :
    b ∈ directSupertypes classes a ↔ DeclaresSupertype classes a b := by
  have hfound : directSupertypes classes a
      = ((classes.find? (·.name == a)).map (·.supertypes)).getD [] := by
    rw [directSupertypes]
    cases classes.find? (·.name == a) <;> rfl
  rw [hfound]
  exact mem_getD_find?_key_iff hnames

/-- At first the supertypes of the class itself are pending and those of all others are to come. -/
theorem searching_start {c : DataClass} (hc : c ∈ classes) :
    Searching (directSupertypes classes) c.name ((classes.erase c).map (·.name)) []
      c.supertypes.reverse := by
  have hdirect := directSupertypes_name hnames hc
  refine ⟨?_, List.not_mem_nil, ?_, fun a ha => absurd ha List.not_mem_nil, ?_⟩
  · rintro a (ha | ha)
    · exact absurd ha List.not_mem_nil
    · exact TransGen.single (hdirect ▸ List.mem_reverse.mp ha)
  · exact fun a ha => Or.inr (List.mem_reverse.mpr (hdirect ▸ ha))
  · intro a _ hself hsome
    obtain ⟨b, hb⟩ := List.exists_mem_of_ne_nil _ hsome
    obtain ⟨d, hd, rfl, -⟩ := (mem_directSupertypes_iff hnames).mp hb
    have hne : d ≠ c := fun h => hself (h ▸ rfl)
    exact List.mem_map_of_mem ((List.mem_erase_of_ne hne).mpr hd)

/-- What is found above a class is what one or more declared steps lead to; where they lead back
to the class, there is no answer. -/
theorem allSupertypes?_cases {c : DataClass} (hc : c ∈ classes) :
    (∃ above, allSupertypes? classes c = some above ∧ c.name ∉ above
        ∧ ∀ a, a ∈ above ↔ TransGen (DeclaresSupertype classes) c.name a)
      ∨ allSupertypes? classes c = none
        ∧ TransGen (DeclaresSupertype classes) c.name c.name := by
  have hstep : (fun a b => b ∈ directSupertypes classes a) = DeclaresSupertype classes := by
    funext a b
    exact propext (mem_directSupertypes_iff hnames)
  have hothers : ((classes.erase c).map (·.name)).flatMap (directSupertypes classes)
      = (classes.erase c).flatMap (·.supertypes) := by
    rw [List.flatMap_map]
    exact List.flatMap_congr fun d hd =>
      directSupertypes_name hnames (List.mem_of_mem_erase hd)
  have hlength := length_flatMap_erase DataClass.supertypes hc
  rw [allSupertypes?, ← hstep]
  refine (searching_start hnames hc).search?_cases ?_
  rw [List.length_reverse, hothers]
  exact Nat.le_of_eq hlength.symm

theorem allSupertypes?_eq_none_iff {c : DataClass} (hc : c ∈ classes) :
    allSupertypes? classes c = none ↔ TransGen (DeclaresSupertype classes) c.name c.name := by
  rcases allSupertypes?_cases hnames hc with ⟨above, hsome, havoided, habove⟩ | ⟨hnone, hcycle⟩
  · rw [hsome, ← habove]
    simpa using havoided
  · exact iff_of_true hnone hcycle

theorem mem_of_allSupertypes?_eq_some {c : DataClass} (hc : c ∈ classes) {above : List String}
    (h : allSupertypes? classes c = some above) {a : String} :
    a ∈ above ↔ TransGen (DeclaresSupertype classes) c.name a := by
  rcases allSupertypes?_cases hnames hc with ⟨found, hsome, -, hfound⟩ | ⟨hnone, -⟩
  · obtain rfl := Option.some.inj (h.symm.trans hsome)
    exact hfound a
  · rw [hnone] at h
    cases h

end

theorem Checked.acyclic {classes : List DataClass} (h : Checked classes) (name : String) :
    ¬TransGen (DeclaresSupertype classes) name name := by
  intro hcycle
  obtain ⟨_, ⟨c, hc, rfl, -⟩, -⟩ := TransGen.head'_iff.mp hcycle
  have hanswered := h.answered c hc
  rw [(allSupertypes?_eq_none_iff h.names hc).mpr hcycle] at hanswered
  cases hanswered

/-! ## Assignability -/

section

variable {b : Builder} {s : Schema} (hb : b.build = .ok s)

include hb

theorem isSubtype_iff {a c : String} :
    s.isSubtype a c = true ↔ ReflTransGen s.DirectSupertype a c := by
  obtain ⟨hchecked, rfl⟩ := Builder.build_eq_ok hb
  rw [Relation.reflTransGen_iff_eq_or_transGen, isSubtype, Bool.or_eq_true, beq_iff_eq,
    List.contains_iff_mem, ofClasses, Index.get?_map]
  refine or_congr eq_comm ?_
  cases hfind : b.classes.find? (·.name == a) with
  | some d =>
      obtain ⟨hd, rfl⟩ := (find?_key_eq_some_iff hchecked.names).mp hfind
      obtain ⟨above, habove⟩ := Option.isSome_iff_exists.mp (hchecked.answered d hd)
      rw [Option.map_some, Option.getD_some, habove, Option.getD_some]
      exact mem_of_allSupertypes?_eq_some hchecked.names hd habove
  | none =>
      simp only [Option.map_none, Option.getD_none, List.not_mem_nil, false_iff]
      intro hpath
      obtain ⟨_, ⟨d, hd, hname, -⟩, -⟩ := TransGen.head'_iff.mp hpath
      simpa [hname] using List.find?_eq_none.mp hfind d hd

/-- Values are assignable where the declarations say so. -/
theorem isAssignable_iff {given wanted : DataType} :
    s.isAssignable given wanted = true ↔ s.Assignable given wanted := by
  constructor
  · intro h
    unfold isAssignable at h
    split at h
    · cases h
    · exact .widened
    · exact .inherited ((isSubtype_iff hb).mp h)
    · rename_i hnull _ _
      obtain rfl := beq_iff_eq.mp h
      exact .same hnull
  · intro h
    cases h with
    | same hnull =>
        cases given with
        | named name => exact (isSubtype_iff hb).mpr .refl
        | null => exact absurd rfl hnull
        | _ => rfl
    | widened => rfl
    | inherited hpath => exact (isSubtype_iff hb).mpr hpath

end

/-! ## The order of the classes -/

/-- A class stands for those that are declared above it, and so do values for wider ones. -/
structure Ordered (classes : List DataClass) (s : Schema) : Prop where
  isSubtype_iff : ∀ a b, s.isSubtype a b = true ↔ a = b ∨ TransGen (DeclaresSupertype classes) a b
  subtypes : IsPartialOrder String fun a b => s.isSubtype a b = true
  assignable_refl : ∀ type, type ≠ .null → s.isAssignable type type = true
  assignable_trans : IsTrans DataType fun given wanted => s.isAssignable given wanted = true
  assignable_antisymm : Std.Antisymm fun given wanted => s.isAssignable given wanted = true
  null : ∀ wanted, s.isAssignable .null wanted = false

namespace Assignable

variable {s : Schema} {t u v : DataType}

theorem trans (htu : s.Assignable t u) (huv : s.Assignable u v) : s.Assignable t v := by
  cases htu with
  | same _ => exact huv
  | widened =>
      cases huv with
      | same _ => exact .widened
  | inherited hpath =>
      cases huv with
      | same _ => exact .inherited hpath
      | inherited hrest => exact .inherited (hpath.trans hrest)

theorem antisymm (hacyclic : ∀ name, ¬TransGen s.DirectSupertype name name)
    (htu : s.Assignable t u) (hut : s.Assignable u t) : t = u := by
  cases htu with
  | same _ => rfl
  | widened => cases hut
  | inherited hpath =>
      cases hut with
      | same _ => rfl
      | inherited hback =>
          rcases Relation.reflTransGen_iff_eq_or_transGen.mp hpath with rfl | hsteps
          · rfl
          · exact absurd (hsteps.trans_left hback) (hacyclic _)

end Assignable

/-- **Subtypes are ordered as they are declared** in a schema that was built, and what is
assignable follows them. -/
theorem ordered_of_build {b : Builder} {s : Schema} (hb : b.build = .ok s) :
    Ordered b.classes s := by
  have hsubtype : ∀ a c, s.isSubtype a c = true ↔ ReflTransGen s.DirectSupertype a c :=
    fun a c => isSubtype_iff hb
  have hassignable : ∀ t u, s.isAssignable t u = true ↔ s.Assignable t u :=
    fun t u => isAssignable_iff hb
  have hacyclic : ∀ name, ¬TransGen s.DirectSupertype name name := (checked_of_build hb).acyclic
  have hclasses : DeclaresSupertype b.classes = s.DirectSupertype := by
    obtain ⟨-, rfl⟩ := Builder.build_eq_ok hb
    rfl
  refine ⟨?_, { refl := ?_, trans := ?_, antisymm := ?_ }, ?_, ⟨?_⟩, ⟨?_⟩, ?_⟩
  · intro a c
    rw [hsubtype, Relation.reflTransGen_iff_eq_or_transGen, hclasses, eq_comm]
  · exact fun a => (hsubtype a a).mpr .refl
  · intro a c d hac hcd
    rw [hsubtype] at hac hcd ⊢
    exact hac.trans hcd
  · -- Two classes above each other would be assignable to each other.
    intro a c hac hca
    rw [hsubtype] at hac hca
    exact DataType.named.inj (Assignable.antisymm hacyclic (.inherited hac) (.inherited hca))
  · exact fun t ht => (hassignable t t).mpr (.same ht)
  · intro t u v htu huv
    rw [hassignable] at htu huv ⊢
    exact htu.trans huv
  · intro t u htu hut
    rw [hassignable] at htu hut
    exact Assignable.antisymm hacyclic htu hut
  · intro wanted
    rfl

/-- A rose is a shrub and a flower, and a plant by both. -/
theorem ordered_of_build_rose :
    let builder := (Builder.empty "Garden").declare "Garden" []
      |>.declare "Rose" [.supertype "Shrub", .supertype "Flower"]
      |>.declare "Shrub" [.supertype "Plant"]
      |>.declare "Flower" [.supertype "Plant"]
      |>.declare "Plant" []
    let schema := ofClasses builder.topLevel builder.classes [("Garden", []),
      ("Rose", ["Flower", "Plant", "Shrub"]), ("Shrub", ["Plant"]), ("Flower", ["Plant"]),
      ("Plant", [])]
    builder.build = .ok schema ∧ Ordered builder.classes schema
      ∧ schema.isSubtype "Rose" "Plant" = true ∧ schema.isSubtype "Shrub" "Flower" = false := by
  intro builder schema
  have hb : builder.build = .ok schema := rfl
  exact ⟨hb, ordered_of_build hb, rfl, rfl⟩

end Schema

end Declarative
