import Declarative.Proofs.Parser.Laws

/-!
# How many faults are found

Reading is given up with the twentieth fault. That is noticed where a statement is read,
and each block that is open there then ends with a fault of its own, that there are too
many, until the loop over the statements outside of all blocks is left. So there may be
more than twenty faults on record: twenty, and one more for each open block
(`Script.faults_ofTokens_split`).

While reading goes on the state is `Reader.Patient`; when it is given up inside of `n`
levels there is room for `n` such faults still (`Reader.GaveUp`). A parser that starts
patient ends patient, unless it stops because reading was given up; that is the law
`patience`.
-/

namespace Declarative.Script

namespace Reader

/-- Reading goes on: there are few faults on record, and none of being too many. -/
structure Patient (s : Reader) : Prop where
  depth_le : s.depth ≤ maxDepth
  few : s.faults.length < maxFaults
  own : ∀ fault ∈ s.faults, fault.cause ≠ .tooManyFaults

theorem Patient.skip {s : Reader} (h : s.Patient) (n : Nat) : (s.skip n).Patient :=
  ⟨h.depth_le, h.few, h.own⟩

theorem Patient.takeId {s : Reader} (h : s.Patient) : s.takeId.2.Patient :=
  ⟨h.depth_le, h.few, h.own⟩

/-- Reading was given up, with room for a fault of each of `n` levels around. -/
def GaveUp (n : Nat) (s : Reader) : Prop :=
  ∃ found closing, s.faults = found ++ closing
    ∧ found.length = maxFaults ∧ (∀ fault ∈ found, fault.cause ≠ .tooManyFaults)
    ∧ closing.length + n ≤ maxDepth ∧ ∀ fault ∈ closing, fault.cause = .tooManyFaults

theorem GaveUp.mono {s : Reader} {m n : Nat} (h : s.GaveUp n) (hle : m ≤ n) : s.GaveUp m := by
  obtain ⟨found, closing, hfaults, hfull, hfound, hroom, hclosing⟩ := h
  exact ⟨found, closing, hfaults, hfull, hfound, by omega, hclosing⟩

theorem GaveUp.hasPatience {s : Reader} {n : Nat} (h : s.GaveUp n) : s.hasPatience = false := by
  obtain ⟨found, closing, hfaults, hfull, -⟩ := h
  simp [Reader.hasPatience, hfaults, hfull]

/-- A block that is left puts its own fault behind the others. -/
theorem GaveUp.report {s : Reader} {n : Nat} (h : s.GaveUp (n + 1)) {fault : Fault}
    (hfault : fault.cause = .tooManyFaults) : (s.report fault).GaveUp n := by
  obtain ⟨found, closing, hfaults, hfull, hfound, hroom, hclosing⟩ := h
  refine ⟨found, closing ++ [fault], ?_, hfull, hfound, ?_, ?_⟩
  · rw [Reader.report, hfaults, List.append_assoc]
  · rw [List.length_append, List.length_singleton]
    omega
  · simpa [or_imp, forall_and, hfault] using hclosing

/-- One more fault is found: it is the last one, or reading goes on. -/
theorem Patient.report {s : Reader} (h : s.Patient) {fault : Fault}
    (hfault : fault.cause ≠ .tooManyFaults) :
    ((s.report fault).hasPatience = true ∧ (s.report fault).Patient)
      ∨ ((s.report fault).hasPatience = false ∧ (s.report fault).GaveUp s.depth) := by
  have hlength : (s.report fault).faults.length = s.faults.length + 1 := List.length_append
  have hown : ∀ other ∈ (s.report fault).faults, other.cause ≠ .tooManyFaults := by
    simpa [Reader.report, or_imp, forall_and, hfault] using h.own
  by_cases hfew : (s.report fault).faults.length < maxFaults
  · exact Or.inl ⟨by simpa [Reader.hasPatience] using hfew, h.depth_le, hfew, hown⟩
  · have hfull : (s.report fault).faults.length = maxFaults := by
      have := h.few
      omega
    refine Or.inr ⟨by simp [Reader.hasPatience, hfull], _, [], (List.append_nil _).symm, hfull,
      hown, ?_, List.forall_mem_nil _⟩
    simpa using h.depth_le

end Reader

/-- A parser that starts patient ends patient, unless it stops because reading was given
up; `room` is one for what reads blocks as a whole, and zero inside of a block. -/
def patience (room : Nat) : Law := fun s fault? s' =>
  s.Patient → s'.depth = s.depth ∧
    ((s'.Patient ∧ ∀ fault ∈ fault?, fault.cause ≠ .tooManyFaults)
      ∨ (s'.GaveUp (s.depth + room) ∧ ∃ fault ∈ fault?, fault.cause = .tooManyFaults))

theorem patience.patient {room : Nat} {s s' : Reader} (h : patience room s none s')
    (hs : s.Patient) : s'.depth = s.depth ∧ s'.Patient := by
  obtain ⟨hdepth, ⟨hpatient, -⟩ | ⟨-, fault, hfault, -⟩⟩ := h hs
  · exact ⟨hdepth, hpatient⟩
  · cases hfault

theorem patience_elementary (room : Nat) : (patience room).Elementary where
  refl s h := ⟨rfl, Or.inl ⟨h, by simp⟩⟩
  trans hfirst hrest h := by
    obtain ⟨hdepth, hpatient⟩ := patience.patient hfirst h
    obtain ⟨hdepth', hor⟩ := hrest hpatient
    rw [hdepth] at hdepth' hor
    exact ⟨hdepth', hor⟩
  skip s n h := ⟨rfl, Or.inl ⟨h.skip n, by simp⟩⟩
  takeId s h := ⟨rfl, Or.inl ⟨h.takeId, by simp⟩⟩
  stop s cause hcause h := ⟨rfl, Or.inl ⟨h, by simpa using hcause⟩⟩

namespace Parser

variable {α : Type}

theorem Keeps.patience_zero {p : Parser α} (h : Keeps (patience 1) p) :
    Keeps (patience 0) p := by
  intro s hs
  obtain ⟨hdepth, hpatient | ⟨hgave, hfault⟩⟩ := h s hs
  · exact ⟨hdepth, Or.inl hpatient⟩
  · exact ⟨hdepth, Or.inr ⟨hgave.mono (Nat.le_succ _), hfault⟩⟩

/-- From inside of a block the room of its own fault is left. -/
theorem Keeps.nested_patience {inner : Parser α} (h : Keeps (patience 0) inner) :
    Keeps (patience 1) (nested inner) := by
  intro s hs
  unfold nested
  split
  · rename_i hdepth
    obtain ⟨hdepth', hor⟩ := h { s with depth := s.depth + 1 } ⟨hdepth, hs.few, hs.own⟩
    refine ⟨by simp only [hdepth', Nat.add_sub_cancel], ?_⟩
    rcases hor with ⟨hpatient, hfault⟩ | ⟨hgave, hfault⟩
    · refine Or.inl ⟨⟨?_, hpatient.few, hpatient.own⟩, hfault⟩
      simpa only [hdepth', Nat.add_sub_cancel] using hs.depth_le
    · exact Or.inr ⟨hgave, hfault⟩
  · exact (patience_elementary 1).stop s .tooDeep (by simp) hs

theorem value_patience : ∀ fuel : Nat, Keeps (patience 1) (value fuel) :=
  value_keeps (patience_elementary 1) fun h => h.patience_zero.nested_patience

section

variable {parse : NodeId → Parser Statement} (hparse : ∀ id, Keeps (patience 1) (parse id))

include hparse

/-- A statement is read or passed over, or else the fault was one too many. -/
theorem recovering_patience {s s' : Reader} {first? : Option Statement}
    (hs : recovering parse s = (first?, s')) (h : s.Patient) :
    s'.depth = s.depth
      ∧ ((first?.isSome ∧ s'.Patient) ∨ (first? = none ∧ s'.GaveUp s.depth)) := by
  rw [recovering] at hs
  dsimp only at hs
  split at hs
  · rename_i first s₂ hread
    obtain ⟨rfl, rfl⟩ := Prod.mk.inj hs
    obtain ⟨hdepth, hpatient⟩ := patience.patient ((hparse _).of_eq hread) h.takeId
    exact ⟨hdepth, Or.inl ⟨rfl, hpatient⟩⟩
  · rename_i fault s₂ hread
    obtain ⟨hdepth, hor⟩ := (hparse _).of_eq hread h.takeId
    have hreport : (s₂.report fault).depth = s.depth := hdepth
    rcases hor with ⟨hpatient, hown⟩ | ⟨hgave, other, hother, hcause⟩
    · rcases hpatient.report (hown fault rfl) with ⟨hgoes, hpatient₃⟩ | ⟨hstops, hgave₃⟩
      · rw [if_pos hgoes] at hs
        obtain ⟨rfl, rfl⟩ := Prod.mk.inj hs
        exact ⟨hreport, Or.inl ⟨rfl, hpatient₃.skip _⟩⟩
      · rw [if_neg (by simp [hstops])] at hs
        obtain ⟨rfl, rfl⟩ := Prod.mk.inj hs
        exact ⟨hreport, Or.inr ⟨rfl, hdepth ▸ hgave₃⟩⟩
    · obtain rfl := Option.some.inj hother
      have hgave₃ := hgave.report hcause
      rw [if_neg (by simp [hgave₃.hasPatience])] at hs
      obtain ⟨rfl, rfl⟩ := Prod.mk.inj hs
      exact ⟨hreport, Or.inr ⟨rfl, hgave₃⟩⟩

theorem recovering_some_patience {s s' : Reader} {first : Statement}
    (hs : recovering parse s = (some first, s')) : patience 0 s none s' := by
  intro h
  obtain ⟨hdepth, ⟨-, hpatient⟩ | ⟨hnone, -⟩⟩ := recovering_patience hparse hs h
  · exact ⟨hdepth, Or.inl ⟨hpatient, by simp⟩⟩
  · cases hnone

theorem recovering_none_gaveUp {s s' : Reader} (hs : recovering parse s = (none, s'))
    (h : s.Patient) : s'.depth = s.depth ∧ s'.GaveUp s.depth := by
  obtain ⟨hdepth, ⟨hsome, -⟩ | ⟨-, hgave⟩⟩ := recovering_patience hparse hs h
  · cases hsome
  · exact ⟨hdepth, hgave⟩

theorem blockStatements_patience (opening : Span) :
    Keeps (patience 0) (blockStatements parse opening) := by
  have hlaw := patience_elementary 0
  intro s
  fun_induction blockStatements parse opening s with
  | case1 s _ => exact hlaw.refl s
  | case2 s _ =>
      refine fun hs => ⟨rfl, Or.inl ⟨hs, ?_⟩⟩
      rintro _ ⟨⟩
      simp
  | case3 s s₁ hfirst =>
      intro hs
      obtain ⟨hdepth, hgave⟩ := recovering_none_gaveUp hparse hfirst hs
      exact ⟨hdepth, Or.inr ⟨hgave, _, rfl, rfl⟩⟩
  | case4 s first s₁ hfirst s₂ _ others s₃ hothers =>
      rename_i ih
      have hround := recovering_some_patience hparse hfirst
      rw [hothers] at ih
      rw [fault?_map]
      exact hlaw.trans hround (hlaw.trans (hlaw.skip s₁ _) ih)
  | case5 s first s₁ hfirst s₂ _ =>
      have hround := recovering_some_patience hparse hfirst
      exact hlaw.trans hround (hlaw.skip s₁ _)

/-- A round ends patient, and where it does not, it ends with a brace that reading has given up
behind. -/
theorem topRound_patience {s s₁ : Reader} {first : Statement} (h : TopRound parse s first s₁)
    (hs : s.Patient) : s₁.depth = s.depth
      ∧ (s₁.Patient ∨ s.peek = .rightBrace ∧ s₁.hasPatience = false ∧ s₁.GaveUp s.depth) := by
  cases h with
  | statement hround =>
      have hpatience := recovering_some_patience hparse hround.hread
      obtain ⟨hdepth, hpatient⟩ := hpatience.patient hs
      exact ⟨hdepth, Or.inl hpatient⟩
  | brace hbrace hstray =>
      obtain ⟨-, rfl⟩ := Prod.mk.inj hstray
      have hstart := (hs.skip 1).takeId
      rcases @Reader.Patient.report _ hstart ⟨s.here, .unexpected .rightBrace⟩ (by simp) with
        ⟨-, hpatient⟩ | hgave
      · exact ⟨rfl, Or.inl hpatient⟩
      · exact ⟨rfl, Or.inr ⟨hbrace, hgave⟩⟩

/-- Outside of all blocks reading ends patient, or was given up. -/
theorem topStatements_patience {s s' : Reader} {statements : List Statement}
    (h : topStatements parse s = (statements, s')) (hs : s.Patient) :
    s'.Patient ∨ s'.GaveUp s.depth := by
  replace h := topRounds_of_eq h
  induction h with
  | done => exact Or.inl hs
  | gaveUp _ _ hnone => exact Or.inr (recovering_none_gaveUp hparse hnone hs).2
  | more hround hgoes _ ih =>
      obtain ⟨hdepth, hpatient | ⟨hbrace, hstops, -⟩⟩ := topRound_patience hparse hround hs
      · exact hdepth ▸ ih (hpatient.skip _)
      · simp [hgoes hbrace] at hstops
  | last hround hend _ =>
      obtain ⟨hdepth, hpatient | ⟨-, -, hgave⟩⟩ := topRound_patience hparse hround hs
      · rcases hend with rfl | rfl
        · exact Or.inl hpatient
        · exact Or.inl (hpatient.skip _)
      · rcases hend with rfl | rfl <;> exact Or.inr hgave

end

theorem block_patience : ∀ fuel : Nat, Keeps (patience 1) (block fuel)
  | 0 => keeps_fail (patience_elementary 1) (by simp)
  | fuel + 1 => by
      have hstatement := statement_keeps (patience_elementary 1) (value_patience fuel)
        (block_patience fuel)
      exact (blockWith_keeps (patience_elementary 0)
        (blockStatements_patience hstatement)).nested_patience

end Parser

/-- **At most twenty faults are found**, whatever the tokens are. Behind them stand only
faults of giving up, no more than there are levels, and none if fewer than twenty were
found. -/
theorem faults_ofTokens_split (source : String) (tokens : List Token) :
    ∃ found closing, (ofTokens source tokens).faults = found ++ closing
      ∧ found.length ≤ maxFaults ∧ (∀ fault ∈ found, fault.cause ≠ .tooManyFaults)
      ∧ closing.length ≤ maxDepth ∧ (∀ fault ∈ closing, fault.cause = .tooManyFaults)
      ∧ (closing ≠ [] → found.length = maxFaults) := by
  have hstart : (Reader.ofTokens tokens).skipSeparators.Patient :=
    ⟨Nat.zero_le _, Nat.zero_lt_succ _, List.forall_mem_nil _⟩
  have hstatement := Parser.statement_keeps (patience_elementary 1)
    (Parser.value_patience Parser.fullFuel) (Parser.block_patience Parser.fullFuel)
  obtain ⟨⟨statements, s₁⟩, hread⟩ : ∃ read, Parser.topStatements
    (Parser.statement (Parser.value Parser.fullFuel) (Parser.block Parser.fullFuel))
    (Reader.ofTokens tokens).skipSeparators = read := ⟨_, rfl⟩
  have hrecord : (ofTokens source tokens).faults = s₁.faults := by
    rw [ofTokens, hread]
  rcases Parser.topStatements_patience hstatement hread hstart with
    hpatient | ⟨found, closing, hfaults, hfull, hfound, hroom, hclosing⟩
  · exact ⟨s₁.faults, [], by rw [hrecord, List.append_nil], Nat.le_of_lt hpatient.few,
      hpatient.own, Nat.zero_le _, List.forall_mem_nil _, fun h => absurd rfl h⟩
  · exact ⟨found, closing, hrecord.trans hfaults, Nat.le_of_eq hfull, hfound, by omega, hclosing,
      fun _ => hfull⟩

/-- Twenty closing parentheses in a block, each on a line of its own. -/
theorem twenty_lt_length_faults_ofTokens :
    let token (kind : Token.Kind) : Token := ⟨kind, ⟨0, 0⟩⟩
    let lines : List Token.Kind := (List.replicate 20 [.rightParen, .newline]).flatten
    let kinds := [.ident "bed", .leftBrace, .newline] ++ lines ++ [.rightBrace, .eof]
    20 < (ofTokens "garden" (kinds.map token)).faults.length := by
  decide +kernel

end Declarative.Script
