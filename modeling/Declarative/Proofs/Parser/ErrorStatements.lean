import Declarative.Proofs.Parser.Laws
import Declarative.Proofs.Preorder

/-!
# Faults leave error statements

A statement that cannot be read is put on record as a fault, and an error statement with
the message of the fault takes its place. Inside of a block the error statement is lost if
the block fails later; but then the call around it is put on record in its turn. So the
error statements of a script are faults on record, in their order, and there is one as soon
as there is a fault, for as long as reading goes on (`Reader.Records`).

With the twentieth fault reading is given up, and nothing takes the place of the statement
that the fault was found in, nor of the calls around it. A script may then hold no error
statement at all (`Script.unclosed_nineteen_bad_lines`), and that is the only way for it to
happen (`Script.faults_ofTokens_ne_nil_iff`).
-/

namespace Declarative

/-! ## Error statements -/

def Script.Node.errorMessage? : Script.Node → Option String
  | .statement (.error _ _ message) => some message
  | _ => none

/-- The messages of the error statements of a script, at any depth. -/
def Script.errorMessages (script : Script) : List String :=
  script.preorder.filterMap Script.Node.errorMessage?

mutual

theorem Value.errorMessages_preorder : ∀ v : Value,
    v.preorder.filterMap Script.Node.errorMessage? = []
  | .literal _ _ _ => rfl
  | .factory _ _ _ arguments => Value.errorMessages_preorderAll arguments

theorem Value.errorMessages_preorderAll : ∀ vs : List Value,
    (Value.preorderAll vs).filterMap Script.Node.errorMessage? = []
  | [] => rfl
  | v :: vs => by
      rw [Value.preorderAll, List.filterMap_append, Value.errorMessages_preorder v,
        Value.errorMessages_preorderAll vs, List.append_nil]

end

namespace Statement

def errorMessagesAll (ss : List Statement) : List String :=
  (preorderAll ss).filterMap Script.Node.errorMessage?

theorem errorMessagesAll_cons (s : Statement) (ss : List Statement) :
    errorMessagesAll (s :: ss) = errorMessagesAll [s] ++ errorMessagesAll ss := by
  simp [errorMessagesAll, preorderAll]

theorem errorMessagesAll_assign (id : NodeId) (span : Span) (target : Name) (value : Value) :
    errorMessagesAll [.assign id span target value] = [] := by
  have hvalue := value.errorMessages_preorder
  simpa [errorMessagesAll, preorderAll, preorder, Script.Node.errorMessage?] using hvalue

/-- Of a call only the statements of its block count. -/
theorem errorMessagesAll_call (id : NodeId) (span : Span) (name : Name) (arguments : List Value)
    (body : Body) :
    errorMessagesAll [.call id span name arguments body] = errorMessagesAll body.statements := by
  have harguments := Value.errorMessages_preorderAll arguments
  have hbody : preorderBody body = preorderAll body.statements := by cases body <;> rfl
  rw [errorMessagesAll, preorderAll, preorderAll, List.append_nil, preorder,
    List.filterMap_cons_none rfl, List.filterMap_append, harguments, List.nil_append, hbody]
  rfl

end Statement

namespace Script

/-! ## Faults and messages side by side -/

/-- Between two states faults were put on record. The messages are those of some of them,
and of one at least if there are any, unless reading was given up. -/
def Reader.Records (s : Reader) (messages : List String) (s' : Reader) : Prop :=
  ∃ found, s'.faults = s.faults ++ found ∧ messages.Sublist (found.map Fault.message)
    ∧ (found ≠ [] → messages ≠ [] ∨ maxFaults ≤ s'.faults.length)

namespace Reader.Records

variable {s s₁ s₂ : Reader} {messages others : List String}

theorem of_faults_eq (h : s₁.faults = s.faults) : s.Records [] s₁ :=
  ⟨[], by rw [h, List.append_nil], .slnil, fun hne => absurd rfl hne⟩

theorem trans (h₁ : s.Records messages s₁) (h₂ : s₁.Records others s₂) :
    s.Records (messages ++ others) s₂ := by
  obtain ⟨found₁, hfaults₁, hsub₁, hne₁⟩ := h₁
  obtain ⟨found₂, hfaults₂, hsub₂, hne₂⟩ := h₂
  refine ⟨found₁ ++ found₂, ?_, ?_, ?_⟩
  · rw [hfaults₂, hfaults₁, List.append_assoc]
  · rw [List.map_append]
    exact hsub₁.append hsub₂
  · intro hfound
    have hlength : s₁.faults.length ≤ s₂.faults.length := by
      rw [hfaults₂, List.length_append]
      omega
    by_cases hfirst : found₁ = []
    · subst hfirst
      rcases hne₂ hfound with hmessage | hfull
      · exact Or.inl (List.append_ne_nil_of_right_ne_nil _ hmessage)
      · exact Or.inr hfull
    · rcases hne₁ hfirst with hmessage | hfull
      · exact Or.inl (List.append_ne_nil_of_left_ne_nil hmessage _)
      · exact Or.inr (hfull.trans hlength)

/-- An error statement tells the fault that was reported last. -/
theorem report (h : s.faults <+: s₁.faults) (fault : Fault) :
    s.Records [fault.message] (s₁.report fault) := by
  obtain ⟨found, hfound⟩ := h
  refine ⟨found ++ [fault], ?_, ?_, fun _ => Or.inl (List.cons_ne_nil _ _)⟩
  · rw [Reader.report, ← hfound, List.append_assoc]
  · rw [List.map_append]
    exact List.sublist_append_right _ _

/-- No message is needed once reading is given up. -/
theorem of_full (h : s.faults <+: s₁.faults) (hfull : maxFaults ≤ s₁.faults.length) :
    s.Records [] s₁ := by
  obtain ⟨found, hfound⟩ := h
  exact ⟨found, hfound.symm, List.nil_sublist _, fun _ => Or.inr hfull⟩

end Reader.Records

namespace Parser

/-! ## Values record nothing -/

theorem sameFaults_elementary :
    (Law.ofStates fun s s' => s'.faults = s.faults).Elementary where
  refl _ := rfl
  trans h₁ h₂ := Eq.trans h₂ h₁
  skip _ _ := rfl
  takeId _ := rfl
  stop _ _ _ := rfl

/-- The parser puts no fault on record, also where one stops it. -/
def SameFaults {α : Type} (p : Parser α) : Prop :=
  Keeps (.ofStates fun s s' => s'.faults = s.faults) p

theorem value_sameFaults : ∀ fuel : Nat, SameFaults (value fuel) := by
  refine value_keeps sameFaults_elementary ?_
  intro inner hinner s
  unfold nested
  split
  · exact hinner { s with depth := s.depth + 1 }
  · rfl

/-! ## Faults stay on record -/

theorem faults_steady : Law.Steady fun s s' => s.faults <+: s'.faults where
  refl _ := List.prefix_rfl
  trans := List.IsPrefix.trans
  skip _ _ := List.prefix_rfl
  takeId _ := List.prefix_rfl
  report _ _ := List.prefix_append _ _

/-- The parser takes no fault off the record. -/
def KeepsFaults {α : Type} (p : Parser α) : Prop :=
  Keeps (.ofStates fun s s' => s.faults <+: s'.faults) p

theorem nested_keepsFaults {α : Type} {inner : Parser α} (h : KeepsFaults inner) :
    KeepsFaults (nested inner) := by
  intro s
  unfold nested
  split
  · exact h { s with depth := s.depth + 1 }
  · exact List.prefix_rfl

theorem statement_keepsFaults (fuel : Nat) (id : NodeId) :
    KeepsFaults (statement (value fuel) (block fuel) id) :=
  statement_keeps faults_steady.elementary
    (value_keeps faults_steady.elementary nested_keepsFaults fuel)
    (block_keeps faults_steady nested_keepsFaults fuel) id

/-! ## Statements and blocks -/

/-- The parser yields a tree that holds error statements for the faults that it found. -/
def Records {α : Type} (p : Parser α) (messages : α → List String) : Prop :=
  ∀ ⦃s s' : Reader⦄ ⦃a : α⦄, p s = (.ok a, s') → s.Records (messages a) s'

section

variable {value : Parser Value} (hvalue : SameFaults value) {block : Parser Body}
  (hblock : Records block fun body => Statement.errorMessagesAll body.statements)

include hvalue hblock

theorem statementRest_records {name : Name} {s s' : Reader} {make : NodeId → Span → Statement}
    (h : statementRest value block name s = (.ok make, s')) (id : NodeId) (span : Span) :
    s.Records (Statement.errorMessagesAll [make id span]) s' := by
  have harguments := arguments_keeps sameFaults_elementary hvalue
  rcases statementRest_eq_ok.mp h with ⟨assigned, -, hassigned, rfl⟩
    | ⟨values, hvalues, -, rfl⟩ | ⟨values, s₁, body, hvalues, -, hbody, rfl⟩
    | ⟨body, -, hbody, rfl⟩
  · rw [Statement.errorMessagesAll_assign]
    have hsame := hvalue.of_eq hassigned
    exact .of_faults_eq hsame
  · rw [Statement.errorMessagesAll_call]
    exact .of_faults_eq (harguments.of_eq hvalues)
  · rw [Statement.errorMessagesAll_call]
    have hsame : s.Records [] s₁ := .of_faults_eq (harguments.of_eq hvalues)
    exact hsame.trans (hblock hbody)
  · rw [Statement.errorMessagesAll_call]
    exact hblock hbody

theorem statement_records (id : NodeId) :
    Records (statement value block id) fun st => Statement.errorMessagesAll [st] := by
  intro s s' st h
  obtain ⟨name, make, s₁, -, -, hrest, hend, rfl⟩ := statement_eq_ok.mp h
  have hrecords := statementRest_records hvalue hblock hrest id ⟨s.here.start, s₁.lastEnd⟩
  rcases terminator_eq_ok.mp hend with ⟨-, rfl⟩ | ⟨-, rfl⟩ <;> exact hrecords

end

section

variable {parse : NodeId → Parser Statement}
  (hparse : ∀ id, Records (parse id) fun st => Statement.errorMessagesAll [st])
  (hfaults : ∀ id, KeepsFaults (parse id))

include hparse hfaults

/-- A statement that cannot be read becomes an error statement, or else the fault was one
too many. -/
theorem recovering_records {s s' : Reader} {first? : Option Statement}
    (h : recovering parse s = (first?, s')) :
    s.Records (Statement.errorMessagesAll first?.toList) s' := by
  rcases recovering_cases h with ⟨first, rfl, hread⟩ | ⟨fault, s₁, hread, rfl, rfl⟩
    | ⟨fault, s₁, hread, rfl, hfull, rfl⟩
  · have hrecords := hparse _ hread
    exact hrecords
  · have hkept := (hfaults _).of_eq hread
    exact Reader.Records.report hkept fault
  · have hkept := (hfaults _).of_eq hread
    exact .of_full (hkept.trans (List.prefix_append _ _)) hfull

theorem blockStatements_records (opening : Span) :
    Records (blockStatements parse opening) Statement.errorMessagesAll := by
  intro s s' statements h
  replace h := blockRounds_of_ok h
  induction h with
  | closed => exact .of_faults_eq rfl
  | more hround _ ih =>
      have hrecords := recovering_records hparse hfaults hround.hread
      rw [Statement.errorMessagesAll_cons]
      exact hrecords.trans ih
  | stuck hround =>
      have hrecords := recovering_records hparse hfaults hround.hread
      exact hrecords

theorem blockWith_records :
    Records (blockWith parse) fun body => Statement.errorMessagesAll body.statements := by
  intro s s' body h
  obtain ⟨statements, s₁, -, hstatements, rfl, rfl⟩ := blockWith_eq_ok.mp h
  have hrecords := blockStatements_records hparse hfaults _ hstatements
  exact hrecords

theorem topRound_records {s s' : Reader} {first : Statement} (h : TopRound parse s first s') :
    s.Records (Statement.errorMessagesAll [first]) s' := by
  cases h with
  | statement hround =>
      have hrecords := recovering_records hparse hfaults hround.hread
      exact hrecords
  | brace _ hstray =>
      obtain ⟨rfl, rfl⟩ := Prod.mk.inj hstray
      have hkept : s.faults <+: (s.skip 1).takeId.2.faults := List.prefix_rfl
      exact Reader.Records.report hkept _

theorem topStatements_records {s s' : Reader} {statements : List Statement}
    (h : topStatements parse s = (statements, s')) :
    s.Records (Statement.errorMessagesAll statements) s' := by
  replace h := topRounds_of_eq h
  induction h with
  | done => exact .of_faults_eq rfl
  | gaveUp _ _ hnone => exact recovering_records hparse hfaults hnone
  | more hround _ _ ih =>
      have hrecords := topRound_records hparse hfaults hround
      rw [Statement.errorMessagesAll_cons]
      exact hrecords.trans ih
  | last hround hend _ =>
      have hrecords := topRound_records hparse hfaults hround
      rcases hend with rfl | rfl <;> exact hrecords

end

theorem block_records : ∀ fuel : Nat,
    Records (block fuel) fun body => Statement.errorMessagesAll body.statements
  | 0 => by
      rintro s s' body ⟨⟩
  | fuel + 1 => by
      intro s s' body h
      obtain ⟨-, s₁, hinner, rfl⟩ := nested_eq_ok.mp h
      have hstatement := statement_records (value_sameFaults fuel) (block_records fuel)
      have hrecords := blockWith_records hstatement (statement_keepsFaults fuel) hinner
      exact hrecords

end Parser

/-! ## Scripts -/

/-- **Faults leave error statements**, unless reading was given up: a script holds one if and
only if a fault was found, and they tell such faults in their order. -/
theorem faults_ofTokens_ne_nil_iff (source : String) (tokens : List Token) :
    let parsed := ofTokens source tokens
    parsed.script.errorMessages.Sublist (parsed.faults.map Fault.message)
      ∧ (parsed.faults ≠ [] ↔
          parsed.script.errorMessages ≠ [] ∨ maxFaults ≤ parsed.faults.length) := by
  intro parsed
  have hstatement := Parser.statement_records (Parser.value_sameFaults Parser.fullFuel)
    (Parser.block_records Parser.fullFuel)
  obtain ⟨found, hfaults, hsub, hne⟩ := @Parser.topStatements_records _ hstatement
    (Parser.statement_keepsFaults Parser.fullFuel) (Reader.ofTokens tokens).skipSeparators _ _ rfl
  -- reading starts without faults, so all that are on record were found
  obtain rfl : parsed.faults = found := hfaults
  refine ⟨hsub, hne, ?_⟩
  rintro (hmessage | hfull) hnil
  · rw [hnil] at hsub
    exact hmessage (List.sublist_nil.mp hsub)
  · rw [hnil] at hfull
    exact absurd hfull (by decide)

/-- Nineteen lines that are no statements, in a block that is not closed: the twentieth
fault is that of the block, and nothing is left of it. -/
theorem unclosed_nineteen_bad_lines :
    let token (kind : Token.Kind) : Token := ⟨kind, ⟨0, 0⟩⟩
    let lines : List Token.Kind := (List.replicate 19 [.rightParen, .newline]).flatten
    let kinds := [.ident "bed", .leftBrace, .newline] ++ lines ++ [.eof]
    let parsed := ofTokens "garden" (kinds.map token)
    ¬(parsed.faults ≠ [] ↔ parsed.script.errorMessages ≠ []) := by
  decide +kernel

end Script

end Declarative
