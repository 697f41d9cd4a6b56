import Declarative.Proofs.Grammar.Acceptance
import Declarative.Proofs.Parser.Laws
import Declarative.Proofs.Preorder

/-!
# Numbers are given away once

The parser counts its nodes: each statement, block and value gets the next number when its
reading starts, so in preorder the numbers of a script ascend
(`Script.ascends_numbers_ofTokens`). What is read and then discarded keeps its numbers,
and that is why they only ascend and need not follow on each other.

A parser that yields a tree takes its numbers from those between the counter before and
the counter behind it (`Ascends`); one that yields none does not set the counter back
(`NextIdLe`).
-/

namespace Declarative

/-- The numbers go up, from `lo` on and below `hi`. -/
inductive Ascends : Nat → List NodeId → Nat → Prop where
  | nil {lo hi} : lo ≤ hi → Ascends lo [] hi
  | cons {lo id ids hi} : lo ≤ id.index → Ascends (id.index + 1) ids hi → Ascends lo (id :: ids) hi

namespace Ascends

variable {lo mid hi : Nat} {ids others : List NodeId}

theorem raise (h : Ascends mid ids hi) (hle : lo ≤ mid) : Ascends lo ids hi := by
  cases h with
  | nil hhi => exact .nil (hle.trans hhi)
  | cons hmid hrest => exact .cons (hle.trans hmid) hrest

theorem append (h : Ascends lo ids mid) (hothers : Ascends mid others hi) :
    Ascends lo (ids ++ others) hi := by
  induction h with
  | nil hle => exact hothers.raise hle
  | cons hlo _ ih => exact .cons hlo (ih hothers)

theorem le_index (h : Ascends lo ids hi) : ∀ id ∈ ids, lo ≤ id.index := by
  induction h with
  | nil _ => exact nofun
  | cons hlo _ ih =>
      intro id hid
      rcases List.mem_cons.mp hid with rfl | hid
      · exact hlo
      · have := ih id hid
        omega

theorem lo_le_hi (h : Ascends lo ids hi) : lo ≤ hi := by
  induction h with
  | nil hle => exact hle
  | cons hlo _ ih => omega

theorem index_lt (h : Ascends lo ids hi) : ∀ id ∈ ids, id.index < hi := by
  induction h with
  | nil _ => exact nofun
  | cons _ hrest ih =>
      intro id hid
      rcases List.mem_cons.mp hid with rfl | hid
      · exact hrest.lo_le_hi
      · exact ih id hid

theorem pairwise (h : Ascends lo ids hi) : ids.Pairwise (·.index < ·.index) := by
  induction h with
  | nil _ => exact .nil
  | cons _ hrest ih => exact .cons (fun id hid => hrest.le_index id hid) ih

theorem nodup (h : Ascends lo ids hi) : ids.Nodup :=
  h.pairwise.imp fun hlt heq => by simp [heq] at hlt

end Ascends

/-! ## All numbers of a tree -/

mutual

/-- The numbers of the value and of those inside of it, in preorder. -/
def Value.numbers : Value → List NodeId
  | .literal id _ _ => [id]
  | .factory id _ _ arguments => id :: Value.numbersAll arguments

def Value.numbersAll : List Value → List NodeId
  | [] => []
  | value :: values => value.numbers ++ Value.numbersAll values

end

mutual

/-- The numbers of the statement and of everything inside of it in preorder, those of
blocks among them: a block comes before its statements. -/
def Statement.numbers : Statement → List NodeId
  | .call id _ _ arguments body => id :: (Value.numbersAll arguments ++ body.numbers)
  | .assign id _ _ value => id :: value.numbers
  | .error id _ _ => [id]

def Body.numbers : Body → List NodeId
  | .absent => []
  | .block id _ statements => id :: Statement.numbersAll statements

def Statement.numbersAll : List Statement → List NodeId
  | [] => []
  | statement :: statements => statement.numbers ++ Statement.numbersAll statements

end

theorem Value.numbersAll_singleton (v : Value) : Value.numbersAll [v] = v.numbers := by
  simp [Value.numbersAll]

theorem Statement.numbersAll_singleton (s : Statement) : Statement.numbersAll [s] = s.numbers := by
  simp [Statement.numbersAll]

/-- The numbers of all statements, blocks and values of a script in preorder. -/
def Script.numbers (script : Script) : List NodeId := Statement.numbersAll script.statements

mutual

theorem Value.ids_preorder : ∀ v : Value, v.preorder.map Script.Node.id = v.numbers
  | .literal _ _ _ => rfl
  | .factory _ _ _ arguments => by
      rw [Value.preorder, Value.numbers, List.map_cons, Value.ids_preorderAll arguments]
      rfl

theorem Value.ids_preorderAll : ∀ vs : List Value,
    (Value.preorderAll vs).map Script.Node.id = Value.numbersAll vs
  | [] => rfl
  | v :: vs => by
      rw [Value.preorderAll, Value.numbersAll, List.map_append, Value.ids_preorder v,
        Value.ids_preorderAll vs]

end

mutual

/-- Without the blocks they are the numbers of the nodes. -/
theorem Statement.ids_sublist : ∀ s : Statement,
    (s.preorder.map Script.Node.id).Sublist s.numbers
  | .call _ _ _ arguments body => by
      rw [Statement.preorder, Statement.numbers, List.map_cons, List.map_append,
        Value.ids_preorderAll arguments]
      exact .cons_cons _ ((List.Sublist.refl _).append (Statement.ids_sublist_body body))
  | .assign _ _ _ value => by
      rw [Statement.preorder, Statement.numbers, List.map_cons, Value.ids_preorder value]
      exact .refl _
  | .error _ _ _ => .refl _

theorem Statement.ids_sublist_body : ∀ body : Body,
    ((Statement.preorderBody body).map Script.Node.id).Sublist body.numbers
  | .absent => .refl _
  | .block _ _ statements => .cons _ (Statement.ids_sublist_all statements)

theorem Statement.ids_sublist_all : ∀ ss : List Statement,
    ((Statement.preorderAll ss).map Script.Node.id).Sublist (Statement.numbersAll ss)
  | [] => .refl _
  | s :: ss => by
      rw [Statement.preorderAll, Statement.numbersAll, List.map_append]
      exact (Statement.ids_sublist s).append (Statement.ids_sublist_all ss)

end

theorem Script.nodeIds_sublist (script : Script) : script.nodeIds.Sublist script.numbers :=
  Statement.ids_sublist_all script.statements

namespace Script.Parser

/-! ## The counter -/

theorem nextId_steady : Law.Steady fun s s' => s.nextId ≤ s'.nextId where
  refl _ := Nat.le_refl _
  trans := Nat.le_trans
  skip _ _ := Nat.le_refl _
  takeId s := Nat.le_succ s.nextId
  report _ _ := Nat.le_refl _

/-- The counter is never set back. -/
def NextIdLe {α : Type} (p : Parser α) : Prop :=
  Keeps (.ofStates fun s s' => s.nextId ≤ s'.nextId) p

theorem nested_nextIdLe {α : Type} {inner : Parser α} (h : NextIdLe inner) :
    NextIdLe (nested inner) := by
  intro s
  unfold nested
  split
  · exact h { s with depth := s.depth + 1 }
  · exact Nat.le_refl _

theorem value_nextIdLe (fuel : Nat) : NextIdLe (value fuel) :=
  value_keeps nextId_steady.elementary nested_nextIdLe fuel

theorem block_nextIdLe (fuel : Nat) : NextIdLe (block fuel) :=
  block_keeps nextId_steady nested_nextIdLe fuel

/-! ## Numbers of what is read -/

/-- What the parser yields has its numbers from the counter. -/
def Counts {α : Type} (p : Parser α) (numbers : α → List NodeId) : Prop :=
  ∀ ⦃s s' : Reader⦄ ⦃a : α⦄, p s = (.ok a, s') → Ascends s.nextId (numbers a) s'.nextId

theorem Counts.nested {α : Type} {inner : Parser α} {numbers : α → List NodeId}
    (h : Counts inner numbers) : Counts (nested inner) numbers := by
  intro s s' a hs
  obtain ⟨-, s₁, hinner, rfl⟩ := nested_eq_ok.mp hs
  have hnumbers := h hinner
  exact hnumbers

section

variable {value : Parser Value} (hvalue : Counts value Value.numbers)

include hvalue

theorem listed_counts : Counts (listed value) Value.numbersAll := by
  intro s s' values h
  fun_induction listed value s generalizing values with
  | case1 s _ =>
      obtain ⟨hvalues, rfl⟩ := Prod.mk.inj h
      obtain rfl := Except.ok.inj hvalues
      exact .nil (Nat.le_refl _)
  | case2 | case4 => cases h
  | case3 s _ first s₁ hfirst s₂ =>
      obtain ⟨hvalues, rfl⟩ := Prod.mk.inj h
      obtain rfl := Except.ok.inj hvalues
      have hround := hvalue hfirst
      rw [Value.numbersAll_singleton]
      exact hround
  | case5 s _ first s₁ hfirst s₂ _ _ s₃ hcomma s₄ _ others s₅ hothers =>
      rename_i ih
      obtain ⟨-, rfl⟩ := expect_eq_ok.mp hcomma
      obtain ⟨hvalues, rfl⟩ := Prod.mk.inj h
      cases others with
      | error fault => cases hvalues
      | ok others =>
          obtain rfl := Except.ok.inj hvalues
          exact (hvalue hfirst).append (ih hothers)
  | case6 s _ first s₁ hfirst s₂ _ _ s₃ hcomma s₄ =>
      obtain ⟨-, rfl⟩ := expect_eq_ok.mp hcomma
      obtain ⟨hvalues, rfl⟩ := Prod.mk.inj h
      obtain rfl := Except.ok.inj hvalues
      have hround := hvalue hfirst
      rw [Value.numbersAll_singleton]
      exact hround

theorem arguments_counts : Counts (arguments value) Value.numbersAll := by
  intro s s' values h
  obtain ⟨-, hlisted⟩ := arguments_eq_ok.mp h
  have hnumbers := listed_counts hvalue hlisted
  exact hnumbers

theorem valueWith_counts : Counts (valueWith value) Value.numbers := by
  intro s s' v h
  rcases valueWith_eq_ok.mp h with ⟨content, -, rfl, rfl⟩ | ⟨name, values, -, -, hvalues, rfl⟩
  · exact .cons (Nat.le_refl _) (.nil (Nat.le_refl _))
  · exact .cons (Nat.le_refl _) (arguments_counts hvalue hvalues)

end

theorem value_counts : ∀ fuel : Nat, Counts (value fuel) Value.numbers
  | 0 => by
      rintro s s' v ⟨⟩
  | fuel + 1 => (valueWith_counts (value_counts fuel)).nested

/-- As `Counts`, for a parser that reads a statement whose number is given away already. -/
def CountsStatement (parse : NodeId → Parser Statement) : Prop :=
  ∀ ⦃id : NodeId⦄ ⦃s s' : Reader⦄ ⦃st : Statement⦄, parse id s = (.ok st, s') →
    ∃ inside, st.numbers = id :: inside ∧ Ascends s.nextId inside s'.nextId

section

variable {value : Parser Value} (hvalue : Counts value Value.numbers) {block : Parser Body}
  (hblock : Counts block Body.numbers)

include hvalue hblock

theorem statementRest_counts {name : Name} {s s' : Reader} {make : NodeId → Span → Statement}
    (h : statementRest value block name s = (.ok make, s')) :
    ∃ inside, Ascends s.nextId inside s'.nextId
      ∧ ∀ id span, (make id span).numbers = id :: inside := by
  rcases statementRest_eq_ok.mp h with ⟨assigned, -, hassigned, rfl⟩
    | ⟨values, harguments, -, rfl⟩ | ⟨values, s₁, body, harguments, -, hbody, rfl⟩
    | ⟨body, -, hbody, rfl⟩
  · have hnumbers := hvalue hassigned
    exact ⟨_, hnumbers, fun _ _ => rfl⟩
  · refine ⟨_, arguments_counts hvalue harguments, fun id _ => ?_⟩
    rw [Statement.numbers, Body.numbers, List.append_nil]
  · exact ⟨_, (arguments_counts hvalue harguments).append (hblock hbody), fun _ _ => rfl⟩
  · exact ⟨_, hblock hbody, fun _ _ => rfl⟩

theorem statement_counts : CountsStatement (statement value block) := by
  intro id s s' st h
  obtain ⟨name, make, s₁, -, -, hrest, hend, rfl⟩ := statement_eq_ok.mp h
  obtain ⟨inside, hinside, hmake⟩ := statementRest_counts hvalue hblock hrest
  refine ⟨inside, hmake _ _, ?_⟩
  rcases terminator_eq_ok.mp hend with ⟨-, rfl⟩ | ⟨-, rfl⟩ <;> exact hinside

end

section

variable {parse : NodeId → Parser Statement} (hparse : CountsStatement parse)
  (hnext : ∀ id, NextIdLe (parse id))

include hparse hnext

theorem recovering_counts {s s' : Reader} {first : Statement}
    (h : recovering parse s = (some first, s')) : Ascends s.nextId first.numbers s'.nextId := by
  rcases recovering_cases h with ⟨_, ⟨⟩, hread⟩ | ⟨fault, s₂, hread, rfl, ⟨⟩⟩
    | ⟨_, _, -, -, -, ⟨⟩⟩
  · obtain ⟨inside, hnumbers, hinside⟩ := hparse hread
    rw [hnumbers]
    exact .cons (Nat.le_refl _) hinside
  · have hle : s.nextId + 1 ≤ s₂.nextId := (hnext _).of_eq hread
    exact .cons (Nat.le_refl _) (.nil hle)

theorem blockStatements_counts {opening : Span} :
    Counts (blockStatements parse opening) Statement.numbersAll := by
  intro s s' statements h
  replace h := blockRounds_of_ok h
  induction h with
  | closed => exact .nil (Nat.le_refl _)
  | more hround _ ih => exact (recovering_counts hparse hnext hround.hread).append ih
  | stuck hround =>
      have hcounts := recovering_counts hparse hnext hround.hread
      rw [Statement.numbersAll_singleton]
      exact hcounts

theorem blockWith_counts : Counts (blockWith parse) Body.numbers := by
  intro s s' body h
  obtain ⟨statements, s₁, -, hstatements, rfl, rfl⟩ := blockWith_eq_ok.mp h
  exact .cons (Nat.le_refl _) (blockStatements_counts hparse hnext hstatements)

theorem topRound_counts {s s' : Reader} {first : Statement} (h : TopRound parse s first s') :
    Ascends s.nextId first.numbers s'.nextId := by
  cases h with
  | statement hround => exact recovering_counts hparse hnext hround.hread
  | brace _ hstray =>
      obtain ⟨rfl, rfl⟩ := Prod.mk.inj hstray
      exact .cons (Nat.le_refl _) (.nil (Nat.le_refl _))

theorem topStatements_counts {s s' : Reader} {statements : List Statement}
    (h : topStatements parse s = (statements, s')) :
    Ascends s.nextId (Statement.numbersAll statements) s'.nextId := by
  replace h := topRounds_of_eq h
  induction h with
  | done => exact .nil (Nat.le_refl _)
  | gaveUp _ _ hnone => exact .nil (recovering_keeps nextId_steady hnext hnone)
  | more hround _ _ ih => exact (topRound_counts hparse hnext hround).append ih
  | last hround hend _ =>
      have hcounts := topRound_counts hparse hnext hround
      rw [Statement.numbersAll_singleton]
      rcases hend with rfl | rfl <;> exact hcounts

end

theorem statement_nextIdLe (fuel : Nat) (id : NodeId) :
    NextIdLe (statement (value fuel) (block fuel) id) :=
  statement_keeps nextId_steady.elementary (value_nextIdLe fuel) (block_nextIdLe fuel) id

theorem block_counts : ∀ fuel : Nat, Counts (block fuel) Body.numbers
  | 0 => by
      rintro s s' body ⟨⟩
  | fuel + 1 =>
      (blockWith_counts (statement_counts (value_counts fuel) (block_counts fuel))
        (statement_nextIdLe fuel)).nested

end Script.Parser

namespace Script

/-- The state in which reading of the tokens ends. -/
def Reader.afterTokens (tokens : List Token) : Reader :=
  (Parser.topStatements Parser.topStatement (Reader.ofTokens tokens).skipSeparators).2

/-- **The numbers of a script ascend in preorder**, also where statements were passed over
or blocks were discarded. -/
theorem ascends_numbers_ofTokens (source : String) (tokens : List Token) :
    Ascends 0 (ofTokens source tokens).script.numbers (Reader.afterTokens tokens).nextId := by
  have hnumbers := @Parser.topStatements_counts _
    (Parser.statement_counts (Parser.value_counts Parser.fullFuel)
      (Parser.block_counts Parser.fullFuel))
    (Parser.statement_nextIdLe Parser.fullFuel) (Reader.ofTokens tokens).skipSeparators _ _ rfl
  exact hnumbers

theorem nodup_nodeIds_ofTokens (source : String) (tokens : List Token) :
    (ofTokens source tokens).script.nodeIds.Nodup :=
  (ascends_numbers_ofTokens source tokens).nodup.sublist (nodeIds_sublist _)

end Script

end Declarative
