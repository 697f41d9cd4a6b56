import Declarative.Proofs.Parser.Alongside

/-!
# Nesting is bounded

Blocks and values are read on levels, of which there are `maxDepth`. No parser leaves the level where
it started, whether it yields something or a fault stops it, in the middle of an inner block or of an
argument: `Parser.GoesOn` says so of all of them. So what a parser yields is never higher than there
were levels left (`Parser.Shallow`), with faults on record or without.

What is read without a fault is no higher either, by its derivation (`Parser.Sound`). That says nothing
of a statement with an error statement inside of it. An error statement holds nothing, so it needs no
level, and passing over what makes no statement leads back to the level where it was found.
-/

namespace Declarative.Script

namespace Parser

variable {α : Type}

/-! ## The level is kept -/

/-- The level after reading is the level before, whether something was read or a fault stopped it. -/
def KeepsLevel (p : Parser α) : Prop := ∀ s, (p s).2.depth = s.depth

theorem GoesOn.keepsLevel {p : Parser α} (h : GoesOn p) : KeepsLevel p := fun s => (h s).depth

/-- The parsers that are made of a parser for values and one for blocks keep the level, and so does
passing over what makes no statement. -/
structure KeepsLevels (value : Parser Value) (block : Parser Body) : Prop where
  ofValues : KeepsLevel value
  ofArguments : KeepsLevel (arguments value)
  ofBlocks : KeepsLevel block
  ofStatements : ∀ id, KeepsLevel (statement value block id)
  ofRecovering : ∀ s, (recovering (statement value block) s).2.depth = s.depth

theorem keepsLevels (fuel : Nat) : KeepsLevels (value fuel) (block fuel) where
  ofValues := (value_goesOn fuel).keepsLevel
  ofArguments :=
    GoesOn.keepsLevel (arguments_keeps Reader.onward_steady.elementary (value_goesOn fuel))
  ofBlocks := (block_goesOn fuel).keepsLevel
  ofStatements id := (statement_goesOn fuel id).keepsLevel
  ofRecovering _ := (recovering_keeps Reader.onward_steady (statement_goesOn fuel) rfl).depth

/-! ## What is read is no higher than there are levels -/

/-- What the parser yields is no higher than there were levels left. -/
def Shallow (p : Parser α) (height : α → Nat) : Prop :=
  ∀ ⦃s s' : Reader⦄ ⦃a : α⦄, p s = (.ok a, s') → height a ≤ maxDepth - s.depth

/-- It does not matter where on its level the parser starts. -/
theorem Shallow.le {p : Parser α} {height : α → Nat} (h : Shallow p height) {s s₁ s' : Reader}
    {a : α} (honward : s.Onward s₁) (hs : p s₁ = (.ok a, s')) : height a ≤ maxDepth - s.depth :=
  honward.depth ▸ h hs

/-- What is nested takes a level of its own. -/
theorem Shallow.nested {inner : Parser α} {height : α → Nat} (h : Shallow inner (height · - 1)) :
    Shallow (nested inner) height := by
  intro s s' a hs
  obtain ⟨hdepth, s₁, hinner, -⟩ := nested_eq_ok.mp hs
  have hheight := h hinner
  simp only at hheight
  omega

section

variable {value : Parser Value} (hgoes : GoesOn value)
  (hvalue : Shallow value (·.plain.height))

include hgoes hvalue

theorem Lists.heightAll_le {s s' : Reader} {values : List Value} (h : Lists value s values s') :
    Plain.Value.heightAll (Value.plainAll values) ≤ maxDepth - s.depth := by
  induction h with
  | close _ => exact Nat.zero_le _
  | last _ hfirst _ => exact max_le (hvalue hfirst) (Nat.zero_le _)
  | more _ hfirst _ _ ih =>
      obtain ⟨hread, hskip, hcomma⟩ := onward_comma hgoes hfirst
      rw [(hread.trans (hskip.trans hcomma)).depth] at ih
      exact max_le (hvalue hfirst) ih

theorem arguments_shallow :
    Shallow (arguments value) (fun values => Plain.Value.heightAll (Value.plainAll values)) := by
  intro s s' values h
  have hlists := lists_of_ok hgoes (arguments_eq_ok.mp h).2
  have honward := (s.onward_skip 1).trans (s.skip 1).onward_skipNewlines
  exact honward.depth ▸ hlists.heightAll_le hgoes hvalue

theorem valueWith_shallow : Shallow (valueWith value) (·.plain.height - 1) := by
  intro s s' v h
  rcases valueWith_eq_ok.mp h with ⟨_, -, rfl, -⟩ | ⟨_, values, -, -, harguments, rfl⟩
  · exact Nat.zero_le _
  · have hname := (Reader.onward_steady.takeId s).trans (s.takeId.2.onward_skip 1)
    have hheight := (arguments_shallow hgoes hvalue).le hname harguments
    simpa only [Value.plain, Plain.Value.height, Nat.add_sub_cancel_left] using hheight

end

theorem value_shallow : ∀ fuel : Nat, Shallow (value fuel) (·.plain.height)
  | 0 => by
      rintro s s' v ⟨⟩
  | fuel + 1 => (valueWith_shallow (value_goesOn fuel) (value_shallow fuel)).nested

/-- A statement is on the level of what is around it. -/
theorem statement_shallow {value : Parser Value} {block : Parser Body} (hgoes : GoesOn value)
    (hvalue : Shallow value (·.plain.height)) (hblock : Shallow block (·.plain.height))
    (id : NodeId) : Shallow (statement value block id) (·.plain.height) := by
  intro s s' st h
  obtain ⟨name, make, s₁, -, -, hrest, -, rfl⟩ := statement_eq_ok.mp h
  have hname := s.onward_skip 1
  have harguments := arguments_shallow hgoes hvalue
  rcases statementRest_eq_ok.mp hrest with ⟨assigned, -, hassigned, rfl⟩
    | ⟨values, hvalues, -, rfl⟩ | ⟨values, s₂, body, hvalues, -, hbody, rfl⟩
    | ⟨body, -, hbody, rfl⟩
  · exact hvalue.le (hname.trans ((s.skip 1).onward_skip 1)) hassigned
  · exact max_le (harguments.le hname hvalues) (Nat.zero_le _)
  · have hread := (arguments_keeps Reader.onward_steady.elementary hgoes).of_eq hvalues
    exact max_le (harguments.le hname hvalues) (hblock.le (hname.trans hread) hbody)
  · exact max_le (Nat.zero_le _) (hblock.le hname hbody)

/-! ## Statements, block by block -/

section

variable {parse : NodeId → Parser Statement} (hgoes : ∀ id, GoesOn (parse id))
  (hparse : ∀ id, Shallow (parse id) (·.plain.height))

include hparse

/-- An error statement has no height. -/
theorem recovering_height_le {s s' : Reader} {first : Statement}
    (h : recovering parse s = (some first, s')) : first.plain.height ≤ maxDepth - s.depth := by
  rcases recovering_cases h with ⟨_, hfirst, hread⟩ | ⟨fault, s₁, -, -, hfirst⟩
    | ⟨_, _, -, -, -, hfirst⟩
  · obtain rfl := Option.some.inj hfirst
    exact (hparse _).le (Reader.onward_steady.takeId s) hread
  · obtain rfl := Option.some.inj hfirst
    exact Nat.zero_le _
  · cases hfirst

include hgoes

theorem BlockRounds.heightAll_le {s s' : Reader} {statements : List Statement}
    (h : BlockRounds parse s statements s') :
    Plain.Statement.heightAll (Statement.plainAll statements) ≤ maxDepth - s.depth := by
  induction h with
  | closed _ => exact Nat.zero_le _
  | @more s first s₁ others _ hround _ ih =>
      have honward := (recovering_keeps Reader.onward_steady hgoes hround.hread).trans
        s₁.onward_skipSeparators
      rw [honward.depth] at ih
      exact max_le (recovering_height_le hparse hround.hread) ih
  | stuck hround _ => exact max_le (recovering_height_le hparse hround.hread) (Nat.zero_le _)

theorem blockWith_shallow : Shallow (blockWith parse) (·.plain.height - 1) := by
  intro s s' body h
  obtain ⟨statements, s₁, -, hstatements, rfl, -⟩ := blockWith_eq_ok.mp h
  have hbrace := (Reader.onward_steady.takeId s).trans
    ((s.takeId.2.onward_skip 1).trans (Reader.onward_skipSeparators _))
  have hheight := (blockRounds_of_ok hstatements).heightAll_le hgoes hparse
  rw [hbrace.depth] at hheight
  simpa only [Body.plain, Plain.Body.height, Nat.add_sub_cancel_left] using hheight

theorem topStatements_heightAll_le {s s' : Reader} {statements : List Statement}
    (h : topStatements parse s = (statements, s')) :
    Plain.Statement.heightAll (Statement.plainAll statements) ≤ maxDepth - s.depth := by
  have hround {s s₁ first} (h : TopRound parse s first s₁) :
      first.plain.height ≤ maxDepth - s.depth := by
    cases h with
    | statement hround => exact recovering_height_le hparse hround.hread
    | brace _ hstray =>
        obtain ⟨rfl, -⟩ := Prod.mk.inj hstray
        exact Nat.zero_le _
  replace h := topRounds_of_eq h
  induction h with
  | done _ | gaveUp _ _ _ => exact Nat.zero_le _
  | @more s first s₁ others _ hfirst _ _ ih =>
      have honward := (topRound_keeps Reader.onward_steady hgoes hfirst).trans
        s₁.onward_skipSeparators
      rw [honward.depth] at ih
      exact max_le (hround hfirst) ih
  | last hfirst _ _ => exact max_le (hround hfirst) (Nat.zero_le _)

end

theorem block_shallow : ∀ fuel : Nat, Shallow (block fuel) (·.plain.height)
  | 0 => by
      rintro s s' body ⟨⟩
  | fuel + 1 =>
      (blockWith_shallow (statement_goesOn fuel)
        (statement_shallow (value_goesOn fuel) (value_shallow fuel) (block_shallow fuel))).nested

end Parser

/-- No script is higher than there are levels, whatever tokens it is read from. -/
theorem heightAll_ofTokens_le (source : String) (tokens : List Token) :
    Plain.Statement.heightAll (Statement.plainAll (ofTokens source tokens).script.statements)
      ≤ maxDepth := by
  have hshallow := Parser.statement_shallow (Parser.value_goesOn Parser.fullFuel)
    (Parser.value_shallow Parser.fullFuel) (Parser.block_shallow Parser.fullFuel)
  exact Parser.topStatements_heightAll_le (Parser.statement_goesOn Parser.fullFuel) hshallow
    (Prod.eta _).symm

end Declarative.Script
