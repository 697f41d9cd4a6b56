import Declarative.Proofs.Parser.Alongside
import Declarative.Proofs.Parser.Renaming

/-!
# Fuel never runs out

Values and blocks are read by parsers with fuel, one unit for each level of nesting. On a level where
the fuel covers all levels that are left, one more unit changes nothing (`Parser.value_succ`,
`Parser.block_succ`): where the fuel would run out, the nesting is refused for being too deep. So with
full fuel the parsers are what they should be by the grammar, with themselves one level deeper
(`Parser.value_fullFuel`, `Parser.block_fullFuel`).

Each parser stays on the level where it started, so what it does there depends only on what the parsers
that it is made of do on this level (`Parser.AgreeAt`).
-/

namespace Declarative.Script.Parser

variable {α β : Type} {depth : Nat}

theorem onward_elementary : (Law.ofStates Reader.Onward).Elementary :=
  Reader.onward_steady.elementary

/-- On this level the parsers read the same. -/
def AgreeAt (depth : Nat) (p q : Parser α) : Prop := ∀ s : Reader, s.depth = depth → p s = q s

theorem AgreeAt.refl (p : Parser α) : AgreeAt depth p p := fun _ _ => rfl

theorem AgreeAt.bind {p q : Parser α} {f g : α → Parser β} (hp : AgreeAt depth p q)
    (hgoes : GoesOn p) (hf : ∀ a, AgreeAt depth (f a) (g a)) :
    AgreeAt depth (p >>= f) (q >>= g) := by
  intro s hs
  have honward : s.Onward (p s).2 := hgoes s
  simp only [Bind.bind, ← hp s hs]
  split
  · rename_i a s₁ heq
    rw [heq] at honward
    exact hf a s₁ (honward.depth.trans hs)
  · rfl

theorem AgreeAt.nested {inner other : Parser α} (h : AgreeAt (depth + 1) inner other) :
    AgreeAt depth (nested inner) (nested other) := by
  intro s hs
  rw [Parser.nested, Parser.nested, h { s with depth := s.depth + 1 } (congrArg (· + 1) hs)]

theorem nested_tooDeep {inner : Parser α} {s : Reader} (h : maxDepth ≤ s.depth) :
    nested inner s = fail .tooDeep s := by
  rw [nested, if_neg (Nat.not_lt.mpr h)]

/-! ## Values -/

section

variable {value value' : Parser Value} (hgoes : GoesOn value) (hvalue : AgreeAt depth value value')

include hgoes hvalue

theorem listed_agreeAt : AgreeAt depth (listed value) (listed value') := by
  intro s hs
  fun_induction listed value s with
  | case1 s hclose => rw [listed, if_pos hclose]
  | case2 s hopen fault s₁ hfirst => rw [listed, if_neg hopen, ← hvalue s hs, hfirst]
  | case3 s hopen first s₁ hfirst s₂ hclose =>
      rw [listed, if_neg hopen, ← hvalue s hs, hfirst]
      exact (if_pos hclose).symm
  | case4 s hopen first s₁ hfirst s₂ hmore fault s₃ hcomma =>
      rw [listed, if_neg hopen, ← hvalue s hs, hfirst]
      dsimp only
      rw [if_neg hmore, hcomma]
  | case5 s hopen first s₁ hfirst s₂ hmore _ s₃ hcomma s₄ hless others s₅ hothers ih =>
      have honward := onward_comma hgoes hfirst
      obtain ⟨-, rfl⟩ := expect_eq_ok.mp hcomma
      have hdepth : s₄.depth = depth := by
        rw [honward.2.2.depth, honward.2.1.depth, honward.1.depth, hs]
      rw [listed, if_neg hopen, ← hvalue s hs, hfirst]
      dsimp only
      rw [if_neg hmore, hcomma]
      dsimp only
      rw [if_pos hless, ← ih hdepth, hothers]
  | case6 s hopen first s₁ hfirst s₂ hmore _ s₃ hcomma s₄ hstuck =>
      rw [listed, if_neg hopen, ← hvalue s hs, hfirst]
      dsimp only
      rw [if_neg hmore, hcomma]
      exact (if_neg hstuck).symm

theorem arguments_agreeAt : AgreeAt depth (arguments value) (arguments value') :=
  .bind (.refl _) (keeps_expect onward_elementary _) fun _ =>
    .bind (.refl _) (keeps_skipNewlines onward_elementary) fun _ => listed_agreeAt hgoes hvalue

theorem valueWith_agreeAt : AgreeAt depth (valueWith value) (valueWith value') := by
  refine .bind (.refl _) (keeps_freshId onward_elementary) fun id => ?_
  refine .bind (.refl _) (keeps_view onward_elementary _) fun span => ?_
  refine .bind (.refl _) (keeps_view onward_elementary _) fun kind => ?_
  split
  · exact .refl _
  · refine .bind (.refl _) (keeps_identifier onward_elementary _) fun name => ?_
    refine .bind (.refl _) (keeps_view onward_elementary _) fun next => ?_
    split
    · exact .bind (arguments_agreeAt hgoes hvalue) (arguments_keeps onward_elementary hgoes)
        fun _ => .refl _
    · exact .refl _

end

/-- Where the fuel covers all levels that are left, one unit more changes nothing. -/
theorem value_succ : ∀ {fuel depth : Nat}, maxDepth ≤ depth + fuel →
    AgreeAt depth (value (fuel + 1)) (value fuel)
  | 0, depth, hfuel => fun s hs => nested_tooDeep (by omega)
  | fuel + 1, depth, hfuel =>
      AgreeAt.nested (valueWith_agreeAt (value_goesOn _) (value_succ (by omega)))

/-! ## Statements -/

section

variable {value value' : Parser Value} (hgoes : GoesOn value) (hvalue : AgreeAt depth value value')
  {block block' : Parser Body} (hgoes' : GoesOn block) (hblock : AgreeAt depth block block')

include hgoes hvalue hgoes' hblock

theorem statementRest_agreeAt (name : Name) :
    AgreeAt depth (statementRest value block name) (statementRest value' block' name) := by
  refine .bind (.refl _) (keeps_view onward_elementary _) fun kind => ?_
  split
  · exact .bind (.refl _) (keeps_advance onward_elementary) fun _ =>
      .bind hvalue hgoes fun _ => .refl _
  · refine .bind (arguments_agreeAt hgoes hvalue) (arguments_keeps onward_elementary hgoes)
      fun values => ?_
    refine .bind (.refl _) (keeps_view onward_elementary _) fun next => ?_
    split
    · exact .bind hblock hgoes' fun _ => .refl _
    · exact .refl _
  · exact .bind hblock hgoes' fun _ => .refl _
  · exact .refl _

theorem statement_agreeAt (id : NodeId) :
    AgreeAt depth (statement value block id) (statement value' block' id) := by
  refine .bind (.refl _) (keeps_view onward_elementary _) fun start => ?_
  refine .bind (.refl _) (keeps_identifier onward_elementary _) fun name => ?_
  exact .bind (statementRest_agreeAt hgoes hvalue hgoes' hblock name)
    (statementRest_keeps onward_elementary hgoes hgoes' name) fun _ => .refl _

end

section

variable {parse parse' : NodeId → Parser Statement} (hgoes : ∀ id, GoesOn (parse id))
  (hparse : ∀ id, AgreeAt depth (parse id) (parse' id))

include hparse

theorem recovering_agreeAt {s : Reader} (hs : s.depth = depth) :
    recovering parse s = recovering parse' s := by
  rw [recovering, recovering]
  dsimp only
  rw [hparse _ s.takeId.2 hs]

include hgoes

theorem blockStatements_agreeAt (opening : Span) :
    AgreeAt depth (blockStatements parse opening) (blockStatements parse' opening) := by
  intro s hs
  fun_induction blockStatements parse opening s with
  | case1 s hbrace => rw [blockStatements, hbrace]
  | case2 s heof => rw [blockStatements, heof]
  | case3 s s₁ hnone =>
      rename_i hbrace heof
      rw [blockStatements_eq hbrace heof, ← recovering_agreeAt hparse hs, hnone]
      rfl
  | case4 s first s₁ hfirst s₂ hless others s₃ hothers =>
      rename_i hbrace heof ih
      have honward := (recovering_keeps Reader.onward_steady hgoes hfirst).trans
        s₁.onward_skipSeparators
      rw [blockStatements_eq hbrace heof, ← recovering_agreeAt hparse hs, hfirst]
      dsimp only [Option.elim_some]
      rw [if_pos hless, ← ih (honward.depth.trans hs), hothers]
  | case5 s first s₁ hfirst s₂ hstuck =>
      rename_i hbrace heof
      rw [blockStatements_eq hbrace heof, ← recovering_agreeAt hparse hs, hfirst]
      exact (if_neg hstuck).symm

theorem blockWith_agreeAt : AgreeAt depth (blockWith parse) (blockWith parse') := by
  refine .bind (.refl _) (keeps_freshId onward_elementary) fun id => ?_
  refine .bind (.refl _) (keeps_view onward_elementary _) fun opening => ?_
  refine .bind (.refl _) (keeps_expect onward_elementary _) fun _ => ?_
  refine .bind (.refl _) (keeps_skipSeparators onward_elementary) fun _ => ?_
  exact .bind (blockStatements_agreeAt hgoes hparse opening)
    (blockStatements_keeps Reader.onward_steady hgoes opening) fun _ => .refl _

end

theorem block_succ : ∀ {fuel depth : Nat}, maxDepth ≤ depth + fuel →
    AgreeAt depth (block (fuel + 1)) (block fuel)
  | 0, depth, hfuel => fun s hs => nested_tooDeep (by omega)
  | fuel + 1, depth, hfuel =>
      AgreeAt.nested (blockWith_agreeAt (statement_goesOn _) (statement_agreeAt (value_goesOn _)
        (value_succ (by omega)) (block_goesOn _) (block_succ (by omega))))

/-! ## Full fuel -/

/-- With full fuel a value is read with such values inside. -/
theorem value_fullFuel : value fullFuel = nested (valueWith (value fullFuel)) := by
  funext s
  have hcovers : maxDepth ≤ s.depth + fullFuel := (Nat.le_succ _).trans (Nat.le_add_left ..)
  exact (value_succ hcovers s rfl).symm

/-- With full fuel a block is read with such statements inside. -/
theorem block_fullFuel : block fullFuel = nested (blockWith topStatement) := by
  funext s
  have hcovers : maxDepth ≤ s.depth + fullFuel := (Nat.le_succ _).trans (Nat.le_add_left ..)
  exact (block_succ hcovers s rfl).symm

end Declarative.Script.Parser
