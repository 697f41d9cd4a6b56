import Declarative.Proofs.Grammar.Soundness

/-!
# Laws of reading

A law joins the state that a parser starts in with the state that it leaves, and with the
fault that it stops with if it does. Parsers are made of a few elements: a token is passed
over, a number is given away, reading stops with a fault. A law that these obey and that
goes on from one step to the next is obeyed by all parsers for values, arguments and
statements, whatever they read (`Parser.value_keeps`, `Parser.statement_keeps`).

What a law says of nesting is left to the law. The loops over statements are the one place
where faults are put on record; a law that is about states alone and does not mind that
(`Law.Steady`) is obeyed by these as well, and so by whole blocks and scripts.
-/

namespace Declarative.Script

/-- What can be said of reading from one state to another, which a fault may have
stopped. -/
def Law := Reader → Option Fault → Reader → Prop

/-- The law goes on from step to step, and the elements of parsers obey it. -/
structure Law.Elementary (law : Law) : Prop where
  refl : ∀ s, law s none s
  trans : ∀ {s s₁ s₂ fault?}, law s none s₁ → law s₁ fault? s₂ → law s fault? s₂
  skip : ∀ s n, law s none (s.skip n)
  takeId : ∀ s, law s none s.takeId.2
  /-- A fault is found at the next token. Only the loops over statements stop because there are too
  many faults. -/
  stop : ∀ s cause, cause ≠ .tooManyFaults → law s (some ⟨s.here, cause⟩) s

namespace Parser

variable {α β : Type}

def fault? : Except Fault α → Option Fault
  | .ok _ => none
  | .error fault => some fault

theorem fault?_map (f : α → β) (result : Except Fault α) :
    fault? (result.map f) = fault? result := by
  cases result <;> rfl

/-- Each run of the parser obeys the law. -/
def Keeps (law : Law) (p : Parser α) : Prop := ∀ s, law s (fault? (p s).1) (p s).2

theorem Keeps.of_eq {law : Law} {p : Parser α} (h : Keeps law p) {s s' : Reader}
    {result : Except Fault α} (hs : p s = (result, s')) : law s (fault? result) s' := by
  have hlaw := h s
  rwa [hs] at hlaw

section

variable {law : Law} (hlaw : law.Elementary)

include hlaw

theorem keeps_bind {p : Parser α} {f : α → Parser β} (hp : Keeps law p)
    (hf : ∀ a, Keeps law (f a)) : Keeps law (p >>= f) := by
  intro s
  have hfirst := hp s
  simp only [bind]
  split
  · rename_i a s₁ hs
    rw [hs] at hfirst
    exact hlaw.trans hfirst (hf a s₁)
  · rename_i fault s₁ hs
    rw [hs] at hfirst
    exact hfirst

theorem keeps_pure (a : α) : Keeps law (pure a) := hlaw.refl

theorem keeps_view (f : Reader → α) : Keeps law (view f) := hlaw.refl

theorem keeps_advance : Keeps law advance := fun s => hlaw.skip s 1

theorem keeps_skipNewlines : Keeps law (step Reader.skipNewlines) := fun s => hlaw.skip s _

theorem keeps_skipSeparators : Keeps law (step Reader.skipSeparators) := fun s => hlaw.skip s _

theorem keeps_freshId : Keeps law freshId := hlaw.takeId

theorem keeps_fail {cause : Fault.Cause} (h : cause ≠ .tooManyFaults) :
    Keeps law (fail cause : Parser α) := fun s => hlaw.stop s _ h

theorem keeps_missing (wanted : Wanted) : Keeps law (missing wanted : Parser α) := fun s =>
  hlaw.stop s _ (by simp)

theorem keeps_expect (kind : Token.Kind) : Keeps law (expect kind) := by
  intro s
  unfold expect
  split
  · exact keeps_advance hlaw s
  · exact keeps_missing hlaw _ s

theorem keeps_identifier (wanted : Wanted) : Keeps law (identifier wanted) := by
  intro s
  unfold identifier
  split
  · exact hlaw.skip s 1
  · exact keeps_missing hlaw _ s

theorem keeps_terminator : Keeps law terminator := by
  intro s
  unfold terminator
  split
  · exact keeps_advance hlaw s
  · exact keeps_advance hlaw s
  · exact hlaw.refl s
  · exact hlaw.refl s
  · exact keeps_missing hlaw _ s

/-! ## Values -/

section

variable {value : Parser Value} (hvalue : Keeps law value)

include hvalue

theorem listed_keeps : Keeps law (listed value) := by
  intro s
  fun_induction listed value s with
  | case1 s _ => exact hlaw.skip s 1
  | case2 s _ fault s₁ hfirst => exact hvalue.of_eq hfirst
  | case3 s _ first s₁ hfirst s₂ _ =>
      exact hlaw.trans (hvalue.of_eq hfirst) (hlaw.trans (hlaw.skip s₁ _) (hlaw.skip s₂ 1))
  | case4 s _ first s₁ hfirst s₂ _ fault s₃ hcomma =>
      have hbefore : law s none s₂ := hlaw.trans (hvalue.of_eq hfirst) (hlaw.skip s₁ _)
      exact hlaw.trans hbefore ((keeps_expect hlaw _).of_eq hcomma)
  | case5 s _ first s₁ hfirst s₂ _ _ s₃ hcomma s₄ _ others s₅ hothers ih =>
      have hbefore : law s none s₂ := hlaw.trans (hvalue.of_eq hfirst) (hlaw.skip s₁ _)
      have hafter : law s₂ none s₄ := hlaw.trans ((keeps_expect hlaw _).of_eq hcomma) (hlaw.skip s₃ _)
      rw [hothers] at ih
      rw [fault?_map]
      exact hlaw.trans hbefore (hlaw.trans hafter ih)
  | case6 s _ first s₁ hfirst s₂ _ _ s₃ hcomma s₄ _ =>
      have hbefore : law s none s₂ := hlaw.trans (hvalue.of_eq hfirst) (hlaw.skip s₁ _)
      have hafter : law s₂ none s₄ := hlaw.trans ((keeps_expect hlaw _).of_eq hcomma) (hlaw.skip s₃ _)
      exact hlaw.trans hbefore hafter

theorem arguments_keeps : Keeps law (arguments value) :=
  keeps_bind hlaw (keeps_expect hlaw _) fun _ =>
    keeps_bind hlaw (keeps_skipNewlines hlaw) fun _ => listed_keeps hlaw hvalue

theorem valueWith_keeps : Keeps law (valueWith value) := by
  refine keeps_bind hlaw (keeps_freshId hlaw) fun id => ?_
  refine keeps_bind hlaw (keeps_view hlaw _) fun span => ?_
  refine keeps_bind hlaw (keeps_view hlaw _) fun kind => ?_
  split
  · exact keeps_bind hlaw (keeps_advance hlaw) fun _ => keeps_pure hlaw _
  · refine keeps_bind hlaw (keeps_identifier hlaw _) fun name => ?_
    refine keeps_bind hlaw (keeps_view hlaw _) fun next => ?_
    split
    · refine keeps_bind hlaw (arguments_keeps hlaw hvalue) fun values => ?_
      exact keeps_bind hlaw (keeps_view hlaw _) fun _ => keeps_pure hlaw _
    · exact keeps_missing hlaw _

end

theorem value_keeps
    (hnested : ∀ {inner : Parser Value}, Keeps law inner → Keeps law (nested inner)) :
    ∀ fuel : Nat, Keeps law (value fuel)
  | 0 => keeps_fail hlaw (by simp)
  | fuel + 1 => hnested (valueWith_keeps hlaw (value_keeps hnested fuel))

/-! ## Statements -/

section

variable {value : Parser Value} (hvalue : Keeps law value) {block : Parser Body}
  (hblock : Keeps law block)

include hvalue hblock

theorem statementRest_keeps (name : Name) : Keeps law (statementRest value block name) := by
  refine keeps_bind hlaw (keeps_view hlaw _) fun kind => ?_
  split
  · refine keeps_bind hlaw (keeps_advance hlaw) fun _ => ?_
    exact keeps_bind hlaw hvalue fun _ => keeps_pure hlaw _
  · refine keeps_bind hlaw (arguments_keeps hlaw hvalue) fun values => ?_
    refine keeps_bind hlaw (keeps_view hlaw _) fun next => ?_
    split
    · exact keeps_bind hlaw hblock fun _ => keeps_pure hlaw _
    · exact keeps_pure hlaw _
  · exact keeps_bind hlaw hblock fun _ => keeps_pure hlaw _
  · exact keeps_missing hlaw _

theorem statement_keeps (id : NodeId) : Keeps law (statement value block id) := by
  refine keeps_bind hlaw (keeps_view hlaw _) fun start => ?_
  refine keeps_bind hlaw (keeps_identifier hlaw _) fun name => ?_
  refine keeps_bind hlaw (statementRest_keeps hlaw hvalue hblock name) fun make => ?_
  refine keeps_bind hlaw (keeps_view hlaw _) fun stop => ?_
  exact keeps_bind hlaw (keeps_terminator hlaw) fun _ => keeps_pure hlaw _

end

/-- A block obeys the law if the loop over its statements does. -/
theorem blockWith_keeps {parse : NodeId → Parser Statement}
    (hstatements : ∀ opening, Keeps law (blockStatements parse opening)) :
    Keeps law (blockWith parse) := by
  refine keeps_bind hlaw (keeps_freshId hlaw) fun id => ?_
  refine keeps_bind hlaw (keeps_view hlaw _) fun opening => ?_
  refine keeps_bind hlaw (keeps_expect hlaw _) fun _ => ?_
  refine keeps_bind hlaw (keeps_skipSeparators hlaw) fun _ => ?_
  refine keeps_bind hlaw (hstatements opening) fun statements => ?_
  refine keeps_bind hlaw (keeps_view hlaw _) fun closing => ?_
  exact keeps_bind hlaw (keeps_advance hlaw) fun _ => keeps_pure hlaw _

end

end Parser

/-! ## Laws of the states alone -/

/-- The relation of two states, as a law to which faults do not matter. -/
def Law.ofStates (R : Reader → Reader → Prop) : Law := fun s _ s' => R s s'

/-- The relation goes on from step to step, whatever is read, given away or put on
record. -/
structure Law.Steady (R : Reader → Reader → Prop) : Prop where
  refl : ∀ s, R s s
  trans : ∀ {s s₁ s₂}, R s s₁ → R s₁ s₂ → R s s₂
  skip : ∀ s n, R s (s.skip n)
  takeId : ∀ s, R s s.takeId.2
  report : ∀ s fault, R s (s.report fault)

theorem Law.Steady.elementary {R : Reader → Reader → Prop} (h : Law.Steady R) :
    (Law.ofStates R).Elementary where
  refl := h.refl
  trans := h.trans
  skip := h.skip
  takeId := h.takeId
  stop s _ _ := h.refl s

namespace Parser

variable {R : Reader → Reader → Prop} (hR : Law.Steady R)

include hR

section

variable {parse : NodeId → Parser Statement} (hparse : ∀ id, Keeps (.ofStates R) (parse id))

include hparse

theorem recovering_keeps {s s' : Reader} {first? : Option Statement}
    (h : recovering parse s = (first?, s')) : R s s' := by
  have hreport : ∀ {fault : Fault} {s₁ : Reader},
      parse s.takeId.1 s.takeId.2 = (.error fault, s₁) → R s (s₁.report fault) := fun hread =>
    hR.trans (hR.trans (hR.takeId s) ((hparse _).of_eq hread)) (hR.report _ _)
  rcases recovering_cases h with ⟨first, -, hread⟩ | ⟨fault, s₁, hread, rfl, -⟩
    | ⟨fault, s₁, hread, rfl, -⟩
  · exact hR.trans (hR.takeId s) ((hparse _).of_eq hread)
  · exact hR.trans (hreport hread) (hR.skip _ _)
  · exact hreport hread

theorem blockStatements_keeps (opening : Span) :
    Keeps (.ofStates R) (blockStatements parse opening) := by
  intro s
  fun_induction blockStatements parse opening s with
  | case1 s _ | case2 s _ => exact hR.refl s
  | case3 s s₁ hfirst => exact recovering_keeps hR hparse hfirst
  | case4 s first s₁ hfirst s₂ _ others s₃ hothers =>
      rename_i ih
      rw [hothers] at ih
      exact hR.trans (recovering_keeps hR hparse hfirst) (hR.trans (hR.skip s₁ _) ih)
  | case5 s first s₁ hfirst s₂ _ =>
      exact hR.trans (recovering_keeps hR hparse hfirst) (hR.skip s₁ _)

theorem topRound_keeps {s s₁ : Reader} {first : Statement} (h : TopRound parse s first s₁) :
    R s s₁ := by
  cases h with
  | statement hround => exact recovering_keeps hR hparse hround.hread
  | brace _ hstray =>
      obtain ⟨-, rfl⟩ := Prod.mk.inj hstray
      exact hR.trans (hR.skip s 1) (hR.trans (hR.takeId _) (hR.report _ _))

theorem topStatements_keeps {s s' : Reader} {statements : List Statement}
    (h : topStatements parse s = (statements, s')) : R s s' := by
  replace h := topRounds_of_eq h
  induction h with
  | done => exact hR.refl _
  | gaveUp _ _ hnone => exact recovering_keeps hR hparse hnone
  | more hround _ _ ih => exact hR.trans (topRound_keeps hR hparse hround) (hR.trans (hR.skip _ _) ih)
  | last hround hend _ =>
      have hkeeps := topRound_keeps hR hparse hround
      rcases hend with rfl | rfl
      · exact hkeeps
      · exact hR.trans hkeeps (hR.skip _ _)

end

theorem block_keeps
    (hnested : ∀ {α : Type} {inner : Parser α}, Keeps (.ofStates R) inner →
      Keeps (.ofStates R) (nested inner)) : ∀ fuel : Nat, Keeps (.ofStates R) (block fuel)
  | 0 => hR.refl
  | fuel + 1 => by
      have hstatement := statement_keeps hR.elementary (value_keeps hR.elementary hnested fuel)
        (block_keeps hnested fuel)
      exact hnested (blockWith_keeps hR.elementary (blockStatements_keeps hR hstatement))

end Parser

end Declarative.Script
