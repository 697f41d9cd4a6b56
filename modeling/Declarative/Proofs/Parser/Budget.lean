import Mathlib.Algebra.Group.Nat.Defs
import Declarative.Proofs.Parser.Coverage
import Declarative.Proofs.Parser.Numbers

/-!
# Numbers are paid for with tokens

The parser gives a number away before it knows whether there is anything to be numbered, so
more numbers are given away than a script holds. Yet they are never more than there are tokens:
a statement pays for its number with its name, a block with its brace, a value with its literal
or its name. Where the token that should pay is not there, a fault is found. A value that is
missing was paid for in advance, by the equals sign, the parenthesis or the comma in front of it;
and a statement without a name is paid for by the tokens that are passed over behind the fault.

What is kept is the budget of a state, the numbers given away and the tokens still to be read
(`Reader.budget`). After a value it is no greater than before (`Parser.Costs`); after a fault in a
statement it is no greater once the rest of the statement is passed over (`Parser.Settles`).
-/

namespace Declarative.Script

namespace Reader

/-- The numbers given away and the tokens that can still pay for one. -/
def budget (s : Reader) : Nat := s.nextId + s.unread.length

@[simp] theorem budget_takeId (s : Reader) : s.takeId.2.budget = s.budget + 1 := by
  simp only [budget, takeId]
  omega

@[simp] theorem budget_report (s : Reader) (fault : Fault) :
    (s.report fault).budget = s.budget := rfl

theorem nextId_le_budget (s : Reader) : s.nextId ≤ s.budget := Nat.le_add_right ..

theorem budget_skip_le (s : Reader) (n : Nat) : (s.skip n).budget ≤ s.budget := by
  simp only [budget, skip, List.length_drop]
  omega

theorem budget_skip_lt {s : Reader} {n : Nat} (h : s.peek ≠ .eof) (hn : 0 < n) :
    (s.skip n).budget < s.budget := by
  obtain ⟨t, rest, hunread, -, -⟩ := exists_unread_cons h
  simp only [budget, skip, hunread, List.length_drop, List.length_cons]
  omega

/-- The number that is given away here is paid for by the token that is read here. -/
theorem budget_takeId_skip_le {s : Reader} (h : s.peek ≠ .eof) :
    (s.takeId.2.skip 1).budget ≤ s.budget := by
  have hpeek : s.takeId.2.peek ≠ .eof := h
  have hpaid := budget_skip_lt hpeek Nat.one_pos
  rw [budget_takeId] at hpaid
  omega

end Reader

namespace Parser

variable {α β : Type}

theorem bind_eq_error {p : Parser α} {f : α → Parser β} {s s' : Reader} {fault : Fault} :
    (p >>= f) s = (.error fault, s') ↔
      p s = (.error fault, s')
        ∨ ∃ a s₁, p s = (.ok a, s₁) ∧ f a s₁ = (.error fault, s') := by
  cases hp : p s with
  | mk result s₁ => cases result <;> simp [bind, hp]

/-- A level is refused, or what is inside of it is read. -/
theorem nested_cases {inner : Parser α} {s s' : Reader} {result : Except Fault α}
    (h : nested inner s = (result, s')) :
    (result = .error ⟨s.here, .tooDeep⟩ ∧ s' = s)
      ∨ ∃ s₁, inner { s with depth := s.depth + 1 } = (result, s₁)
        ∧ s' = { s₁ with depth := s₁.depth - 1 } := by
  unfold nested at h
  split at h
  · obtain ⟨rfl, rfl⟩ := Prod.mk.inj h
    exact Or.inr ⟨_, rfl, rfl⟩
  · obtain ⟨rfl, rfl⟩ := Prod.mk.inj h
    exact Or.inl ⟨rfl, rfl⟩

/-! ## Values -/

/-- What is read leaves `paid` tokens over; a fault leaves at most `owed` numbers that no token
has paid for. -/
structure Costs (p : Parser α) (paid owed : Nat) : Prop where
  of_ok : ∀ {s s' : Reader} {a : α}, p s = (.ok a, s') → s'.budget + paid ≤ s.budget
  of_error : ∀ {s s' : Reader} {fault : Fault}, p s = (.error fault, s') →
    s'.budget ≤ s.budget + owed

theorem Costs.bind {p : Parser α} {f : α → Parser β} {paid more owed later : Nat}
    (hp : Costs p paid owed) (hf : ∀ a, Costs (f a) more later) (hle : later ≤ paid + owed) :
    Costs (p >>= f) (paid + more) owed where
  of_ok h := by
    obtain ⟨a, s₁, hfirst, hrest⟩ := bind_eq_ok.mp h
    have hfirst := hp.of_ok hfirst
    have hrest := (hf a).of_ok hrest
    omega
  of_error h := by
    rcases bind_eq_error.mp h with hfirst | ⟨a, s₁, hfirst, hrest⟩
    · exact hp.of_error hfirst
    · have hfirst := hp.of_ok hfirst
      have hrest := (hf a).of_error hrest
      omega

theorem Costs.mono {p : Parser α} {paid owed less more : Nat} (h : Costs p paid owed)
    (hpaid : less ≤ paid) (howed : owed ≤ more) : Costs p less more where
  of_ok hs := by
    have := h.of_ok hs
    omega
  of_error hs := by
    have := h.of_error hs
    omega

theorem costs_pure (a : α) : Costs (pure a) 0 0 where
  of_ok h := by
    obtain ⟨-, rfl⟩ := pure_eq_ok.mp h
    exact Nat.le_refl _
  of_error h := by cases h

theorem costs_view (f : Reader → α) : Costs (view f) 0 0 where
  of_ok h := by
    obtain ⟨-, rfl⟩ := Prod.mk.inj h
    exact Nat.le_refl _
  of_error h := by cases h

theorem costs_skipNewlines : Costs (step Reader.skipNewlines) 0 0 where
  of_ok h := by
    obtain ⟨-, rfl⟩ := Prod.mk.inj h
    exact Reader.budget_skip_le _ _
  of_error h := by cases h

theorem costs_fail (cause : Fault.Cause) (paid : Nat) : Costs (fail cause : Parser α) paid 0 where
  of_ok h := by cases h
  of_error h := by
    obtain ⟨-, rfl⟩ := Prod.mk.inj h
    exact Nat.le_refl _

theorem costs_missing (wanted : Wanted) (paid : Nat) : Costs (missing wanted : Parser α) paid 0 where
  of_ok h := absurd h missing_ne_ok
  of_error h := by
    obtain ⟨-, rfl⟩ := Prod.mk.inj h
    exact Nat.le_refl _

theorem costs_expect {kind : Token.Kind} (hkind : kind ≠ .eof) : Costs (expect kind) 1 0 where
  of_ok h := by
    obtain ⟨hpeek, rfl⟩ := expect_eq_ok.mp h
    exact Reader.budget_skip_lt (hpeek ▸ hkind) Nat.one_pos
  of_error h := by
    unfold expect at h
    split at h
    · cases h
    · exact (costs_missing _ 0).of_error h

theorem costs_identifier (wanted : Wanted) : Costs (identifier wanted) 1 0 where
  of_ok h := by
    obtain ⟨hpeek, -, rfl⟩ := identifier_eq_ok.mp h
    exact Reader.budget_skip_lt (by simp [hpeek]) Nat.one_pos
  of_error h := by
    unfold identifier at h
    split at h
    · cases h
    · exact (costs_missing _ 0).of_error h

section

variable {value : Parser Value} (hvalue : Costs value 0 1)

include hvalue

/-- Behind a comma there is a token over, so that only the first value can be owed. -/
theorem listed_budget {s s' : Reader} {result : Except Fault (List Value)}
    (h : listed value s = (result, s')) :
    s'.budget ≤ s.budget + 1 ∧ (result.isOk → s'.budget ≤ s.budget) := by
  have hcomma : Costs (expect .comma) 1 0 := costs_expect (by simp)
  have hround : ∀ {s s₁ : Reader} {v : Value}, value s = (.ok v, s₁) →
      s₁.skipNewlines.budget ≤ s.budget := fun hread =>
    (Reader.budget_skip_le _ _).trans (hvalue.of_ok hread)
  have hbehind : ∀ {s s₁ : Reader} {u : Unit}, expect .comma s = (.ok u, s₁) →
      s₁.skipNewlines.budget < s.budget := fun hread =>
    (Nat.add_le_add_right (Reader.budget_skip_le _ _) 1).trans (hcomma.of_ok hread)
  fun_induction listed value s generalizing result with
  | case1 s _ =>
      obtain ⟨rfl, rfl⟩ := Prod.mk.inj h
      have hclose := Reader.budget_skip_le s 1
      exact ⟨by omega, fun _ => hclose⟩
  | case2 s _ fault s₁ hfirst =>
      obtain ⟨rfl, rfl⟩ := Prod.mk.inj h
      exact ⟨hvalue.of_error hfirst, by rintro ⟨⟩⟩
  | case3 s _ first s₁ hfirst s₂ =>
      obtain ⟨rfl, rfl⟩ := Prod.mk.inj h
      have hclose := (Reader.budget_skip_le s₂ 1).trans (hround hfirst)
      exact ⟨by omega, fun _ => hclose⟩
  | case4 s _ first s₁ hfirst s₂ _ fault s₃ =>
      rename_i hmissing
      obtain ⟨rfl, rfl⟩ := Prod.mk.inj h
      have hmissing := (hcomma.of_error hmissing).trans (hround hfirst)
      exact ⟨by omega, by rintro ⟨⟩⟩
  | case5 s _ first s₁ hfirst s₂ _ _ s₃ hread s₄ _ others s₅ hothers =>
      rename_i ih
      obtain ⟨rfl, rfl⟩ := Prod.mk.inj h
      have hbefore : s₄.budget < s.budget := (hbehind hread).trans_le (hround hfirst)
      have hrest := (ih hothers).1
      exact ⟨by omega, fun _ => by omega⟩
  | case6 s _ first s₁ hfirst s₂ _ _ s₃ hread s₄ =>
      obtain ⟨rfl, rfl⟩ := Prod.mk.inj h
      have hbefore : s₄.budget < s.budget := (hbehind hread).trans_le (hround hfirst)
      exact ⟨by omega, fun _ => by omega⟩

theorem listed_costs : Costs (listed value) 0 1 where
  of_ok h := (listed_budget hvalue h).2 rfl
  of_error h := (listed_budget hvalue h).1

theorem arguments_costs : Costs (arguments value) 1 0 := by
  have hopen : Costs (expect .leftParen) 1 0 := costs_expect (by simp)
  have hlines := costs_skipNewlines.mono (Nat.le_refl 0) (Nat.zero_le 1)
  have hinside := hlines.bind (fun _ => listed_costs hvalue) (Nat.le_refl 1)
  exact hopen.bind (fun _ => hinside) (Nat.le_refl 1)

/-- A value pays with its first token. Where that is no value its number is owed. -/
theorem valueWith_costs : Costs (valueWith value) 0 1 where
  of_ok {s s' v} h := by
    rcases valueWith_eq_ok.mp h with ⟨content, hpeek, -, rfl⟩ | ⟨name, values, hpeek, -, hread, -⟩
    · refine Reader.budget_takeId_skip_le (ne_of_eq_of_ne hpeek ?_)
      cases content <;> simp [Literal.kind]
    · have hpaid := Reader.budget_takeId_skip_le (ne_of_eq_of_ne hpeek (by simp))
      have hread := (arguments_costs hvalue).of_ok hread
      omega
  of_error {s s' fault} h := by
    rw [valueWith, freshId_bind, view_bind, view_bind] at h
    cases hliteral : literal? s.takeId.2.peek with
    | some content =>
        rw [hliteral] at h
        cases h
    | none =>
        rw [hliteral] at h
        have hnumber := s.budget_takeId
        rcases bind_eq_error.mp h with hname | ⟨name, s₁, hname, h⟩
        · have hname := (costs_identifier .value).of_error hname
          omega
        · have hname := (costs_identifier .value).of_ok hname
          rw [view_bind] at h
          split at h
          · rcases bind_eq_error.mp h with hread | ⟨values, s₂, -, h⟩
            · have hread := (arguments_costs hvalue).of_error hread
              omega
            · cases h
          · have hmissing := (costs_missing (.arguments name.text) 0).of_error h
            omega

end

theorem Costs.nested {inner : Parser α} {paid owed : Nat} (h : Costs inner paid owed) :
    Costs (nested inner) paid owed where
  of_ok hs := by
    rcases nested_cases hs with ⟨⟨⟩, -⟩ | ⟨s₁, hinner, rfl⟩
    have hcosts := h.of_ok hinner
    exact hcosts
  of_error hs := by
    rcases nested_cases hs with ⟨-, rfl⟩ | ⟨s₁, hinner, rfl⟩
    · exact Nat.le_add_right ..
    · have hcosts := h.of_error hinner
      exact hcosts

theorem value_costs : ∀ fuel : Nat, Costs (value fuel) 0 1
  | 0 => (costs_fail .tooDeep 0).mono (Nat.le_refl 0) (Nat.zero_le 1)
  | fuel + 1 => (valueWith_costs (value_costs fuel)).nested

/-! ## Statements -/

/-- What is read from the state leaves no number that no token has paid for; a fault leaves none
once the rest of the statement is passed over. -/
structure Settles (p : Parser α) (s : Reader) : Prop where
  of_ok : ∀ {s' : Reader} {a : α}, p s = (.ok a, s') → s'.budget ≤ s.budget
  of_error : ∀ {s' : Reader} {fault : Fault}, p s = (.error fault, s') →
    s'.synchronize.budget ≤ s.budget

theorem Costs.settles {p : Parser α} {paid : Nat} (h : Costs p paid 0) (s : Reader) :
    Settles p s where
  of_ok hs := (Nat.le_add_right ..).trans (h.of_ok hs)
  of_error hs := (Reader.budget_skip_le _ _).trans (h.of_error hs)

theorem Settles.bind {p : Parser α} {f : α → Parser β} {s : Reader} (hp : Settles p s)
    (hf : ∀ {a s₁}, p s = (.ok a, s₁) → Settles (f a) s₁) : Settles (p >>= f) s where
  of_ok h := by
    obtain ⟨a, s₁, hfirst, hrest⟩ := bind_eq_ok.mp h
    exact ((hf hfirst).of_ok hrest).trans (hp.of_ok hfirst)
  of_error h := by
    rcases bind_eq_error.mp h with hfirst | ⟨a, s₁, hfirst, hrest⟩
    · exact hp.of_error hfirst
    · exact ((hf hfirst).of_error hrest).trans (hp.of_ok hfirst)

theorem settles_view (f : Reader → α) (s : Reader) : Settles (view f) s :=
  (costs_view f).settles s

theorem settles_pure (a : α) (s : Reader) : Settles (pure a) s := (costs_pure a).settles s

theorem settles_terminator (s : Reader) : Settles terminator s where
  of_ok h := by
    rcases terminator_eq_ok.mp h with ⟨-, rfl⟩ | ⟨-, rfl⟩
    · exact Reader.budget_skip_le _ _
    · exact Nat.le_refl _
  of_error h := by
    unfold terminator at h
    split at h
    · cases h
    · cases h
    · cases h
    · cases h
    · exact ((costs_missing .separator 0).settles s).of_error h

/-- A statement pays for its number with its name. Where that is missing nothing is read. -/
structure Pays (p : Parser Statement) : Prop where
  of_ok : ∀ {s s' : Reader} {st : Statement}, p s = (.ok st, s') → s'.budget < s.budget
  of_error : ∀ {s s' : Reader} {fault : Fault}, p s = (.error fault, s') →
    s' = s ∨ s'.synchronize.budget < s.budget

section

variable {value : Parser Value} (hvalue : Costs value 0 1) {block : Parser Body}
  (hblock : ∀ {s : Reader}, s.peek = .leftBrace → Settles block s)

include hvalue hblock

theorem statementRest_settles (name : Name) (s : Reader) :
    Settles (statementRest value block name) s := by
  unfold statementRest
  refine (settles_view _ s).bind fun hkind => ?_
  obtain ⟨hpeek, rfl⟩ := Prod.mk.inj hkind
  obtain rfl := Except.ok.inj hpeek
  split
  · rename_i hequals
    -- the equals sign pays for a value that is missing
    have hpaid := Reader.budget_skip_lt (s := s) (n := 1) (by simp [hequals]) Nat.one_pos
    constructor
    · intro s' make h
      rw [advance, step_bind] at h
      obtain ⟨assigned, s₁, hread, h⟩ := bind_eq_ok.mp h
      obtain ⟨-, rfl⟩ := pure_eq_ok.mp h
      have hread := hvalue.of_ok hread
      omega
    · intro s' fault h
      rw [advance, step_bind] at h
      rcases bind_eq_error.mp h with hread | ⟨assigned, s₁, -, h⟩
      · have hread := hvalue.of_error hread
        have hrest : s'.synchronize.budget ≤ s'.budget := Reader.budget_skip_le s' _
        omega
      · cases h
  · refine ((arguments_costs hvalue).settles s).bind fun _ => ?_
    refine (settles_view _ _).bind fun hnext => ?_
    obtain ⟨hpeek, rfl⟩ := Prod.mk.inj hnext
    obtain rfl := Except.ok.inj hpeek
    split
    · rename_i hbrace
      exact (hblock hbrace).bind fun _ => settles_pure _ _
    · exact settles_pure _ _
  · rename_i hbrace
    exact (hblock hbrace).bind fun _ => settles_pure _ _
  · exact (costs_missing _ 0).settles s

theorem statement_pays (id : NodeId) : Pays (statement value block id) where
  of_ok {s s' st} h := by
    obtain ⟨name, make, s₁, hname, -, hrest, hend, -⟩ := statement_eq_ok.mp h
    have hpaid := Reader.budget_skip_lt (s := s) (n := 1) (by simp [hname]) Nat.one_pos
    have hrest := (statementRest_settles hvalue hblock name _).of_ok hrest
    have hend := (settles_terminator _).of_ok hend
    omega
  of_error {s s' fault} h := by
    rw [statement, view_bind] at h
    rcases bind_eq_error.mp h with hname | ⟨name, s₁, hname, h⟩
    · unfold identifier at hname
      split at hname
      · cases hname
      · obtain ⟨-, rfl⟩ := Prod.mk.inj hname
        exact Or.inl rfl
    · have hpaid := (costs_identifier .identifier).of_ok hname
      have hrest := ((statementRest_settles hvalue hblock name s₁).bind fun _ =>
        (settles_view Reader.lastEnd _).bind fun _ =>
          (settles_terminator _).bind fun _ => settles_pure _ _).of_error h
      exact Or.inr (by omega)

end

section

variable {parse : NodeId → Parser Statement} (hparse : ∀ id, Pays (parse id))

include hparse

/-- Where a statement can start, its number is paid for when it is read or passed over; when
reading is given up, the tokens that would be passed over could pay for it. -/
theorem recovering_budget {s s' : Reader} {first? : Option Statement}
    (h : recovering parse s = (first?, s')) (heof : s.peek ≠ .eof) (hbrace : s.peek ≠ .rightBrace)
    (hseparator : s.peek.isSeparator = false) :
    (first? ≠ none → s'.budget ≤ s.budget) ∧ s'.synchronize.budget ≤ s.budget := by
  have hnumber := s.budget_takeId
  have herror : ∀ {fault : Fault} {s₁ : Reader},
      parse s.takeId.1 s.takeId.2 = (.error fault, s₁) → s₁.synchronize.budget ≤ s.budget := by
    intro fault s₁ hread
    rcases (hparse _).of_error hread with rfl | hpaid
    · have hpos := Reader.statementLength_pos heof hbrace hseparator
      have hskip : s.takeId.2.synchronize.budget < s.takeId.2.budget :=
        Reader.budget_skip_lt (s := s.takeId.2) heof hpos
      omega
    · omega
  rcases recovering_cases h with ⟨first, rfl, hread⟩ | ⟨fault, s₁, hread, rfl, -⟩
    | ⟨fault, s₁, hread, rfl, -, rfl⟩
  · have hpaid := (hparse _).of_ok hread
    have hskip : s'.synchronize.budget ≤ s'.budget := Reader.budget_skip_le s' _
    exact ⟨fun _ => by omega, by omega⟩
  · have hpaid := herror hread
    exact ⟨fun _ => hpaid, (Reader.budget_skip_le _ _).trans hpaid⟩
  · have hpaid := herror hread
    exact ⟨fun hnone => absurd rfl hnone, hpaid⟩

theorem blockStatements_budget {opening : Span} {s s' : Reader}
    {result : Except Fault (List Statement)}
    (h : blockStatements parse opening s = (result, s')) (hseparator : s.peek.isSeparator = false) :
    (result.isOk → s'.budget ≤ s.budget) ∧ s'.synchronize.budget ≤ s.budget := by
  fun_induction blockStatements parse opening s generalizing result with
  | case1 s _ =>
      obtain ⟨rfl, rfl⟩ := Prod.mk.inj h
      exact ⟨fun _ => Nat.le_refl _, Reader.budget_skip_le s _⟩
  | case2 s _ =>
      obtain ⟨rfl, rfl⟩ := Prod.mk.inj h
      exact ⟨by rintro ⟨⟩, Reader.budget_skip_le s _⟩
  | case3 s s₁ hfirst =>
      rename_i hbrace heof
      obtain ⟨rfl, rfl⟩ := Prod.mk.inj h
      exact ⟨by rintro ⟨⟩, (recovering_budget hparse hfirst heof hbrace hseparator).2⟩
  | case4 s first s₁ hfirst s₂ _ others s₃ hothers =>
      rename_i hbrace heof ih
      obtain ⟨rfl, rfl⟩ := Prod.mk.inj h
      have hread := (recovering_budget hparse hfirst heof hbrace hseparator).1 (by simp)
      have hround : s₂.budget ≤ s.budget := (Reader.budget_skip_le s₁ _).trans hread
      obtain ⟨hok, hrest⟩ := ih hothers s₁.peek_skipSeparators
      refine ⟨fun hresult => (hok ?_).trans hround, hrest.trans hround⟩
      cases others with
      | error fault => cases hresult
      | ok others => rfl
  | case5 s first s₁ hfirst s₂ _ =>
      rename_i hbrace heof
      obtain ⟨rfl, rfl⟩ := Prod.mk.inj h
      have hread := (recovering_budget hparse hfirst heof hbrace hseparator).1 (by simp)
      have hround : s₂.budget ≤ s.budget := (Reader.budget_skip_le s₁ _).trans hread
      exact ⟨fun _ => hround, (Reader.budget_skip_le s₂ _).trans hround⟩

theorem blockWith_settles {s : Reader} (hbrace : s.peek = .leftBrace) :
    Settles (blockWith parse) s := by
  let inside := (s.takeId.2.skip 1).skipSeparators
  have hpaid : inside.budget ≤ s.budget :=
    (Reader.budget_skip_le _ _).trans (Reader.budget_takeId_skip_le (by simp [hbrace]))
  have hseparator : inside.peek.isSeparator = false := Reader.peek_skipSeparators _
  constructor
  · intro s' body h
    obtain ⟨statements, s₁, -, hstatements, -, rfl⟩ := blockWith_eq_ok.mp h
    have hread := (blockStatements_budget hparse hstatements hseparator).1 rfl
    exact (Reader.budget_skip_le s₁ 1).trans (hread.trans hpaid)
  · intro s' fault h
    rw [blockWith, freshId_bind, view_bind] at h
    rcases bind_eq_error.mp h with hopen | ⟨_, s₁, hopen, h⟩
    · have hexpect : expect .leftBrace s.takeId.2 = (.ok (), s.takeId.2.skip 1) := if_pos hbrace
      rw [hexpect] at hopen
      cases hopen
    · obtain ⟨-, rfl⟩ := expect_eq_ok.mp hopen
      rw [step_bind] at h
      rcases bind_eq_error.mp h with hstatements | ⟨statements, s₂, -, h⟩
      · exact (blockStatements_budget hparse hstatements hseparator).2.trans hpaid
      · cases h

/-- Each round outside of all blocks is paid for. -/
theorem topRound_budget {s s' : Reader} {first : Statement} (h : TopRound parse s first s')
    (hseparator : s.peek.isSeparator = false) : s'.budget ≤ s.budget := by
  cases h with
  | statement hround =>
      have hbudget := recovering_budget hparse hround.hread hround.heof hround.hbrace hseparator
      exact hbudget.1 (by simp)
  | brace hbrace hstray =>
      obtain ⟨-, rfl⟩ := Prod.mk.inj hstray
      have hpaid : (s.skip 1).budget < s.budget :=
        Reader.budget_skip_lt (by simp [hbrace]) Nat.one_pos
      have hnumber := (s.skip 1).budget_takeId
      exact hnumber.trans_le hpaid

/-- Outside of all blocks no more numbers are given away than there were tokens to be read. -/
theorem topStatements_nextId_le {s s' : Reader} {statements : List Statement}
    (h : topStatements parse s = (statements, s')) (hseparator : s.peek.isSeparator = false) :
    s'.nextId ≤ s.budget := by
  replace h := topRounds_of_eq h
  induction h with
  | done => exact Reader.nextId_le_budget _
  | @gaveUp s s' heof hbrace hnone =>
      have hpaid := (recovering_budget hparse hnone heof hbrace hseparator).2
      exact s'.synchronize.nextId_le_budget.trans hpaid
  | @more s first s₁ others s' hround _ _ ih =>
      have hpaid := topRound_budget hparse hround hseparator
      have hskip : s₁.skipSeparators.budget ≤ s₁.budget := Reader.budget_skip_le s₁ _
      exact (ih s₁.peek_skipSeparators).trans (hskip.trans hpaid)
  | @last s first s₁ s' hround hend _ =>
      have hpaid := topRound_budget hparse hround hseparator
      have hle : s₁.nextId ≤ s.budget := s₁.nextId_le_budget.trans hpaid
      rcases hend with rfl | rfl <;> exact hle

end

theorem Settles.nested {inner : Parser α} {s : Reader}
    (h : Settles inner { s with depth := s.depth + 1 }) : Settles (nested inner) s where
  of_ok hs := by
    rcases nested_cases hs with ⟨⟨⟩, -⟩ | ⟨s₁, hinner, rfl⟩
    have hbudget := h.of_ok hinner
    exact hbudget
  of_error hs := by
    rcases nested_cases hs with ⟨-, rfl⟩ | ⟨s₁, hinner, rfl⟩
    · exact Reader.budget_skip_le _ _
    · have hbudget := h.of_error hinner
      exact hbudget

theorem block_settles : ∀ (fuel : Nat) {s : Reader}, s.peek = .leftBrace → Settles (block fuel) s
  | 0, s, _ => (costs_fail .tooDeep 0).settles s
  | fuel + 1, s, hbrace => by
      have hstatement := statement_pays (value_costs fuel) (block_settles fuel)
      have hinside := blockWith_settles hstatement (s := { s with depth := s.depth + 1 }) hbrace
      exact hinside.nested

theorem topStatement_pays (id : NodeId) : Pays (topStatement id) :=
  statement_pays (value_costs fullFuel) (block_settles fullFuel) id

end Parser

/-! ## Scripts -/

theorem nextId_afterTokens_le (tokens : List Token) :
    (Reader.afterTokens tokens).nextId ≤ tokens.length := by
  let start := Reader.ofTokens tokens
  have hread : (Reader.afterTokens tokens).nextId ≤ start.skipSeparators.budget :=
    Parser.topStatements_nextId_le Parser.topStatement_pays rfl start.peek_skipSeparators
  have hunread : start.unread.length ≤ tokens.length :=
    (List.takeWhile_prefix _).length_le
  have hbudget : start.budget = start.unread.length := Nat.zero_add _
  have hskip : start.skipSeparators.budget ≤ start.budget := Reader.budget_skip_le start _
  omega

/-- **Every node has a number of its own**, and in preorder the numbers go up, also where
statements were passed over or blocks were discarded. Of fewer than 2³² tokens all numbers are words
of 32 bits, and so is the counter that gives them away when reading ends. -/
theorem numbered_ofTokens (source : String) {tokens : List Token} (h : tokens.length < 2 ^ 32) :
    let script := (ofTokens source tokens).script
    script.numbers.Nodup ∧ script.numbers.Pairwise (·.index < ·.index)
      ∧ (∀ id ∈ script.numbers, id.index < (Reader.afterTokens tokens).nextId)
      ∧ (Reader.afterTokens tokens).nextId < 2 ^ 32 := by
  intro script
  have hascends := ascends_numbers_ofTokens source tokens
  refine ⟨hascends.nodup, hascends.pairwise, hascends.index_lt, ?_⟩
  exact (nextId_afterTokens_le tokens).trans_lt h

/-- A block that is discarded with all its numbers, a line that is no statement, and a brace that
closes nothing. -/
theorem numbered_ofTokens_garden :
    let kinds : List Token.Kind := [.ident "bed", .leftBrace, .ident "x", .equals, .int 1,
      .rightBrace, .ident "y", .newline, .ident "pond", .leftParen, .ident "deep", .leftParen,
      .rightParen, .comma, .null, .rightParen, .leftBrace, .newline, .rightParen, .newline,
      .ident "fish", .leftBrace, .rightBrace, .rightBrace, .rightBrace]
    let tokens : List Token := kinds.zipIdx.map fun (kind, i) => ⟨kind, ⟨2 * i, 2 * i + 1⟩⟩
    let script := (ofTokens "garden" tokens).script
    tokens.length < 2 ^ 32
      ∧ script.numbers = [⟨0⟩, ⟨4⟩, ⟨5⟩, ⟨6⟩, ⟨7⟩, ⟨8⟩, ⟨9⟩, ⟨10⟩, ⟨11⟩]
      ∧ script.numbers.Nodup ∧ script.numbers.Pairwise (·.index < ·.index)
      ∧ (∀ id ∈ script.numbers, id.index < (Reader.afterTokens tokens).nextId)
      ∧ (Reader.afterTokens tokens).nextId < 2 ^ 32 := by
  intro kinds tokens script
  have hlength : tokens.length < 2 ^ 32 := by decide +kernel +revert
  have hnumbers : script.numbers = [⟨0⟩, ⟨4⟩, ⟨5⟩, ⟨6⟩, ⟨7⟩, ⟨8⟩, ⟨9⟩, ⟨10⟩, ⟨11⟩] := by
    decide +kernel +revert
  exact ⟨hlength, hnumbers, numbered_ofTokens "garden" hlength⟩

end Declarative.Script
