import Declarative.Proofs.Parser.Coverage

/-!
# Two readings side by side

A parser that finds no fault yields the same tree from the same tokens, whatever stands behind them
and wherever they stand; only numbers differ. Two readings are compared, of which the second has as
much fuel and as many levels left at least (`Parser.Local`). They stand side by side as long as the
first has not gone over what it shares with the second (`Reader.Alongside`), and there both see the
same token.

A value ends with a token of its own, so nothing behind it is looked at. A statement may end in front
of what closes the list of statements, and what closes it for the first reading has to do so for the
second (`Parser.LocalStatement`). Here this is shown of values, and of statements if it holds of
blocks.
-/

namespace Declarative

/-! ## Trees without numbers -/

mutual

def Value.unnumbered : Value → Value
  | .literal _ span content => .literal ⟨0⟩ span content
  | .factory _ span name arguments => .factory ⟨0⟩ span name (Value.unnumberedAll arguments)

def Value.unnumberedAll : List Value → List Value
  | [] => []
  | value :: values => value.unnumbered :: Value.unnumberedAll values

end

mutual

def Statement.unnumbered : Statement → Statement
  | .call _ span name arguments body =>
    .call ⟨0⟩ span name (Value.unnumberedAll arguments) body.unnumbered
  | .assign _ span target value => .assign ⟨0⟩ span target value.unnumbered
  | .error _ span message => .error ⟨0⟩ span message

def Body.unnumbered : Body → Body
  | .absent => .absent
  | .block _ span statements => .block ⟨0⟩ span (Statement.unnumberedAll statements)

def Statement.unnumberedAll : List Statement → List Statement
  | [] => []
  | statement :: statements => statement.unnumbered :: Statement.unnumberedAll statements

end

theorem Statement.unnumberedAll_append (first second : List Statement) :
    unnumberedAll (first ++ second) = unnumberedAll first ++ unnumberedAll second := by
  induction first with
  | nil => rfl
  | cons statement first ih => simp only [List.cons_append, unnumberedAll, ih]

namespace Script

open Token (Kind)

namespace Reader

variable {rest rest' : List Token} {s s₁ s₂ t : Reader}

/-! ## Two readings side by side -/

/-- Reading has gone on: what is left now was left before, on the same level, and no fault is taken
off the record. -/
structure Onward (s s' : Reader) : Prop where
  unread : s'.unread <:+ s.unread
  depth : s'.depth = s.depth
  faults : s.faults <+: s'.faults

theorem onward_steady : Law.Steady Onward where
  refl _ := ⟨List.suffix_rfl, rfl, List.prefix_rfl⟩
  trans h₁ h₂ := ⟨h₂.unread.trans h₁.unread, h₂.depth.trans h₁.depth, h₁.faults.trans h₂.faults⟩
  skip s n := ⟨List.drop_suffix n s.unread, rfl, List.prefix_rfl⟩
  takeId _ := ⟨List.suffix_rfl, rfl, List.prefix_rfl⟩
  report _ _ := ⟨List.suffix_rfl, rfl, List.prefix_append _ _⟩

theorem Onward.trans (h₁ : s.Onward s₁) (h₂ : s₁.Onward s₂) : s.Onward s₂ :=
  onward_steady.trans h₁ h₂

theorem onward_skip (s : Reader) (n : Nat) : s.Onward (s.skip n) := onward_steady.skip s n

theorem onward_skipNewlines (s : Reader) : s.Onward s.skipNewlines := s.onward_skip _

theorem onward_skipSeparators (s : Reader) : s.Onward s.skipSeparators := s.onward_skip _

theorem Onward.length_le (h : s.Onward s₁) : s₁.unread.length ≤ s.unread.length :=
  h.unread.length_le

theorem length_skip_one_lt (h : s.peek ≠ .eof) : (s.skip 1).unread.length < s.unread.length := by
  obtain ⟨token, others, hunread, -, -⟩ := exists_unread_cons h
  simp [skip, hunread]

theorem unread_skipWhile (s : Reader) (test : Kind → Bool) :
    (s.skipWhile test).unread = s.unread.dropWhile (test ·.kind) := by
  have hdrop : (s.unread.takeWhile (test ·.kind) ++ s.unread.dropWhile (test ·.kind)).drop
      (s.unread.takeWhile (test ·.kind)).length = s.unread.dropWhile (test ·.kind) := List.drop_left
  rwa [List.takeWhile_append_dropWhile] at hdrop

theorem skip_skip (s : Reader) (m n : Nat) : (s.skip m).skip n = s.skip (m + n) := by
  unfold skip
  simp only [List.drop_drop, List.take_add, List.getLast?_append, mk.injEq, true_and, and_true]
  cases (List.take n (List.drop m s.unread)).getLast? <;> rfl

theorem skipSeparators_skip_one (h : s.peek.isSeparator = true) :
    (s.skip 1).skipSeparators = s.skipSeparators := by
  obtain ⟨token, others, hunread, hkind, -⟩ := exists_unread_cons (Kind.ne_eof_of_isSeparator h)
  rw [← hkind] at h
  rw [skipSeparators, skipWhile, skip_skip, skipSeparators, skipWhile, hunread,
    List.takeWhile_cons_of_pos (p := fun t : Token => t.kind.isSeparator) h, List.length_cons,
    Nat.add_comm]
  simp [skip, hunread]

/-- Reading has gone on without a fault and has not gone into `rest`. -/
structure Spares (rest : List Token) (s s' : Reader) : Prop where
  length : rest.length ≤ s'.unread.length
  faults : s'.faults = s.faults

/-- Then it has not done so before or after any state in between. -/
theorem Spares.split (h : Spares rest s s₂) (h₁ : s.Onward s₁) (h₂ : s₁.Onward s₂) :
    Spares rest s s₁ ∧ Spares rest s₁ s₂ := by
  have hlength : s₁.faults.length ≤ s.faults.length := h.faults ▸ h₂.faults.length_le
  have hfaults := (h₁.faults.eq_of_length_le hlength).symm
  exact ⟨⟨h.length.trans h₂.length_le, hfaults⟩, ⟨h.length, h.faults.trans hfaults.symm⟩⟩

/-- Both readings stand in front of the same tokens, behind which `rest` is left to the first and
`rest'` to the second, and the second has as many levels left at least. -/
structure Alongside (rest rest' : List Token) (s t : Reader) : Prop where
  unread : ∃ shared, s.unread = shared ++ rest ∧ t.unread = shared ++ rest'
  depth : t.depth ≤ s.depth

namespace Alongside

variable (h : Alongside rest rest' s t)

include h

theorem takeId : Alongside rest rest' s.takeId.2 t.takeId.2 := ⟨h.unread, h.depth⟩

theorem length_eq : t.unread.length + rest.length = s.unread.length + rest'.length := by
  obtain ⟨shared, hs, ht⟩ := h.unread
  rw [hs, ht, List.length_append, List.length_append]
  omega

/-- Where the first has made progress, the second has. -/
theorem length_lt {s₁ t₁ : Reader} (h₁ : Alongside rest rest' s₁ t₁)
    (hlt : s₁.unread.length < s.unread.length) : t₁.unread.length < t.unread.length := by
  have hlength := h.length_eq
  have hlength₁ := h₁.length_eq
  omega

/-- As long as the first has not gone over what they share, they read the same token. -/
theorem next (hlt : rest.length < s.unread.length) :
    t.peek = s.peek ∧ t.here = s.here ∧ Alongside rest rest' (s.skip 1) (t.skip 1)
      ∧ (t.skip 1).lastEnd = (s.skip 1).lastEnd := by
  obtain ⟨⟨shared, hs, ht⟩, hdepth⟩ := h
  cases shared with
  | nil =>
      rw [hs, List.nil_append] at hlt
      exact absurd hlt (Nat.lt_irrefl _)
  | cons token shared =>
      refine ⟨by simp [peek, hs, ht], by simp [here, hs, ht], ⟨⟨shared, ?_, ?_⟩, hdepth⟩, ?_⟩ <;>
        simp [skip, hs, ht]

theorem skipWhile {test : Kind → Bool} (hlt : rest.length < (s.skipWhile test).unread.length) :
    Alongside rest rest' (s.skipWhile test) (t.skipWhile test) := by
  obtain ⟨⟨shared, hs, ht⟩, hdepth⟩ := h
  rw [unread_skipWhile, hs, List.dropWhile_append] at hlt
  split at hlt
  · have hle := (rest.dropWhile_suffix (test ·.kind)).length_le
    omega
  · rename_i hshared
    refine ⟨⟨shared.dropWhile (test ·.kind), ?_, ?_⟩, hdepth⟩
    · rw [unread_skipWhile, hs, List.dropWhile_append, if_neg hshared]
    · rw [unread_skipWhile, ht, List.dropWhile_append, if_neg hshared]

/-- What the first reading has left later on may be taken for the rest. -/
theorem widen (honward : s.Onward s₁) (hle : rest.length ≤ s₁.unread.length) :
    ∃ front, s₁.unread = front ++ rest ∧ Alongside s₁.unread (front ++ rest') s t := by
  obtain ⟨shared, hs, ht⟩ := h.unread
  obtain ⟨read, hread⟩ := honward.unread
  have hrest : rest <:+ s₁.unread :=
    List.suffix_of_suffix_length_le ⟨shared, hs.symm⟩ ⟨read, hread⟩ hle
  obtain ⟨front, hfront⟩ := hrest
  refine ⟨front, hfront.symm, ⟨read, hread.symm, ?_⟩, h.depth⟩
  have hshared : read ++ front = shared := by
    rw [← hread, ← hfront, ← List.append_assoc] at hs
    exact List.append_cancel_right hs
  rw [ht, ← hshared, List.append_assoc]

end Alongside

/-- The second reading has gone on without a fault until it stood beside the first again, and the
token read last was the same. -/
structure DrawsLevel (rest rest' : List Token) (s t t' : Reader) : Prop
    extends Alongside rest rest' s t' where
  lastEnd : t'.lastEnd = s.lastEnd
  faults : t'.faults = t.faults

theorem DrawsLevel.of_faults {t' t₁ : Reader} (h : DrawsLevel rest rest' s t₁ t')
    (hfaults : t₁.faults = t.faults) : DrawsLevel rest rest' s t t' :=
  ⟨h.toAlongside, h.lastEnd, h.faults.trans hfaults⟩

/-- What closes a list of statements comes next: the end of the text or a closing brace. -/
def Closes : List Token → Prop
  | [] => True
  | token :: _ => token.kind = .eof ∨ token.kind = .rightBrace

theorem closes_unread_iff : Closes s.unread ↔ s.peek = .eof ∨ s.peek = .rightBrace := by
  unfold Closes peek
  cases s.unread <;> simp

end Reader

namespace Parser

variable {α β : Type}

/-- The parser goes on only. -/
def GoesOn (p : Parser α) : Prop := Keeps (.ofStates Reader.Onward) p

theorem nested_goesOn {inner : Parser α} (h : GoesOn inner) : GoesOn (nested inner) := by
  intro s
  unfold nested
  split
  · obtain ⟨hunread, hdepth, hfaults⟩ := h { s with depth := s.depth + 1 }
    exact ⟨hunread, by simp [hdepth], hfaults⟩
  · exact Reader.onward_steady.refl s

theorem value_goesOn (fuel : Nat) : GoesOn (value fuel) :=
  value_keeps Reader.onward_steady.elementary nested_goesOn fuel

theorem block_goesOn (fuel : Nat) : GoesOn (block fuel) :=
  block_keeps Reader.onward_steady nested_goesOn fuel

theorem statement_goesOn (fuel : Nat) (id : NodeId) :
    GoesOn (statement (value fuel) (block fuel) id) :=
  statement_keeps Reader.onward_steady.elementary (value_goesOn fuel) (block_goesOn fuel) id

/-- What the first parser reads without a fault, the second reads in front of any other rest, if it
has as many levels left at least. -/
def Local (p q : Parser α) (erase : α → β) : Prop :=
  ∀ ⦃rest rest' : List Token⦄ ⦃s t s' : Reader⦄ ⦃a : α⦄, s.Alongside rest rest' t →
    p s = (.ok a, s') → s.Spares rest s' →
      ∃ b t', q t = (.ok b, t') ∧ s'.DrawsLevel rest rest' t t' ∧ erase b = erase a

theorem Local.nested {inner inner' : Parser α} {erase : α → β} (h : Local inner inner' erase) :
    Local (nested inner) (nested inner') erase := by
  intro rest rest' s t s' a halong hs hspares
  obtain ⟨hdepth, s₁, hinner, rfl⟩ := nested_eq_ok.mp hs
  obtain ⟨b, t₁, hb, hlevel, herase⟩ := @h rest rest' { s with depth := s.depth + 1 }
    { t with depth := t.depth + 1 } s₁ a ⟨halong.unread, Nat.succ_le_succ halong.depth⟩ hinner
    ⟨hspares.length, hspares.faults⟩
  refine ⟨b, _, nested_eq_ok.mpr ⟨halong.depth.trans_lt hdepth, t₁, hb, rfl⟩,
    ⟨⟨hlevel.unread, ?_⟩, hlevel.lastEnd, hlevel.faults⟩, herase⟩
  exact Nat.sub_le_sub_right hlevel.depth 1

/-! ## Values -/

/-- How the values between parentheses are read, up to and with the closing one. -/
inductive Lists (value : Parser Value) : Reader → List Value → Reader → Prop where
  | close {s} (hclose : s.peek = .rightParen) : Lists value s [] (s.skip 1)
  | last {s first s₁} (hopen : s.peek ≠ .rightParen) (hfirst : value s = (.ok first, s₁))
      (hclose : s₁.skipNewlines.peek = .rightParen) :
      Lists value s [first] (s₁.skipNewlines.skip 1)
  | more {s first s₁ others s'} (hopen : s.peek ≠ .rightParen)
      (hfirst : value s = (.ok first, s₁)) (hcomma : s₁.skipNewlines.peek = .comma)
      (hrest : Lists value (s₁.skipNewlines.skip 1).skipNewlines others s') :
      Lists value s (first :: others) s'

section

variable {value value' : Parser Value} {s s' : Reader} {values : List Value}
  (hgoes : GoesOn value)

include hgoes

theorem onward_comma {s₁ : Reader} {first : Value} (hfirst : value s = (.ok first, s₁)) :
    s.Onward s₁ ∧ s₁.Onward s₁.skipNewlines
      ∧ s₁.skipNewlines.Onward (s₁.skipNewlines.skip 1).skipNewlines :=
  ⟨hgoes.of_eq hfirst, s₁.onward_skipNewlines,
    (s₁.skipNewlines.onward_skip 1).trans (s₁.skipNewlines.skip 1).onward_skipNewlines⟩

/-- A comma that was read makes the list of values go on. -/
theorem length_comma_lt {s₁ : Reader} {first : Value} (hfirst : value s = (.ok first, s₁))
    (hcomma : s₁.skipNewlines.peek = .comma) :
    (s₁.skipNewlines.skip 1).skipNewlines.unread.length < s.unread.length := by
  have hbefore := ((hgoes.of_eq hfirst).trans s₁.onward_skipNewlines).length_le
  have hlt : (s₁.skipNewlines.skip 1).unread.length < s₁.skipNewlines.unread.length :=
    Reader.length_skip_one_lt (by rw [hcomma]; nofun)
  have hafter := (s₁.skipNewlines.skip 1).onward_skipNewlines.length_le
  exact hafter.trans_lt (hlt.trans_le hbefore)

theorem lists_of_ok (h : listed value s = (.ok values, s')) : Lists value s values s' := by
  fun_induction listed value s generalizing values with
  | case1 s hclose =>
      obtain ⟨hvalues, rfl⟩ := Prod.mk.inj h
      obtain rfl := Except.ok.inj hvalues
      exact .close hclose
  | case2 | case4 => cases h
  | case3 s hopen first s₁ hfirst s₂ =>
      rename_i hclose
      obtain ⟨hvalues, rfl⟩ := Prod.mk.inj h
      obtain rfl := Except.ok.inj hvalues
      exact .last hopen hfirst hclose
  | case5 s hopen first s₁ hfirst s₂ _ _ s₃ hcomma s₄ _ others s₅ hothers =>
      rename_i ih
      obtain ⟨hpeek, rfl⟩ := expect_eq_ok.mp hcomma
      obtain ⟨hvalues, rfl⟩ := Prod.mk.inj h
      cases others with
      | error fault => cases hvalues
      | ok others =>
          obtain rfl := Except.ok.inj hvalues
          exact .more hopen hfirst hpeek (ih hothers)
  | case6 s hopen first s₁ hfirst s₂ _ _ s₃ hcomma s₄ =>
      rename_i hstuck
      obtain ⟨hpeek, rfl⟩ := expect_eq_ok.mp hcomma
      exact absurd (length_comma_lt hgoes hfirst hpeek) hstuck

/-- The closing parenthesis is read at least. -/
theorem Lists.length_lt (h : Lists value s values s') : s'.unread.length < s.unread.length := by
  induction h with
  | close hclose => exact Reader.length_skip_one_lt (by rw [hclose]; nofun)
  | @last s first s₁ _ hfirst hclose =>
      have hle := ((hgoes.of_eq hfirst).trans s₁.onward_skipNewlines).length_le
      exact (Reader.length_skip_one_lt (by rw [hclose]; nofun)).trans_le hle
  | more _ hfirst hcomma _ ih => exact ih.trans (length_comma_lt hgoes hfirst hcomma)

theorem Lists.onward (h : Lists value s values s') : s.Onward s' := by
  induction h with
  | @close s _ => exact s.onward_skip 1
  | @last s first s₁ _ hfirst _ =>
      exact (hgoes.of_eq hfirst).trans (s₁.onward_skipNewlines.trans (Reader.onward_skip _ 1))
  | @more s first s₁ _ _ _ hfirst _ _ ih =>
      obtain ⟨h₁, h₂, h₃⟩ := onward_comma hgoes hfirst
      exact h₁.trans (h₂.trans (h₃.trans ih))

variable (hvalue : Local value value' Value.unnumbered)

include hvalue

theorem listed_local : Local (listed value) (listed value') Value.unnumberedAll := by
  intro rest rest' s t s' values halong h hspares
  replace h := lists_of_ok hgoes h
  induction h generalizing t with
  | @close s hclose =>
      have hlt := (Lists.close hclose : Lists value s _ _).length_lt hgoes
      obtain ⟨hpeek, -, hskip, hlast⟩ := halong.next (hspares.length.trans_lt hlt)
      exact ⟨[], _, listed_close (hpeek.trans hclose), ⟨hskip, hlast, rfl⟩, rfl⟩
  | @last s first s₁ hopen hfirst hclose =>
      have hlt := Reader.length_skip_one_lt (s := s₁.skipNewlines) (by rw [hclose]; nofun)
      have hlt' := (Lists.last hopen hfirst hclose).length_lt hgoes
      obtain ⟨hspares₁, hspares₂⟩ := hspares.split (hgoes.of_eq hfirst)
        (s₁.onward_skipNewlines.trans (Reader.onward_skip _ 1))
      obtain ⟨hpeek, -⟩ := halong.next (hspares.length.trans_lt hlt')
      obtain ⟨first', t₁, hfirst', hlevel, hsame⟩ := hvalue halong hfirst hspares₁
      have hlines := hlevel.toAlongside.skipWhile (hspares.length.trans_lt hlt)
      obtain ⟨hpeek₁, -, hskip, hlast⟩ := hlines.next (hspares.length.trans_lt hlt)
      refine ⟨[first'], _, listed_last (hpeek ▸ hopen) hfirst' (hpeek₁.trans hclose),
        ⟨hskip, hlast, hlevel.faults⟩, ?_⟩
      rw [Value.unnumberedAll, Value.unnumberedAll, hsame]
      rfl
  | @more s first s₁ others s' hopen hfirst hcomma hrest ih =>
      have honward := hrest.onward hgoes
      have hlt := hrest.length_lt hgoes
      have hlt₁ := (Lists.more hopen hfirst hcomma hrest).length_lt hgoes
      obtain ⟨h₁, h₂, h₃⟩ := onward_comma hgoes hfirst
      obtain ⟨hspares₁, hspares₂⟩ := hspares.split h₁ (h₂.trans (h₃.trans honward))
      obtain ⟨-, hspares₃⟩ := hspares₂.split (h₂.trans h₃) honward
      obtain ⟨hpeek, -⟩ := halong.next (hspares.length.trans_lt hlt₁)
      obtain ⟨first', t₁, hfirst', hlevel, hsame⟩ := hvalue halong hfirst hspares₁
      -- the other values are read behind the comma, so reading gets there without the rest
      have hrest₄ := hspares.length.trans_lt hlt
      have hlines := hlevel.toAlongside.skipWhile (hrest₄.trans_le h₃.length_le)
      obtain ⟨hpeek₁, -, hskip, -⟩ := hlines.next (hrest₄.trans_le h₃.length_le)
      have hlines' := hskip.skipWhile hrest₄
      obtain ⟨others', t', hothers', hlevel', hsame'⟩ := ih hlines' hspares₃
      refine ⟨first' :: others', t', listed_more (hpeek ▸ hopen) hfirst' (hpeek₁.trans hcomma) ?_
        hothers', ⟨hlevel'.toAlongside, hlevel'.lastEnd, hlevel'.faults.trans hlevel.faults⟩, ?_⟩
      · exact halong.length_lt hlines' (length_comma_lt hgoes hfirst hcomma)
      · rw [Value.unnumberedAll, Value.unnumberedAll, hsame, hsame']

theorem arguments_local : Local (arguments value) (arguments value') Value.unnumberedAll := by
  intro rest rest' s t s' values halong h hspares
  obtain ⟨hopen, hlisted⟩ := arguments_eq_ok.mp h
  have hlists := lists_of_ok hgoes hlisted
  have hlt := hspares.length.trans_lt (hlists.length_lt hgoes)
  have hlines := (s.skip 1).onward_skipNewlines
  have hlt₁ := hlt.trans_le (hlines.length_le.trans (s.onward_skip 1).length_le)
  obtain ⟨-, hspares'⟩ := hspares.split ((s.onward_skip 1).trans hlines) (hlists.onward hgoes)
  obtain ⟨hpeek, -, hskip, -⟩ := halong.next hlt₁
  obtain ⟨values', t', hlisted', hlevel, hsame⟩ :=
    listed_local hgoes hvalue (hskip.skipWhile hlt) hlisted hspares'
  exact ⟨values', t', arguments_eq_ok.mpr ⟨hpeek.trans hopen, hlisted'⟩, hlevel.of_faults rfl,
    hsame⟩

theorem valueWith_local : Local (valueWith value) (valueWith value') Value.unnumbered := by
  intro rest rest' s t s' v halong h hspares
  rcases valueWith_eq_ok.mp h with ⟨content, hkind, rfl, rfl⟩
    | ⟨name, values, hname, hspan, harguments, rfl⟩
  · have hne : s.peek ≠ .eof := by
      rw [hkind]
      cases content <;> nofun
    obtain ⟨hpeek, hhere, hskip, hlast⟩ :=
      halong.next (hspares.length.trans_lt (Reader.length_skip_one_lt hne))
    refine ⟨_, _, valueWith_eq_ok.mpr (Or.inl ⟨content, hpeek.trans hkind, rfl, rfl⟩),
      ⟨hskip.takeId, hlast, rfl⟩, ?_⟩
    rw [Value.unnumbered, Value.unnumbered, hhere]
  · have hne : s.peek ≠ .eof := by
      rw [hname]
      nofun
    have honward := (arguments_keeps Reader.onward_steady.elementary hgoes).of_eq harguments
    have hle := hspares.length.trans honward.length_le
    obtain ⟨hpeek, hhere, hskip, -⟩ := halong.next (hle.trans_lt (Reader.length_skip_one_lt hne))
    have hname₁ := (Reader.onward_steady.takeId s).trans (s.takeId.2.onward_skip 1)
    obtain ⟨-, hspares'⟩ := hspares.split hname₁ honward
    obtain ⟨values', t', harguments', hlevel, hsame⟩ :=
      arguments_local hgoes hvalue hskip.takeId harguments hspares'
    refine ⟨_, t', valueWith_eq_ok.mpr (Or.inr ⟨name, values', hpeek.trans hname,
      hspan.trans hhere.symm, harguments', rfl⟩), hlevel.of_faults rfl, ?_⟩
    rw [Value.unnumbered, Value.unnumbered, hhere, hlevel.lastEnd, hsame]

end

/-- Values are the same with more fuel. -/
theorem value_local : ∀ {fuel more : Nat}, fuel ≤ more →
    Local (value fuel) (value more) Value.unnumbered
  | 0, _, _ => by
      rintro rest rest' s t s' v - ⟨⟩
  | fuel + 1, more + 1, hle =>
      (valueWith_local (value_goesOn fuel) (value_local (Nat.le_of_succ_le_succ hle))).nested

/-! ## Statements -/

/-- As `Local`, for a parser that reads a statement with its end. It is enough if the rest is for
the second reading one that closes a list of statements, where it is so for the first. -/
def LocalStatement (parse parse' : NodeId → Parser Statement) : Prop :=
  ∀ ⦃rest rest' : List Token⦄ ⦃s t s' : Reader⦄ ⦃id id' : NodeId⦄ ⦃st : Statement⦄,
    (Reader.Closes rest → Reader.Closes rest') → s.Alongside rest rest' t →
    parse id s = (.ok st, s') → s.Spares rest s' →
      ∃ st' t', parse' id' t = (.ok st', t') ∧ s'.Alongside rest rest' t' ∧ t'.faults = t.faults
        ∧ st'.unnumbered = st.unnumbered

theorem peek_ne_of_terminator {s s' : Reader} (h : terminator s = (.ok (), s')) :
    s.peek ≠ .leftBrace := by
  intro hbrace
  rcases terminator_eq_ok.mp h with ⟨hseparator, -⟩ | ⟨heof | hclose, -⟩
  · rw [hbrace] at hseparator
    cases hseparator
  · cases hbrace.symm.trans heof
  · cases hbrace.symm.trans hclose

theorem terminator_local {rest rest' : List Token} {s t s' : Reader}
    (hcloses : Reader.Closes rest → Reader.Closes rest') (halong : s.Alongside rest rest' t)
    (h : terminator s = (.ok (), s')) (hle : rest.length ≤ s'.unread.length) :
    ∃ t', terminator t = (.ok (), t') ∧ s'.Alongside rest rest' t' ∧ t'.faults = t.faults := by
  rcases terminator_eq_ok.mp h with ⟨hseparator, rfl⟩ | ⟨hstop, rfl⟩
  · have hlt : (s.skip 1).unread.length < s.unread.length :=
      Reader.length_skip_one_lt (Kind.ne_eof_of_isSeparator hseparator)
    obtain ⟨hpeek, -, hskip, -⟩ := halong.next (hle.trans_lt hlt)
    exact ⟨_, terminator_eq_ok.mpr (Or.inl ⟨hpeek ▸ hseparator, rfl⟩), hskip, rfl⟩
  · refine ⟨t, terminator_eq_ok.mpr (Or.inr ⟨?_, rfl⟩), halong, rfl⟩
    rcases Nat.lt_or_eq_of_le hle with hlt | heq
    · rwa [(halong.next hlt).1]
    · -- all that they share is read, and the rest closes the list of statements
      obtain ⟨shared, hs, ht⟩ := halong.unread
      obtain rfl : shared = [] := by simpa [heq] using congrArg List.length hs
      rw [List.nil_append] at hs ht
      rw [← Reader.closes_unread_iff] at hstop ⊢
      exact ht ▸ hcloses (hs ▸ hstop)

section

variable {value value' : Parser Value} {block block' : Parser Body}
  (hgoes : GoesOn value) (hvalue : Local value value' Value.unnumbered)
  (hgoes' : GoesOn block) (hblock : Local block block' Body.unnumbered)
  (hshorter : ∀ {s s' body}, block s = (.ok body, s') → s'.unread.length < s.unread.length)

include hgoes hvalue hgoes' hblock hshorter

/-- Only of arguments without a block the token behind matters, which must not open one. -/
theorem statementRest_local {name : Name} {rest rest' : List Token} {s t s' : Reader}
    {make : NodeId → Span → Statement} (halong : s.Alongside rest rest' t)
    (h : statementRest value block name s = (.ok make, s')) (hspares : s.Spares rest s')
    (hbehind : ∀ {t'}, s'.Alongside rest rest' t' → s'.peek ≠ .leftBrace → t'.peek ≠ .leftBrace) :
    ∃ make' t', statementRest value' block' name t = (.ok make', t')
      ∧ s'.DrawsLevel rest rest' t t'
      ∧ ∀ id id' span, (make' id' span).unnumbered = (make id span).unnumbered := by
  have harguments {s s₁ values} (h : arguments value s = (.ok values, s₁)) : s.Onward s₁ :=
    (arguments_keeps Reader.onward_steady.elementary hgoes).of_eq h
  rcases statementRest_eq_ok.mp h with ⟨assigned, hequals, hassigned, rfl⟩
    | ⟨values, hvalues, hnone, rfl⟩ | ⟨values, s₁, body, hvalues, hbrace, hbody, rfl⟩
    | ⟨body, hbrace, hbody, rfl⟩
  · have honward := hgoes.of_eq hassigned
    have hlt : (s.skip 1).unread.length < s.unread.length :=
      Reader.length_skip_one_lt (by rw [hequals]; nofun)
    have hlt' := hspares.length.trans_lt (honward.length_le.trans_lt hlt)
    obtain ⟨-, hspares'⟩ := hspares.split (s.onward_skip 1) honward
    obtain ⟨hpeek, -, hskip, -⟩ := halong.next hlt'
    obtain ⟨assigned', t', hassigned', hlevel, hsame⟩ := hvalue hskip hassigned hspares'
    refine ⟨_, t', statementRest_eq_ok.mpr (Or.inl ⟨assigned', hpeek.trans hequals, hassigned',
      rfl⟩), hlevel.of_faults rfl, fun _ _ _ => ?_⟩
    rw [Statement.unnumbered, Statement.unnumbered, hsame]
  · obtain ⟨values', t', hvalues', hlevel, hsame⟩ :=
      arguments_local hgoes hvalue halong hvalues hspares
    refine ⟨_, t', statementRest_eq_ok.mpr (Or.inr (Or.inl ⟨values', hvalues',
      hbehind hlevel.toAlongside hnone, rfl⟩)), hlevel, fun _ _ _ => ?_⟩
    rw [Statement.unnumbered, Statement.unnumbered, hsame]
  · have honward := hgoes'.of_eq hbody
    obtain ⟨hspares₁, hspares₂⟩ := hspares.split (harguments hvalues) honward
    obtain ⟨values', t₁, hvalues', hlevel₁, hsame₁⟩ :=
      arguments_local hgoes hvalue halong hvalues hspares₁
    obtain ⟨body', t', hbody', hlevel, hsame⟩ := hblock hlevel₁.toAlongside hbody hspares₂
    obtain ⟨hpeek, -⟩ := hlevel₁.toAlongside.next (hspares.length.trans_lt (hshorter hbody))
    refine ⟨_, t', statementRest_eq_ok.mpr (Or.inr (Or.inr (Or.inl ⟨values', t₁, body', hvalues',
      hpeek.trans hbrace, hbody', rfl⟩))), hlevel.of_faults hlevel₁.faults, fun _ _ _ => ?_⟩
    rw [Statement.unnumbered, Statement.unnumbered, hsame₁, hsame]
  · obtain ⟨body', t', hbody', hlevel, hsame⟩ := hblock halong hbody hspares
    obtain ⟨hpeek, -⟩ := halong.next (hspares.length.trans_lt (hshorter hbody))
    refine ⟨_, t', statementRest_eq_ok.mpr (Or.inr (Or.inr (Or.inr ⟨body', hpeek.trans hbrace,
      hbody', rfl⟩))), hlevel, fun _ _ _ => ?_⟩
    rw [Statement.unnumbered, Statement.unnumbered, hsame]

theorem statement_local : LocalStatement (statement value block) (statement value' block') := by
  intro rest rest' s t s' id id' st hcloses halong h hspares
  obtain ⟨name, make, s₁, hname, hspan, hrest, hend, rfl⟩ := statement_eq_ok.mp h
  have honward := (statementRest_keeps Reader.onward_steady.elementary hgoes hgoes' name).of_eq hrest
  have honward₁ := (keeps_terminator Reader.onward_steady.elementary).of_eq hend
  obtain ⟨hspares₁, hspares₂⟩ := hspares.split ((s.onward_skip 1).trans honward) honward₁
  obtain ⟨-, hspares₁⟩ := hspares₁.split (s.onward_skip 1) honward
  have hlt : (s.skip 1).unread.length < s.unread.length :=
    Reader.length_skip_one_lt (by rw [hname]; nofun)
  obtain ⟨hpeek, hhere, hskip, -⟩ :=
    halong.next (hspares₁.length.trans_lt (honward.length_le.trans_lt hlt))
  obtain ⟨make', t₁, hrest', hlevel, hmake⟩ := statementRest_local hgoes hvalue hgoes' hblock
    hshorter hskip hrest hspares₁ fun halong₁ _ => by
      obtain ⟨_, hend', -⟩ := terminator_local hcloses halong₁ hend hspares.length
      exact peek_ne_of_terminator hend'
  obtain ⟨t', hend', halong', hfaults⟩ :=
    terminator_local hcloses hlevel.toAlongside hend hspares.length
  refine ⟨_, t', statement_eq_ok.mpr ⟨name, make', t₁, hpeek.trans hname, hspan.trans hhere.symm,
    hrest', hend', rfl⟩, halong', hfaults.trans hlevel.faults, ?_⟩
  rw [hhere, hlevel.lastEnd, hmake id id']

end

end Parser

end Script

end Declarative
