import Declarative.Proofs.Grammar.Reading

/-!
# What is derived is read without fault

Where the tokens at the head are derived from the grammar, and the tree is no higher than
the fuel and the levels that are left, the parsers read just these tokens, find no fault
and yield the tree (`Parser.Complete`). Values and blocks end with a token of their own,
so nothing has to be known about what follows them. A statement may end with its arguments
or go on with a block; there the next token decides, and it is known only that the
statement is followed by what can follow one (`Grammar.Follows`).

The induction for values and for blocks is on the fuel, the one for lists is on the
derivation.
-/

namespace Declarative.Script

open Token (Kind)

namespace Reader

/-- Reading has gone on, without a fault, until the tokens were left. -/
structure Leaves (s : Reader) (rest : List Kind) (s' : Reader) : Prop where
  kinds : s'.kinds = rest
  depth : s'.depth = s.depth
  faults : s'.faults = s.faults

variable {s s₁ s₂ : Reader} {tokens rest rest' : List Kind} {kind : Kind}

theorem Leaves.trans (h₁ : s.Leaves rest s₁) (h₂ : s₁.Leaves rest' s₂) : s.Leaves rest' s₂ where
  kinds := h₂.kinds
  depth := h₂.depth.trans h₁.depth
  faults := h₂.faults.trans h₁.faults

theorem Advances.leaves (h : s.Advances tokens s₁) (hs : s.kinds = tokens ++ rest) :
    s.Leaves rest s₁ :=
  ⟨h.rest_eq hs, h.depth, h.faults⟩

theorem leaves_skip_one (hs : s.kinds = kind :: rest) : s.Leaves rest (s.skip 1) := by
  have hread := s.advances_skip 1
  rw [hs] at hread
  exact hread.leaves hs

theorem leaves_takeId (s : Reader) : s.Leaves s.kinds s.takeId.2 := ⟨rfl, rfl, rfl⟩

theorem leaves_skipWhile (test : Kind → Bool) :
    s.Leaves (s.kinds.dropWhile test) (s.skipWhile test) :=
  (s.advances_skipWhile test).leaves List.takeWhile_append_dropWhile.symm

theorem leaves_skipNewlines {lines : List Kind} (hs : s.kinds = lines ++ rest)
    (hlines : Grammar.Lines lines) (hrest : rest.head? ≠ some .newline) :
    s.Leaves rest s.skipNewlines := by
  have hdrop : s.kinds.dropWhile (· == .newline) = rest := by
    rw [hs, List.dropWhile_append_of_pos fun kind hkind => by simp [hlines kind hkind]]
    cases rest with
    | nil => rfl
    | cons kind others => exact List.dropWhile_cons_of_neg (by simpa using hrest)
  exact hdrop ▸ s.leaves_skipWhile _

theorem length_unread (s : Reader) : s.unread.length = s.kinds.length := by
  rw [kinds, List.length_map]

end Reader

namespace Parser

variable {α β : Type}

/-- What the grammar derives is read, if the tree is no higher than the fuel and the
levels left. -/
def Complete (p : Parser α) (plain : α → β) (derives : β → List Kind → Prop) (height : β → Nat)
    (fuel : Nat) : Prop :=
  ∀ ⦃s : Reader⦄ ⦃tree : β⦄ ⦃tokens rest : List Kind⦄, derives tree tokens →
    s.kinds = tokens ++ rest → height tree ≤ fuel → height tree ≤ maxDepth - s.depth →
      ∃ a s', p s = (.ok a, s') ∧ s.Leaves rest s' ∧ plain a = tree

theorem Complete.nested {inner : Parser α} {plain : α → β} {derives : β → List Kind → Prop}
    {height : β → Nat} {fuel : Nat} (h : Complete inner plain derives (height · - 1) fuel)
    (hpos : ∀ {tree tokens}, derives tree tokens → 0 < height tree) :
    Complete (nested inner) plain derives height (fuel + 1) := by
  intro s tree tokens rest hderives hs hfuel hroom
  have hheight := hpos hderives
  obtain ⟨a, s₁, hinner, hleaves, hplain⟩ := @h { s with depth := s.depth + 1 } _ _ _ hderives hs
    (by simp only; omega) (by simp only; omega)
  refine ⟨a, _, nested_eq_ok.mpr ⟨by omega, s₁, hinner, rfl⟩, ⟨hleaves.kinds, ?_, hleaves.faults⟩,
    hplain⟩
  simp only [hleaves.depth, Nat.add_sub_cancel]

/-! ## Values -/

theorem peek_ne_rightParen {s : Reader} {tree : Plain.Value} {tokens rest : List Kind}
    (h : Grammar.Value tree tokens) (hs : s.kinds = tokens ++ rest) : s.peek ≠ .rightParen := by
  obtain ⟨kind, others, rfl, hstarts⟩ := h.starts
  rw [Reader.peek_of_kinds hs]
  exact hstarts.ne.2

theorem listed_close {value : Parser Value} {s : Reader} (h : s.peek = .rightParen) :
    listed value s = (.ok [], s.skip 1) := by
  rw [listed, if_pos h]

theorem listed_last {value : Parser Value} {s s₁ : Reader} {first : Value}
    (hopen : s.peek ≠ .rightParen) (hfirst : value s = (.ok first, s₁))
    (hclose : s₁.skipNewlines.peek = .rightParen) :
    listed value s = (.ok [first], s₁.skipNewlines.skip 1) := by
  rw [listed, if_neg hopen, hfirst]
  exact if_pos hclose

theorem listed_more {value : Parser Value} {s s₁ s₂ : Reader} {first : Value}
    {others : List Value} (hopen : s.peek ≠ .rightParen) (hfirst : value s = (.ok first, s₁))
    (hcomma : s₁.skipNewlines.peek = .comma)
    (hlt : (s₁.skipNewlines.skip 1).skipNewlines.unread.length < s.unread.length)
    (hothers : listed value (s₁.skipNewlines.skip 1).skipNewlines = (.ok others, s₂)) :
    listed value s = (.ok (first :: others), s₂) := by
  have hne : s₁.skipNewlines.peek ≠ .rightParen := by
    rw [hcomma]
    nofun
  have hexpect : expect .comma s₁.skipNewlines = (.ok (), s₁.skipNewlines.skip 1) :=
    expect_eq_ok.mpr ⟨hcomma, rfl⟩
  rw [listed, if_neg hopen, hfirst]
  simp only [if_neg hne, hexpect, if_pos hlt, hothers]
  rfl

section

variable {value : Parser Value} {fuel : Nat}
  (hvalue : Complete value Value.plain Grammar.Value Plain.Value.height fuel)

include hvalue

theorem listed_complete {s : Reader} {rest : List Kind} :
    ∀ {trees : List Plain.Value} {tokens : List Kind}, Grammar.Items trees tokens →
      s.kinds = tokens ++ .rightParen :: rest → Plain.Value.heightAll trees ≤ fuel →
      Plain.Value.heightAll trees ≤ maxDepth - s.depth →
        ∃ values s', listed value s = (.ok values, s') ∧ s.Leaves rest s'
          ∧ Value.plainAll values = trees
  | _, _, .none, hs, _, _ => by
      exact ⟨[], _, listed_close (Reader.peek_of_kinds hs), Reader.leaves_skip_one hs, rfl⟩
  | _, _, .last hfirst hlines, hs, hfuel, hroom => by
      rw [List.append_assoc] at hs
      obtain ⟨first, s₁, hok, hleaves, rfl⟩ :=
        hvalue hfirst hs (Nat.max_le.mp hfuel).1 (Nat.max_le.mp hroom).1
      have hskip := Reader.leaves_skipNewlines hleaves.kinds hlines (by simp)
      have hclose := Reader.leaves_skip_one hskip.kinds
      exact ⟨[first], _, listed_last (peek_ne_rightParen hfirst hs) hok
        (Reader.peek_of_kinds hskip.kinds), hleaves.trans (hskip.trans hclose), rfl⟩
  | _, _, .more hfirst hbefore hafter hothers, hs, hfuel, hroom => by
      simp only [List.append_assoc, List.cons_append] at hs
      obtain ⟨first, s₁, hok, hleaves, rfl⟩ :=
        hvalue hfirst hs (Nat.max_le.mp hfuel).1 (Nat.max_le.mp hroom).1
      have hskip₁ := Reader.leaves_skipNewlines hleaves.kinds hbefore (by simp)
      have hcomma := Reader.leaves_skip_one hskip₁.kinds
      have hskip₂ := Reader.leaves_skipNewlines hcomma.kinds hafter hothers.head_ne
      have hread := hleaves.trans (hskip₁.trans (hcomma.trans hskip₂))
      obtain ⟨others, s₂, hok₂, hleaves₂, rfl⟩ := listed_complete hothers hread.kinds
        (Nat.max_le.mp hfuel).2 (hread.depth ▸ (Nat.max_le.mp hroom).2)
      have hlt : (s₁.skipNewlines.skip 1).skipNewlines.unread.length < s.unread.length := by
        rw [Reader.length_unread, Reader.length_unread, hread.kinds, hs]
        simp only [List.length_append, List.length_cons]
        omega
      exact ⟨first :: others, s₂, listed_more (peek_ne_rightParen hfirst hs) hok
        (Reader.peek_of_kinds hskip₁.kinds) hlt hok₂, hread.trans hleaves₂, rfl⟩

theorem arguments_complete : Complete (arguments value) Value.plainAll Grammar.Arguments
    Plain.Value.heightAll fuel := by
  rintro s trees _ rest ⟨hlines, hitems⟩ hs hfuel hroom
  simp only [List.cons_append, List.append_assoc, List.nil_append] at hs
  have hopen := Reader.leaves_skip_one hs
  have hskip := Reader.leaves_skipNewlines hopen.kinds hlines hitems.head_ne
  have hread := hopen.trans hskip
  obtain ⟨values, s₁, hok, hleaves, hplain⟩ := listed_complete hvalue hitems hread.kinds hfuel
    (hread.depth ▸ hroom)
  exact ⟨values, s₁, arguments_eq_ok.mpr ⟨Reader.peek_of_kinds hs, hok⟩, hread.trans hleaves,
    hplain⟩

theorem valueWith_complete : Complete (valueWith value) Value.plain Grammar.Value
    (·.height - 1) fuel := by
  intro s tree tokens rest hderives hs hfuel hroom
  cases hderives with
  | @literal content =>
      exact ⟨_, _, valueWith_eq_ok.mpr (Or.inl ⟨content, Reader.peek_of_kinds hs, rfl, rfl⟩),
        s.leaves_takeId.trans (@Reader.leaves_skip_one s.takeId.2 _ _ hs), rfl⟩
  | @factory name trees tokens harguments =>
      have hname := s.leaves_takeId.trans (@Reader.leaves_skip_one s.takeId.2 _ _ hs)
      simp only [Plain.Value.height, Nat.add_sub_cancel_left] at hfuel hroom
      obtain ⟨values, s₁, hok, hleaves, rfl⟩ :=
        arguments_complete hvalue harguments hname.kinds hfuel hroom
      exact ⟨_, s₁, valueWith_eq_ok.mpr (Or.inr ⟨⟨name, s.here⟩, values, Reader.peek_of_kinds hs,
        rfl, hok, rfl⟩), hname.trans hleaves, rfl⟩

end

theorem value_complete : ∀ fuel : Nat,
    Complete (value fuel) Value.plain Grammar.Value Plain.Value.height fuel
  | 0 => by
      intro s tree tokens rest _ _ hfuel _
      exact absurd tree.height_pos (Nat.not_lt.mpr hfuel)
  | fuel + 1 => (valueWith_complete (value_complete fuel)).nested fun _ => Plain.Value.height_pos _

/-! ## Statements -/

/-- As `Complete`, for a parser that reads a statement with its end. The separators behind
the end belong to the list of statements around. -/
def CompleteStatement (parse : NodeId → Parser Statement) (fuel : Nat) : Prop :=
  ∀ ⦃id : NodeId⦄ ⦃s : Reader⦄ ⦃tree : Plain.Statement⦄ ⦃tokens rest : List Kind⦄,
    Grammar.Statement tree tokens → s.kinds = tokens ++ rest → Grammar.Follows rest →
    tree.height ≤ fuel → tree.height ≤ maxDepth - s.depth →
      ∃ st s', parse id s = (.ok st, s')
        ∧ s.Leaves (rest.dropWhile Kind.isSeparator) s'.skipSeparators ∧ st.plain = tree

theorem terminator_complete {s : Reader} (h : Grammar.Follows s.kinds) :
    ∃ s', terminator s = (.ok (), s')
      ∧ s.Leaves (s.kinds.dropWhile Kind.isSeparator) s'.skipSeparators := by
  cases hs : s.kinds with
  | nil =>
      refine ⟨s, terminator_eq_ok.mpr (Or.inr ⟨Or.inl (Reader.peek_of_kinds_nil hs), rfl⟩), ?_⟩
      exact hs ▸ s.leaves_skipWhile Kind.isSeparator
  | cons kind rest =>
      have hpeek := Reader.peek_of_kinds hs
      rw [hs] at h
      rcases h with hseparator | rfl
      · have hread := Reader.leaves_skip_one hs
        refine ⟨s.skip 1, terminator_eq_ok.mpr (Or.inl ⟨hpeek ▸ hseparator, rfl⟩), ?_⟩
        rw [List.dropWhile_cons_of_pos hseparator, ← hread.kinds]
        exact hread.trans ((s.skip 1).leaves_skipWhile Kind.isSeparator)
      · refine ⟨s, terminator_eq_ok.mpr (Or.inr ⟨Or.inr hpeek, rfl⟩), ?_⟩
        exact hs ▸ s.leaves_skipWhile Kind.isSeparator

theorem peek_ne_leftBrace {s : Reader} (h : Grammar.Follows s.kinds) : s.peek ≠ .leftBrace := by
  cases hs : s.kinds with
  | nil =>
      rw [Reader.peek_of_kinds_nil hs]
      nofun
  | cons kind rest =>
      rw [Reader.peek_of_kinds hs]
      rw [hs] at h
      rintro rfl
      rcases h with h | h <;> cases h

section

variable {value : Parser Value} {block : Parser Body} {fuel : Nat}
  (hvalue : Complete value Value.plain Grammar.Value Plain.Value.height fuel)
  (hblock : Complete block Body.plain Grammar.Block Plain.Body.height fuel)

include hvalue hblock

theorem statementRest_complete (name : Name) {s : Reader} {tree : Plain.Statement}
    {tokens rest : List Kind} (h : Grammar.Statement tree (.ident name.text :: tokens))
    (hs : s.kinds = tokens ++ rest) (hrest : Grammar.Follows rest) (hfuel : tree.height ≤ fuel)
    (hroom : tree.height ≤ maxDepth - s.depth) :
    ∃ make s', statementRest value block name s = (.ok make, s') ∧ s.Leaves rest s'
      ∧ ∀ id span, (make id span).plain = tree := by
  cases h with
  | assign hassigned =>
      have hequals := Reader.leaves_skip_one hs
      obtain ⟨assigned, s₁, hok, hleaves, rfl⟩ := hvalue hassigned hequals.kinds hfuel
        (hequals.depth ▸ hroom)
      exact ⟨_, s₁, statementRest_eq_ok.mpr (Or.inl ⟨assigned, Reader.peek_of_kinds hs, hok, rfl⟩),
        hequals.trans hleaves, fun _ _ => rfl⟩
  | call harguments =>
      obtain ⟨values, s₁, hok, hleaves, rfl⟩ := arguments_complete hvalue harguments hs
        (Nat.max_le.mp hfuel).1 (Nat.max_le.mp hroom).1
      -- no block follows, because a statement is not followed by a brace that opens one
      have hne := peek_ne_leftBrace (s := s₁) (hleaves.kinds ▸ hrest)
      exact ⟨_, s₁, statementRest_eq_ok.mpr (Or.inr (Or.inl ⟨values, hok, hne, rfl⟩)), hleaves,
        fun _ _ => rfl⟩
  | callBlock harguments hinner =>
      rw [List.append_assoc] at hs
      obtain ⟨values, s₁, hok₁, hleaves₁, rfl⟩ := arguments_complete hvalue harguments hs
        (Nat.max_le.mp hfuel).1 (Nat.max_le.mp hroom).1
      obtain ⟨body, s₂, hok₂, hleaves₂, rfl⟩ := hblock hinner hleaves₁.kinds
        (Nat.max_le.mp hfuel).2 (hleaves₁.depth ▸ (Nat.max_le.mp hroom).2)
      refine ⟨_, s₂, statementRest_eq_ok.mpr (Or.inr (Or.inr (Or.inl
        ⟨values, s₁, body, hok₁, ?_, hok₂, rfl⟩))), hleaves₁.trans hleaves₂, fun _ _ => rfl⟩
      obtain ⟨others, rfl⟩ := hinner.starts
      exact Reader.peek_of_kinds hleaves₁.kinds
  | block hinner =>
      obtain ⟨body, s₁, hok, hleaves, rfl⟩ := hblock hinner hs (Nat.max_le.mp hfuel).2
        (Nat.max_le.mp hroom).2
      refine ⟨_, s₁, statementRest_eq_ok.mpr (Or.inr (Or.inr (Or.inr ⟨body, ?_, hok, rfl⟩))),
        hleaves, fun _ _ => rfl⟩
      obtain ⟨others, rfl⟩ := hinner.starts
      exact Reader.peek_of_kinds hs

theorem statement_complete : CompleteStatement (statement value block) fuel := by
  intro id s tree tokens rest hderives hs hrest hfuel hroom
  obtain ⟨text, others, rfl⟩ := hderives.starts
  have hident := Reader.leaves_skip_one hs
  obtain ⟨make, s₁, hok, hleaves, hmake⟩ := statementRest_complete hvalue hblock
    ⟨text, s.here⟩ hderives hident.kinds hrest hfuel (hident.depth ▸ hroom)
  obtain ⟨s₂, hend, hskip⟩ := terminator_complete (s := s₁) (hleaves.kinds ▸ hrest)
  rw [hleaves.kinds] at hskip
  exact ⟨_, s₂, statement_eq_ok.mpr ⟨⟨text, s.here⟩, make, s₁, Reader.peek_of_kinds hs, rfl, hok,
    hend, rfl⟩, hident.trans (hleaves.trans hskip), hmake _ _⟩

end

section

variable {parse : NodeId → Parser Statement} {fuel : Nat} (hparse : CompleteStatement parse fuel)

theorem recovering_of_ok {s s' : Reader} {first : Statement}
    (h : parse ⟨s.nextId⟩ s.takeId.2 = (.ok first, s')) :
    recovering parse s = (some first, s') := by
  rw [recovering]
  simp only [Reader.takeId] at h ⊢
  rw [h]

include hparse

/-- One round of a loop over statements, up to the next statement or what ends them. -/
theorem recovering_complete {s : Reader} {tree : Plain.Statement} {tokens rest : List Kind}
    (h : Grammar.Statement tree tokens) (hs : s.kinds = tokens ++ rest)
    (hrest : Grammar.Follows rest) (hfuel : tree.height ≤ fuel)
    (hroom : tree.height ≤ maxDepth - s.depth) :
    ∃ first s', recovering parse s = (some first, s')
      ∧ s.Leaves (rest.dropWhile Kind.isSeparator) s'.skipSeparators ∧ first.plain = tree
      ∧ s'.skipSeparators.unread.length < s.unread.length := by
  obtain ⟨first, s₁, hok, hleaves, hplain⟩ :=
    @hparse ⟨s.nextId⟩ s.takeId.2 _ _ _ h hs hrest hfuel hroom
  have hread := s.leaves_takeId.trans hleaves
  refine ⟨first, s₁, recovering_of_ok hok, hread, hplain, ?_⟩
  obtain ⟨name, others, rfl⟩ := h.starts
  have hsuffix := (rest.dropWhile_suffix Kind.isSeparator).length_le
  rw [Reader.length_unread, Reader.length_unread, hread.kinds, hs]
  simp only [List.length_append, List.length_cons]
  omega

/-- A loop over statements that stops in front of `close` and reads one statement a round
reads all that the grammar derives. -/
theorem statements_complete (reads : Reader → List Statement → Reader → Prop) (close : List Kind)
    (hclose : Grammar.Follows close) (hnoSeparator : close.dropWhile Kind.isSeparator = close)
    (hnil : ∀ {s}, s.kinds = close → reads s [] s)
    (hcons : ∀ {s s₁ s₂ name first others}, s.peek = .ident name →
      recovering parse s = (some first, s₁) →
      s₁.skipSeparators.unread.length < s.unread.length →
      reads s₁.skipSeparators others s₂ → reads s (first :: others) s₂) :
    ∀ {trees : List Plain.Statement} {tokens : List Kind}, Grammar.Statements trees tokens →
      ∀ {s : Reader}, s.kinds = (tokens ++ close).dropWhile Kind.isSeparator →
        Plain.Statement.heightAll trees ≤ fuel →
        Plain.Statement.heightAll trees ≤ maxDepth - s.depth →
          ∃ statements s', reads s statements s' ∧ s.Leaves close s'
            ∧ Statement.plainAll statements = trees
  | _, _, .none, s, hs, _, _ => by
      rw [List.nil_append, hnoSeparator] at hs
      exact ⟨[], s, hnil hs, ⟨hs, rfl, rfl⟩, rfl⟩
  | _, _, .separator hkind hrest, s, hs, hfuel, hroom => by
      rw [List.cons_append, List.dropWhile_cons_of_pos hkind] at hs
      exact statements_complete reads close hclose hnoSeparator hnil hcons hrest hs hfuel hroom
  | _, _, .last hfirst, s, hs, hfuel, hroom => by
      -- a statement starts with its name, so no separator is in front of it
      obtain ⟨name, others, rfl⟩ := hfirst.starts
      rw [List.cons_append, List.dropWhile_cons_of_neg (by nofun), ← List.cons_append] at hs
      obtain ⟨first, s₁, hok, hleaves, rfl, hlt⟩ := recovering_complete hparse hfirst hs hclose
        (Nat.max_le.mp hfuel).1 (Nat.max_le.mp hroom).1
      rw [hnoSeparator] at hleaves
      exact ⟨[first], _, hcons (Reader.peek_of_kinds hs) hok hlt (hnil hleaves.kinds), hleaves,
        rfl⟩
  | _, _, .more hfirst hkind hothers, s, hs, hfuel, hroom => by
      obtain ⟨name, rest, rfl⟩ := hfirst.starts
      rw [List.append_assoc, List.cons_append, List.dropWhile_cons_of_neg (by nofun),
        ← List.cons_append] at hs
      obtain ⟨first, s₁, hok, hleaves, rfl, hlt⟩ := recovering_complete hparse hfirst hs
        (Or.inl hkind) (Nat.max_le.mp hfuel).1 (Nat.max_le.mp hroom).1
      rw [List.cons_append, List.dropWhile_cons_of_pos hkind] at hleaves
      obtain ⟨others, s₂, hreads, hleaves₂, rfl⟩ :=
        statements_complete reads close hclose hnoSeparator hnil hcons hothers hleaves.kinds
          (Nat.max_le.mp hfuel).2 (hleaves.depth ▸ (Nat.max_le.mp hroom).2)
      exact ⟨first :: others, s₂, hcons (Reader.peek_of_kinds hs) hok hlt hreads,
        hleaves.trans hleaves₂, rfl⟩

omit hparse in
theorem blockStatements_cons {opening : Span} {s s₁ s₂ : Reader} {name : String}
    {first : Statement} {others : List Statement} (hpeek : s.peek = .ident name)
    (hfirst : recovering parse s = (some first, s₁))
    (hlt : s₁.skipSeparators.unread.length < s.unread.length)
    (hothers : blockStatements parse opening s₁.skipSeparators = (.ok others, s₂)) :
    blockStatements parse opening s = (.ok (first :: others), s₂) := by
  rw [blockStatements, hpeek]
  simp only [hfirst, if_pos hlt, hothers]
  rfl

omit hparse in
theorem topStatements_cons {s s₁ s₂ : Reader} {name : String} {first : Statement}
    {others : List Statement} (hpeek : s.peek = .ident name)
    (hfirst : recovering parse s = (some first, s₁))
    (hlt : s₁.skipSeparators.unread.length < s.unread.length)
    (hothers : topStatements parse s₁.skipSeparators = (others, s₂)) :
    topStatements parse s = (first :: others, s₂) := by
  rw [topStatements, hpeek]
  simp only [hfirst, if_pos hlt, hothers]

theorem topStatements_complete {s : Reader} {trees : List Plain.Statement} {tokens : List Kind}
    (h : Grammar.Statements trees tokens) (hs : s.kinds = tokens.dropWhile Kind.isSeparator)
    (hfuel : Plain.Statement.heightAll trees ≤ fuel)
    (hroom : Plain.Statement.heightAll trees ≤ maxDepth - s.depth) :
    ∃ statements s', topStatements parse s = (statements, s') ∧ s.Leaves [] s'
      ∧ Statement.plainAll statements = trees := by
  rw [← tokens.append_nil] at hs
  refine statements_complete hparse (fun s statements s' => topStatements parse s = (statements, s'))
    [] trivial rfl ?_ topStatements_cons h hs hfuel hroom
  intro s hs
  rw [topStatements, Reader.peek_of_kinds_nil hs]

theorem blockWith_complete : Complete (blockWith parse) Body.plain Grammar.Block (·.height - 1)
    fuel := by
  rintro s _ _ rest (⟨hstatements⟩) hs hfuel hroom
  simp only [List.cons_append, List.append_assoc, List.nil_append] at hs
  have hopen := s.leaves_takeId.trans (@Reader.leaves_skip_one s.takeId.2 _ _ hs)
  have hskip := hopen.trans ((s.takeId.2.skip 1).leaves_skipWhile Kind.isSeparator)
  rw [hopen.kinds] at hskip
  simp only [Plain.Body.height, Nat.add_sub_cancel_left] at hfuel hroom
  obtain ⟨statements, s₁, hok, hleaves, hplain⟩ := statements_complete hparse
    (fun s₁ statements s₂ => blockStatements parse s.here s₁ = (.ok statements, s₂))
    (.rightBrace :: rest) (Or.inr rfl) rfl
    (fun hs => by rw [blockStatements, Reader.peek_of_kinds hs]) blockStatements_cons hstatements
    hskip.kinds hfuel (hskip.depth ▸ hroom)
  refine ⟨_, _, blockWith_eq_ok.mpr ⟨statements, s₁, Reader.peek_of_kinds hs, hok, rfl, rfl⟩,
    hskip.trans (hleaves.trans (Reader.leaves_skip_one hleaves.kinds)), ?_⟩
  rw [Body.plain, hplain]

end

theorem block_complete : ∀ fuel : Nat,
    Complete (block fuel) Body.plain Grammar.Block Plain.Body.height fuel
  | 0 => by
      intro s tree tokens rest hderives _ hfuel _
      exact absurd hderives.height_pos (Nat.not_lt.mpr hfuel)
  | fuel + 1 =>
      (blockWith_complete (statement_complete (value_complete fuel) (block_complete fuel))).nested
        Grammar.Block.height_pos

end Parser

end Declarative.Script
