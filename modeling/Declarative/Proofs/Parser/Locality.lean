import Declarative.Proofs.Grammar.Malformed
import Declarative.Proofs.Parser.Alongside

/-!
# What is read depends on the tokens gone over

A series of statements is read one by one (`Parser.Series`), in a block as well as outside of all
blocks, and two readings of it that stand side by side at the start do so again at its end. So
blocks, and with them all statements, depend on nothing but the tokens that are gone over
(`Parser.localStatement_of_le`).

Well-formed statements are therefore read as the same statements, up to numbers, wherever there is
room for them (`Parser.exists_yields`): one reading says what all of them yield (`Parser.Yields`).
-/

namespace Declarative.Script

open Token (Kind)

namespace Parser

/-! ## Series of statements -/

/-- Statements are read or passed over one by one, and separators before and between them. -/
inductive Series (parse : NodeId → Parser Statement) : Reader → List Statement → Reader → Prop where
  | done {s} : Series parse s [] s
  | separator {s statements s'} (hseparator : s.peek.isSeparator = true)
      (hrest : Series parse (s.skip 1) statements s') : Series parse s statements s'
  | round {s first s₁ others s'} (hround : BlockRound parse s first s₁)
      (hseparator : s.peek.isSeparator = false) (hlt : s₁.unread.length < s.unread.length)
      (hrest : Series parse s₁ others s') : Series parse s (first :: others) s'

namespace Series

variable {parse : NodeId → Parser Statement} {s s₁ s' : Reader} {statements others : List Statement}

theorem append (h₁ : Series parse s statements s₁) (h₂ : Series parse s₁ others s') :
    Series parse s (statements ++ others) s' := by
  induction h₁ with
  | done => exact h₂
  | separator hseparator _ ih => exact .separator hseparator (ih h₂)
  | round hround hseparator hlt _ ih => exact .round hround hseparator hlt (ih h₂)

theorem of_skipSeparators {s : Reader} (h : Series parse s.skipSeparators statements s') :
    Series parse s statements s' := by
  by_cases hseparator : s.peek.isSeparator = true
  · have hlt : (s.skip 1).unread.length < s.unread.length :=
      Reader.length_skip_one_lt (Kind.ne_eof_of_isSeparator hseparator)
    rw [← Reader.skipSeparators_skip_one hseparator] at h
    exact .separator hseparator h.of_skipSeparators
  · rwa [Reader.skipSeparators, Reader.skipWhile_eq_self (by simpa using hseparator)] at h
termination_by s.unread.length

/-- Where a closing brace is next, the statements are those of a block. -/
theorem blockStatements_eq (h : Series parse s statements s')
    (hclose : s'.skipSeparators.peek = .rightBrace) (opening : Span) :
    blockStatements parse opening s.skipSeparators = (.ok statements, s'.skipSeparators) := by
  induction h with
  | done => rw [blockStatements, hclose]
  | separator hseparator _ ih => exact Reader.skipSeparators_skip_one hseparator ▸ ih hclose
  | @round s first s₁ others s' hround hseparator hlt _ ih =>
      have hlt' := s₁.onward_skipSeparators.length_le.trans_lt hlt
      rw [Reader.skipSeparators, Reader.skipWhile_eq_self hseparator, blockStatements]
      split
      · exact absurd ‹_› hround.hbrace
      · exact absurd ‹_› hround.heof
      · simp only [hround.hread, if_pos hlt', ih hclose]
        rfl

/-- Where the end of the text is next, they are those outside of all blocks. -/
theorem topStatements_eq (h : Series parse s statements s')
    (hend : s'.skipSeparators.peek = .eof) :
    topStatements parse s.skipSeparators = (statements, s'.skipSeparators) := by
  induction h with
  | done => rw [topStatements, hend]
  | separator hseparator _ ih => exact Reader.skipSeparators_skip_one hseparator ▸ ih hend
  | @round s first s₁ others s' hround hseparator hlt _ ih =>
      have hlt' := s₁.onward_skipSeparators.length_le.trans_lt hlt
      rw [Reader.skipSeparators, Reader.skipWhile_eq_self hseparator, topStatements]
      split
      · exact absurd ‹_› hround.heof
      · exact absurd ‹_› hround.hbrace
      · simp only [hround.hread, if_pos hlt', ih hend]

end Series

section

variable {parse parse' : NodeId → Parser Statement} (hgoes : ∀ id, GoesOn (parse id))

include hgoes

theorem Series.onward {s s' : Reader} {statements : List Statement}
    (h : Series parse s statements s') : s.Onward s' := by
  induction h with
  | @done s => exact Reader.onward_steady.refl s
  | @separator s _ _ _ _ ih => exact (s.onward_skip 1).trans ih
  | round hround _ _ _ ih =>
      exact (recovering_keeps Reader.onward_steady hgoes hround.hread).trans ih

theorem BlockRounds.onward {s s' : Reader} {statements : List Statement}
    (h : BlockRounds parse s statements s') : s.Onward s' := by
  have hround {s s₁ first} (hround : BlockRound parse s first s₁) : s.Onward s₁.skipSeparators :=
    (recovering_keeps Reader.onward_steady hgoes hround.hread).trans s₁.onward_skipSeparators
  induction h with
  | @closed s _ => exact Reader.onward_steady.refl s
  | more hfirst _ ih => exact (hround hfirst).trans ih
  | stuck hfirst _ => exact hround hfirst

/-- Where no fault is put on record, no statement is passed over. -/
theorem recovering_quiet {s s' : Reader} {first? : Option Statement}
    (h : recovering parse s = (first?, s')) (hfaults : s'.faults = s.faults) :
    ∃ first, first? = some first ∧ parse s.takeId.1 s.takeId.2 = (.ok first, s') := by
  have hreport {s₁ fault} (hread : parse s.takeId.1 s.takeId.2 = (.error fault, s₁)) :
      s.faults.length < (s₁.report fault).faults.length := by
    have hle := ((hgoes _).of_eq hread).faults.length_le
    rw [Reader.report, List.length_append]
    exact Nat.lt_succ_of_le hle
  rcases recovering_cases h with ⟨first, hfirst, hread⟩ | ⟨fault, s₁, hread, rfl, -⟩
    | ⟨fault, s₁, hread, rfl, -⟩
  · exact ⟨first, hfirst, hread⟩
  · exact absurd (congrArg List.length hfaults) (hreport hread).ne'
  · exact absurd (congrArg List.length hfaults) (hreport hread).ne'

variable (hshorter : ∀ {id s s' st}, parse id s = (.ok st, s') → s'.unread.length < s.unread.length)

include hshorter

/-- The loop over the statements of a block reads a series of them, if it finds no fault. -/
theorem series_of_rounds {s s' : Reader} {statements : List Statement}
    (h : BlockRounds parse s statements s') (hseparator : s.peek.isSeparator = false)
    (hfaults : s'.faults = s.faults) : Series parse s statements s' ∧ s'.peek = .rightBrace := by
  have hprogress {s s₁ first} (hround : BlockRound parse s first s₁)
      (hfaults : s₁.faults = s.faults) : s₁.unread.length < s.unread.length := by
    obtain ⟨first, -, hread⟩ := recovering_quiet hgoes hround.hread hfaults
    have hlt := hshorter hread
    exact hlt
  induction h with
  | closed hpeek => exact ⟨.done, hpeek⟩
  | @more s first s₁ others s' hround hrest ih =>
      have honward := recovering_keeps Reader.onward_steady hgoes hround.hread
      have hspares : Reader.Spares s'.unread s s' := ⟨Nat.le_refl _, hfaults⟩
      obtain ⟨hspares₁, hspares₂⟩ := hspares.split honward
        (s₁.onward_skipSeparators.trans (hrest.onward hgoes))
      obtain ⟨hseries, hclose⟩ := ih s₁.peek_skipSeparators hspares₂.faults
      exact ⟨.round hround hseparator (hprogress hround hspares₁.faults) hseries.of_skipSeparators,
        hclose⟩
  | @stuck s first s₁ hround hstuck =>
      have hlt := hprogress hround hfaults
      exact absurd (s₁.onward_skipSeparators.length_le.trans_lt hlt) hstuck

omit hshorter in
/-- The statements of a series that is read without a fault depend on the tokens gone over. -/
theorem Series.exists_alongside (hparse : LocalStatement parse parse') {s s' : Reader}
    {statements : List Statement} (h : Series parse s statements s') (hfaults : s'.faults = s.faults) :
    ∀ {rest' : List Token} {t : Reader}, s.Alongside s'.unread rest' t →
      (Reader.Closes s'.unread → Reader.Closes rest') →
        ∃ statements' t', Series parse' t statements' t' ∧ t'.unread = rest' ∧ t'.depth ≤ s'.depth
          ∧ t'.faults = t.faults
          ∧ Statement.unnumberedAll statements' = Statement.unnumberedAll statements := by
  induction h with
  | @done s =>
      intro rest' t halong _
      obtain ⟨shared, hs, ht⟩ := halong.unread
      obtain rfl := List.self_eq_append_left.mp hs
      exact ⟨[], t, .done, ht, halong.depth, rfl, rfl⟩
  | @separator s statements s' hseparator hrest ih =>
      intro rest' t halong hcloses
      have honward := hrest.onward hgoes
      have hlt : (s.skip 1).unread.length < s.unread.length :=
        Reader.length_skip_one_lt (Kind.ne_eof_of_isSeparator hseparator)
      obtain ⟨hpeek, -, hskip, -⟩ := halong.next (honward.length_le.trans_lt hlt)
      obtain ⟨statements', t', hseries, hunread, hdepth, hfaults', hsame⟩ :=
        ih hfaults hskip hcloses
      exact ⟨statements', t', .separator (hpeek ▸ hseparator) hseries, hunread, hdepth, hfaults',
        hsame⟩
  | @round s first s₁ others s' hround hseparator hlt hrest ih =>
      intro rest' t halong hcloses
      have honward := hrest.onward hgoes
      have hspares : Reader.Spares s'.unread s s' := ⟨Nat.le_refl _, hfaults⟩
      obtain ⟨hspares₁, hspares₂⟩ :=
        hspares.split (recovering_keeps Reader.onward_steady hgoes hround.hread) honward
      obtain ⟨_, ⟨⟩, hread⟩ := recovering_quiet hgoes hround.hread hspares₁.faults
      obtain ⟨hpeek, -⟩ := halong.next (honward.length_le.trans_lt hlt)
      obtain ⟨first', t₁, hread', halong₁, hfaults₁, hfirst⟩ :=
        @hparse _ _ _ _ _ _ t.takeId.1 _ hcloses halong.takeId hread
          ⟨hspares₁.length, hspares₁.faults⟩
      obtain ⟨others', t', hseries, hunread, hdepth, hfaults', hothers⟩ :=
        ih hspares₂.faults halong₁ hcloses
      refine ⟨first' :: others', t', .round ⟨hpeek ▸ hround.heof, hpeek ▸ hround.hbrace,
        recovering_of_ok hread'⟩ (hpeek ▸ hseparator) (halong.length_lt halong₁ hlt) hseries, hunread,
        hdepth, hfaults'.trans hfaults₁, ?_⟩
      rw [Statement.unnumberedAll, Statement.unnumberedAll, hfirst, hothers]

end

/-! ## Blocks -/

section

variable {parse parse' : NodeId → Parser Statement} (hgoes : ∀ id, GoesOn (parse id))

include hgoes

theorem blockWith_length_lt {s s' : Reader} {body : Body} (h : blockWith parse s = (.ok body, s')) :
    s'.unread.length < s.unread.length := by
  obtain ⟨statements, s₁, hopen, hstatements, -, rfl⟩ := blockWith_eq_ok.mp h
  have hlt : (s.takeId.2.skip 1).unread.length < s.unread.length :=
    @Reader.length_skip_one_lt s.takeId.2 fun heof => by cases hopen.symm.trans heof
  have honward := (s.takeId.2.skip 1).onward_skipSeparators.trans
    (((blockRounds_of_ok hstatements).onward hgoes).trans (s₁.onward_skip 1))
  exact honward.length_le.trans_lt hlt

variable (hshorter : ∀ {id s s' st}, parse id s = (.ok st, s') → s'.unread.length < s.unread.length)
  (hparse : LocalStatement parse parse')

include hshorter hparse

theorem blockWith_local : Local (blockWith parse) (blockWith parse') Body.unnumbered := by
  intro rest rest' s t s' body halong h hspares
  obtain ⟨statements, s₁, hopen, hstatements, rfl, rfl⟩ := blockWith_eq_ok.mp h
  have hrounds := blockRounds_of_ok hstatements
  let s₀ := s.takeId.2.skip 1
  have honward₀ : s.Onward s₀ := (Reader.onward_steady.takeId s).trans (s.takeId.2.onward_skip 1)
  have honward₁ : s₀.Onward s₁ := s₀.onward_skipSeparators.trans (hrounds.onward hgoes)
  obtain ⟨hspares₁, hspares₂⟩ := hspares.split honward₀ (honward₁.trans (s₁.onward_skip 1))
  obtain ⟨hspares₂, -⟩ := hspares₂.split honward₁ (s₁.onward_skip 1)
  obtain ⟨hseries, hclose⟩ :=
    series_of_rounds hgoes hshorter hrounds s₀.peek_skipSeparators hspares₂.faults
  replace hseries := hseries.of_skipSeparators
  -- the closing brace is shared, and closes the statements for both
  have hlt₁ : rest.length < s₁.unread.length :=
    hspares.length.trans_lt (Reader.length_skip_one_lt (by rw [hclose]; nofun))
  have hlt₀ : rest.length < s.takeId.2.unread.length :=
    hlt₁.trans_le (honward₁.length_le.trans honward₀.length_le)
  obtain ⟨hpeek, hhere, hskip, -⟩ := halong.takeId.next hlt₀
  obtain ⟨front, hfront, hwide⟩ := hskip.widen honward₁ hlt₁.le
  obtain ⟨closing, others, rfl⟩ := List.exists_cons_of_ne_nil (l := front) fun hnil => by
    rw [hfront, hnil, List.nil_append] at hlt₁
    exact Nat.lt_irrefl _ hlt₁
  have hbrace : closing.kind = .rightBrace := by simpa [Reader.peek, hfront] using hclose
  obtain ⟨statements', t₁, hseries', hunread, hdepth, hfaults, hsame⟩ :=
    hseries.exists_alongside hgoes hparse hspares₂.faults hwide fun _ => Or.inr hbrace
  obtain ⟨hpeek₁, hhere₁, hskip₁, hlast⟩ :=
    Reader.Alongside.next ⟨⟨_, hfront, hunread⟩, hdepth⟩ hlt₁
  have hclose₁ : t₁.peek = .rightBrace := hpeek₁.trans hclose
  have hself : t₁.skipSeparators = t₁ := Reader.skipSeparators_eq_self (Or.inr hclose₁)
  have hloop := hseries'.blockStatements_eq (by rw [hself, hclose₁]) t.here
  rw [hself] at hloop
  refine ⟨_, _, blockWith_eq_ok.mpr ⟨statements', t₁, hpeek.trans hopen, hloop, rfl, rfl⟩,
    ⟨hskip₁, hlast, hfaults⟩, ?_⟩
  have hhere₀ : t.here = s.here := hhere
  rw [Body.unnumbered, Body.unnumbered, hsame, hhere₀, hhere₁]

end

theorem block_length_lt : ∀ {fuel : Nat} {s s' : Reader} {body : Body},
    block fuel s = (.ok body, s') → s'.unread.length < s.unread.length
  | 0, s, s', body, h => by cases h
  | fuel + 1, s, s', body, h => by
      obtain ⟨-, s₁, hinner, rfl⟩ := nested_eq_ok.mp h
      have hlt := blockWith_length_lt (statement_goesOn fuel) hinner
      exact hlt

theorem statement_length_lt {fuel : Nat} {id : NodeId} {s s' : Reader} {st : Statement}
    (h : statement (value fuel) (block fuel) id s = (.ok st, s')) :
    s'.unread.length < s.unread.length := by
  obtain ⟨name, make, s₁, hname, -, hrest, hend, -⟩ := statement_eq_ok.mp h
  have hlt : (s.skip 1).unread.length < s.unread.length :=
    Reader.length_skip_one_lt (by rw [hname]; nofun)
  have honward := (statementRest_keeps Reader.onward_steady.elementary (value_goesOn fuel)
    (block_goesOn fuel) name).of_eq hrest
  have honward₁ := (keeps_terminator Reader.onward_steady.elementary).of_eq hend
  exact (honward.trans honward₁).length_le.trans_lt hlt

/-- Blocks are the same with more fuel. -/
theorem block_local : ∀ {fuel more : Nat}, fuel ≤ more →
    Local (block fuel) (block more) Body.unnumbered
  | 0, _, _ => by
      rintro rest rest' s t s' body - ⟨⟩
  | fuel + 1, more + 1, hle => by
      have hle := Nat.le_of_succ_le_succ hle
      have hparse := statement_local (value_goesOn fuel) (value_local hle) (block_goesOn fuel)
        (block_local hle) block_length_lt
      exact (blockWith_local (statement_goesOn fuel) statement_length_lt hparse).nested

/-- **What is read depends on the tokens gone over**: on no other number, level or token behind. -/
theorem localStatement_of_le {fuel more : Nat} (hle : fuel ≤ more) :
    LocalStatement (statement (value fuel) (block fuel)) (statement (value more) (block more)) :=
  statement_local (value_goesOn fuel) (value_local hle) (block_goesOn fuel) (block_local hle)
    block_length_lt

end Parser

namespace Reader

variable {s s' : Reader} {front rest : List Token}

theorem Onward.unread_eq (h : s.Onward s') (hs : s.unread = front ++ rest)
    (hlength : s'.unread.length = rest.length) : s'.unread = rest := by
  have hsuffix : rest <:+ s'.unread :=
    List.suffix_of_suffix_length_le ⟨front, hs.symm⟩ h.unread hlength.symm.le
  exact (hsuffix.eq_of_length hlength.symm).symm

theorem closes_of_kinds {rest : List Token} (h : Grammar.Closes (rest.map (·.kind))) :
    Closes rest := by
  cases rest with
  | nil => trivial
  | cons token others => exact Or.inr h

end Reader

namespace Parser

/-- The parser of statements inside of so many blocks. -/
def statementAt (depth : Nat) : NodeId → Parser Statement :=
  statement (value (fullFuel - depth)) (block (fullFuel - depth))

/-! ## What tokens yield -/

/-- Wherever the tokens stand in front of such a rest, on this level and with patience left, these
statements are read from them, up to numbers, and these faults are found. -/
def Yields (depth : Nat) (tokens : List Token) (ends : List Kind → Prop) (found : List Fault)
    (statements : List Statement) : Prop :=
  ∀ ⦃s : Reader⦄ ⦃rest : List Token⦄, s.unread = tokens ++ rest → ends (rest.map (·.kind)) →
    s.depth = depth → s.faults.length + found.length < maxFaults →
      ∃ read s', Series (statementAt depth) s read s' ∧ s'.unread = rest
        ∧ s'.faults = s.faults ++ found ∧ Statement.unnumberedAll read = statements

theorem statementAt_goesOn (depth : Nat) (id : NodeId) : GoesOn (statementAt depth id) :=
  statement_goesOn _ id

theorem Yields.mono {depth : Nat} {tokens : List Token} {ends ends' : List Kind → Prop}
    {found : List Fault} {statements : List Statement} (h : Yields depth tokens ends found statements)
    (hends : ∀ rest, ends' rest → ends rest) : Yields depth tokens ends' found statements :=
  fun _ _ hs hrest => h hs (hends _ hrest)

theorem Yields.append {depth : Nat} {tokens tokens' : List Token} {ends ends' : List Kind → Prop}
    {found found' : List Fault} {statements statements' : List Statement}
    (h : Yields depth tokens ends found statements)
    (h' : Yields depth tokens' ends' found' statements')
    (hends : ∀ rest, ends' rest → ends (tokens'.map (·.kind) ++ rest)) :
    Yields depth (tokens ++ tokens') ends' (found ++ found') (statements ++ statements') := by
  intro s rest hs hrest hdepth hfew
  rw [List.append_assoc] at hs
  rw [List.length_append] at hfew
  obtain ⟨read, s₁, hseries, hunread, hfaults, hread⟩ :=
    h hs (by rw [List.map_append]; exact hends _ hrest) hdepth (by omega)
  have hdepth₁ := (hseries.onward (statementAt_goesOn depth)).depth.trans hdepth
  obtain ⟨read', s₂, hseries', hunread', hfaults', hread'⟩ :=
    h' hunread hrest hdepth₁ (by rw [hfaults, List.length_append]; omega)
  refine ⟨read ++ read', s₂, hseries.append hseries', hunread', ?_, ?_⟩
  · rw [hfaults', hfaults, List.append_assoc]
  · rw [Statement.unnumberedAll_append, hread, hread']

/-! ## Well-formed statements -/

/-- What is left where a statement has ended in front of the tokens: a separator is part of the
end. -/
def behindEnd : List Kind → List Kind
  | [] => []
  | kind :: rest => if kind.isSeparator then rest else kind :: rest

theorem behindEnd_of_closes {rest : List Kind} (h : Grammar.Closes rest) : behindEnd rest = rest := by
  cases rest with
  | nil => rfl
  | cons kind others =>
      obtain rfl : kind = .rightBrace := h
      rfl

theorem behindEnd_cons {kind : Kind} {rest : List Kind} (h : kind.isSeparator = true) :
    behindEnd (kind :: rest) = rest := if_pos h

theorem exists_terminator {s : Reader} (h : Grammar.Follows s.kinds) :
    ∃ s', terminator s = (.ok (), s') ∧ s.Leaves (behindEnd s.kinds) s' := by
  cases hs : s.kinds with
  | nil =>
      refine ⟨s, terminator_eq_ok.mpr (Or.inr ⟨Or.inl (Reader.peek_of_kinds_nil hs), rfl⟩), ?_⟩
      exact ⟨hs, rfl, rfl⟩
  | cons kind rest =>
      have hpeek := Reader.peek_of_kinds hs
      rw [hs] at h
      rcases h with hseparator | rfl
      · rw [behindEnd_cons hseparator]
        exact ⟨s.skip 1, terminator_eq_ok.mpr (Or.inl ⟨hpeek ▸ hseparator, rfl⟩),
          Reader.leaves_skip_one hs⟩
      · exact ⟨s, terminator_eq_ok.mpr (Or.inr ⟨Or.inr hpeek, rfl⟩), hs, rfl, rfl⟩

section

variable {fuel : Nat}

/-- One round of a loop over statements, which takes the end of the statement with it. -/
theorem exists_round {s : Reader} {tree : Plain.Statement} {tokens rest : List Kind}
    (h : Grammar.Statement tree tokens) (hs : s.kinds = tokens ++ rest)
    (hrest : Grammar.Follows rest) (hfuel : tree.height ≤ fuel)
    (hroom : tree.height ≤ maxDepth - s.depth) :
    ∃ first s', BlockRound (statement (value fuel) (block fuel)) s first s'
      ∧ s.peek.isSeparator = false ∧ s.Leaves (behindEnd rest) s'
      ∧ s'.unread.length < s.unread.length := by
  obtain ⟨name, others, rfl⟩ := h.starts
  have hpeek := Reader.peek_of_kinds hs
  have hident := s.leaves_takeId.trans (@Reader.leaves_skip_one s.takeId.2 _ _ hs)
  obtain ⟨make, s₁, hok, hleaves, -⟩ := statementRest_complete (value_complete fuel)
    (block_complete fuel) ⟨name, s.here⟩ h hident.kinds hrest hfuel (hident.depth ▸ hroom)
  obtain ⟨s', hend, hleaves'⟩ := exists_terminator (s := s₁) (hleaves.kinds ▸ hrest)
  rw [hleaves.kinds] at hleaves'
  have hread : statement (value fuel) (block fuel) ⟨s.nextId⟩ s.takeId.2 = (.ok _, s') :=
    statement_eq_ok.mpr ⟨⟨name, s.here⟩, make, s₁, hpeek, rfl, hok, hend, rfl⟩
  have hlt : s'.unread.length < s.takeId.2.unread.length := statement_length_lt hread
  refine ⟨_, s', ⟨?_, ?_, recovering_of_ok hread⟩, ?_, hident.trans (hleaves.trans hleaves'), hlt⟩
  · rw [hpeek]; nofun
  · rw [hpeek]; nofun
  · rw [hpeek]; rfl

/-- Statements are read one by one if each has its end. -/
theorem exists_series : ∀ {trees : List Plain.Statement} {tokens : List Kind},
    Grammar.Statements trees tokens → ∀ {s : Reader} {rest : List Kind}, s.kinds = tokens ++ rest →
      Grammar.Terminated tokens ∨ Grammar.Closes rest → Plain.Statement.heightAll trees ≤ fuel →
      Plain.Statement.heightAll trees ≤ maxDepth - s.depth →
        ∃ statements s', Series (statement (value fuel) (block fuel)) s statements s'
          ∧ s.Leaves rest s'
  | _, _, .none, s, rest, hs, _, _, _ => ⟨[], s, .done, hs, rfl, rfl⟩
  | _, _, @Grammar.Statements.separator kind _ tokens hkind hrest, s, rest, hs, hends, hfuel, hroom => by
      have hskip := Reader.leaves_skip_one hs
      have hends' : Grammar.Terminated tokens ∨ Grammar.Closes rest :=
        hends.imp_left fun h => @Grammar.Terminated.of_append [kind] _ h
      obtain ⟨statements, s', hseries, hleaves⟩ :=
        exists_series hrest hskip.kinds hends' hfuel (hskip.depth ▸ hroom)
      exact ⟨statements, s', .separator (Reader.peek_of_kinds hs ▸ hkind) hseries,
        hskip.trans hleaves⟩
  | _, _, .last hfirst, s, rest, hs, hends, hfuel, hroom => by
      have hclose := hends.resolve_left hfirst.not_terminated
      obtain ⟨first, s', hround, hseparator, hleaves, hlt⟩ := exists_round hfirst hs hclose.follows
        (Nat.max_le.mp hfuel).1 (Nat.max_le.mp hroom).1
      rw [behindEnd_of_closes hclose] at hleaves
      exact ⟨[first], s', .round hround hseparator hlt .done, hleaves⟩
  | _, _, @Grammar.Statements.more _ tokens kind _ others hfirst hkind hothers, s, rest, hs, hends,
      hfuel, hroom => by
      rw [List.append_assoc, List.cons_append] at hs
      have hends' : Grammar.Terminated others ∨ Grammar.Closes rest :=
        hends.imp_left fun h =>
          @Grammar.Terminated.of_append (tokens ++ [kind]) others (by simpa using h)
      obtain ⟨first, s₁, hround, hseparator, hleaves, hlt⟩ := exists_round hfirst hs (Or.inl hkind)
        (Nat.max_le.mp hfuel).1 (Nat.max_le.mp hroom).1
      rw [behindEnd_cons hkind] at hleaves
      obtain ⟨statements, s', hseries, hleaves'⟩ := exists_series hothers hleaves.kinds hends'
        (Nat.max_le.mp hfuel).2 (hleaves.depth ▸ (Nat.max_le.mp hroom).2)
      exact ⟨first :: statements, s', .round hround hseparator hlt hseries, hleaves.trans hleaves'⟩

end

theorem le_fullFuel {depth room : Nat} (h : depth + room ≤ maxDepth) : room ≤ fullFuel - depth := by
  rw [fullFuel]
  omega

/-- Well-formed statements are read as the same statements wherever there is room for them: if each
has its end, or else in front of what closes the list of them. -/
theorem exists_yields {room : Nat} {tokens : List Token} (hroom : room ≤ maxDepth)
    (h : Grammar.WellFormed room (tokens.map (·.kind))) :
    ∃ statements, ∀ depth, depth + room ≤ maxDepth → Yields depth tokens
      (fun rest => Grammar.Terminated (tokens.map (·.kind)) ∨ Grammar.Closes rest) [] statements := by
  obtain ⟨trees, hderives, hheight⟩ := h
  -- one reading is enough, of the tokens in front of some rest and as deep as there is room
  obtain ⟨rest, hends, hcloses⟩ : ∃ rest : List Token,
      (Grammar.Terminated (tokens.map (·.kind)) ∨ Grammar.Closes (rest.map (·.kind)))
        ∧ (Reader.Closes rest → ¬Grammar.Terminated (tokens.map (·.kind))) := by
    by_cases hterminated : Grammar.Terminated (tokens.map (·.kind))
    · refine ⟨[⟨.comma, ⟨0, 0⟩⟩], Or.inl hterminated, ?_⟩
      rintro (h | h) <;> cases h
    · exact ⟨[], Or.inr trivial, fun _ => hterminated⟩
  let s₀ : Reader := ⟨tokens ++ rest, ⟨0, 0⟩, 0, 0, maxDepth - room, []⟩
  have hkinds : s₀.kinds = tokens.map (·.kind) ++ rest.map (·.kind) := List.map_append ..
  have hdeep : Plain.Statement.heightAll trees ≤ maxDepth - s₀.depth := by
    simp only [s₀]
    omega
  obtain ⟨statements, s₁, hseries, hleaves⟩ := exists_series hderives hkinds hends hheight hdeep
  have hstart : s₀.unread = tokens ++ rest := rfl
  have hunread : s₁.unread = rest := (hseries.onward (statement_goesOn room)).unread_eq hstart (by
    rw [Reader.length_unread, hleaves.kinds, List.length_map])
  refine ⟨Statement.unnumberedAll statements, fun depth hdepth s rest' hs hends' hlevel _ => ?_⟩
  have halong : s₀.Alongside s₁.unread rest' s := by
    refine ⟨⟨tokens, by rw [hunread], hs⟩, ?_⟩
    simp only [s₀]
    omega
  obtain ⟨read, s', hseries', hunread', -, hfaults, hsame⟩ :=
    hseries.exists_alongside (statement_goesOn room)
      (localStatement_of_le (le_fullFuel hdepth)) hleaves.faults halong fun hclose => by
        rw [hunread] at hclose
        exact Reader.closes_of_kinds (hends'.resolve_left (hcloses hclose))
  exact ⟨read, s', hseries', hunread', by rw [hfaults, List.append_nil], hsame⟩

/-- So are the arguments of a call. -/
theorem exists_arguments {room : Nat} {trees : List Plain.Value} {tokens : List Token}
    (hroom : room ≤ maxDepth) (h : Grammar.Arguments trees (tokens.map (·.kind)))
    (hheight : Plain.Value.heightAll trees ≤ room) :
    ∃ values, ∀ depth, depth + room ≤ maxDepth → ∀ {s : Reader} {rest : List Token},
      s.unread = tokens ++ rest → s.depth = depth →
        ∃ read s', arguments (value (fullFuel - depth)) s = (.ok read, s') ∧ s'.unread = rest
          ∧ s'.faults = s.faults ∧ Value.unnumberedAll read = values := by
  let s₀ : Reader := ⟨tokens, ⟨0, 0⟩, 0, 0, maxDepth - room, []⟩
  have hkinds : s₀.kinds = tokens.map (·.kind) ++ [] := (List.append_nil _).symm
  have hdeep : Plain.Value.heightAll trees ≤ maxDepth - s₀.depth := by
    simp only [s₀]
    omega
  obtain ⟨values, s₁, hread, hleaves, -⟩ :=
    arguments_complete (value_complete room) h hkinds hheight hdeep
  have hunread : s₁.unread = [] := List.map_eq_nil_iff.mp hleaves.kinds
  refine ⟨Value.unnumberedAll values, fun depth hdepth s rest hs hlevel => ?_⟩
  have halong : s₀.Alongside [] rest s := by
    refine ⟨⟨tokens, (List.append_nil _).symm, hs⟩, ?_⟩
    simp only [s₀]
    omega
  obtain ⟨read, s', hread', hlevel', hsame⟩ :=
    arguments_local (value_goesOn room) (value_local (le_fullFuel hdepth)) halong hread
      ⟨Nat.zero_le _, hleaves.faults⟩
  obtain ⟨shared, hs₁, hs'⟩ := hlevel'.unread
  obtain ⟨rfl, -⟩ := List.append_eq_nil_iff.mp (hs₁.symm.trans hunread)
  exact ⟨read, s', hread', hs', hlevel'.faults, hsame⟩

end Parser

end Declarative.Script
