import Mathlib.Data.List.TakeWhile
import Declarative.Proofs.Grammar
import Declarative.Script.Parser

/-!
# Steps of reading

What the small parsers do to the tokens that are left. `Reader.Advances` says that reading
has gone over some tokens, on the same level and without a fault; and for each small
parser one lemma says exactly when it yields a value and in which state it leaves the
reader (`Parser.bind_eq_ok`, `Parser.expect_eq_ok`, …). Nothing later looks into these
parsers again. The loops over statements are taken apart into rounds (`Parser.BlockRounds`,
`Parser.TopRounds`); what is said of whatever such a loop reads is shown of one round and
then by induction on these.
-/

namespace Declarative.Script

open Token (Kind)

namespace Reader

def kinds (s : Reader) : List Kind := s.unread.map (·.kind)

/-- Reading has gone over the tokens and found no fault in them. -/
structure Advances (s : Reader) (tokens : List Kind) (s' : Reader) : Prop where
  kinds : s.kinds = tokens ++ s'.kinds
  depth : s'.depth = s.depth
  faults : s'.faults = s.faults

namespace Advances

variable {s s₁ s₂ : Reader} {tokens others rest : List Kind}

theorem refl (s : Reader) : s.Advances [] s := ⟨rfl, rfl, rfl⟩

theorem trans (h₁ : s.Advances tokens s₁) (h₂ : s₁.Advances others s₂) :
    s.Advances (tokens ++ others) s₂ where
  kinds := by rw [h₁.kinds, h₂.kinds, List.append_assoc]
  depth := h₂.depth.trans h₁.depth
  faults := h₂.faults.trans h₁.faults

theorem clean (h : s.Advances tokens s₁) (hclean : s₁.faults = []) : s.faults = [] :=
  h.faults.symm.trans hclean

/-- What is left is what stands behind the tokens read. -/
theorem rest_eq (h : s.Advances tokens s₁) (hs : s.kinds = tokens ++ rest) : s₁.kinds = rest :=
  List.append_cancel_left (h.kinds.symm.trans hs)

theorem length_le (h : s.Advances tokens s₁) : s₁.unread.length ≤ s.unread.length := by
  have hlength := congrArg List.length h.kinds
  simp only [Reader.kinds, List.length_append, List.length_map] at hlength
  omega

theorem length_lt (h : s.Advances tokens s₁) (hne : tokens ≠ []) :
    s₁.unread.length < s.unread.length := by
  have hlength := congrArg List.length h.kinds
  have hpos := List.length_pos_iff.mpr hne
  simp only [Reader.kinds, List.length_append, List.length_map] at hlength
  omega

end Advances

theorem kinds_eq_nil_of_peek {s : Reader} (hs : Kind.eof ∉ s.kinds) (h : s.peek = .eof) :
    s.kinds = [] := by
  cases hunread : s.unread with
  | nil => simp [kinds, hunread]
  | cons token rest =>
      simp only [peek, hunread] at h
      exact absurd (by simp [kinds, hunread, h]) hs

theorem peek_of_kinds {s : Reader} {kind : Kind} {rest : List Kind} (h : s.kinds = kind :: rest) :
    s.peek = kind := by
  cases hunread : s.unread with
  | nil => simp [kinds, hunread] at h
  | cons token others => simp_all [kinds, peek]

theorem peek_of_kinds_nil {s : Reader} (h : s.kinds = []) : s.peek = .eof := by
  simp [peek, List.map_eq_nil_iff.mp h]

theorem advances_skip (s : Reader) (n : Nat) : s.Advances (s.kinds.take n) (s.skip n) where
  kinds := by
    rw [kinds, kinds, skip, ← List.map_take, ← List.map_append, List.take_append_drop]
  depth := rfl
  faults := rfl

/-- One token is read if the text is not at its end. -/
theorem advances_skip_one {s : Reader} {kind : Kind} (h : s.peek = kind) (hne : kind ≠ .eof) :
    s.Advances [kind] (s.skip 1) := by
  have hskip := s.advances_skip 1
  cases hunread : s.unread with
  | nil => simp_all [peek]
  | cons token rest =>
      obtain rfl : token.kind = kind := by simpa [peek, hunread] using h
      simpa [kinds, hunread] using hskip

theorem advances_skipWhile (s : Reader) (test : Kind → Bool) :
    s.Advances (s.kinds.takeWhile test) (s.skipWhile test) := by
  have hlength : (s.unread.takeWhile (test ·.kind)).length = (s.kinds.takeWhile test).length := by
    rw [kinds, List.takeWhile_map, List.length_map]
    rfl
  have hskip := s.advances_skip (s.kinds.takeWhile test).length
  rwa [List.prefix_iff_eq_take.mp (List.takeWhile_prefix test) |>.symm, ← hlength] at hskip

theorem skipWhile_eq_self {s : Reader} {test : Kind → Bool} (h : test s.peek = false) :
    s.skipWhile test = s := by
  have hnone : s.unread.takeWhile (test ·.kind) = [] := by
    cases hunread : s.unread with
    | nil => rfl
    | cons token rest =>
        simp only [peek, hunread] at h
        rw [List.takeWhile_cons_of_neg (by simp [h])]
  rw [skipWhile, hnone]
  rfl

theorem advances_skipNewlines (s : Reader) :
    ∃ lines, Grammar.Lines lines ∧ s.Advances lines s.skipNewlines := by
  refine ⟨_, fun kind hkind => ?_, s.advances_skipWhile _⟩
  simpa using List.mem_takeWhile_imp hkind

theorem advances_skipSeparators (s : Reader) :
    ∃ separators, (∀ kind ∈ separators, kind.isSeparator)
      ∧ s.Advances separators s.skipSeparators :=
  ⟨_, fun _ hkind => List.mem_takeWhile_imp hkind, s.advances_skipWhile _⟩

theorem advances_takeId (s : Reader) : s.Advances [] s.takeId.2 := ⟨rfl, rfl, rfl⟩

theorem skipSeparators_eq_self {s : Reader} (h : s.peek = .eof ∨ s.peek = .rightBrace) :
    s.skipSeparators = s := by
  refine skipWhile_eq_self ?_
  rcases h with h | h <;> rw [h] <;> rfl

/-- Reading has gone over a statement of these tokens and over its end: a separator,
unless what ends the statements around it comes next. -/
def Ends (s : Reader) (tokens : List Kind) (s' : Reader) : Prop :=
  (∃ kind : Kind, kind.isSeparator ∧ s.Advances (tokens ++ [kind]) s')
    ∨ (s.Advances tokens s' ∧ (s'.peek = .eof ∨ s'.peek = .rightBrace))

end Reader

namespace Parser

variable {α β : Type}

/-! ## When parsers yield values -/

theorem bind_eq_ok {p : Parser α} {f : α → Parser β} {s s' : Reader} {b : β} :
    (p >>= f) s = (.ok b, s') ↔ ∃ a s₁, p s = (.ok a, s₁) ∧ f a s₁ = (.ok b, s') := by
  cases hp : p s with
  | mk result s₁ => cases result <;> simp [bind, hp]

theorem pure_eq_ok {a b : α} {s s' : Reader} :
    (pure a : Parser α) s = (.ok b, s') ↔ b = a ∧ s' = s := by
  show (Except.ok a, s) = _ ↔ _
  simp [eq_comm]

theorem view_bind {f : Reader → α} {g : α → Parser β} {s : Reader} :
    (view f >>= g) s = g (f s) s := rfl

theorem step_bind {f : Reader → Reader} {g : Unit → Parser β} {s : Reader} :
    (step f >>= g) s = g () (f s) := rfl

theorem freshId_bind {g : NodeId → Parser β} {s : Reader} :
    (freshId >>= g) s = g ⟨s.nextId⟩ s.takeId.2 := rfl

theorem missing_ne_ok {wanted : Wanted} {s s' : Reader} {a : α} :
    missing wanted s ≠ (.ok a, s') := by
  rintro ⟨⟩

theorem expect_eq_ok {kind : Kind} {s s' : Reader} {u : Unit} :
    expect kind s = (.ok u, s') ↔ s.peek = kind ∧ s' = s.skip 1 := by
  unfold expect
  split
  · rename_i hkind
    show (Except.ok (), s.skip 1) = _ ↔ _
    simp [hkind, eq_comm]
  · rename_i hkind
    simp [hkind, missing_ne_ok]

theorem identifier_eq_ok {wanted : Wanted} {s s' : Reader} {name : Name} :
    identifier wanted s = (.ok name, s') ↔
      s.peek = .ident name.text ∧ name.span = s.here ∧ s' = s.skip 1 := by
  unfold identifier
  split
  · rename_i text htext
    obtain ⟨text', span⟩ := name
    simp [htext, and_assoc, eq_comm]
  · rename_i hother
    simp only [missing_ne_ok, false_iff, not_and]
    exact fun h => absurd h (hother _)

/-- A statement ends with a separator, or in front of what ends the statements around it. -/
theorem terminator_eq_ok {s s' : Reader} {u : Unit} :
    terminator s = (.ok u, s') ↔
      (s.peek.isSeparator ∧ s' = s.skip 1) ∨ ((s.peek = .eof ∨ s.peek = .rightBrace) ∧ s' = s) := by
  unfold terminator
  cases hpeek : s.peek <;>
    simp [advance, step, missing_ne_ok, Kind.isSeparator, @eq_comm _ s']

/-- The tokens that end a statement are the only ones at which it can end, but for the brace that closes
the block around. -/
theorem exists_terminator_eq_ok_iff {s : Reader} :
    (∃ s', terminator s = (.ok (), s')) ↔ s.peek.isTerminator ∨ s.peek = .rightBrace := by
  simp only [terminator_eq_ok]
  cases s.peek <;> simp [Kind.isSeparator, Kind.isTerminator]

theorem nested_eq_ok {inner : Parser α} {s s' : Reader} {a : α} :
    nested inner s = (.ok a, s') ↔
      s.depth < maxDepth ∧ ∃ s₁, inner { s with depth := s.depth + 1 } = (.ok a, s₁)
        ∧ s' = { s₁ with depth := s₁.depth - 1 } := by
  unfold nested
  split
  · rename_i hdepth
    rcases inner { s with depth := s.depth + 1 } with ⟨result, s₁⟩
    simp only [hdepth, true_and, Prod.mk.injEq]
    constructor
    · rintro ⟨rfl, rfl⟩
      exact ⟨s₁, ⟨rfl, rfl⟩, rfl⟩
    · rintro ⟨_, ⟨rfl, rfl⟩, rfl⟩
      exact ⟨rfl, rfl⟩
  · rename_i hdepth
    simp [fail, hdepth]

theorem literal?_eq_some_iff {kind : Kind} {content : Literal} :
    literal? kind = some content ↔ kind = content.kind := by
  constructor
  · intro h
    cases kind <;> cases h <;> rfl
  · rintro rfl
    cases content <;> rfl

theorem arguments_eq_ok {value : Parser Value} {s s' : Reader} {values : List Value} :
    arguments value s = (.ok values, s') ↔
      s.peek = .leftParen ∧ listed value (s.skip 1).skipNewlines = (.ok values, s') := by
  rw [arguments, bind_eq_ok]
  simp only [expect_eq_ok]
  constructor
  · rintro ⟨_, _, ⟨hpeek, rfl⟩, h⟩
    exact ⟨hpeek, h⟩
  · rintro ⟨hpeek, h⟩
    exact ⟨(), _, ⟨hpeek, rfl⟩, h⟩

/-- A value is a literal, or a name and arguments. -/
theorem valueWith_eq_ok {inner : Parser Value} {s s' : Reader} {v : Value} :
    valueWith inner s = (.ok v, s') ↔
      (∃ content : Literal, s.peek = content.kind ∧ v = .literal ⟨s.nextId⟩ s.here content
        ∧ s' = s.takeId.2.skip 1)
      ∨ ∃ name values, s.peek = .ident name.text ∧ name.span = s.here
          ∧ arguments inner (s.takeId.2.skip 1) = (.ok values, s')
          ∧ v = .factory ⟨s.nextId⟩ ⟨s.here.start, s'.lastEnd⟩ name values := by
  rw [valueWith, freshId_bind, view_bind, view_bind, show s.takeId.2.peek = s.peek from rfl]
  cases hliteral : literal? s.peek with
  | some content =>
      have hkind := literal?_eq_some_iff.mp hliteral
      dsimp only
      rw [advance, step_bind, pure_eq_ok]
      constructor
      · rintro ⟨rfl, rfl⟩
        exact Or.inl ⟨content, hkind, rfl, rfl⟩
      · rintro (⟨other, hother, hv, hs⟩ | ⟨name, values, hname, -⟩)
        · have hsame := (literal?_eq_some_iff.mpr hother).symm.trans hliteral
          obtain rfl := Option.some.inj hsame
          exact ⟨hv, hs⟩
        · rw [hname] at hliteral
          cases hliteral
  | none =>
      dsimp only
      rw [bind_eq_ok]
      simp only [identifier_eq_ok, view_bind]
      constructor
      · rintro ⟨name, _, ⟨hname, hspan, rfl⟩, h⟩
        split at h
        · obtain ⟨values, s₁, harguments, h⟩ := bind_eq_ok.mp h
          rw [view_bind, pure_eq_ok] at h
          obtain ⟨rfl, rfl⟩ := h
          exact Or.inr ⟨name, values, hname, hspan, harguments, rfl⟩
        · exact absurd h missing_ne_ok
      · rintro (⟨content, hkind, -⟩ | ⟨name, values, hname, hspan, harguments, rfl⟩)
        · rw [literal?_eq_some_iff.mpr hkind] at hliteral
          cases hliteral
        · refine ⟨name, _, ⟨hname, hspan, rfl⟩, ?_⟩
          rw [if_pos (arguments_eq_ok.mp harguments).1]
          exact bind_eq_ok.mpr ⟨values, s', harguments, rfl⟩

theorem statementRest_eq_ok {value : Parser Value} {block : Parser Body} {name : Name}
    {s s' : Reader} {make : NodeId → Span → Statement} :
    statementRest value block name s = (.ok make, s') ↔
      (∃ assigned, s.peek = .equals ∧ value (s.skip 1) = (.ok assigned, s')
        ∧ make = fun id span => .assign id span name assigned)
      ∨ (∃ values, arguments value s = (.ok values, s') ∧ s'.peek ≠ .leftBrace
        ∧ make = fun id span => .call id span name values .absent)
      ∨ (∃ values s₁ body, arguments value s = (.ok values, s₁) ∧ s₁.peek = .leftBrace
        ∧ block s₁ = (.ok body, s') ∧ make = fun id span => .call id span name values body)
      ∨ (∃ body, s.peek = .leftBrace ∧ block s = (.ok body, s')
        ∧ make = fun id span => .call id span name [] body) := by
  rw [statementRest, view_bind]
  constructor
  · intro h
    cases hpeek : s.peek with
    | equals =>
        rw [hpeek] at h
        dsimp only at h
        rw [advance, step_bind, bind_eq_ok] at h
        obtain ⟨assigned, s₁, hvalue, h⟩ := h
        obtain ⟨rfl, rfl⟩ := pure_eq_ok.mp h
        exact Or.inl ⟨assigned, rfl, hvalue, rfl⟩
    | leftParen =>
        rw [hpeek] at h
        obtain ⟨values, s₁, harguments, h⟩ := bind_eq_ok.mp h
        rw [view_bind] at h
        split at h
        · rename_i hbrace
          obtain ⟨body, s₂, hblock, h⟩ := bind_eq_ok.mp h
          obtain ⟨rfl, rfl⟩ := pure_eq_ok.mp h
          exact Or.inr (Or.inr (Or.inl ⟨values, s₁, body, harguments, hbrace, hblock, rfl⟩))
        · rename_i hbrace
          obtain ⟨rfl, rfl⟩ := pure_eq_ok.mp h
          exact Or.inr (Or.inl ⟨values, harguments, hbrace, rfl⟩)
    | leftBrace =>
        rw [hpeek] at h
        obtain ⟨body, s₁, hblock, h⟩ := bind_eq_ok.mp h
        obtain ⟨rfl, rfl⟩ := pure_eq_ok.mp h
        exact Or.inr (Or.inr (Or.inr ⟨body, rfl, hblock, rfl⟩))
    | _ =>
        rw [hpeek] at h
        exact absurd h missing_ne_ok
  · rintro (⟨assigned, hpeek, hvalue, rfl⟩ | ⟨values, harguments, hbrace, rfl⟩
      | ⟨values, s₁, body, harguments, hbrace, hblock, rfl⟩ | ⟨body, hpeek, hblock, rfl⟩)
    · rw [hpeek]
      dsimp only
      rw [advance, step_bind]
      exact bind_eq_ok.mpr ⟨assigned, s', hvalue, rfl⟩
    · rw [(arguments_eq_ok.mp harguments).1]
      refine bind_eq_ok.mpr ⟨values, s', harguments, ?_⟩
      rw [view_bind, if_neg hbrace]
      rfl
    · rw [(arguments_eq_ok.mp harguments).1]
      refine bind_eq_ok.mpr ⟨values, s₁, harguments, ?_⟩
      rw [view_bind, if_pos hbrace]
      exact bind_eq_ok.mpr ⟨body, s', hblock, rfl⟩
    · rw [hpeek]
      exact bind_eq_ok.mpr ⟨body, s', hblock, rfl⟩

theorem statement_eq_ok {value : Parser Value} {block : Parser Body} {id : NodeId}
    {s s' : Reader} {st : Statement} :
    statement value block id s = (.ok st, s') ↔
      ∃ name make s₁, s.peek = .ident name.text ∧ name.span = s.here
        ∧ statementRest value block name (s.skip 1) = (.ok make, s₁)
        ∧ terminator s₁ = (.ok (), s') ∧ st = make id ⟨s.here.start, s₁.lastEnd⟩ := by
  rw [statement, view_bind, bind_eq_ok]
  simp only [identifier_eq_ok]
  constructor
  · rintro ⟨name, _, ⟨hname, hspan, rfl⟩, h⟩
    obtain ⟨make, s₁, hrest, h⟩ := bind_eq_ok.mp h
    rw [view_bind, bind_eq_ok] at h
    obtain ⟨_, s₂, hend, h⟩ := h
    obtain ⟨rfl, rfl⟩ := pure_eq_ok.mp h
    exact ⟨name, make, s₁, hname, hspan, hrest, hend, rfl⟩
  · rintro ⟨name, make, s₁, hname, hspan, hrest, hend, rfl⟩
    refine ⟨name, _, ⟨hname, hspan, rfl⟩, bind_eq_ok.mpr ⟨make, s₁, hrest, ?_⟩⟩
    rw [view_bind]
    exact bind_eq_ok.mpr ⟨(), s', hend, rfl⟩

theorem blockWith_eq_ok {parse : NodeId → Parser Statement} {s s' : Reader} {body : Body} :
    blockWith parse s = (.ok body, s') ↔
      ∃ statements s₁, s.peek = .leftBrace
        ∧ blockStatements parse s.here (s.takeId.2.skip 1).skipSeparators = (.ok statements, s₁)
        ∧ body = .block ⟨s.nextId⟩ (s.here.cover s₁.here) statements ∧ s' = s₁.skip 1 := by
  rw [blockWith, freshId_bind, view_bind, bind_eq_ok]
  simp only [expect_eq_ok]
  constructor
  · rintro ⟨_, _, ⟨hpeek, rfl⟩, h⟩
    rw [step_bind] at h
    obtain ⟨statements, s₁, hstatements, h⟩ := bind_eq_ok.mp h
    rw [view_bind, advance, step_bind] at h
    obtain ⟨rfl, rfl⟩ := pure_eq_ok.mp h
    exact ⟨statements, s₁, hpeek, hstatements, rfl, rfl⟩
  · rintro ⟨statements, s₁, hpeek, hstatements, rfl, rfl⟩
    refine ⟨(), _, ⟨hpeek, rfl⟩, ?_⟩
    rw [step_bind]
    exact bind_eq_ok.mpr ⟨statements, s₁, hstatements, rfl⟩

/-! ## When statements are passed over -/

/-- A statement is read; or it is passed over and an error statement takes its place; or
reading is given up. -/
theorem recovering_cases {parse : NodeId → Parser Statement} {s s' : Reader}
    {first? : Option Statement} (h : recovering parse s = (first?, s')) :
    (∃ first, first? = some first ∧ parse s.takeId.1 s.takeId.2 = (.ok first, s'))
      ∨ (∃ fault s₁, parse s.takeId.1 s.takeId.2 = (.error fault, s₁)
        ∧ s' = (s₁.report fault).synchronize
        ∧ first? = some (.error s.takeId.1 ⟨s.here.start, max s'.lastEnd s.here.start⟩
            fault.message))
      ∨ (∃ fault s₁, parse s.takeId.1 s.takeId.2 = (.error fault, s₁)
        ∧ s' = s₁.report fault ∧ maxFaults ≤ s'.faults.length ∧ first? = none) := by
  rw [recovering] at h
  dsimp only at h
  split at h
  · rename_i first s₁ hread
    obtain ⟨rfl, rfl⟩ := Prod.mk.inj h
    exact Or.inl ⟨first, rfl, hread⟩
  · rename_i fault s₁ hread
    split at h
    · obtain ⟨rfl, rfl⟩ := Prod.mk.inj h
      exact Or.inr (Or.inl ⟨fault, s₁, hread, rfl, rfl⟩)
    · rename_i hpatience
      obtain ⟨rfl, rfl⟩ := Prod.mk.inj h
      have hfull : maxFaults ≤ (s₁.report fault).faults.length := by
        simpa [Reader.hasPatience] using hpatience
      exact Or.inr (Or.inr ⟨fault, s₁, hread, rfl, hfull, rfl⟩)

/-! ## Rounds of the loops -/

section

variable (parse : NodeId → Parser Statement)

/-- Where a statement can start, one is read or passed over. -/
structure BlockRound (s : Reader) (first : Statement) (s₁ : Reader) : Prop where
  heof : s.peek ≠ .eof
  hbrace : s.peek ≠ .rightBrace
  hread : recovering parse s = (some first, s₁)

/-- Outside of all blocks there is also a brace that closes nothing. -/
inductive TopRound (s : Reader) (first : Statement) (s₁ : Reader) : Prop where
  | statement (hround : BlockRound parse s first s₁)
  | brace (hbrace : s.peek = .rightBrace) (hstray : strayBrace s = (first, s₁))

/-- How the statements of a block are read, round by round, up to its closing brace. A round that
takes no tokens is the last one. -/
inductive BlockRounds : Reader → List Statement → Reader → Prop where
  | closed {s} (hpeek : s.peek = .rightBrace) : BlockRounds s [] s
  | more {s first s₁ others s'} (hround : BlockRound parse s first s₁)
      (hrest : BlockRounds s₁.skipSeparators others s') : BlockRounds s (first :: others) s'
  | stuck {s first s₁} (hround : BlockRound parse s first s₁)
      (hstuck : ¬s₁.skipSeparators.unread.length < s.unread.length) :
      BlockRounds s [first] s₁.skipSeparators

/-- How the statements outside of all blocks are read, up to the end of the text or to the fault
that was one too many. -/
inductive TopRounds : Reader → List Statement → Reader → Prop where
  | done {s} (hpeek : s.peek = .eof) : TopRounds s [] s
  | gaveUp {s s'} (heof : s.peek ≠ .eof) (hbrace : s.peek ≠ .rightBrace)
      (hnone : recovering parse s = (none, s')) : TopRounds s [] s'
  | more {s first s₁ others s'} (hround : TopRound parse s first s₁)
      (hgoes : s.peek = .rightBrace → s₁.hasPatience = true)
      (hrest : TopRounds s₁.skipSeparators others s') : TopRounds s (first :: others) s'
  | last {s first s₁ s'} (hround : TopRound parse s first s₁)
      (hend : s' = s₁ ∨ s' = s₁.skipSeparators)
      (hstop : s₁.hasPatience = true → ¬s₁.skipSeparators.unread.length < s.unread.length) :
      TopRounds s [first] s'

end

theorem blockRounds_of_ok {parse : NodeId → Parser Statement} {opening : Span} {s s' : Reader}
    {statements : List Statement} (h : blockStatements parse opening s = (.ok statements, s')) :
    BlockRounds parse s statements s' := by
  fun_induction blockStatements parse opening s generalizing statements with
  | case1 s hpeek =>
      obtain ⟨hstatements, rfl⟩ := Prod.mk.inj h
      obtain rfl := Except.ok.inj hstatements
      exact .closed hpeek
  | case2 | case3 => cases h
  | case4 s first s₁ hfirst s₂ _ others s₃ hothers =>
      rename_i hbrace heof ih
      obtain ⟨hstatements, rfl⟩ := Prod.mk.inj h
      cases others with
      | error fault => cases hstatements
      | ok others =>
          obtain rfl := Except.ok.inj hstatements
          exact .more ⟨heof, hbrace, hfirst⟩ (ih hothers)
  | case5 s first s₁ hfirst s₂ hstuck =>
      rename_i hbrace heof
      obtain ⟨hstatements, rfl⟩ := Prod.mk.inj h
      obtain rfl := Except.ok.inj hstatements
      exact .stuck ⟨heof, hbrace, hfirst⟩ hstuck

theorem topRounds_of_eq {parse : NodeId → Parser Statement} {s s' : Reader}
    {statements : List Statement} (h : topStatements parse s = (statements, s')) :
    TopRounds parse s statements s' := by
  fun_induction topStatements parse s generalizing statements with
  | case1 s hpeek =>
      obtain ⟨rfl, rfl⟩ := Prod.mk.inj h
      exact .done hpeek
  | case2 s hbrace first s₁ hstray s₂ _ hgoes others s₃ hothers =>
      rename_i ih
      obtain ⟨rfl, rfl⟩ := Prod.mk.inj h
      exact .more (.brace hbrace hstray) (fun _ => hgoes) (ih hothers)
  | case3 s hbrace first s₁ hstray =>
      rename_i hstops
      obtain ⟨rfl, rfl⟩ := Prod.mk.inj h
      exact .last (.brace hbrace hstray) (Or.inl rfl) fun hgoes => absurd hgoes hstops
  | case4 s hbrace first s₁ hstray =>
      rename_i hstuck
      obtain ⟨rfl, rfl⟩ := Prod.mk.inj h
      exact .last (.brace hbrace hstray) (Or.inl rfl) fun _ => hstuck
  | case5 s s₁ hnone =>
      rename_i heof hbrace
      obtain ⟨rfl, rfl⟩ := Prod.mk.inj h
      exact .gaveUp heof hbrace hnone
  | case6 s first s₁ hfirst s₂ _ others s₃ hothers =>
      rename_i heof hbrace ih
      obtain ⟨rfl, rfl⟩ := Prod.mk.inj h
      exact .more (.statement ⟨heof, hbrace, hfirst⟩) (fun hpeek => absurd hpeek hbrace)
        (ih hothers)
  | case7 s first s₁ hfirst s₂ hstuck =>
      rename_i heof hbrace
      obtain ⟨rfl, rfl⟩ := Prod.mk.inj h
      exact .last (.statement ⟨heof, hbrace, hfirst⟩) (Or.inr rfl) fun _ => hstuck

end Parser

end Declarative.Script
