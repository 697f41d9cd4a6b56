import Declarative.Proofs.Parser.Fuel
import Declarative.Proofs.Parser.Locality
import Declarative.Proofs.Parser.Numbers

/-!
# Reading comes to its end

The loops of the parser read on only while fewer tokens are left after each round. Here they are
written without that question (`Parser.topLoop`, `Parser.blockLoop`, `Parser.argumentLoop`,
`Parser.synchronizeLoop`), as steps that say what one round comes to. Each round ends its loop or
consumes a token (`Loop.Progresses`), whatever state it starts in, so each loop comes to its end
(`Loop.Progresses.ends`), and with what the parser yields (`Loop.Computes`).

Some rounds stop at a fault with nothing consumed: at a token that starts no statement, at the brace
that closes a block, where the nesting is too deep. It is then passing over the rest of the statement
that consumes a token, or passing over the separators behind it (`Parser.recovering_consumes`).
-/

namespace Declarative.Script

open Token (Kind)

namespace Reader

variable {s s₁ s' : Reader}

/-- At least one token is read on the way. -/
def Consumes (s s' : Reader) : Prop := ∃ read, read ≠ [] ∧ s.unread = read ++ s'.unread

theorem Consumes.length_lt (h : s.Consumes s') : s'.unread.length < s.unread.length := by
  obtain ⟨read, hne, hread⟩ := h
  have hpos := List.length_pos_iff.mpr hne
  rw [hread, List.length_append]
  omega

theorem Consumes.suffix (h : s.Consumes s') : s'.unread <:+ s.unread := by
  obtain ⟨read, -, hread⟩ := h
  exact ⟨read, hread.symm⟩

theorem eof_notMem_of_suffix (h : s'.unread <:+ s.unread) (hs : Kind.eof ∉ s.kinds) :
    Kind.eof ∉ s'.kinds :=
  fun hmem => hs ((h.map _).subset hmem)

theorem Onward.consumes_or_unread_eq (h : s.Onward s') :
    s.Consumes s' ∨ s'.unread = s.unread := by
  obtain ⟨read, hread⟩ := h.unread
  by_cases hne : read = []
  · rw [hne] at hread
    exact Or.inr hread
  · exact Or.inl ⟨read, hne, hread.symm⟩

theorem Onward.consumes (h : s.Onward s') (hlt : s'.unread.length < s.unread.length) :
    s.Consumes s' :=
  h.consumes_or_unread_eq.resolve_right fun heq => by simp [heq] at hlt

theorem Consumes.trans_onward (h : s.Consumes s₁) (honward : s₁.Onward s') : s.Consumes s' := by
  obtain ⟨read, hne, hread⟩ := h
  obtain ⟨others, hothers⟩ := honward.unread
  exact ⟨read ++ others, by simp [hne], by rw [hread, ← hothers, List.append_assoc]⟩

theorem Onward.trans_consumes (honward : s.Onward s₁) (h : s₁.Consumes s') : s.Consumes s' := by
  obtain ⟨read, hne, hread⟩ := h
  obtain ⟨others, hothers⟩ := honward.unread
  exact ⟨others ++ read, by simp [hne], by rw [← hothers, hread, List.append_assoc]⟩

theorem peek_of_unread_eq (h : s'.unread = s.unread) : s'.peek = s.peek := by
  rw [peek, peek, h]

theorem consumes_skip_one (h : s.peek ≠ .eof) : s.Consumes (s.skip 1) :=
  (s.onward_skip 1).consumes (length_skip_one_lt h)

end Reader

/-! ## Loops -/

/-- What one round of a loop comes to. -/
inductive Round (α ρ : Type) where
  /-- There is another round, with what was kept so far. -/
  | goesOn (kept : α) (s : Reader)
  | ends (result : ρ) (s : Reader)

/-- The other rounds are run by `next`. -/
def Round.elim {α ρ : Type} (next : α → Reader → ρ × Reader) : Round α ρ → ρ × Reader
  | goesOn kept s => next kept s
  | ends result s => (result, s)

/-- A loop by what each round does. -/
def Loop (α ρ : Type) := α → Reader → Round α ρ

namespace Loop

variable {α ρ : Type} {loop : Loop α ρ}

/-- The loop comes to its end after finitely many rounds. -/
inductive Ends (loop : Loop α ρ) : α → Reader → ρ → Reader → Prop where
  | now {kept s result s'} (hround : loop kept s = .ends result s') : Ends loop kept s result s'
  | later {kept s kept₁ s₁ result s'} (hround : loop kept s = .goesOn kept₁ s₁)
      (hrest : Ends loop kept₁ s₁ result s') : Ends loop kept s result s'

/-- Each round that is not the last one consumes a token. -/
def Progresses (loop : Loop α ρ) : Prop :=
  ∀ ⦃kept s kept₁ s₁⦄, loop kept s = .goesOn kept₁ s₁ → s.Consumes s₁

/-- What unfolds round by round is what the loop ends with. -/
theorem Progresses.ends (h : loop.Progresses) {run : α → Reader → ρ × Reader}
    (hrun : ∀ kept s, Kind.eof ∉ s.kinds → run kept s = (loop kept s).elim run) (kept : α)
    {s : Reader} (hs : Kind.eof ∉ s.kinds) : loop.Ends kept s (run kept s).1 (run kept s).2 := by
  rw [hrun kept s hs]
  cases hround : loop kept s with
  | ends result s' => exact .now hround
  | goesOn kept₁ s₁ =>
      have hlt := (h hround).length_lt
      exact .later hround (h.ends hrun kept₁ (Reader.eof_notMem_of_suffix (h hround).suffix hs))
termination_by s.unread.length

/-- There is a last round, which starts with tokens that the first one has. -/
theorem Ends.exists_last (h : loop.Progresses) {kept : α} {s : Reader} {result : ρ} {s' : Reader}
    (hends : loop.Ends kept s result s') :
    ∃ kept₁ s₁, loop kept₁ s₁ = .ends result s' ∧ s₁.unread <:+ s.unread := by
  induction hends with
  | now hround => exact ⟨_, _, hround, List.suffix_rfl⟩
  | later hround _ ih =>
      obtain ⟨kept₂, s₂, hlast, hsuffix⟩ := ih
      exact ⟨kept₂, s₂, hlast, hsuffix.trans (h hround).suffix⟩

/-- Each round of the loop ends it or consumes a token, and the loop ends with what `run` yields. -/
structure Computes (loop : Loop α ρ) (start : α) (run : Reader → ρ × Reader) : Prop where
  progresses : loop.Progresses
  ends : ∀ s, Kind.eof ∉ s.kinds → loop.Ends start s (run s).1 (run s).2

theorem Progresses.computes (h : loop.Progresses) {run : α → Reader → ρ × Reader}
    (hrun : ∀ kept s, Kind.eof ∉ s.kinds → run kept s = (loop kept s).elim run) {start : α}
    {read : Reader → ρ × Reader} (hread : run start = read) : loop.Computes start read where
  progresses := h
  ends _ hs := hread ▸ h.ends hrun start hs

end Loop

namespace Parser

variable {α : Type}

/-- What the parser yields is made of a token at least. -/
def Takes (p : Parser α) : Prop := ∀ ⦃s s' : Reader⦄ ⦃a : α⦄, p s = (.ok a, s') → s.Consumes s'

theorem Takes.nested {inner : Parser α} (h : Takes inner) : Takes (nested inner) := by
  intro s s' a hs
  obtain ⟨-, s₁, hinner, rfl⟩ := nested_eq_ok.mp hs
  have hconsumes := h hinner
  exact hconsumes

/-! ## Passing over the rest of a statement -/

/-- One round of passing over the rest of a statement, inside of which `depth` braces are open. -/
def synchronizeLoop : Loop Nat Unit := fun depth s =>
  match s.peek, depth with
  | .eof, _ => .ends () s
  | .leftBrace, _ => .goesOn (depth + 1) (s.skip 1)
  | .rightBrace, 0 => .ends () s
  | .rightBrace, depth + 1 => .goesOn depth (s.skip 1)
  | .newline, 0 => .ends () s
  | .semicolon, 0 => .ends () s
  | _, _ => .goesOn depth (s.skip 1)

theorem synchronizeLoop_progresses : synchronizeLoop.Progresses := by
  intro depth s depth₁ s₁ h
  unfold synchronizeLoop at h
  split at h <;> cases h
  all_goals
    refine Reader.consumes_skip_one ?_
    simp_all

/-- With the rounds that follow, a round passes over what is left of the statement. -/
theorem synchronizeLoop_elim (depth : Nat) {s : Reader} (hs : Kind.eof ∉ s.kinds) :
    ((), s.skip (Reader.statementLength depth s.unread))
      = (synchronizeLoop depth s).elim fun depth s =>
          ((), s.skip (Reader.statementLength depth s.unread)) := by
  have hself : s.skip 0 = s := rfl
  cases hunread : s.unread with
  | nil =>
      have hpeek : s.peek = .eof := by simp [Reader.peek, hunread]
      simp only [synchronizeLoop, hpeek, Reader.statementLength, hself, Round.elim]
  | cons token rest =>
      have hpeek : s.peek = token.kind := by simp [Reader.peek, hunread]
      have hne : token.kind ≠ .eof := fun heof => hs (by simp [Reader.kinds, hunread, heof])
      have hrest : (s.skip 1).unread = rest := by simp [Reader.skip, hunread]
      conv_lhs => unfold Reader.statementLength
      unfold synchronizeLoop
      rw [hpeek]
      cases hkind : token.kind <;> cases depth <;>
        first
        | exact absurd hkind hne
        | simp only [Round.elim, hself, hrest, Reader.skip_skip]

theorem synchronizeLoop_computes :
    synchronizeLoop.Computes 0 fun s => ((), s.synchronize) :=
  synchronizeLoop_progresses.computes (fun depth _ hs => synchronizeLoop_elim depth hs) rfl

/-! ## Arguments -/

theorem valueWith_takes {inner : Parser Value} (hgoes : GoesOn inner) : Takes (valueWith inner) := by
  intro s s' v h
  rcases valueWith_eq_ok.mp h with ⟨content, hpeek, -, rfl⟩ | ⟨name, values, hpeek, -, hvalues, -⟩
  · exact Reader.consumes_skip_one (s := s.takeId.2)
      (hpeek.trans_ne (by cases content <;> nofun))
  · have hname : s.takeId.2.Consumes (s.takeId.2.skip 1) :=
      Reader.consumes_skip_one (hpeek.trans_ne (by nofun))
    have honward := (arguments_keeps onward_elementary hgoes).of_eq hvalues
    exact hname.trans_onward honward

theorem value_takes : ∀ fuel : Nat, Takes (value fuel)
  | 0 => nofun
  | fuel + 1 => (valueWith_takes (value_goesOn fuel)).nested

/-- What is read is put behind what was kept before. -/
def keeping (kept : List α) (run : Except Fault (List α) × Reader) :
    Except Fault (List α) × Reader :=
  (run.1.map (kept ++ ·), run.2)

theorem keeping_nil (run : Except Fault (List α) × Reader) : keeping [] run = run := by
  rcases run with ⟨_ | others, s⟩ <;> rfl

theorem keeping_cons (kept : List α) (first : α) (run : Except Fault (List α) × Reader) :
    keeping kept (run.1.map (first :: ·), run.2) = keeping (kept ++ [first]) run := by
  rcases run with ⟨_ | others, s⟩ <;> simp [keeping, Except.map]

def argumentLoop (value : Parser Value) : Loop (List Value) (Except Fault (List Value)) :=
  fun kept s =>
    if s.peek = .rightParen then
      .ends (.ok kept) (s.skip 1)
    else
      match value s with
      | (.error fault, s₁) => .ends (.error fault) s₁
      | (.ok first, s₁) =>
        let s₂ := s₁.skipNewlines
        if s₂.peek = .rightParen then
          .goesOn (kept ++ [first]) s₂
        else
          match expect .comma s₂ with
          | (.error fault, s₃) => .ends (.error fault) s₃
          | (.ok _, s₃) => .goesOn (kept ++ [first]) s₃.skipNewlines

section

variable {value : Parser Value} (hgoes : GoesOn value) (htakes : Takes value)

include hgoes htakes

theorem argumentLoop_progresses : (argumentLoop value).Progresses := by
  intro kept s kept₁ s₁ h
  rw [argumentLoop] at h
  split at h
  · cases h
  split at h
  · cases h
  rename_i first s₂ hfirst
  dsimp only at h
  split at h
  · cases h
    exact (htakes hfirst).trans_onward s₂.onward_skipNewlines
  split at h
  · cases h
  · rename_i hcomma
    cases h
    obtain ⟨-, rfl⟩ := expect_eq_ok.mp hcomma
    obtain ⟨-, hlines, hmore⟩ := onward_comma hgoes hfirst
    exact (htakes hfirst).trans_onward (hlines.trans hmore)

omit htakes in
/-- With the rounds that follow, a round reads what is left of the values. -/
theorem argumentLoop_elim (kept : List Value) (s : Reader) :
    keeping kept (listed value s)
      = (argumentLoop value kept s).elim fun kept s => keeping kept (listed value s) := by
  rw [argumentLoop]
  by_cases hclose : s.peek = .rightParen
  · rw [listed_close hclose, if_pos hclose]
    simp [keeping, Round.elim, Except.map]
  rw [listed, if_neg hclose, if_neg hclose]
  rcases hfirst : value s with ⟨fault | first, s₁⟩
  · rfl
  dsimp only
  by_cases hlast : s₁.skipNewlines.peek = .rightParen
  · rw [if_pos hlast, if_pos hlast, Round.elim, listed_close hlast]
    simp [keeping, Except.map]
  rw [if_neg hlast, if_neg hlast]
  rcases hcomma : expect .comma s₁.skipNewlines with ⟨fault | _, s₃⟩
  · rfl
  · obtain ⟨hpeek, rfl⟩ := expect_eq_ok.mp hcomma
    dsimp only
    rw [if_pos (length_comma_lt hgoes hfirst hpeek)]
    exact keeping_cons kept first _

theorem argumentLoop_computes : (argumentLoop value).Computes [] (listed value) :=
  (argumentLoop_progresses hgoes htakes).computes (fun kept s _ => argumentLoop_elim hgoes kept s)
    (funext fun _ => keeping_nil _)

end

/-! ## Statements -/

section

variable {parse : NodeId → Parser Statement} (hgoes : ∀ id, GoesOn (parse id))
  (htakes : ∀ id, Takes (parse id))

include hgoes htakes

/-- Where a statement can start, a token of it is read or passed over, or a separator is skipped. -/
theorem recovering_consumes {s s₁ : Reader} {first : Statement} (heof : s.peek ≠ .eof)
    (hbrace : s.peek ≠ .rightBrace) (h : recovering parse s = (some first, s₁)) :
    s.Consumes s₁.skipSeparators := by
  have hseparators := s₁.onward_skipSeparators
  rcases recovering_cases h with ⟨_, ⟨⟩, hread⟩ | ⟨fault, s₂, hread, rfl, ⟨⟩⟩ | ⟨_, _, -, -, -, ⟨⟩⟩
  · have hconsumes : s.takeId.2.Consumes s₁ := htakes _ hread
    exact hconsumes.trans_onward hseparators
  have honward : s.takeId.2.Onward s₂ := (hgoes _).of_eq hread
  have hpassed : s₂.Onward (s₂.report fault).synchronize :=
    (Reader.onward_steady.report s₂ fault).trans (Reader.onward_skip _ _)
  rcases honward.consumes_or_unread_eq with hconsumes | hsame
  · exact hconsumes.trans_onward (hpassed.trans hseparators)
  rcases hpassed.consumes_or_unread_eq with hconsumes | hsame₁
  · exact honward.trans_consumes (hconsumes.trans_onward hseparators)
  rcases hseparators.consumes_or_unread_eq with hconsumes | hsame₂
  · exact (honward.trans hpassed).trans_consumes hconsumes
  -- the fault is at the first token, and as this is no separator it is passed over
  have hseparator : s.peek.isSeparator = false := by
    have hnext := (s₂.report fault).synchronize.peek_skipSeparators
    rwa [Reader.peek_of_unread_eq (hsame₂.trans (hsame₁.trans hsame))] at hnext
  have hpos := Reader.statementLength_pos heof hbrace hseparator
  obtain ⟨token, rest, hunread, -, -⟩ := Reader.exists_unread_cons heof
  have hlength := congrArg List.length hsame₁
  have hunread₂ : s₂.unread = s.unread := hsame
  rw [Reader.synchronize, Reader.skip, List.length_drop] at hlength
  have hreport : (s₂.report fault).unread = s.unread := hsame
  rw [hreport, hunread₂, hunread, List.length_cons] at hlength
  rw [hunread] at hpos
  omega

/-- A round in which a statement is read or passed over; where reading is given up, the loop ends. -/
def statementRound {ρ : Type} (parse : NodeId → Parser Statement) (gaveUp : Reader → ρ)
    (kept : List Statement) (s : Reader) : Round (List Statement) ρ :=
  match recovering parse s with
  | (none, s₁) => .ends (gaveUp s₁) s₁
  | (some first, s₁) => .goesOn (kept ++ [first]) s₁.skipSeparators

theorem statementRound_consumes {ρ : Type} {gaveUp : Reader → ρ} {kept kept₁ : List Statement}
    {s s₁ : Reader} (heof : s.peek ≠ .eof) (hbrace : s.peek ≠ .rightBrace)
    (h : statementRound parse gaveUp kept s = .goesOn kept₁ s₁) : s.Consumes s₁ := by
  rw [statementRound] at h
  split at h
  · cases h
  · rename_i first s₂ hfirst
    cases h
    exact recovering_consumes hgoes htakes heof hbrace hfirst

def blockLoop (parse : NodeId → Parser Statement) (opening : Span) :
    Loop (List Statement) (Except Fault (List Statement)) := fun kept s =>
  match s.peek with
  | .rightBrace => .ends (.ok kept) s
  | .eof => .ends (.error ⟨opening, .unclosedBlock⟩) s
  | _ => statementRound parse (fun s₁ => .error ⟨s₁.here, .tooManyFaults⟩) kept s

theorem blockLoop_progresses (opening : Span) : (blockLoop parse opening).Progresses := by
  intro kept s kept₁ s₁ h
  unfold blockLoop at h
  split at h
  · cases h
  · cases h
  · rename_i hbrace heof
    exact statementRound_consumes hgoes htakes heof hbrace h

/-- With the rounds that follow, a round reads what is left of the statements. -/
theorem blockLoop_elim (opening : Span) (kept : List Statement) (s : Reader) :
    keeping kept (blockStatements parse opening s)
      = (blockLoop parse opening kept s).elim fun kept s =>
          keeping kept (blockStatements parse opening s) := by
  unfold blockLoop
  split
  · rename_i hbrace
    rw [blockStatements, hbrace]
    simp [keeping, Round.elim, Except.map]
  · rename_i heof
    rw [blockStatements, heof]
    rfl
  · rename_i hbrace heof
    rw [blockStatements_eq hbrace heof, statementRound]
    rcases hfirst : recovering parse s with ⟨_ | first, s₁⟩
    · rfl
    · have hlt := (recovering_consumes hgoes htakes heof hbrace hfirst).length_lt
      dsimp only [Option.elim_some]
      rw [if_pos hlt]
      exact keeping_cons kept first _

theorem blockLoop_computes (opening : Span) :
    (blockLoop parse opening).Computes [] (blockStatements parse opening) :=
  (blockLoop_progresses hgoes htakes opening).computes
    (fun kept s _ => blockLoop_elim hgoes htakes opening kept s) (funext fun _ => keeping_nil _)

def topLoop (parse : NodeId → Parser Statement) : Loop (List Statement) (List Statement) :=
  fun kept s =>
    match s.peek with
    | .eof => .ends kept s
    | .rightBrace =>
      let (first, s₁) := strayBrace s
      if s₁.hasPatience then
        .goesOn (kept ++ [first]) s₁.skipSeparators
      else
        .ends (kept ++ [first]) s₁
    | _ => statementRound parse (fun _ => kept) kept s

omit hgoes htakes in
theorem strayBrace_consumes {s : Reader} (h : s.peek = .rightBrace) :
    s.Consumes (strayBrace s).2.skipSeparators := by
  have hskip : s.Consumes (s.skip 1) := Reader.consumes_skip_one (by rw [h]; nofun)
  have hreport : (s.skip 1).Onward (strayBrace s).2 :=
    (Reader.onward_steady.takeId _).trans (Reader.onward_steady.report _ _)
  exact hskip.trans_onward (hreport.trans (Reader.onward_skipSeparators _))

theorem topLoop_progresses : (topLoop parse).Progresses := by
  intro kept s kept₁ s₁ h
  unfold topLoop at h
  split at h
  · cases h
  · rename_i hbrace
    dsimp only at h
    split at h
    · cases h
      exact strayBrace_consumes hbrace
    · cases h
  · rename_i heof hbrace
    exact statementRound_consumes hgoes htakes heof hbrace h

/-- With the rounds that follow, a round reads what is left of the statements. -/
theorem topLoop_elim (kept : List Statement) (s : Reader) :
    (kept ++ (topStatements parse s).1, (topStatements parse s).2)
      = (topLoop parse kept s).elim fun kept s =>
          (kept ++ (topStatements parse s).1, (topStatements parse s).2) := by
  unfold topLoop
  split
  · rename_i heof
    rw [topStatements, heof]
    simp [Round.elim]
  · rename_i hbrace
    rw [topStatements, hbrace]
    dsimp only
    rw [if_pos (strayBrace_consumes hbrace).length_lt]
    split <;> simp [Round.elim]
  · rename_i heof hbrace
    rw [topStatements_eq hbrace heof, statementRound]
    rcases hfirst : recovering parse s with ⟨_ | first, s₁⟩
    · simp [Round.elim]
    · have hlt := (recovering_consumes hgoes htakes heof hbrace hfirst).length_lt
      dsimp only [Option.elim_some]
      rw [if_pos hlt]
      simp [Round.elim]

theorem topLoop_computes : (topLoop parse).Computes [] (topStatements parse) :=
  (topLoop_progresses hgoes htakes).computes (fun kept s _ => topLoop_elim hgoes htakes kept s) rfl

omit hgoes htakes in
/-- The last round sees the end of the text, or too many faults are found. -/
theorem topLoop_ends {kept result : List Statement} {s s' : Reader}
    (h : topLoop parse kept s = .ends result s') :
    (s.peek = .eof ∧ s' = s) ∨ maxFaults ≤ s'.faults.length := by
  unfold topLoop at h
  split at h
  · rename_i heof
    cases h
    exact Or.inl ⟨heof, rfl⟩
  · dsimp only at h
    split at h
    · cases h
    · rename_i hpatience
      cases h
      exact Or.inr (by simpa [Reader.hasPatience] using hpatience)
  · rw [statementRound] at h
    split at h
    · rename_i hnone
      cases h
      rcases recovering_cases hnone with ⟨_, ⟨⟩, -⟩ | ⟨_, _, -, -, ⟨⟩⟩ | ⟨_, _, -, -, hfull, -⟩
      exact Or.inr hfull
    · cases h

end

/-! ## The loops of the parser -/

theorem statement_takes (fuel : Nat) (id : NodeId) :
    Takes (statement (value fuel) (block fuel) id) := by
  intro s s' st h
  exact ((statement_goesOn fuel id).of_eq h).consumes (statement_length_lt h)

theorem finish_steady : Law.Steady fun s s' => s'.finish = s.finish where
  refl _ := rfl
  trans h₁ h₂ := h₂.trans h₁
  skip _ _ := rfl
  takeId _ := rfl
  report _ _ := rfl

theorem nested_finish {α : Type} {inner : Parser α}
    (h : Keeps (.ofStates fun s s' => s'.finish = s.finish) inner) :
    Keeps (.ofStates fun s s' => s'.finish = s.finish) (nested inner) := by
  intro s
  unfold nested
  split
  · exact h { s with depth := s.depth + 1 }
  · rfl

theorem topStatement_finish (id : NodeId) :
    Keeps (.ofStates fun s s' => s'.finish = s.finish) (topStatement id) :=
  statement_keeps finish_steady.elementary
    (value_keeps finish_steady.elementary nested_finish fullFuel)
    (block_keeps finish_steady nested_finish fullFuel) id

/-- The parser comes to the end of the tokens. -/
structure Finishes (source : String) (tokens : List Token) : Prop where
  /-- Each round of a loop ends it or consumes a token, and the loop comes to its end. -/
  topRounds : (topLoop topStatement).Computes [] (topStatements topStatement)
  blockRounds : ∀ opening,
    (blockLoop topStatement opening).Computes [] (blockStatements topStatement opening)
  argumentRounds : (argumentLoop (value fullFuel)).Computes [] (listed (value fullFuel))
  passingOver : synchronizeLoop.Computes 0 fun s => ((), s.synchronize)
  /-- Values and blocks are read by these loops, and no fuel ends what is inside of them. -/
  values : value fullFuel = nested (valueWith (value fullFuel))
  blocks : block fullFuel = nested (blockWith topStatement)
  /-- The loop over all statements comes to its end on these tokens. -/
  ends : (topLoop topStatement).Ends [] (Reader.ofTokens tokens).skipSeparators
    (ofTokens source tokens).script.statements (Reader.afterTokens tokens)
  /-- With fewer than twenty faults that is at the first end of the text. -/
  stops : (ofTokens source tokens).faults.length < maxFaults →
    (Reader.afterTokens tokens).unread = []
      ∧ (ofTokens source tokens).script.span.stop = (Reader.ofTokens tokens).finish.stop

end Parser

theorem Reader.eof_notMem_ofTokens (tokens : List Token) :
    Kind.eof ∉ (Reader.ofTokens tokens).kinds := by
  intro hmem
  obtain ⟨token, htoken, hkind⟩ := List.mem_map.mp hmem
  have htest := List.mem_takeWhile_imp htoken
  simp [hkind] at htest

/-- **Reading comes to its end with progress**: in each round of its loops a token in front of the
first end of the text is consumed, or the loop ends. -/
theorem finishes_ofTokens (source : String) (tokens : List Token) :
    Parser.Finishes source tokens := by
  let start := (Reader.ofTokens tokens).skipSeparators
  have hstart : Kind.eof ∉ start.kinds :=
    Reader.eof_notMem_of_suffix (Reader.onward_skipSeparators _).unread
      (Reader.eof_notMem_ofTokens tokens)
  have htop := Parser.topLoop_computes (Parser.statement_goesOn Parser.fullFuel)
    (Parser.statement_takes Parser.fullFuel)
  refine {
    topRounds := htop
    blockRounds := Parser.blockLoop_computes (Parser.statement_goesOn Parser.fullFuel)
      (Parser.statement_takes Parser.fullFuel)
    argumentRounds := Parser.argumentLoop_computes (Parser.value_goesOn Parser.fullFuel)
      (Parser.value_takes Parser.fullFuel)
    passingOver := Parser.synchronizeLoop_computes
    values := Parser.value_fullFuel
    blocks := Parser.block_fullFuel
    ends := htop.ends start hstart
    stops := fun hfew => ?_ }
  obtain ⟨kept, s, hlast, hsuffix⟩ := (htop.ends start hstart).exists_last htop.progresses
  rcases Parser.topLoop_ends hlast with ⟨heof, hsame⟩ | hfull
  · have hnil := Reader.kinds_eq_nil_of_peek (Reader.eof_notMem_of_suffix hsuffix hstart) heof
    have hunread : (Reader.afterTokens tokens).unread = [] := by
      rw [← hsame] at hnil
      exact List.map_eq_nil_iff.mp hnil
    have hfinish : (Reader.afterTokens tokens).finish = (Reader.ofTokens tokens).finish :=
      Parser.topStatements_keeps Parser.finish_steady Parser.topStatement_finish
        (s := start) rfl
    refine ⟨hunread, ?_⟩
    show (Reader.afterTokens tokens).here.stop = _
    rw [Reader.here, hunread, hfinish]
  · exact absurd hfew (Nat.not_lt.mpr hfull)

-- the brace behind the end of the text is not read
example :
    let tokens := [⟨.newline, ⟨0, 1⟩⟩, ⟨.eof, ⟨1, 1⟩⟩, ⟨.rightBrace, ⟨1, 2⟩⟩]
    (ofTokens "garden" tokens).faults = [] := by
  decide +kernel

end Declarative.Script
