import Declarative.Proofs.Grammar.Acceptance
import Declarative.Proofs.Parser.Laws

/-!
# Statements cover their tokens

As long as reading goes on, each token belongs to a statement or is a separator between
statements: the tokens of a text are cut into separators and into runs of tokens, one for
each statement outside of all blocks, and the span of the statement reaches from the first
token of its run to the last (`Tiles`). That is so for error statements as well. Where the
tokens stand in order, the statements do so too, and each token that is no separator lies
within just one of them (`Script.covered_ofTokens`).

A statement ends where the token read last ends. So it has to be known what was read
between two states, not only how much of it (`Reader.Passes`).
-/

namespace Declarative

/-! ## Spans over tokens -/

/-- The second span lies within the first. -/
def Span.Covers (a b : Span) : Prop := a.start ≤ b.start ∧ b.stop ≤ a.stop

instance (a b : Span) : Decidable (a.Covers b) := inferInstanceAs (Decidable (_ ∧ _))

/-- No token is empty, and each ends before the next one starts. -/
structure Token.InOrder (tokens : List Token) : Prop where
  nonempty : ∀ t ∈ tokens, t.span.start < t.span.stop
  pairwise : tokens.Pairwise fun a b => a.span.stop ≤ b.span.start

/-- The span reaches from the start of the first token to the end of the last. -/
structure Span.Reaches (span : Span) (tokens : List Token) : Prop where
  start : tokens.head?.map (·.span.start) = some span.start
  stop : tokens.getLast?.map (·.span.stop) = some span.stop

theorem Token.InOrder.of_append {read rest : List Token} (h : InOrder (read ++ rest)) :
    InOrder read ∧ InOrder rest ∧ ∀ a ∈ read, ∀ b ∈ rest, a.span.stop ≤ b.span.start := by
  obtain ⟨hnonempty, hpairwise⟩ := h
  obtain ⟨hread, hrest, hacross⟩ := List.pairwise_append.mp hpairwise
  refine ⟨⟨?_, hread⟩, ⟨?_, hrest⟩, hacross⟩
  · exact fun t ht => hnonempty t (List.mem_append_left _ ht)
  · exact fun t ht => hnonempty t (List.mem_append_right _ ht)

theorem Token.InOrder.suffix {tokens rest : List Token} (h : InOrder tokens)
    (hsuffix : rest <:+ tokens) : InOrder rest := by
  obtain ⟨read, rfl⟩ := hsuffix
  exact h.of_append.2.1

namespace Span.Reaches

variable {span : Span} {tokens : List Token} (h : span.Reaches tokens)

include h

theorem exists_first : ∃ first rest, tokens = first :: rest ∧ span.start = first.span.start := by
  obtain ⟨first, hhead, hstart⟩ := Option.map_eq_some_iff.mp h.start
  obtain ⟨rest, rfl⟩ := List.head?_eq_some_iff.mp hhead
  exact ⟨first, rest, rfl, hstart.symm⟩

theorem exists_last : ∃ init last, tokens = init ++ [last] ∧ span.stop = last.span.stop := by
  obtain ⟨last, hlast, hstop⟩ := Option.map_eq_some_iff.mp h.stop
  obtain ⟨init, rfl⟩ := List.getLast?_eq_some_iff.mp hlast
  exact ⟨init, last, rfl, hstop.symm⟩

theorem covers (horder : Token.InOrder tokens) : ∀ t ∈ tokens, span.Covers t.span := by
  intro t ht
  constructor
  · obtain ⟨first, rest, rfl, hstart⟩ := h.exists_first
    rw [hstart]
    rcases List.mem_cons.mp ht with rfl | ht
    · exact Nat.le_refl _
    · have hlt := horder.nonempty first (List.mem_cons_self ..)
      have hle := (List.pairwise_cons.mp horder.pairwise).1 t ht
      omega
  · obtain ⟨init, last, rfl, hstop⟩ := h.exists_last
    rw [hstop]
    rcases List.mem_append.mp ht with hinit | hlast
    · have hlt := horder.nonempty last (List.mem_append_right _ (List.mem_singleton_self _))
      have hle := horder.of_append.2.2 t hinit last (List.mem_singleton_self _)
      omega
    · rw [List.mem_singleton.mp hlast]

theorem start_lt_stop (horder : Token.InOrder tokens) : span.start < span.stop := by
  obtain ⟨first, rest, htokens, -⟩ := h.exists_first
  have hfirst : first ∈ tokens := htokens ▸ List.mem_cons_self ..
  have hcovers := h.covers horder first hfirst
  have hlt := horder.nonempty first hfirst
  exact hcovers.1.trans_lt (hlt.trans_le hcovers.2)

end Span.Reaches

/-! ## Tilings -/

/-- The tokens are separators and the runs of the statements, one behind the other. -/
inductive Tiles : List Statement → List Token → Prop where
  | nil : Tiles [] []
  | separator {t statements tokens} (h : t.kind.isSeparator = true) :
      Tiles statements tokens → Tiles statements (t :: tokens)
  | statement {s run statements tokens} (h : s.span.Reaches run) :
      Tiles statements tokens → Tiles (s :: statements) (run ++ tokens)

namespace Tiles

variable {statements : List Statement} {tokens : List Token}

theorem separators (h : Tiles statements tokens) :
    ∀ {separators : List Token}, (∀ t ∈ separators, t.kind.isSeparator = true) →
      Tiles statements (separators ++ tokens)
  | [], _ => h
  | t :: _, hall =>
      .separator (hall t (List.mem_cons_self ..))
        (h.separators fun u hu => hall u (List.mem_cons_of_mem _ hu))

theorem exists_start (h : Tiles statements tokens) :
    ∀ s ∈ statements, ∃ t ∈ tokens, s.span.start = t.span.start := by
  induction h with
  | nil => simp
  | separator _ _ ih =>
      intro s hs
      obtain ⟨t, ht, hstart⟩ := ih s hs
      exact ⟨t, List.mem_cons_of_mem _ ht, hstart⟩
  | statement hreaches _ ih =>
      intro s hs
      rcases List.mem_cons.mp hs with rfl | hs
      · obtain ⟨first, rest, rfl, hstart⟩ := hreaches.exists_first
        exact ⟨first, List.mem_append_left _ (List.mem_cons_self ..), hstart⟩
      · obtain ⟨t, ht, hstart⟩ := ih s hs
        exact ⟨t, List.mem_append_right _ ht, hstart⟩

/-- The statements stand in order if their tokens do. -/
theorem pairwise (h : Tiles statements tokens) (horder : Token.InOrder tokens) :
    statements.Pairwise fun a b => a.span.stop ≤ b.span.start := by
  induction h with
  | nil => exact .nil
  | separator _ _ ih => exact ih (horder.suffix (List.suffix_cons ..))
  | statement hreaches htiles ih =>
      obtain ⟨-, hrest, hacross⟩ := horder.of_append
      refine .cons (fun s hs => ?_) (ih hrest)
      obtain ⟨init, last, rfl, hstop⟩ := hreaches.exists_last
      obtain ⟨t, ht, hstart⟩ := htiles.exists_start s hs
      rw [hstop, hstart]
      exact hacross last (List.mem_append_right _ (List.mem_singleton_self _)) t ht

/-- Each token that is no separator lies within one statement, and within no other. -/
theorem countP_covers (h : Tiles statements tokens) (horder : Token.InOrder tokens) {t : Token}
    (ht : t ∈ tokens) (hkind : t.kind.isSeparator = false) :
    statements.countP (fun s => s.span.Covers t.span) = 1 := by
  induction h with
  | nil => cases ht
  | @separator u _ _ hu _ ih =>
      rcases List.mem_cons.mp ht with rfl | ht
      · rw [hu] at hkind
        cases hkind
      · exact ih (horder.suffix (List.suffix_cons ..)) ht
  | @statement s run statements tokens hreaches htiles ih =>
      obtain ⟨hrun, hrest, hacross⟩ := horder.of_append
      have hsize := horder.nonempty t ht
      rcases List.mem_append.mp ht with ht | ht
      · -- the other statements start behind the run
        have hothers : statements.countP (fun s => s.span.Covers t.span) = 0 := by
          rw [List.countP_eq_zero]
          intro other hother hcovers
          obtain ⟨first, hfirst, hstart⟩ := htiles.exists_start other hother
          have hle := hacross t ht first hfirst
          have hother := (of_decide_eq_true hcovers).1
          omega
        rw [List.countP_cons_of_pos (by simpa using hreaches.covers hrun t ht), hothers]
      · -- the statement of the run ends before the token starts
        have hnot : ¬s.span.Covers t.span := by
          intro hcovers
          obtain ⟨init, last, hlast, hstop⟩ := hreaches.exists_last
          have hmem : last ∈ run := hlast ▸ List.mem_append_right _ (List.mem_singleton_self _)
          have hle := hacross last hmem t ht
          have hstop' := hcovers.2
          omega
        rw [List.countP_cons_of_neg (by simpa using hnot)]
        exact ih hrest ht

end Tiles

namespace Script

/-! ## What is read between two states -/

namespace Reader

/-- Reading has gone over the tokens, and knows where the last of them ends. -/
structure Passes (s : Reader) (read : List Token) (s' : Reader) : Prop where
  unread : s.unread = read ++ s'.unread
  lastEnd : s'.lastEnd = (read.getLast?.map (·.span.stop)).getD s.lastEnd

theorem Passes.refl (s : Reader) : s.Passes [] s := ⟨rfl, rfl⟩

theorem Passes.trans {s s₁ s₂ : Reader} {read others : List Token} (h₁ : s.Passes read s₁)
    (h₂ : s₁.Passes others s₂) : s.Passes (read ++ others) s₂ where
  unread := by rw [h₁.unread, h₂.unread, List.append_assoc]
  lastEnd := by
    rw [h₂.lastEnd, h₁.lastEnd, List.getLast?_append]
    cases others.getLast? <;> rfl

theorem passes_skip (s : Reader) (n : Nat) : s.Passes (s.unread.take n) (s.skip n) :=
  ⟨(List.take_append_drop n s.unread).symm, rfl⟩

theorem passes_steady : Law.Steady fun s s' => ∃ read, s.Passes read s' where
  refl s := ⟨[], .refl s⟩
  trans := fun ⟨_, h₁⟩ ⟨_, h₂⟩ => ⟨_, h₁.trans h₂⟩
  skip s n := ⟨_, s.passes_skip n⟩
  takeId _ := ⟨[], rfl, rfl⟩
  report _ _ := ⟨[], rfl, rfl⟩

theorem exists_unread_cons {s : Reader} (h : s.peek ≠ .eof) :
    ∃ t rest, s.unread = t :: rest ∧ t.kind = s.peek ∧ t.span = s.here := by
  unfold peek here at *
  cases hunread : s.unread with
  | nil =>
      rw [hunread] at h
      exact absurd rfl h
  | cons t rest => exact ⟨t, rest, rfl, rfl, rfl⟩

/-- From here to where the last token read ends. -/
theorem Passes.reaches {s s' : Reader} {read : List Token} (h : s.Passes read s')
    (hne : read ≠ []) : Span.Reaches ⟨s.here.start, s'.lastEnd⟩ read := by
  obtain ⟨first, rest, rfl⟩ := List.exists_cons_of_ne_nil hne
  constructor
  · have hunread := h.unread
    rw [List.cons_append] at hunread
    simp [here, hunread]
  · rw [h.lastEnd, List.getLast?_eq_some_getLast hne]
    rfl

theorem exists_separators (s : Reader) :
    ∃ separators, (∀ t ∈ separators, t.kind.isSeparator = true)
      ∧ s.unread = separators ++ s.skipSeparators.unread := by
  let test (t : Token) : Bool := t.kind.isSeparator
  have htake := List.prefix_iff_eq_take.mp (s.unread.takeWhile_prefix test)
  have hpasses := s.passes_skip (s.unread.takeWhile test).length
  rw [← htake] at hpasses
  exact ⟨_, fun t ht => List.mem_takeWhile_imp (p := test) ht, hpasses.unread⟩

theorem peek_skipSeparators (s : Reader) : s.skipSeparators.peek.isSeparator = false := by
  have hkinds := (s.leaves_skipWhile Token.Kind.isSeparator).kinds
  have hhead := List.head?_dropWhile_not Token.Kind.isSeparator s.kinds
  rw [← hkinds] at hhead
  cases hrest : (s.skipWhile Token.Kind.isSeparator).kinds with
  | nil =>
      rw [skipSeparators, peek_of_kinds_nil hrest]
      rfl
  | cons kind rest =>
      rw [hrest] at hhead
      rw [skipSeparators, peek_of_kinds hrest]
      exact hhead

/-- Passing over the rest of a statement passes over a token, unless none of its tokens is
next. -/
theorem statementLength_pos {s : Reader} (heof : s.peek ≠ .eof) (hbrace : s.peek ≠ .rightBrace)
    (hseparator : s.peek.isSeparator = false) : 0 < statementLength 0 s.unread := by
  obtain ⟨t, rest, hunread, hkind, -⟩ := exists_unread_cons heof
  rw [← hkind] at hbrace hseparator
  rw [hunread]
  unfold statementLength
  generalize t.kind = kind at *
  split
  · omega
  · exact absurd rfl hbrace
  · omega
  · cases hseparator
  · cases hseparator
  · omega

end Reader

namespace Parser

/-! ## Statements -/

/-- Reading has gone over a statement that reaches over its tokens, and perhaps over
separators behind it. -/
def Places (s : Reader) (st : Statement) (s' : Reader) : Prop :=
  ∃ run separators, s.unread = run ++ (separators ++ s'.unread) ∧ st.span.Reaches run
    ∧ ∀ t ∈ separators, t.kind.isSeparator = true

/-- The parser goes over what it reads, without looking back. -/
def Forwards {α : Type} (p : Parser α) : Prop :=
  Keeps (.ofStates fun s s' => ∃ read, s.Passes read s') p

theorem nested_forwards {α : Type} {inner : Parser α} (h : Forwards inner) :
    Forwards (nested inner) := by
  intro s
  unfold nested
  split
  · obtain ⟨read, hunread, hlast⟩ := h { s with depth := s.depth + 1 }
    exact ⟨read, hunread, hlast⟩
  · exact ⟨[], .refl s⟩

section

variable {value : Parser Value} (hvalue : Forwards value) {block : Parser Body}
  (hblock : Forwards block)

include hvalue hblock

theorem statement_places {id : NodeId} {s s' : Reader} {st : Statement}
    (h : statement value block id s = (.ok st, s')) : Places s st s' := by
  obtain ⟨name, make, s₁, hname, -, hrest, hend, rfl⟩ := statement_eq_ok.mp h
  have hspan : (make id ⟨s.here.start, s₁.lastEnd⟩).span = ⟨s.here.start, s₁.lastEnd⟩ := by
    rcases statementRest_eq_ok.mp hrest with ⟨_, -, -, rfl⟩ | ⟨_, -, -, rfl⟩
      | ⟨_, _, _, -, -, -, rfl⟩ | ⟨_, -, -, rfl⟩ <;> rfl
  obtain ⟨t, rest, hunread, -, -⟩ := Reader.exists_unread_cons (s := s) (by simp [hname])
  obtain ⟨others, hothers⟩ :=
    (statementRest_keeps Reader.passes_steady.elementary hvalue hblock name).of_eq hrest
  have hrun := (s.passes_skip 1).trans hothers
  have hreaches := hrun.reaches (by simp [hunread])
  rw [← hspan] at hreaches
  rcases terminator_eq_ok.mp hend with ⟨hseparator, rfl⟩ | ⟨-, rfl⟩
  · obtain ⟨u, after, hunread₁, hkind, -⟩ :=
      Reader.exists_unread_cons (Token.Kind.ne_eof_of_isSeparator hseparator)
    refine ⟨_, [u], ?_, hreaches, ?_⟩
    · have hall := hrun.unread
      rw [hunread₁] at hall
      simpa [Reader.skip, hunread₁] using hall
    · intro v hv
      rw [List.mem_singleton.mp hv, hkind]
      exact hseparator
  · exact ⟨_, [], hrun.unread, hreaches, by simp⟩

end

/-- The statement and the separators behind it come before the other statements. -/
theorem Places.exists_append {s s₁ : Reader} {first : Statement} (h : Places s first s₁) :
    ∃ run separators, s.unread = run ++ (separators ++ s₁.skipSeparators.unread)
      ∧ first.span.Reaches run ∧ ∀ t ∈ separators, t.kind.isSeparator = true := by
  obtain ⟨run, before, hunread, hreaches, hbefore⟩ := h
  obtain ⟨after, hafter, hskipped⟩ := s₁.exists_separators
  refine ⟨run, before ++ after, ?_, hreaches, ?_⟩
  · rw [hunread, hskipped, List.append_assoc]
  · intro t ht
    rcases List.mem_append.mp ht with ht | ht
    · exact hbefore t ht
    · exact hafter t ht

theorem Places.start {s s₁ : Reader} {first : Statement} (h : Places s first s₁) :
    first.span.start = s.here.start := by
  obtain ⟨run, separators, hunread, hreaches, -⟩ := h
  obtain ⟨t, rest, rfl, hstart⟩ := hreaches.exists_first
  rw [hstart, Reader.here, hunread]
  rfl

theorem Places.suffix {s s₁ : Reader} {first : Statement} (h : Places s first s₁) :
    s₁.skipSeparators.unread <:+ s.unread := by
  obtain ⟨run, separators, hunread, -, -⟩ := h.exists_append
  exact ⟨run ++ separators, by rw [hunread, List.append_assoc]⟩

theorem Places.length_lt {s s₁ : Reader} {first : Statement} (h : Places s first s₁) :
    s₁.skipSeparators.unread.length < s.unread.length := by
  obtain ⟨run, separators, hunread, hreaches, -⟩ := h.exists_append
  obtain ⟨t, rest, rfl, -⟩ := hreaches.exists_first
  have hlength := congrArg List.length hunread
  simp only [List.length_append, List.length_cons] at hlength
  omega

theorem Places.tiles {s s₁ : Reader} {first : Statement} {others : List Statement}
    (h : Places s first s₁) (hothers : Tiles others s₁.skipSeparators.unread) :
    Tiles (first :: others) s.unread := by
  obtain ⟨run, separators, hunread, hreaches, hseparators⟩ := h.exists_append
  rw [hunread]
  exact .statement hreaches (hothers.separators hseparators)

section

variable {parse : NodeId → Parser Statement}
  (hparse : ∀ {id s s' st}, parse id s = (.ok st, s') → Places s st s')
  (hforwards : ∀ id, Forwards (parse id))

include hparse hforwards

/-- An error statement reaches over what was read before the fault and what was passed over
behind it. -/
theorem recovering_places {s s' : Reader} {first : Statement}
    (h : recovering parse s = (some first, s')) (horder : Token.InOrder s.unread)
    (heof : s.peek ≠ .eof) (hbrace : s.peek ≠ .rightBrace)
    (hseparator : s.peek.isSeparator = false) : Places s first s' := by
  rcases recovering_cases h with ⟨_, ⟨⟩, hread⟩ | ⟨fault, s₁, hread, rfl, ⟨⟩⟩ | ⟨_, _, -, -, -, ⟨⟩⟩
  · have hplaces := hparse hread
    exact hplaces
  · obtain ⟨read, hread⟩ := (hforwards _).of_eq hread
    let length := Reader.statementLength 0 s₁.unread
    have hrest : s₁.Passes (s₁.unread.take length) (s₁.report fault).synchronize :=
      ⟨(List.take_append_drop length s₁.unread).symm, rfl⟩
    have hall : s.Passes (read ++ s₁.unread.take length) (s₁.report fault).synchronize :=
      Reader.Passes.trans ⟨hread.unread, hread.lastEnd⟩ hrest
    -- where the fault is at the first token, at least that one is passed over
    have hne : read ++ s₁.unread.take length ≠ [] := by
      intro hnil
      obtain ⟨rfl, htake⟩ := List.append_eq_nil_iff.mp hnil
      have hsame : s.unread = s₁.unread := hread.unread
      have hpos := Reader.statementLength_pos heof hbrace hseparator
      obtain ⟨t, rest, hcons, -, -⟩ := Reader.exists_unread_cons heof
      rw [hsame] at hpos hcons
      rw [List.take_eq_nil_iff] at htake
      rcases htake with hzero | hnone
      · omega
      · rw [hcons] at hnone
        cases hnone
    have hreaches := hall.reaches hne
    have hlt := hreaches.start_lt_stop (hall.unread ▸ horder).of_append.1
    refine ⟨_, [], hall.unread, ?_, by simp⟩
    rw [Statement.span, Nat.max_eq_left hlt.le]
    exact hreaches

theorem topRound_places {s s₁ : Reader} {first : Statement} (h : TopRound parse s first s₁)
    (horder : Token.InOrder s.unread) (hseparator : s.peek.isSeparator = false) :
    Places s first s₁ := by
  cases h with
  | statement hround =>
      exact recovering_places hparse hforwards hround.hread horder hround.heof hround.hbrace
        hseparator
  | brace hbrace hstray =>
      obtain ⟨rfl, rfl⟩ := Prod.mk.inj hstray
      obtain ⟨t, rest, hunread, -, hspan⟩ := Reader.exists_unread_cons (s := s) (by simp [hbrace])
      refine ⟨[t], [], ?_, ⟨?_, ?_⟩, by simp⟩
      · simp [Reader.skip, Reader.report, hunread]
      · simp [Statement.span, hspan]
      · simp [Statement.span, hspan]

/-- Outside of all blocks the statements tile the tokens, if reading is not given up. -/
theorem topStatements_tiles {s s' : Reader} {statements : List Statement}
    (h : topStatements parse s = (statements, s')) (horder : Token.InOrder s.unread)
    (htokens : ∀ t ∈ s.unread, t.kind ≠ .eof) (hseparator : s.peek.isSeparator = false)
    (hfew : s'.faults.length < maxFaults) : Tiles statements s.unread := by
  replace h := topRounds_of_eq h
  induction h with
  | @done s hend =>
      cases hunread : s.unread with
      | nil => exact .nil
      | cons t rest =>
          have hkind : t.kind = .eof := by simpa [Reader.peek, hunread] using hend
          exact absurd hkind (htokens t (hunread ▸ List.mem_cons_self ..))
  | gaveUp _ _ hnone =>
      rcases recovering_cases hnone with ⟨_, ⟨⟩, -⟩ | ⟨_, _, -, -, ⟨⟩⟩ | ⟨_, _, -, -, hfull, -⟩
      omega
  | @more s first s₁ others s' hround _ _ ih =>
      have hplaces := topRound_places hparse hforwards hround horder hseparator
      exact hplaces.tiles (ih (horder.suffix hplaces.suffix)
        (fun t ht => htokens t (hplaces.suffix.subset ht)) s₁.peek_skipSeparators hfew)
  | @last s first s₁ s' hround hend hstop =>
      have hplaces := topRound_places hparse hforwards hround horder hseparator
      have hfew₁ : s₁.faults.length < maxFaults := by rcases hend with rfl | rfl <;> exact hfew
      exact absurd hplaces.length_lt (hstop (by simpa [Reader.hasPatience] using hfew₁))

end

/-- No token is passed over in silence. -/
theorem value_forwards (fuel : Nat) : Forwards (value fuel) :=
  value_keeps Reader.passes_steady.elementary nested_forwards fuel

theorem block_forwards (fuel : Nat) : Forwards (block fuel) :=
  block_keeps Reader.passes_steady nested_forwards fuel

theorem statement_forwards (fuel : Nat) (id : NodeId) :
    Forwards (statement (value fuel) (block fuel) id) :=
  statement_keeps Reader.passes_steady.elementary (value_forwards fuel) (block_forwards fuel) id

theorem topStatement_forwards (id : NodeId) : Forwards (topStatement id) :=
  statement_forwards fullFuel id

theorem topStatement_places {id : NodeId} {s s' : Reader} {st : Statement}
    (h : topStatement id s = (.ok st, s')) : Places s st s' :=
  statement_places (value_forwards fullFuel) (block_forwards fullFuel) h

end Parser

/-! ## Scripts -/

section

variable {tokens : List Token} {last : Token} (htokens : ∀ t ∈ tokens, t.kind ≠ .eof)
  (hlast : last.kind = .eof) (horder : Token.InOrder tokens)

include htokens hlast horder

theorem tiles_ofTokens {source : String}
    (hfew : (ofTokens source (tokens ++ [last])).faults.length < maxFaults) :
    Tiles (ofTokens source (tokens ++ [last])).script.statements tokens := by
  let start := Reader.ofTokens (tokens ++ [last])
  have hunread : start.unread = tokens := Reader.unread_ofTokens htokens hlast
  obtain ⟨separators, hseparators, hskipped⟩ := start.exists_separators
  rw [hunread] at hskipped
  have hsuffix : start.skipSeparators.unread <:+ tokens := ⟨separators, hskipped.symm⟩
  have htiles := Parser.topStatements_tiles Parser.topStatement_places Parser.topStatement_forwards
    (s := start.skipSeparators) rfl (horder.suffix hsuffix)
    (fun t ht => htokens t (hsuffix.subset ht)) start.peek_skipSeparators hfew
  have hall := htiles.separators hseparators
  rwa [← hskipped] at hall

/-- **No token is lost** while fewer than twenty faults are found: the statements outside of
all blocks stand in order, and each token that is no separator lies within one of them and
within no other. -/
theorem covered_ofTokens (source : String)
    (hfew : (ofTokens source (tokens ++ [last])).faults.length < 20) :
    let statements := (ofTokens source (tokens ++ [last])).script.statements
    statements.Pairwise (fun a b => a.span.stop ≤ b.span.start)
      ∧ ∀ t ∈ tokens, t.kind.isSeparator = false →
          statements.countP (fun s => s.span.Covers t.span) = 1 := by
  intro statements
  have htiles := tiles_ofTokens htokens hlast horder hfew
  exact ⟨htiles.pairwise horder, fun t ht hkind => htiles.countP_covers horder ht hkind⟩

end

/-- An argument list that a stray brace breaks off, a line of parentheses, and a block with a
line that is no statement. -/
theorem covered_ofTokens_garden :
    let kinds : List Token.Kind := [.ident "bed", .leftParen, .newline, .rightBrace, .ident "x",
      .equals, .int 1, .semicolon, .rightParen, .rightParen, .newline, .ident "pond", .leftBrace,
      .ident "a", .comma, .newline, .rightBrace]
    let tokens : List Token := kinds.zipIdx.map fun (kind, i) => ⟨kind, ⟨2 * i, 2 * i + 1⟩⟩
    let last : Token := ⟨.eof, ⟨34, 34⟩⟩
    let parsed := ofTokens "garden" (tokens ++ [last])
    (∀ t ∈ tokens, t.kind ≠ .eof) ∧ last.kind = .eof ∧ Token.InOrder tokens
      ∧ parsed.faults.length < 20 ∧ parsed.script.statements.length = 5
      ∧ parsed.script.statements.Pairwise (fun a b => a.span.stop ≤ b.span.start)
      ∧ ∀ t ∈ tokens, t.kind.isSeparator = false →
          parsed.script.statements.countP (fun s => s.span.Covers t.span) = 1 := by
  intro kinds tokens last parsed
  have htokens : ∀ t ∈ tokens, t.kind ≠ .eof := by decide +kernel +revert
  have hnonempty : ∀ t ∈ tokens, t.span.start < t.span.stop := by decide +kernel +revert
  have hdisjoint : tokens.Pairwise fun a b => a.span.stop ≤ b.span.start := by
    decide +kernel +revert
  have hfew : parsed.faults.length < 20 := by decide +kernel +revert
  have hlength : parsed.script.statements.length = 5 := by decide +kernel +revert
  have horder : Token.InOrder tokens := ⟨hnonempty, hdisjoint⟩
  obtain ⟨hpairwise, hcovered⟩ := covered_ofTokens htokens rfl horder "garden" hfew
  exact ⟨htokens, rfl, horder, hfew, hlength, hpairwise, hcovered⟩

end Script

end Declarative
