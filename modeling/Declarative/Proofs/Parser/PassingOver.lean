import Declarative.Proofs.Parser.Budget
import Declarative.Proofs.Parser.GivingUp
import Declarative.Proofs.Parser.Locality

/-!
# Malformed statements are passed over

A malformed statement stops the parser at one of its own tokens or at the line feed behind it, and
what is left of it then has balanced braces with all separators inside (`Parser.exists_stopsIn`). So
reading goes on at the line feed, and the error statement reaches over the malformed tokens, neither
more nor less (`Parser.exists_fault`).

Where the parser stops is found by going through it step by step: each step reads over some tokens
(`Parser.ReadsOver`) or stops in front of the rest (`Parser.StopsIn`), whatever stands behind the
line feed.
-/

namespace Declarative

/-- From the start of the first token to the end of the last, which is never taken to lie before. -/
def Token.extent (tokens : List Token) : Span :=
  let start := (tokens.head?.map (·.span.start)).getD 0
  ⟨start, max ((tokens.getLast?.map (·.span.stop)).getD start) start⟩

namespace Script

open Token (Kind)

namespace Parser

section

variable {α β : Type}

/-- In front of the tokens, a line feed and anything else the parser reads the first of them and
yields what is wanted. -/
def ReadsOver (p : Parser α) (depth : Nat) (read left : List Token) (newline : Token)
    (post : α → Prop) : Prop :=
  ∀ ⦃s : Reader⦄ ⦃rest : List Token⦄, s.unread = read ++ (left ++ newline :: rest) →
    s.depth = depth →
      ∃ a s', p s = (.ok a, s') ∧ s.Passes read s' ∧ s'.faults = s.faults ∧ s'.depth = s.depth
        ∧ post a

/-- There the parser reads the first of the tokens and stops with the fault. -/
def StopsIn (p : Parser α) (depth : Nat) (read left : List Token) (newline : Token)
    (fault : Fault) : Prop :=
  ∀ ⦃s : Reader⦄ ⦃rest : List Token⦄, s.unread = read ++ (left ++ newline :: rest) →
    s.depth = depth → ∃ s', p s = (.error fault, s') ∧ s.Passes read s' ∧ s'.faults = s.faults

variable {p : Parser α} {f : α → Parser β} {depth : Nat} {read read' left : List Token}
  {newline : Token} {post : α → Prop} {post' : β → Prop} {fault : Fault}

theorem StopsIn.bind (h : StopsIn p depth read left newline fault) :
    StopsIn (p >>= f) depth read left newline fault := by
  intro s rest hs hdepth
  obtain ⟨s', hp, hpasses, hfaults⟩ := h hs hdepth
  exact ⟨s', bind_eq_error.mpr (Or.inl hp), hpasses, hfaults⟩

theorem ReadsOver.bind_stops (h : ReadsOver p depth read (read' ++ left) newline post)
    (hf : ∀ a, post a → StopsIn (f a) depth read' left newline fault) :
    StopsIn (p >>= f) depth (read ++ read') left newline fault := by
  intro s rest hs hdepth
  rw [List.append_assoc, ← List.append_assoc read'] at hs
  obtain ⟨a, s₁, hp, hpasses, hfaults, hdepth₁, hpost⟩ := h hs hdepth
  have hs₁ := List.append_cancel_left (hpasses.unread.symm.trans hs)
  rw [List.append_assoc] at hs₁
  obtain ⟨s', hstop, hpasses', hfaults'⟩ := hf a hpost hs₁ (hdepth₁.trans hdepth)
  exact ⟨s', bind_eq_error.mpr (Or.inr ⟨a, s₁, hp, hstop⟩), hpasses.trans hpasses',
    hfaults'.trans hfaults⟩

theorem ReadsOver.bind (h : ReadsOver p depth read (read' ++ left) newline post)
    (hf : ∀ a, post a → ReadsOver (f a) depth read' left newline post') :
    ReadsOver (p >>= f) depth (read ++ read') left newline post' := by
  intro s rest hs hdepth
  rw [List.append_assoc, ← List.append_assoc read'] at hs
  obtain ⟨a, s₁, hp, hpasses, hfaults, hdepth₁, hpost⟩ := h hs hdepth
  have hs₁ := List.append_cancel_left (hpasses.unread.symm.trans hs)
  rw [List.append_assoc] at hs₁
  obtain ⟨b, s', hread, hpasses', hfaults', hdepth', hpost'⟩ := hf a hpost hs₁ (hdepth₁.trans hdepth)
  exact ⟨b, s', bind_eq_ok.mpr ⟨a, s₁, hp, hread⟩, hpasses.trans hpasses',
    hfaults'.trans hfaults, hdepth'.trans hdepth₁, hpost'⟩

/-- Where no token is read first. -/
theorem ReadsOver.then_stops (h : ReadsOver p depth [] (read ++ left) newline post)
    (hf : ∀ a, post a → StopsIn (f a) depth read left newline fault) :
    StopsIn (p >>= f) depth read left newline fault := h.bind_stops hf

theorem ReadsOver.then (h : ReadsOver p depth [] (read ++ left) newline post)
    (hf : ∀ a, post a → ReadsOver (f a) depth read left newline post') :
    ReadsOver (p >>= f) depth read left newline post' := h.bind hf

/-- Where one token is read first. -/
theorem ReadsOver.next_stops {t : Token} (h : ReadsOver p depth [t] (read ++ left) newline post)
    (hf : ∀ a, post a → StopsIn (f a) depth read left newline fault) :
    StopsIn (p >>= f) depth (t :: read) left newline fault := h.bind_stops hf

theorem ReadsOver.next {t : Token} (h : ReadsOver p depth [t] (read ++ left) newline post)
    (hf : ∀ a, post a → ReadsOver (f a) depth read left newline post') :
    ReadsOver (p >>= f) depth (t :: read) left newline post' := h.bind hf

/-- Where no token is read afterwards. -/
theorem ReadsOver.last_stops (h : ReadsOver p depth read left newline post)
    (hf : ∀ a, post a → StopsIn (f a) depth [] left newline fault) :
    StopsIn (p >>= f) depth read left newline fault := by
  have hstop : StopsIn (p >>= f) depth (read ++ []) left newline fault := h.bind_stops hf
  rwa [List.append_nil] at hstop

theorem ReadsOver.last (h : ReadsOver p depth read left newline post)
    (hf : ∀ a, post a → ReadsOver (f a) depth [] left newline post') :
    ReadsOver (p >>= f) depth read left newline post' := by
  have hread : ReadsOver (p >>= f) depth (read ++ []) left newline post' := h.bind hf
  rwa [List.append_nil] at hread

/-- The next token is one of those that belong together, or the line feed behind them. -/
theorem peek_eq_headD {s : Reader} {rest : List Token} (hs : s.unread = left ++ newline :: rest) :
    s.peek = (left.headD newline).kind ∧ s.here = (left.headD newline).span := by
  cases left <;> simp_all [Reader.peek, Reader.here]

theorem readsOver_view (view' : Reader → α) :
    ReadsOver (view view') depth [] left newline fun _ => True := fun s _ _ _ =>
  ⟨_, s, rfl, .refl s, rfl, rfl, trivial⟩

theorem readsOver_peek :
    ReadsOver (view Reader.peek) depth [] left newline (· = (left.headD newline).kind) :=
  fun s _ hs _ => ⟨_, s, rfl, .refl s, rfl, rfl, (peek_eq_headD hs).1⟩

theorem readsOver_pure (a : α) : ReadsOver (pure a) depth [] left newline fun _ => True :=
  fun s _ _ _ => ⟨a, s, rfl, .refl s, rfl, rfl, trivial⟩

theorem readsOver_freshId : ReadsOver freshId depth [] left newline fun _ => True :=
  fun s _ _ _ => ⟨_, s.takeId.2, rfl, ⟨rfl, rfl⟩, rfl, rfl, trivial⟩

theorem passes_next {s : Reader} {t : Token} {rest : List Token} (hs : s.unread = t :: rest) :
    s.Passes [t] (s.skip 1) := by
  have hpasses := s.passes_skip 1
  rwa [hs] at hpasses

theorem readsOver_advance {t : Token} :
    ReadsOver advance depth [t] left newline fun _ => True :=
  fun s _ hs _ => ⟨(), s.skip 1, rfl, passes_next hs, rfl, rfl, trivial⟩

theorem readsOver_identifier {t : Token} {name : String} (h : t.kind = .ident name)
    (wanted : Wanted) : ReadsOver (identifier wanted) depth [t] left newline (·.text = name) := by
  intro s rest hs _
  have hpeek : s.peek = .ident name := by simp [Reader.peek, hs, h]
  exact ⟨⟨name, s.here⟩, s.skip 1, identifier_eq_ok.mpr ⟨hpeek, rfl, rfl⟩, passes_next hs, rfl, rfl,
    rfl⟩

theorem stopsIn_fail (cause : Fault.Cause) :
    StopsIn (fail cause : Parser α) depth [] left newline ⟨(left.headD newline).span, cause⟩ := by
  intro s rest hs _
  obtain ⟨-, hhere⟩ := peek_eq_headD hs
  exact ⟨s, by rw [fail, hhere], .refl s, rfl⟩

theorem stopsIn_missing (wanted : Wanted) :
    StopsIn (missing wanted : Parser α) depth [] left newline
      ⟨(left.headD newline).span, .expected wanted (left.headD newline).kind⟩ := by
  intro s rest hs hdepth
  obtain ⟨hpeek, -⟩ := peek_eq_headD hs
  rw [missing, hpeek]
  exact stopsIn_fail _ hs hdepth

theorem stopsIn_identifier {wanted : Wanted}
    (h : ∀ name, (left.headD newline).kind ≠ .ident name) :
    StopsIn (identifier wanted) depth [] left newline
      ⟨(left.headD newline).span, .expected wanted (left.headD newline).kind⟩ := by
  intro s rest hs hdepth
  obtain ⟨hpeek, -⟩ := peek_eq_headD hs
  rw [identifier]
  split
  · rename_i name hname
    exact absurd (hpeek.symm.trans hname) (h name)
  · exact stopsIn_missing wanted hs hdepth

theorem terminator_eq_missing {s : Reader} (hseparator : s.peek.isSeparator = false)
    (heof : s.peek ≠ .eof) (hbrace : s.peek ≠ .rightBrace) :
    terminator s = missing .separator s := by
  unfold terminator
  split
  · rename_i hkind
    rw [hkind] at hseparator
    cases hseparator
  · rename_i hkind
    rw [hkind] at hseparator
    cases hseparator
  · exact absurd ‹_› heof
  · exact absurd ‹_› hbrace
  · rfl

theorem stopsIn_terminator (hseparator : (left.headD newline).kind.isSeparator = false)
    (heof : (left.headD newline).kind ≠ .eof) (hbrace : (left.headD newline).kind ≠ .rightBrace) :
    StopsIn terminator depth [] left newline
      ⟨(left.headD newline).span, .expected .separator (left.headD newline).kind⟩ := by
  intro s rest hs hdepth
  obtain ⟨hpeek, -⟩ := peek_eq_headD hs
  rw [← hpeek] at hseparator heof hbrace
  rw [terminator_eq_missing hseparator heof hbrace]
  exact stopsIn_missing .separator hs hdepth

theorem ReadsOver.nested {inner : Parser α} (hroom : depth < maxDepth)
    (h : ReadsOver inner (depth + 1) read left newline post) :
    ReadsOver (nested inner) depth read left newline post := by
  rintro s rest hs rfl
  obtain ⟨a, s₁, hinner, hpasses, hfaults, hdepth, hpost⟩ :=
    @h { s with depth := s.depth + 1 } rest hs rfl
  refine ⟨a, _, nested_eq_ok.mpr ⟨hroom, s₁, hinner, rfl⟩, ⟨hpasses.unread, hpasses.lastEnd⟩, hfaults,
    ?_, hpost⟩
  simp [hdepth]

theorem StopsIn.nested {inner : Parser α} (hroom : depth < maxDepth)
    (h : StopsIn inner (depth + 1) read left newline fault) :
    StopsIn (nested inner) depth read left newline fault := by
  rintro s rest hs rfl
  obtain ⟨s₁, hinner, hpasses, hfaults⟩ := @h { s with depth := s.depth + 1 } rest hs rfl
  exact ⟨_, nested_eq_error hroom hinner, ⟨hpasses.unread, hpasses.lastEnd⟩, hfaults⟩

section

variable (hnewline : newline.kind = .newline)

include hnewline

theorem headD_ne_leftParen (hflat : ∀ t ∈ left, Grammar.Flat t.kind) :
    (left.headD newline).kind ≠ .leftParen := by
  cases left with
  | nil => simp [hnewline]
  | cons t others => exact (hflat t (List.mem_cons_self ..)).leftParen

/-- Without parentheses there are no values but literals. -/
theorem valueWith_flat {inner : Parser Value} (hflat : ∀ t ∈ left, Grammar.Flat t.kind) :
    (∃ fault read left', left = read ++ left'
        ∧ StopsIn (valueWith inner) depth read left' newline fault)
      ∨ ∃ t left' content, left = t :: left' ∧ t.kind = Literal.kind content
        ∧ ReadsOver (valueWith inner) depth [t] left' newline fun _ => True := by
  cases hliteral : literal? (left.headD newline).kind with
  | some content =>
      cases left with
      | nil =>
          rw [List.headD_nil, hnewline] at hliteral
          cases hliteral
      | cons t left' =>
          refine Or.inr ⟨t, left', content, rfl, literal?_eq_some_iff.mp hliteral, ?_⟩
          refine readsOver_freshId.then fun id _ => (readsOver_view _).then fun span _ => ?_
          refine readsOver_peek.then fun kind hkind => ?_
          obtain rfl : kind = ((t :: left').headD newline).kind := hkind
          rw [hliteral]
          exact readsOver_advance.next fun _ _ => readsOver_pure _
  | none =>
      by_cases hident : ∃ name, (left.headD newline).kind = .ident name
      · obtain ⟨name, hname⟩ := hident
        cases left with
        | nil => cases hnewline.symm.trans hname
        | cons t left' =>
            have hnone := headD_ne_leftParen hnewline (List.forall_mem_cons.mp hflat).2
            refine Or.inl ⟨⟨(left'.headD newline).span, .expected (.arguments name)
              (left'.headD newline).kind⟩, [t], left', rfl, ?_⟩
            refine readsOver_freshId.then_stops fun id _ => (readsOver_view _).then_stops fun _ _ => ?_
            refine readsOver_peek.then_stops fun kind hkind => ?_
            obtain rfl : kind = ((t :: left').headD newline).kind := hkind
            rw [hliteral]
            refine (readsOver_identifier hname .value).next_stops fun a ha => ?_
            refine readsOver_peek.then_stops fun behind hbehind => ?_
            rw [if_neg (hbehind ▸ hnone), ha]
            exact stopsIn_missing _
      · refine Or.inl ⟨⟨(left.headD newline).span, .expected .value (left.headD newline).kind⟩, [],
          left, rfl, ?_⟩
        refine readsOver_freshId.then_stops fun id _ => (readsOver_view _).then_stops fun _ _ => ?_
        refine readsOver_peek.then_stops fun kind hkind => ?_
        obtain rfl : kind = (left.headD newline).kind := hkind
        rw [hliteral]
        exact (stopsIn_identifier fun name hname => hident ⟨name, hname⟩).bind

theorem value_flat (depth fuel : Nat) (hflat : ∀ t ∈ left, Grammar.Flat t.kind) :
    (∃ fault read left', left = read ++ left'
        ∧ StopsIn (value fuel) depth read left' newline fault)
      ∨ ∃ t left' content, left = t :: left' ∧ t.kind = Literal.kind content
        ∧ ReadsOver (value fuel) depth [t] left' newline fun _ => True := by
  cases fuel with
  | zero => exact Or.inl ⟨_, [], left, rfl, stopsIn_fail _⟩
  | succ fuel =>
      by_cases hroom : depth < maxDepth
      · rcases valueWith_flat hnewline hflat with ⟨fault, read, left', hleft, hstop⟩
          | ⟨t, left', content, hleft, hkind, hread⟩
        · exact Or.inl ⟨fault, read, left', hleft, .nested hroom hstop⟩
        · exact Or.inr ⟨t, left', content, hleft, hkind, .nested hroom hread⟩
      · refine Or.inl ⟨⟨(left.headD newline).span, .tooDeep⟩, [], left, rfl, ?_⟩
        rintro s rest hs rfl
        rw [value, Parser.nested, if_neg hroom]
        exact stopsIn_fail _ hs rfl

/-- What is none of the three that can follow the name of a statement stops it. -/
theorem statementRest_stopsIn {value : Parser Value} {block : Parser Body} (name : Name)
    (hflat : ∀ t ∈ left, Grammar.Flat t.kind) (hequals : (left.headD newline).kind ≠ .equals) :
    StopsIn (statementRest value block name) depth [] left newline
      ⟨(left.headD newline).span, .expected .statementRest (left.headD newline).kind⟩ := by
  refine readsOver_peek.then_stops fun kind hkind => ?_
  obtain rfl : kind = (left.headD newline).kind := hkind
  have hbrace : (left.headD newline).kind ≠ .leftBrace := by
    cases left with
    | nil => simp [hnewline]
    | cons t others => exact (hflat t (List.mem_cons_self ..)).leftBrace
  split
  · exact absurd ‹_› hequals
  · exact absurd ‹_› (headD_ne_leftParen hnewline hflat)
  · exact absurd ‹_› hbrace
  · exact stopsIn_missing .statementRest

omit hnewline in
/-- A statement has to start with a name. -/
theorem statement_stopsIn {value : Parser Value} {block : Parser Body} (id : NodeId)
    (h : ∀ name, (left.headD newline).kind ≠ .ident name) :
    StopsIn (statement value block id) depth [] left newline
      ⟨(left.headD newline).span, .expected .identifier (left.headD newline).kind⟩ :=
  (readsOver_view _).then_stops fun _ _ => (stopsIn_identifier h).bind

/-- Without separators, braces and parentheses there are no statements but assignments of
literals. -/
theorem statement_flat (depth fuel : Nat) {tokens : List Token}
    (hflat : ∀ t ∈ tokens, Grammar.Flat t.kind) (heof : ∀ t ∈ tokens, t.kind ≠ .eof)
    (hnone : ¬∃ st, Grammar.Statement st (tokens.map (·.kind))) :
    ∃ fault read left, tokens = read ++ left ∧ ∀ id,
      StopsIn (statement (value fuel) (block fuel) id) depth read left newline fault := by
  by_cases hident : ∃ name, (tokens.headD newline).kind = .ident name
  case neg =>
    exact ⟨_, [], tokens, rfl, fun id =>
      statement_stopsIn id fun name hname => hident ⟨name, hname⟩⟩
  obtain ⟨name, hname⟩ := hident
  cases tokens with
  | nil => cases hnewline.symm.trans hname
  | cons t others =>
      have hothers := (List.forall_mem_cons.mp hflat).2
      by_cases hequals : (others.headD newline).kind = .equals
      case neg =>
        exact ⟨_, [t], others, rfl, fun id => (readsOver_view _).then_stops fun _ _ =>
          (readsOver_identifier hname _).next_stops fun a _ =>
            (statementRest_stopsIn hnewline a hothers hequals).bind⟩
      cases others with
      | nil => cases hnewline.symm.trans hequals
      | cons e right =>
          have hright := (List.forall_mem_cons.mp hothers).2
          rcases value_flat hnewline depth fuel hright with ⟨fault, read, left, rfl, hstop⟩
            | ⟨l, left, content, rfl, hliteral, hread⟩
          · refine ⟨fault, t :: e :: read, left, rfl, fun id => ?_⟩
            refine (readsOver_view _).then_stops fun _ _ => ?_
            refine (readsOver_identifier hname _).next_stops fun a _ => ?_
            refine StopsIn.bind (readsOver_peek.then_stops fun kind hkind => ?_)
            obtain rfl : kind = .equals := hkind.trans hequals
            exact readsOver_advance.next_stops fun _ _ => hstop.bind
          · cases left with
            | nil =>
                -- a name, an equals sign and a literal are a statement
                refine absurd ⟨.assign name (.literal content), ?_⟩ hnone
                have ht : t.kind = .ident name := hname
                have he : e.kind = .equals := hequals
                rw [List.map_cons, List.map_cons, List.map_singleton, ht, he, hliteral]
                exact .assign .literal
            | cons u left =>
                have hu := hright u (by simp)
                refine ⟨⟨u.span, .expected .separator u.kind⟩, [t, e, l], u :: left, rfl, fun id => ?_⟩
                refine (readsOver_view _).then_stops fun _ _ => ?_
                refine (readsOver_identifier hname _).next_stops fun a _ => ?_
                have hrest : ReadsOver (statementRest (value fuel) (block fuel) a) depth [e, l]
                    (u :: left) newline fun _ => True := by
                  refine readsOver_peek.then fun kind hkind => ?_
                  obtain rfl : kind = .equals := hkind.trans hequals
                  exact readsOver_advance.next fun _ _ => hread.last fun _ _ => readsOver_pure _
                have hend := @stopsIn_terminator depth (u :: left) newline hu.separator
                  (heof u (by simp)) hu.rightBrace
                exact hrest.last_stops fun make _ => (readsOver_view _).then_stops fun _ _ => hend.bind

end

end

theorem statementLength_balanced {newline : Token} (hnewline : newline.kind = .newline)
    (rest : List Token) : ∀ {depth : Nat} {tokens : List Token},
      Grammar.Balanced depth (tokens.map (·.kind)) →
        Reader.statementLength depth (tokens ++ newline :: rest) = tokens.length := by
  intro depth tokens h
  generalize hkinds : tokens.map (·.kind) = kinds at h
  induction h generalizing tokens with
  | done =>
      obtain rfl := List.map_eq_nil_iff.mp hkinds
      simp [Reader.statementLength, hnewline]
  | opening _ ih =>
      obtain ⟨t, others, rfl, ht, hothers⟩ := List.map_eq_cons_iff.mp hkinds
      have hlength := ih hothers
      simp [Reader.statementLength, ht, hlength, Nat.add_comm]
  | closing _ ih =>
      obtain ⟨t, others, rfl, ht, hothers⟩ := List.map_eq_cons_iff.mp hkinds
      have hlength := ih hothers
      simp [Reader.statementLength, ht, hlength, Nat.add_comm]
  | separator hseparator _ ih =>
      obtain ⟨t, others, rfl, rfl, hothers⟩ := List.map_eq_cons_iff.mp hkinds
      have hlength := ih hothers
      have hkind : t.kind = .newline ∨ t.kind = .semicolon := by
        cases hk : t.kind <;> simp_all [Kind.isSeparator]
      rcases hkind with hkind | hkind <;>
        simp [Reader.statementLength, hkind, hlength, Nat.add_comm]
  | other hseparator hopen hclose _ ih =>
      obtain ⟨t, others, rfl, rfl, hothers⟩ := List.map_eq_cons_iff.mp hkinds
      have hlength := ih hothers
      cases hkind : t.kind with
      | leftBrace => exact absurd hkind hopen
      | rightBrace => exact absurd hkind hclose
      | newline | semicolon =>
          rw [hkind] at hseparator
          cases hseparator
      | _ => simp [Reader.statementLength, hkind, hlength, Nat.add_comm]

theorem extent_eq {s s' : Reader} {tokens : List Token} (h : s.Passes tokens s')
    (hne : tokens ≠ []) :
    Token.extent tokens = ⟨s.here.start, max s'.lastEnd s.here.start⟩ := by
  obtain ⟨t, others, rfl⟩ := List.exists_cons_of_ne_nil hne
  have hhere : s.here = t.span := by
    rw [Reader.here, h.unread]
    rfl
  rw [h.lastEnd, hhere, List.getLast?_eq_some_getLast hne, Token.extent,
    List.getLast?_eq_some_getLast hne]
  rfl

theorem passes_synchronize {s : Reader} {left rest : List Token} {newline : Token}
    (hs : s.unread = left ++ newline :: rest) (hnewline : newline.kind = .newline)
    (hbalanced : Grammar.Balanced 0 (left.map (·.kind))) : s.Passes left s.synchronize := by
  have hlength := statementLength_balanced hnewline rest hbalanced
  have hpasses := s.passes_skip left.length
  rw [hs, List.take_left] at hpasses
  rw [Reader.synchronize, hs, hlength]
  exact hpasses

/-- A malformed statement stops the parser at a token of its own or at the line feed behind it, and
what is left of it then is balanced. -/
theorem exists_stopsIn {tokens : List Token} {newline : Token}
    (h : Grammar.Malformed (tokens.map (·.kind))) (heof : ∀ t ∈ tokens, t.kind ≠ .eof)
    (hnewline : newline.kind = .newline) (depth : Nat) :
    ∃ fault read left, tokens = read ++ left ∧ Grammar.Balanced 0 (left.map (·.kind))
      ∧ ∀ id, StopsIn (statementAt depth id) depth read left newline fault := by
  generalize hkinds : tokens.map (·.kind) = kinds at h
  cases h with
  | garbled hname _ _ hbalanced =>
      obtain ⟨t, others, rfl, rfl, -⟩ := List.map_eq_cons_iff.mp hkinds
      exact ⟨_, [], t :: others, rfl, hkinds ▸ hbalanced, fun id => statement_stopsIn id hname⟩
  | flat _ hflat hnone =>
      subst hkinds
      have hflat' : ∀ t ∈ tokens, Grammar.Flat t.kind := fun t ht => hflat _ (List.mem_map_of_mem ht)
      obtain ⟨fault, read, left, rfl, hstop⟩ := statement_flat hnewline depth (fullFuel - depth)
        hflat' heof hnone
      refine ⟨fault, read, left, rfl, Grammar.balanced_of_flat fun kind hkind => ?_, hstop⟩
      exact hflat kind (by rw [List.map_append]; exact List.mem_append_right _ hkind)

/-- A malformed statement and the line feed behind it yield one fault and one error statement. -/
theorem exists_fault {tokens : List Token} {newline : Token}
    (h : Grammar.Malformed (tokens.map (·.kind))) (heof : ∀ t ∈ tokens, t.kind ≠ .eof)
    (hnewline : newline.kind = .newline) (depth : Nat) :
    ∃ fault, Yields depth (tokens ++ [newline]) (fun _ => True) [fault]
      [.error ⟨0⟩ (Token.extent tokens) fault.message] := by
  obtain ⟨fault, read, left, hsplit, hbalanced, hstop⟩ := exists_stopsIn h heof hnewline depth
  refine ⟨fault, fun s rest hs _ hdepth hfew => ?_⟩
  rw [List.append_assoc, List.singleton_append] at hs
  have hs' : s.takeId.2.unread = read ++ (left ++ newline :: rest) := by
    rw [← List.append_assoc, ← hsplit]
    exact hs
  obtain ⟨s₁, hread, hpasses, hfaults⟩ := hstop s.takeId.1 hs' hdepth
  have hunread : (s₁.report fault).unread = left ++ newline :: rest :=
    List.append_cancel_left (hpasses.unread.symm.trans hs')
  have hfirst := recovering_eq_some hread (hfaults ▸ hfew)
  -- reading goes on at the line feed, because what is left of the tokens is balanced
  let s₂ := (s₁.report fault).synchronize
  have hpasses₂ : (s₁.report fault).Passes left s₂ := passes_synchronize hunread hnewline hbalanced
  have hall : s.Passes tokens s₂ := by
    have htrans := hpasses.trans ⟨hpasses₂.unread, hpasses₂.lastEnd⟩
    rw [← hsplit] at htrans
    exact ⟨htrans.unread, htrans.lastEnd⟩
  have hunread₂ : s₂.unread = newline :: rest :=
    List.append_cancel_left (hall.unread.symm.trans hs)
  have hpeek₂ : s₂.peek = .newline := Reader.peek_of_kinds (by
    rw [Reader.kinds, hunread₂, List.map_cons, hnewline])
  obtain ⟨kind, others, hkinds, hseparator, hbrace⟩ := h.exists_first
  have hpeek : s.peek = kind := Reader.peek_of_kinds (by
    rw [Reader.kinds, hs, List.map_append, hkinds, List.cons_append])
  obtain ⟨t, ht, rfl⟩ := List.mem_map.mp (hkinds ▸ List.mem_cons_self .. : kind ∈ _)
  have hround : BlockRound (statementAt depth) s _ s₂ :=
    ⟨hpeek ▸ heof t ht, hpeek ▸ hbrace, hfirst⟩
  have hlt : s₂.unread.length < s.unread.length := by
    have hpos := List.length_pos_of_mem ht
    rw [hunread₂, hs, List.length_append]
    omega
  refine ⟨_, s₂.skip 1, .round hround (hpeek ▸ hseparator) hlt
    (.separator (by rw [hpeek₂]; rfl) .done), ?_, ?_, ?_⟩
  · simp [Reader.skip, hunread₂]
  · have hreport : s₂.faults = s₁.faults ++ [fault] := rfl
    exact hreport.trans (by rw [hfaults]; rfl)
  · rw [extent_eq hall (List.ne_nil_of_mem ht)]
    rfl

end Parser

end Script

end Declarative
