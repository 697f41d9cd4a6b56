import Declarative.Proofs.Parser.Coverage
import Declarative.Proofs.Outline
import Declarative.Proofs.Token.Lossless

/-!
# Spans of what is read

Everything that is made of tokens stands where its tokens stand. While a text is read, the tokens that
are left stand in order behind the token read last (`Reader.InText`), and what a parser yields is
laid out between the ends of the tokens read last before and after it (`Parser.Lays`). An error
statement reaches over the tokens passed over; a block ends with its brace because each statement in
it leaves fewer tokens. So the spans of a script are faithful to the text (`Script.Faithful`).
-/

namespace Declarative

open Outline (Laid Written)

/-! ## Tokens in a text -/

theorem Token.Scans.inOrder {room offset : Nat} {cs : List Char} {lexed : Token.Lexed}
    (h : Token.Scans room offset cs lexed) : Token.InOrder lexed.tokens :=
  ⟨fun t ht => (h.occurs t ht).start_lt_stop, h.pairwise⟩

namespace Script

namespace Reader

/-- The tokens still to be read stand in order in the text, behind the token read last. -/
structure InText (text : List Char) (s : Reader) : Prop where
  order : Token.InOrder s.unread
  behind : ∀ t ∈ s.unread, s.lastEnd ≤ t.span.start
  bounded : ∀ t ∈ s.unread, t.span.stop ≤ Text.width text
  written : ∀ t ∈ s.unread, ∀ name, t.kind = .ident name → Written text t.span.start name
  lastEnd_le : s.lastEnd ≤ Text.width text
  finish : s.finish = .point (Text.width text)

theorem lastEnd_skip_cases (s : Reader) (n : Nat) :
    (s.skip n).lastEnd = s.lastEnd
      ∨ ∃ t ∈ s.unread.take n, (s.skip n).lastEnd = t.span.stop := by
  rw [(s.passes_skip n).lastEnd]
  cases hlast : (s.unread.take n).getLast? with
  | none => exact Or.inl rfl
  | some t => exact Or.inr ⟨t, List.mem_of_getLast? hlast, rfl⟩

variable {text : List Char}

theorem InText.lastEnd_le_skip {s : Reader} (h : s.InText text) (n : Nat) :
    s.lastEnd ≤ (s.skip n).lastEnd := by
  rcases s.lastEnd_skip_cases n with hlast | ⟨t, ht, hlast⟩
  · exact hlast.ge
  · have hmem := List.mem_of_mem_take ht
    have hbehind := h.behind t hmem
    have hnonempty := h.order.nonempty t hmem
    omega

theorem lastEnd_skip_le {s : Reader} {n bound : Nat} (hlast : s.lastEnd ≤ bound)
    (hread : ∀ t ∈ s.unread.take n, t.span.stop ≤ bound) : (s.skip n).lastEnd ≤ bound := by
  rcases s.lastEnd_skip_cases n with h | ⟨t, ht, h⟩
  · rwa [h]
  · rw [h]
    exact hread t ht

theorem InText.skip {s : Reader} (h : s.InText text) (n : Nat) : (s.skip n).InText text := by
  have horder := h.order
  rw [← s.unread.take_append_drop n] at horder
  obtain ⟨-, hrest, hacross⟩ := horder.of_append
  have hmem : ∀ t ∈ (s.skip n).unread, t ∈ s.unread := fun t ht => List.mem_of_mem_drop ht
  refine ⟨hrest, ?_, fun t ht => h.bounded t (hmem t ht), fun t ht => h.written t (hmem t ht), ?_,
    h.finish⟩
  · intro t ht
    exact lastEnd_skip_le (h.behind t (hmem t ht)) (fun u hu => hacross u hu t ht)
  · exact lastEnd_skip_le h.lastEnd_le (fun u hu => h.bounded u (List.mem_of_mem_take hu))

/-- Reading goes on in the text, and not back. -/
theorem inText_steady (text : List Char) :
    Law.Steady fun s s' => s.InText text → s'.InText text ∧ s.lastEnd ≤ s'.lastEnd where
  refl _ h := ⟨h, Nat.le_refl _⟩
  trans h₁ h₂ h := by
    obtain ⟨hmiddle, hle₁⟩ := h₁ h
    obtain ⟨hend, hle₂⟩ := h₂ hmiddle
    exact ⟨hend, hle₁.trans hle₂⟩
  skip _ n h := ⟨h.skip n, h.lastEnd_le_skip n⟩
  takeId _ h := ⟨{ h with }, Nat.le_refl _⟩
  report _ _ h := ⟨{ h with }, Nat.le_refl _⟩

/-- The next token takes some of the text behind the token read last. -/
theorem InText.here {s : Reader} (h : s.InText text) (hpeek : s.peek ≠ .eof) :
    s.lastEnd ≤ s.here.start ∧ s.here.start < s.here.stop ∧ (s.skip 1).lastEnd = s.here.stop := by
  obtain ⟨t, rest, hunread, -, hspan⟩ := exists_unread_cons hpeek
  have hmem : t ∈ s.unread := hunread ▸ List.mem_cons_self ..
  rw [← hspan]
  refine ⟨h.behind t hmem, h.order.nonempty t hmem, ?_⟩
  rw [(s.passes_skip 1).lastEnd, hunread]
  rfl

theorem InText.written_here {s : Reader} (h : s.InText text) {name : String}
    (hpeek : s.peek = .ident name) : Written text s.here.start name := by
  obtain ⟨t, rest, hunread, hkind, hspan⟩ := exists_unread_cons (s := s) (by simp [hpeek])
  rw [← hspan]
  exact h.written t (hunread ▸ List.mem_cons_self ..) name (hkind.trans hpeek)

theorem InText.lastEnd_le_here {s : Reader} (h : s.InText text) : s.lastEnd ≤ s.here.stop := by
  unfold Reader.here
  cases hunread : s.unread with
  | nil =>
      rw [h.finish]
      exact h.lastEnd_le
  | cons t rest =>
      have hmem : t ∈ s.unread := hunread ▸ List.mem_cons_self ..
      exact (h.behind t hmem).trans (h.order.nonempty t hmem).le

/-- What is next later on stands behind what is next now. -/
theorem InText.here_le_here_skip {s : Reader} (h : s.InText text) (n : Nat)
    (hpeek : (s.skip n).peek ≠ .eof) : s.here.start ≤ (s.skip n).here.start := by
  obtain ⟨u, after, hafter, -, hspan⟩ := exists_unread_cons hpeek
  have hu : u ∈ s.unread := List.mem_of_mem_drop (hafter ▸ List.mem_cons_self ..)
  rw [← hspan]
  unfold Reader.here
  cases hunread : s.unread with
  | nil =>
      rw [hunread] at hu
      cases hu
  | cons t rest =>
      have hnonempty := h.order.nonempty t (hunread ▸ List.mem_cons_self ..)
      have hpairwise := h.order.pairwise
      rw [hunread] at hu hpairwise
      rcases List.mem_cons.mp hu with rfl | hu
      · exact Nat.le_refl _
      · exact hnonempty.le.trans ((List.pairwise_cons.mp hpairwise).1 u hu)

end Reader

namespace Parser

variable {text : List Char}

/-- The parser reads on in the text, and not back. -/
def StaysIn (text : List Char) {α : Type} (p : Parser α) : Prop :=
  Keeps (.ofStates fun s s' => s.InText text → s'.InText text ∧ s.lastEnd ≤ s'.lastEnd) p

theorem nested_staysIn {α : Type} {inner : Parser α} (h : StaysIn text inner) :
    StaysIn text (nested inner) := by
  intro s hs
  unfold nested
  split
  · obtain ⟨hend, hle⟩ := h { s with depth := s.depth + 1 } { hs with }
    exact ⟨{ hend with }, hle⟩
  · exact ⟨hs, Nat.le_refl _⟩

theorem value_staysIn (text : List Char) (fuel : Nat) : StaysIn text (value fuel) :=
  value_keeps (Reader.inText_steady text).elementary nested_staysIn fuel

theorem block_staysIn (text : List Char) (fuel : Nat) : StaysIn text (block fuel) :=
  block_keeps (Reader.inText_steady text) nested_staysIn fuel

/-! ## Values -/

/-- What the parser yields is laid out from where it starts to where it stops reading. -/
def Lays (text : List Char) {α : Type} (p : Parser α) (outlines : α → List Outline) : Prop :=
  ∀ ⦃s s' : Reader⦄ ⦃a : α⦄, s.InText text → p s = (.ok a, s') →
    Laid text s.lastEnd (outlines a) s'.lastEnd

theorem Lays.nested {α : Type} {inner : Parser α} {outlines : α → List Outline}
    (h : Lays text inner outlines) : Lays text (nested inner) outlines := by
  intro s s' a hs hread
  obtain ⟨-, s₁, hinner, rfl⟩ := nested_eq_ok.mp hread
  have hlaid := h (s := { s with depth := s.depth + 1 }) { hs with } hinner
  exact hlaid

/-- From one value of a list to the next. -/
theorem stays_comma {s s₁ : Reader} (hs : s.InText text)
    (h : expect .comma s.skipNewlines = (.ok (), s₁)) :
    s₁.skipNewlines.InText text ∧ s.lastEnd ≤ s₁.skipNewlines.lastEnd := by
  obtain ⟨-, rfl⟩ := expect_eq_ok.mp h
  have hbefore : s.skipNewlines.InText text := hs.skip _
  have hafter := hbefore.skip 1
  have hle₁ : s.lastEnd ≤ s.skipNewlines.lastEnd := hs.lastEnd_le_skip _
  have hle₂ := hbefore.lastEnd_le_skip 1
  exact ⟨hafter.skip _, hle₁.trans (hle₂.trans (hafter.lastEnd_le_skip _))⟩

section

variable {value : Parser Value} (hvalue : Lays text value fun v => [v.outline])
  (hstays : StaysIn text value)

include hvalue hstays

theorem listed_lays : Lays text (listed value) Value.outlines := by
  intro s s' values hs h
  fun_induction listed value s generalizing values with
  | case1 s _ =>
      obtain ⟨hvalues, rfl⟩ := Prod.mk.inj h
      obtain rfl := Except.ok.inj hvalues
      exact .nil (hs.lastEnd_le_skip 1)
  | case2 | case4 => cases h
  | case3 s _ first s₁ hfirst s₂ =>
      obtain ⟨hvalues, rfl⟩ := Prod.mk.inj h
      obtain rfl := Except.ok.inj hvalues
      obtain ⟨hs₁, -⟩ := hstays.of_eq hfirst hs
      have hs₂ : s₂.InText text := hs₁.skip _
      exact (hvalue hs hfirst).widen ((hs₁.lastEnd_le_skip _).trans (hs₂.lastEnd_le_skip 1))
  | case5 s _ first s₁ hfirst s₂ _ _ s₃ hcomma s₄ _ others s₅ hothers =>
      rename_i ih
      obtain ⟨hvalues, rfl⟩ := Prod.mk.inj h
      obtain ⟨hs₁, -⟩ := hstays.of_eq hfirst hs
      obtain ⟨hs₄, hle⟩ := stays_comma hs₁ hcomma
      cases others with
      | error fault => cases hvalues
      | ok others =>
          obtain rfl := Except.ok.inj hvalues
          exact ((hvalue hs hfirst).widen hle).append (ih hs₄ hothers)
  | case6 s _ first s₁ hfirst s₂ _ _ s₃ hcomma s₄ =>
      obtain ⟨hvalues, rfl⟩ := Prod.mk.inj h
      obtain rfl := Except.ok.inj hvalues
      obtain ⟨hs₁, -⟩ := hstays.of_eq hfirst hs
      obtain ⟨-, hle⟩ := stays_comma hs₁ hcomma
      exact (hvalue hs hfirst).widen hle

theorem arguments_lays : Lays text (arguments value) Value.outlines := by
  intro s s' values hs h
  obtain ⟨-, hlisted⟩ := arguments_eq_ok.mp h
  have hopen := hs.skip 1
  have hle : s.lastEnd ≤ (s.skip 1).skipNewlines.lastEnd :=
    (hs.lastEnd_le_skip 1).trans (hopen.lastEnd_le_skip _)
  exact (listed_lays hvalue hstays (hopen.skip _) hlisted).raise hle

theorem valueWith_lays : Lays text (valueWith value) fun v => [v.outline] := by
  intro s s' v hs h
  rcases valueWith_eq_ok.mp h with ⟨content, hkind, rfl, rfl⟩
    | ⟨name, values, hname, -, hvalues, rfl⟩
  · have hpeek : s.peek ≠ .eof := by
      rw [hkind]
      cases content <;> simp [Literal.kind]
    obtain ⟨hbehind, hnonempty, hlast⟩ := hs.here hpeek
    exact .single hbehind (by simp) (.nil hnonempty) hlast.ge
  · obtain ⟨hbehind, hnonempty, hlast⟩ := hs.here (by simp [hname])
    have hinside := arguments_lays hvalue hstays (s := s.takeId.2.skip 1) { hs.skip 1 with } hvalues
    refine .single hbehind ?_ ?_ (Nat.le_refl _)
    · rintro _ ⟨⟩
      exact hs.written_here hname
    · exact hinside.raise (hnonempty.trans_eq hlast.symm)

end

theorem value_lays : ∀ fuel : Nat, Lays text (value fuel) fun v => [v.outline]
  | 0 => by
      rintro s s' v - ⟨⟩
  | fuel + 1 => (valueWith_lays (value_lays fuel) (value_staysIn text fuel)).nested

/-! ## Statements -/

section

variable {value : Parser Value} (hvalue : Lays text value fun v => [v.outline])
  (hvalueStays : StaysIn text value) {block : Parser Body}
  (hblock : Lays text block Body.outlines) (hblockStays : StaysIn text block)

include hvalue hvalueStays hblock

theorem statementRest_lays {name : Name} {s s' : Reader} {make : NodeId → Span → Statement}
    (hs : s.InText text) (h : statementRest value block name s = (.ok make, s')) :
    ∃ inside, Laid text s.lastEnd inside s'.lastEnd
      ∧ ∀ id span, (make id span).outline = .part span (some name.text) inside := by
  rcases statementRest_eq_ok.mp h with ⟨assigned, -, hassigned, rfl⟩
    | ⟨values, harguments, -, rfl⟩ | ⟨values, s₁, body, harguments, -, hbody, rfl⟩
    | ⟨body, -, hbody, rfl⟩
  · have hlaid := hvalue (hs.skip 1) hassigned
    exact ⟨_, hlaid.raise (hs.lastEnd_le_skip 1), fun _ _ => rfl⟩
  · refine ⟨_, arguments_lays hvalue hvalueStays hs harguments, fun id span => ?_⟩
    rw [Statement.outline, Body.outlines, List.append_nil]
  · have hstays := arguments_keeps (Reader.inText_steady text).elementary hvalueStays
    obtain ⟨hs₁, -⟩ := Keeps.of_eq hstays harguments hs
    exact ⟨_, (arguments_lays hvalue hvalueStays hs harguments).append (hblock hs₁ hbody),
      fun _ _ => rfl⟩
  · exact ⟨_, hblock hs hbody, fun _ _ => rfl⟩

include hblockStays

theorem statement_lays (id : NodeId) :
    Lays text (statement value block id) fun st => [st.outline] := by
  intro s s' st hs h
  obtain ⟨name, make, s₁, hname, -, hrest, hend, rfl⟩ := statement_eq_ok.mp h
  obtain ⟨hbehind, hnonempty, hlast⟩ := hs.here (by simp [hname])
  have hnext := hs.skip 1
  obtain ⟨inside, hinside, hmake⟩ := statementRest_lays hvalue hvalueStays hblock hnext hrest
  have hstays := statementRest_keeps (Reader.inText_steady text).elementary hvalueStays hblockStays name
  obtain ⟨hs₁, -⟩ := Keeps.of_eq hstays hrest hnext
  obtain ⟨-, hle⟩ := Keeps.of_eq (keeps_terminator (Reader.inText_steady text).elementary) hend hs₁
  dsimp only
  rw [hmake]
  refine .single hbehind ?_ (hinside.raise (hnonempty.trans_eq hlast.symm)) hle
  rintro _ ⟨⟩
  exact hs.written_here hname

end

section

variable {parse : NodeId → Parser Statement}
  (hparse : ∀ id, Lays text (parse id) fun st => [st.outline])
  (hplaces : ∀ {id s s' st}, parse id s = (.ok st, s') → Places s st s')
  (hforwards : ∀ id, Forwards (parse id)) (hstays : ∀ id, StaysIn text (parse id))

include hparse hplaces hforwards

theorem recovering_lays {s s' : Reader} {first : Statement} (hs : s.InText text)
    (h : recovering parse s = (some first, s')) (heof : s.peek ≠ .eof)
    (hbrace : s.peek ≠ .rightBrace) (hseparator : s.peek.isSeparator = false) :
    Laid text s.lastEnd [first.outline] s'.lastEnd := by
  obtain ⟨hbehind, -, -⟩ := hs.here heof
  obtain ⟨run, separators, hunread, hreaches, -⟩ :=
    recovering_places hplaces hforwards h hs.order heof hbrace hseparator
  have hrun := (hunread ▸ hs.order).of_append.1
  rcases recovering_cases h with ⟨_, ⟨⟩, hread⟩ | ⟨fault, s₁, -, -, ⟨⟩⟩ | ⟨_, _, -, -, -, ⟨⟩⟩
  · exact hparse _ (s := s.takeId.2) { hs with } hread
  · -- the span reaches over a run of tokens, so it ends where reading stands
    have hlt := hreaches.start_lt_stop hrun
    rw [Statement.span] at hlt
    dsimp only at hlt
    refine .single hbehind (by simp) (.nil hlt) ?_
    dsimp only
    omega

include hstays

theorem blockRound_lays {s s₁ : Reader} {first : Statement} (hs : s.InText text)
    (h : BlockRound parse s first s₁) (hseparator : s.peek.isSeparator = false) :
    Laid text s.lastEnd [first.outline] s₁.lastEnd ∧ s₁.InText text := by
  obtain ⟨hs₁, -⟩ := recovering_keeps (Reader.inText_steady text) hstays h.hread hs
  exact ⟨recovering_lays hparse hplaces hforwards hs h.hread h.heof h.hbrace hseparator, hs₁⟩

theorem blockStatements_lays {opening : Span} {s s' : Reader} {statements : List Statement}
    (hs : s.InText text) (hseparator : s.peek.isSeparator = false)
    (h : blockStatements parse opening s = (.ok statements, s')) :
    Laid text s.lastEnd (Statement.outlines statements) s'.lastEnd ∧ s'.InText text
      ∧ s'.peek = .rightBrace := by
  replace h := blockRounds_of_ok h
  induction h with
  | closed hpeek => exact ⟨.nil (Nat.le_refl _), hs, hpeek⟩
  | @more s first s₁ others s' hround _ ih =>
      obtain ⟨hlaid, hs₁⟩ := blockRound_lays hparse hplaces hforwards hstays hs hround hseparator
      obtain ⟨hrest, hend⟩ := ih (hs₁.skip _) s₁.peek_skipSeparators
      exact ⟨(hlaid.widen (hs₁.lastEnd_le_skip _)).append hrest, hend⟩
  | stuck hround hstuck =>
      -- a statement takes tokens, so reading does not stop in front of the brace
      have hplace := recovering_places hplaces hforwards hround.hread hs.order hround.heof
        hround.hbrace hseparator
      exact absurd hplace.length_lt hstuck

theorem blockWith_lays : Lays text (blockWith parse) Body.outlines := by
  intro s s' body hs h
  obtain ⟨statements, s₁, hpeek, hstatements, rfl, rfl⟩ := blockWith_eq_ok.mp h
  obtain ⟨hbehind, hnonempty, hlast⟩ := hs.here (by simp [hpeek])
  have hopen : (s.takeId.2.skip 1).InText text := { hs.skip 1 with }
  have hle : s.here.stop ≤ (s.takeId.2.skip 1).skipSeparators.lastEnd :=
    hlast.ge.trans (hopen.lastEnd_le_skip _)
  obtain ⟨hinside, hs₁, hclosing⟩ := blockStatements_lays hparse hplaces hforwards hstays
    (hopen.skip _) (Reader.peek_skipSeparators _) hstatements
  obtain ⟨hbehind₁, hnonempty₁, hlast₁⟩ := hs₁.here (by simp [hclosing])
  have hall : (s.takeId.2.skip 1).skipSeparators.lastEnd ≤ s₁.lastEnd := hinside.lo_le_hi
  have hcover : s.here.cover s₁.here = ⟨s.here.start, s₁.here.stop⟩ := by
    rw [Span.cover, Nat.min_eq_left (by omega), Nat.max_eq_right (by omega)]
  rw [hcover]
  refine .single hbehind (by simp) ?_ hlast₁.ge
  exact (hinside.raise (hnonempty.trans_le hle)).widen (hbehind₁.trans hnonempty₁.le)

omit hparse hforwards hstays in
theorem recovering_start {s s' : Reader} {first : Statement}
    (h : recovering parse s = (some first, s')) : first.span.start = s.here.start := by
  rcases recovering_cases h with ⟨_, ⟨⟩, hread⟩ | ⟨_, _, -, -, ⟨⟩⟩ | ⟨_, _, -, -, -, ⟨⟩⟩
  · exact (hplaces hread).start
  · rfl

omit hparse hforwards hstays in
/-- The first statement starts at the next token. -/
theorem topStatements_start {s s' : Reader} {first : Statement} {others : List Statement}
    (h : topStatements parse s = (first :: others, s')) :
    s.peek ≠ .eof ∧ first.span.start = s.here.start := by
  have hround : ∀ {s₁ : Reader}, TopRound parse s first s₁ →
      s.peek ≠ .eof ∧ first.span.start = s.here.start := by
    rintro s₁ (hround | ⟨hbrace, hstray⟩)
    · exact ⟨hround.heof, recovering_start hplaces hround.hread⟩
    · exact ⟨by simp [hbrace], congrArg (·.span.start) (Prod.mk.inj hstray).1.symm⟩
  cases topRounds_of_eq h with
  | more hfirst => exact hround hfirst
  | last hfirst => exact hround hfirst

theorem topRound_lays {s s₁ : Reader} {first : Statement} (hs : s.InText text)
    (h : TopRound parse s first s₁) (hseparator : s.peek.isSeparator = false) :
    Laid text s.lastEnd [first.outline] s₁.lastEnd ∧ s₁.InText text := by
  cases h with
  | statement hround => exact blockRound_lays hparse hplaces hforwards hstays hs hround hseparator
  | brace hbrace hstray =>
      obtain ⟨rfl, rfl⟩ := Prod.mk.inj hstray
      obtain ⟨hbehind, hnonempty, hlast⟩ := hs.here (by simp [hbrace])
      exact ⟨.single hbehind (by simp) (.nil hnonempty) hlast.ge, { hs.skip 1 with }⟩

theorem topStatements_lays {s s' : Reader} {statements : List Statement} (hs : s.InText text)
    (hseparator : s.peek.isSeparator = false) (h : topStatements parse s = (statements, s')) :
    Laid text s.lastEnd (Statement.outlines statements) s'.lastEnd ∧ s'.InText text := by
  replace h := topRounds_of_eq h
  induction h with
  | done => exact ⟨.nil (Nat.le_refl _), hs⟩
  | gaveUp _ _ hnone =>
      obtain ⟨hs', hle⟩ := recovering_keeps (Reader.inText_steady text) hstays hnone hs
      exact ⟨.nil hle, hs'⟩
  | @more s first s₁ others s' hround _ _ ih =>
      obtain ⟨hlaid, hs₁⟩ := topRound_lays hparse hplaces hforwards hstays hs hround hseparator
      obtain ⟨hrest, hend⟩ := ih (hs₁.skip _) s₁.peek_skipSeparators
      exact ⟨(hlaid.widen (hs₁.lastEnd_le_skip _)).append hrest, hend⟩
  | last hround hend _ =>
      obtain ⟨hlaid, hs₁⟩ := topRound_lays hparse hplaces hforwards hstays hs hround hseparator
      rcases hend with rfl | rfl
      · exact ⟨hlaid, hs₁⟩
      · exact ⟨hlaid.widen (hs₁.lastEnd_le_skip _), hs₁.skip _⟩

theorem topStatements_within {s s' : Reader} {statements : List Statement} (hs : s.InText text)
    (hseparator : s.peek.isSeparator = false) (h : topStatements parse s = (statements, s')) :
    ∀ st ∈ statements, s.peek ≠ .eof ∧ s.here.start ≤ st.span.start
      ∧ st.span.stop ≤ s'.lastEnd := by
  obtain ⟨hlaid, -⟩ := topStatements_lays hparse hplaces hforwards hstays hs hseparator h
  intro st hst
  cases statements with
  | nil => cases hst
  | cons first others =>
      obtain ⟨heof, hfirst⟩ := topStatements_start hplaces h
      have hmem : st.outline ∈ Statement.outlines (first :: others) := by
        rw [Statement.outlines_eq_map]
        exact List.mem_map_of_mem hst
      have hle := hlaid.head_start_le _ hmem
      obtain ⟨-, -, hstop⟩ := hlaid.bounds _ hmem
      rw [Statement.span_outline] at hle hstop
      rw [Statement.span_outline, hfirst] at hle
      exact ⟨heof, hle, hstop⟩

end

theorem statement_staysIn (text : List Char) (fuel : Nat) (id : NodeId) :
    StaysIn text (statement (value fuel) (block fuel) id) :=
  statement_keeps (Reader.inText_steady text).elementary (value_staysIn text fuel)
    (block_staysIn text fuel) id

theorem block_lays (text : List Char) : ∀ fuel : Nat, Lays text (block fuel) Body.outlines
  | 0 => by
      rintro s s' body - ⟨⟩
  | fuel + 1 => by
      have hlays := statement_lays (value_lays fuel) (value_staysIn text fuel)
        (block_lays text fuel) (block_staysIn text fuel)
      have hplaces := @statement_places _ (value_forwards fuel) _ (block_forwards fuel)
      exact (blockWith_lays hlays hplaces (statement_forwards fuel)
        (statement_staysIn text fuel)).nested

theorem topStatement_lays (text : List Char) (id : NodeId) :
    Lays text (topStatement id) fun st => [st.outline] :=
  statement_lays (value_lays fullFuel) (value_staysIn text fullFuel) (block_lays text fullFuel)
    (block_staysIn text fullFuel) id

end Parser

/-! ## Scripts -/

theorem Reader.inText_ofTokens (source : String) :
    (Reader.ofTokens (tokenize source).tokens).InText source.toList := by
  have hscans := Token.scans_scan Token.maxFaults 0 source.toList
  have hoccurs := hscans.occurs
  let words := (Token.scan Token.maxFaults 0 source.toList).tokens
  let last : Token := ⟨.eof, .point (Text.width source.toList)⟩
  have hne : ∀ t ∈ words, t.kind ≠ .eof := fun t ht => (hoccurs t ht).ne_eof
  have hunread : (Reader.ofTokens (words ++ [last])).unread = words := unread_ofTokens hne rfl
  have hfinish : (words ++ [last]).find? (·.kind == .eof) = some last := by
    rw [List.find?_append, List.find?_eq_none.mpr (by simpa using hne)]
    rfl
  refine ⟨?_, fun t _ => Nat.zero_le _, ?_, ?_, Nat.zero_le _, ?_⟩
  · show Token.InOrder (Reader.ofTokens (words ++ [last])).unread
    rw [hunread]
    exact hscans.inOrder
  · show ∀ t ∈ (Reader.ofTokens (words ++ [last])).unread, _
    rw [hunread]
    exact fun t ht => (hoccurs t ht).stop_le
  · show ∀ t ∈ (Reader.ofTokens (words ++ [last])).unread, _
    rw [hunread]
    intro t ht name hkind
    obtain ⟨lexeme, hslice, hstop, hspells⟩ := (hoccurs t ht).slice?_eq
    obtain rfl := hspells.eq_of_ident hkind
    rwa [hstop] at hslice
  · show (Reader.ofTokens (words ++ [last])).finish = _
    rw [Reader.ofTokens, hfinish]

/-- The spans of statements, blocks and values say where in the text these stand: within the text,
children within their parents, one behind the other, and behind their names. -/
structure Faithful (text : List Char) (script : Script) : Prop where
  within : ∀ part ∈ Outline.partsAll script.outlines,
    part.span.start < part.span.stop ∧ part.span.stop ≤ Text.width text
  nested : ∀ part ∈ Outline.partsAll script.outlines, ∀ child ∈ part.inside,
    part.span.Covers child.span
  apart : ∀ part ∈ Outline.partsAll script.outlines,
    part.inside.Pairwise fun a b => a.span.stop ≤ b.span.start
  ordered : script.outlines.Pairwise fun a b => a.span.stop ≤ b.span.start
  ascending : script.preorder.Pairwise fun a b => a.span.start < b.span.start
  named : ∀ part ∈ Outline.partsAll script.outlines, ∀ name, part.name? = some name →
    Text.slice? text part.span.start (part.span.start + Text.width name.toList) = some name.toList
  whole : ∀ st ∈ script.statements, script.span.Covers st.span

/-- Statements and values that are laid out in a text start one behind the other. -/
theorem ascending_of_laid {text : List Char} {script : Script} {lo hi : Nat}
    (h : Laid text lo script.outlines hi) :
    script.preorder.Pairwise fun a b => a.span.start < b.span.start := by
  have hspans : ((Outline.partsAll script.outlines).map Outline.span).Pairwise
      fun a b => a.start < b.start := List.pairwise_map.mpr h.starts_pairwise
  have hnodes := hspans.sublist (Statement.spans_sublist_all script.statements)
  rwa [List.pairwise_map] at hnodes

theorem faithful_of_laid {text : List Char} {script : Script} {lo hi : Nat}
    (h : Laid text lo script.outlines hi) (hhi : hi ≤ Text.width text)
    (hwhole : ∀ st ∈ script.statements, script.span.Covers st.span) : script.Faithful text := by
  refine ⟨?_, ?_, ?_, ?_, ?_, ?_, hwhole⟩
  · intro part hpart
    obtain ⟨-, hstop, hinside, -⟩ := h.of_mem part hpart
    exact ⟨hinside.lo_le_hi, hstop.trans hhi⟩
  · intro part hpart child hchild
    obtain ⟨-, -, hinside, -⟩ := h.of_mem part hpart
    obtain ⟨hstart, -, hstop⟩ := hinside.bounds child hchild
    exact ⟨(Nat.le_succ _).trans hstart, hstop⟩
  · intro part hpart
    obtain ⟨-, -, hinside, -⟩ := h.of_mem part hpart
    exact hinside.pairwise
  · exact h.pairwise
  · exact ascending_of_laid h
  · intro part hpart
    obtain ⟨-, -, -, hname⟩ := h.of_mem part hpart
    exact hname

/-- What is read of a text is laid out in it, within the span of the script. -/
theorem laid_ofText (source text : String) :
    ∃ lo hi, Laid text.toList lo (ofText source text).script.outlines hi
      ∧ hi ≤ Text.width text.toList
      ∧ ∀ st ∈ (ofText source text).script.statements,
          (ofText source text).script.span.Covers st.span := by
  let start := Reader.ofTokens (tokenize text).tokens
  have hstart : start.InText text.toList := Reader.inText_ofTokens text
  have hfirst : start.skipSeparators.InText text.toList := hstart.skip _
  have hstays := Parser.statement_staysIn text.toList Parser.fullFuel
  obtain ⟨hlaid, hend⟩ := Parser.topStatements_lays (Parser.topStatement_lays text.toList)
    Parser.topStatement_places Parser.topStatement_forwards hstays hfirst
    start.peek_skipSeparators rfl
  have hwithin := Parser.topStatements_within (Parser.topStatement_lays text.toList)
    Parser.topStatement_places Parser.topStatement_forwards hstays hfirst
    start.peek_skipSeparators rfl
  refine ⟨_, _, hlaid, hend.lastEnd_le, fun st hst => ?_⟩
  obtain ⟨heof, hlo, hhi⟩ := hwithin st hst
  exact ⟨(hstart.here_le_here_skip _ heof).trans hlo, hhi.trans hend.lastEnd_le_here⟩

/-- **Spans are faithful**, also where statements were passed over. -/
theorem faithful_ofText (source text : String) :
    (ofText source text).script.Faithful text.toList := by
  obtain ⟨lo, hi, hlaid, hhi, hwhole⟩ := laid_ofText source text
  exact faithful_of_laid hlaid hhi hwhole

example :
    let parts := Outline.partsAll (ofText "garden" "bed(1) \x7b a = b() \x7d").script.outlines
    parts.map (fun part => (part.span, part.name?)) = [(⟨0, 18⟩, some "bed"), (⟨4, 5⟩, none),
      (⟨7, 18⟩, none), (⟨9, 16⟩, some "a"), (⟨13, 16⟩, some "b")] := by decide +kernel

end Script

end Declarative
