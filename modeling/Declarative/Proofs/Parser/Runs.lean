import Declarative.Proofs.Parser.Spans

/-!
# Statements and values are runs of tokens

Every statement and every value that is read, at any depth, is made of a run of tokens: its span
reaches from the start of the first of them to the end of the last, and a name is the first of them
(`Script.Node.MadeOf`). No name is read directly behind a literal or another name. Reading comes to
a name only behind a mark: a parenthesis, a brace, a comma, an equals sign or a separator
(`Reader.Opened`). That is so behind a malformed statement as well, since it is passed over up to
such a token (`Reader.ready_synchronize`).
-/

namespace Declarative

/-- The token is a single character, and neither a literal nor a name. -/
def Token.Kind.isMark : Kind → Bool
  | .leftParen | .rightParen | .leftBrace | .rightBrace => true
  | .equals | .comma | .semicolon | .newline => true
  | _ => false

theorem Token.Kind.isMark_of_isSeparator {kind : Kind} (h : kind.isSeparator = true) :
    kind.isMark = true := by
  cases kind <;> first | rfl | cases h

namespace Script

def EndsWithMark (tokens : List Token) : Prop := ∀ t ∈ tokens.getLast?, t.kind.isMark = true

/-- The node is made of a run of the tokens, and its name is the first of them. -/
def Node.MadeOf (tokens : List Token) (node : Node) : Prop :=
  ∃ before run after, tokens = before ++ (run ++ after) ∧ node.span.Reaches run
    ∧ ∀ name, node.written? = some name →
        run.head? = some ⟨.ident name.text, name.span⟩ ∧ EndsWithMark before

/-! ## Places where a name can stand -/

namespace Reader

/-- Of the tokens the last one read is a mark, or none is read yet. -/
def Opened (tokens : List Token) (s : Reader) : Prop :=
  ∃ read, tokens = read ++ s.unread ∧ EndsWithMark read

/-- Reading stands where a name can stand, at a separator, or at what ends the statements. -/
structure Ready (tokens : List Token) (s : Reader) : Prop where
  suffix : s.unread <:+ tokens
  next : s.Opened tokens ∨ s.peek.isSeparator = true ∨ s.peek = .eof ∨ s.peek = .rightBrace

variable {tokens : List Token} {s s' : Reader}

theorem Opened.suffix (h : s.Opened tokens) : s.unread <:+ tokens := by
  obtain ⟨read, htokens, -⟩ := h
  exact ⟨read, htokens.symm⟩

theorem Passes.suffix {read : List Token} (h : s.Passes read s') (hs : s.unread <:+ tokens) :
    s'.unread <:+ tokens := by
  refine List.IsSuffix.trans ⟨read, ?_⟩ hs
  exact h.unread.symm

theorem ne_eof_of_isMark (h : s.peek.isMark = true) : s.peek ≠ .eof := by
  intro heof
  rw [heof] at h
  cases h

theorem opened_skip_one (hs : s.unread <:+ tokens) (hmark : s.peek.isMark = true) :
    (s.skip 1).Opened tokens := by
  obtain ⟨t, rest, hunread, hkind, -⟩ := exists_unread_cons (ne_eof_of_isMark hmark)
  obtain ⟨read, rfl⟩ := hs
  refine ⟨read ++ [t], by simp [skip, hunread], ?_⟩
  simp [EndsWithMark, hkind, hmark]

/-- Behind the tokens that pass a test a name can stand if it could in front of them, or if there
are any. -/
theorem opened_skipWhile {test : Token.Kind → Bool}
    (htest : ∀ kind, test kind = true → kind.isMark = true) (hs : s.unread <:+ tokens)
    (h : s.Opened tokens ∨ test s.peek = true) : (s.skipWhile test).Opened tokens := by
  let skipped := s.unread.takeWhile (test ·.kind)
  have hmarks : ∀ t ∈ skipped, t.kind.isMark = true := fun t ht =>
    htest _ (List.mem_takeWhile_imp (p := fun u : Token => test u.kind) ht)
  have hrest : s.unread = skipped ++ (s.skipWhile test).unread := by
    have htake := List.prefix_iff_eq_take.mp (s.unread.takeWhile_prefix (test ·.kind))
    have hpasses := s.passes_skip skipped.length
    rw [← htake] at hpasses
    exact hpasses.unread
  by_cases hnone : skipped = []
  · have hopened : s.Opened tokens := by
      refine h.resolve_right fun hfirst => ?_
      obtain ⟨t, rest, hunread, hkind, -⟩ :=
        exists_unread_cons (ne_eof_of_isMark (htest _ hfirst))
      rw [← hkind] at hfirst
      simp [skipped, hunread, hfirst] at hnone
    obtain ⟨read, htokens, hread⟩ := hopened
    exact ⟨read, by rw [htokens, hrest, hnone, List.nil_append], hread⟩
  · obtain ⟨read, rfl⟩ := hs
    refine ⟨read ++ skipped, by rw [List.append_assoc, ← hrest], fun t ht => hmarks t ?_⟩
    rw [List.getLast?_append_of_ne_nil _ hnone] at ht
    exact List.mem_of_getLast? ht

theorem Opened.ready (h : s.Opened tokens) : s.Ready tokens := ⟨h.suffix, Or.inl h⟩

theorem Ready.opened (h : s.Ready tokens) (heof : s.peek ≠ .eof) (hbrace : s.peek ≠ .rightBrace)
    (hseparator : s.peek.isSeparator = false) : s.Opened tokens := by
  rcases h.next with hopened | hnext | hnext | hnext
  · exact hopened
  · rw [hseparator] at hnext
    cases hnext
  · exact absurd hnext heof
  · exact absurd hnext hbrace

theorem Ready.skipSeparators (h : s.Ready tokens) : s.skipSeparators.Ready tokens := by
  have hskip : s.Opened tokens ∨ s.peek.isSeparator = true → s.skipSeparators.Ready tokens :=
    fun hnext =>
      (opened_skipWhile (fun _ => Token.Kind.isMark_of_isSeparator) h.suffix hnext).ready
  rcases h.next with hnext | hnext | hend
  · exact hskip (Or.inl hnext)
  · exact hskip (Or.inr hnext)
  · rw [skipSeparators_eq_self hend]
    exact h

/-- What is passed over ends in front of a token that ends a statement. -/
theorem statementLength_ends (depth : Nat) (unread : List Token) :
    ∀ t ∈ (unread.drop (statementLength depth unread)).head?,
      t.kind.isSeparator = true ∨ t.kind = .rightBrace := by
  fun_induction statementLength depth unread with
  | case1 => simp
  | case2 depth t rest _ ih | case4 t rest _ depth ih =>
      rwa [Nat.add_comm, List.drop_succ_cons]
  | case3 t rest hkind => simp [hkind]
  | case5 t rest hkind | case6 t rest hkind => simp [hkind, Token.Kind.isSeparator]
  | case7 depth t rest _ _ _ _ _ ih => rwa [Nat.add_comm, List.drop_succ_cons]

/-- Behind a malformed statement the next one can be read. -/
theorem ready_synchronize (hs : s.unread <:+ tokens) : s.synchronize.Ready tokens := by
  refine ⟨(s.passes_skip _).suffix hs, Or.inr ?_⟩
  by_cases heof : s.synchronize.peek = .eof
  · exact Or.inr (Or.inl heof)
  · obtain ⟨t, rest, hunread, hkind, -⟩ := exists_unread_cons heof
    have hfirst : t ∈ (s.unread.drop (statementLength 0 s.unread)).head? := by
      show t ∈ s.synchronize.unread.head?
      rw [hunread]
      rfl
    rw [← hkind]
    rcases statementLength_ends 0 s.unread t hfirst with hseparator | hbrace
    · exact Or.inl hseparator
    · exact Or.inr (Or.inr hbrace)

end Reader

/-- What is read where a name can stand is made of a run of the tokens if its span reaches over what
was read. -/
theorem Reader.Ready.madeOf {tokens run after : List Token} {s : Reader} {node : Node}
    (hs : s.Ready tokens) (hunread : s.unread = run ++ after) (hreaches : node.span.Reaches run)
    (hname : ∀ name, node.written? = some name →
      s.Opened tokens ∧ s.peek = .ident name.text ∧ name.span = s.here) : node.MadeOf tokens := by
  by_cases hnone : node.written? = none
  · obtain ⟨before, hbefore⟩ := hs.suffix
    refine ⟨before, run, after, ?_, hreaches, ?_⟩
    · rw [← hunread, hbefore]
    · rw [hnone]
      rintro _ ⟨⟩
  · obtain ⟨name, hwritten⟩ := Option.ne_none_iff_exists'.mp hnone
    obtain ⟨⟨before, htokens, hbefore⟩, hpeek, hspan⟩ := hname name hwritten
    refine ⟨before, run, after, by rw [htokens, hunread], hreaches, ?_⟩
    rw [hwritten]
    rintro _ ⟨⟩
    obtain ⟨first, rest, rfl, -⟩ := hreaches.exists_first
    refine ⟨?_, hbefore⟩
    simp only [Reader.peek, Reader.here, hunread, List.cons_append] at hpeek hspan
    rw [hspan, ← hpeek]
    rfl

namespace Parser

variable {tokens : List Token}

/-! ## Values -/

/-- Where the condition holds that the parser starts under, what it yields is made of runs of the
tokens. -/
def Makes (tokens : List Token) {α : Type} (start : Reader → Prop) (p : Parser α)
    (nodes : α → List Node) : Prop :=
  ∀ ⦃s s' : Reader⦄ ⦃a : α⦄, start s → p s = (.ok a, s') → ∀ node ∈ nodes a, node.MadeOf tokens

theorem Forwards.suffix {α : Type} {p : Parser α} (hp : Forwards p) {s s' : Reader}
    {result : Except Fault α} (h : p s = (result, s')) (hs : s.unread <:+ tokens) :
    s'.unread <:+ tokens := by
  obtain ⟨read, hread⟩ := hp.of_eq h
  exact hread.suffix hs

theorem skip_suffix {s : Reader} (hs : s.unread <:+ tokens) (n : Nat) :
    (s.skip n).unread <:+ tokens := (s.passes_skip n).suffix hs

section

variable {value : Parser Value} (hvalue : Makes tokens (·.Opened tokens) value Value.preorder)
  (hforwards : Forwards value)

include hvalue hforwards

theorem listed_makes :
    Makes tokens (·.Opened tokens) (listed value) Value.preorderAll := by
  intro s s' values hs h
  fun_induction listed value s generalizing values with
  | case1 s _ =>
      obtain ⟨hvalues, rfl⟩ := Prod.mk.inj h
      obtain rfl := Except.ok.inj hvalues
      simp [Value.preorderAll]
  | case2 | case4 => cases h
  | case3 s _ first s₁ hfirst s₂ | case6 s _ first s₁ hfirst s₂ =>
      obtain ⟨hvalues, rfl⟩ := Prod.mk.inj h
      obtain rfl := Except.ok.inj hvalues
      simpa [Value.preorderAll] using hvalue hs hfirst
  | case5 s _ first s₁ hfirst s₂ _ _ s₃ hcomma s₄ _ others s₅ hothers =>
      rename_i ih
      obtain ⟨hvalues, rfl⟩ := Prod.mk.inj h
      cases others with
      | error fault => cases hvalues
      | ok others =>
          obtain rfl := Except.ok.inj hvalues
          -- behind the comma a name can stand
          obtain ⟨hpeek, rfl⟩ := expect_eq_ok.mp hcomma
          have hs₂ : s₂.unread <:+ tokens := skip_suffix (hforwards.suffix hfirst hs.suffix) _
          have hs₃ := Reader.opened_skip_one hs₂ (by rw [hpeek]; rfl)
          have hs₄ : s₄.Opened tokens :=
            Reader.opened_skipWhile (by simp [Token.Kind.isMark]) hs₃.suffix (Or.inl hs₃)
          intro node hnode
          rw [Value.preorderAll, List.mem_append] at hnode
          rcases hnode with hnode | hnode
          · exact hvalue hs hfirst node hnode
          · exact ih hs₄ hothers node hnode

theorem arguments_makes :
    Makes tokens (·.unread <:+ tokens) (arguments value) Value.preorderAll := by
  intro s s' values hs h
  obtain ⟨hpeek, hlisted⟩ := arguments_eq_ok.mp h
  have hopen := Reader.opened_skip_one hs (by rw [hpeek]; rfl)
  refine listed_makes hvalue hforwards ?_ hlisted
  exact Reader.opened_skipWhile (by simp [Token.Kind.isMark]) hopen.suffix (Or.inl hopen)

theorem valueWith_makes : Makes tokens (·.Opened tokens) (valueWith value) Value.preorder := by
  intro s s' v hs h
  rcases valueWith_eq_ok.mp h with ⟨content, hkind, rfl, rfl⟩
    | ⟨name, values, hname, hspan, hvalues, rfl⟩
  · have hpeek : s.peek ≠ .eof := by
      rw [hkind]
      cases content <;> simp [Literal.kind]
    obtain ⟨t, rest, hunread, -, ht⟩ := Reader.exists_unread_cons hpeek
    have hunread : s.unread = [t] ++ rest := hunread
    have hreaches : s.here.Reaches [t] := ⟨by simp [ht], by simp [ht]⟩
    intro node hnode
    rw [Value.preorder, List.mem_singleton] at hnode
    subst hnode
    exact hs.ready.madeOf hunread hreaches (by simp [Node.written?])
  · obtain ⟨t, rest, hunread, -, -⟩ := Reader.exists_unread_cons (s := s) (by simp [hname])
    have hkeeps := arguments_keeps Reader.passes_steady.elementary hforwards
    obtain ⟨read, hread⟩ := Keeps.of_eq hkeeps hvalues
    have hall := (s.passes_skip 1).trans ⟨hread.unread, hread.lastEnd⟩
    intro node hnode
    rw [Value.preorder, List.mem_cons] at hnode
    rcases hnode with rfl | hnode
    · refine hs.ready.madeOf hall.unread (hall.reaches (by simp [hunread])) ?_
      rintro _ ⟨⟩
      exact ⟨hs, hname, hspan⟩
    · refine arguments_makes hvalue hforwards ?_ hvalues node hnode
      exact skip_suffix hs.suffix 1

end

theorem Makes.nested {α : Type} {inner : Parser α} {start : Reader → Prop} {nodes : α → List Node}
    (h : Makes tokens start inner nodes)
    (hstart : ∀ s : Reader, start s → start { s with depth := s.depth + 1 }) :
    Makes tokens start (nested inner) nodes := by
  intro s s' a hs hread
  obtain ⟨-, s₁, hinner, -⟩ := nested_eq_ok.mp hread
  exact h (hstart s hs) hinner

theorem value_makes : ∀ fuel : Nat, Makes tokens (·.Opened tokens) (value fuel) Value.preorder
  | 0 => by
      rintro s s' v - ⟨⟩
  | fuel + 1 => (valueWith_makes (value_makes fuel) (value_forwards fuel)).nested fun _ h => h

/-! ## Statements -/

section

variable {value : Parser Value} (hvalue : Makes tokens (·.Opened tokens) value Value.preorder)
  (hvalueForwards : Forwards value) {block : Parser Body}
  (hblock : Makes tokens (·.unread <:+ tokens) block Statement.preorderBody)

include hvalue hvalueForwards hblock

/-- What follows the name of a statement starts with a mark, so it does not matter what was read
last. -/
theorem statementRest_makes {name : Name} {s s' : Reader} {make : NodeId → Span → Statement}
    (hs : s.unread <:+ tokens) (h : statementRest value block name s = (.ok make, s')) :
    ∃ inside, (∀ node ∈ inside, node.MadeOf tokens)
      ∧ ∀ id span, (make id span).preorder = .statement (make id span) :: inside
        ∧ (Node.statement (make id span)).written? = some name := by
  rcases statementRest_eq_ok.mp h with ⟨assigned, hpeek, hassigned, rfl⟩
    | ⟨values, harguments, -, rfl⟩ | ⟨values, s₁, body, harguments, -, hbody, rfl⟩
    | ⟨body, -, hbody, rfl⟩
  · have hopen := Reader.opened_skip_one hs (by rw [hpeek]; rfl)
    exact ⟨_, hvalue hopen hassigned, fun _ _ => ⟨rfl, rfl⟩⟩
  · refine ⟨_, arguments_makes hvalue hvalueForwards hs harguments, fun _ _ => ⟨?_, rfl⟩⟩
    rw [Statement.preorder, Statement.preorderBody, List.append_nil]
  · have hkeeps := arguments_keeps Reader.passes_steady.elementary hvalueForwards
    have hs₁ : s₁.unread <:+ tokens := Forwards.suffix hkeeps harguments hs
    refine ⟨_, fun node hnode => ?_, fun _ _ => ⟨rfl, rfl⟩⟩
    rcases List.mem_append.mp hnode with hnode | hnode
    · exact arguments_makes hvalue hvalueForwards hs harguments node hnode
    · exact hblock hs₁ hbody node hnode
  · exact ⟨_, hblock hs hbody, fun _ _ => ⟨rfl, rfl⟩⟩

variable (hblockForwards : Forwards block)

include hblockForwards

theorem statement_makes (id : NodeId) :
    Makes tokens (·.Opened tokens) (statement value block id) Statement.preorder := by
  intro s s' st hs h
  obtain ⟨run, separators, hunread, hreaches, -⟩ := statement_places hvalueForwards hblockForwards h
  obtain ⟨name, make, s₁, hname, hspan, hrest, -, rfl⟩ := statement_eq_ok.mp h
  obtain ⟨inside, hinside, hmake⟩ :=
    statementRest_makes hvalue hvalueForwards hblock (skip_suffix hs.suffix 1) hrest
  obtain ⟨hpreorder, hwritten⟩ := hmake id ⟨s.here.start, s₁.lastEnd⟩
  intro node hnode
  rw [hpreorder, List.mem_cons] at hnode
  rcases hnode with rfl | hnode
  · refine hs.ready.madeOf hunread hreaches ?_
    rw [hwritten]
    rintro _ ⟨⟩
    exact ⟨hs, hname, hspan⟩
  · exact hinside node hnode

end

/-- Behind a statement and its end the next one can be read. -/
theorem statement_ready {value : Parser Value} (hvalue : Forwards value) {block : Parser Body}
    (hblock : Forwards block) {id : NodeId} {s s' : Reader} {st : Statement}
    (hs : s.unread <:+ tokens) (h : statement value block id s = (.ok st, s')) :
    s'.Ready tokens := by
  obtain ⟨name, make, s₁, -, -, hrest, hend, -⟩ := statement_eq_ok.mp h
  have hkeeps := statementRest_keeps Reader.passes_steady.elementary hvalue hblock name
  have hs₁ : s₁.unread <:+ tokens := Forwards.suffix hkeeps hrest (skip_suffix hs 1)
  rcases terminator_eq_ok.mp hend with ⟨hseparator, rfl⟩ | ⟨hend, rfl⟩
  · exact (Reader.opened_skip_one hs₁ (Token.Kind.isMark_of_isSeparator hseparator)).ready
  · exact ⟨hs₁, Or.inr (Or.inr hend)⟩

/-! ## Blocks and scripts -/

section

variable {parse : NodeId → Parser Statement}
  (hparse : ∀ id, Makes tokens (·.Opened tokens) (parse id) Statement.preorder)
  (hplaces : ∀ {id s s' st}, parse id s = (.ok st, s') → Places s st s')
  (hforwards : ∀ id, Forwards (parse id))
  (hready : ∀ {id s s' st}, s.unread <:+ tokens → parse id s = (.ok st, s') → s'.Ready tokens)

include hparse hplaces hforwards hready

/-- Whether a statement is read or passed over, it is made of a run of the tokens, and the next one
can be read behind it. -/
theorem topRound_makes (horder : Token.InOrder tokens) {s s' : Reader} {first : Statement}
    (hs : s.Ready tokens) (h : TopRound parse s first s') (hseparator : s.peek.isSeparator = false) :
    (∀ node ∈ first.preorder, node.MadeOf tokens) ∧ s'.Ready tokens := by
  obtain ⟨run, separators, hunread, hreaches, -⟩ :=
    topRound_places hplaces hforwards h (horder.suffix hs.suffix) hseparator
  have herror : ∀ {id span message}, first = .error id span message →
      ∀ node ∈ first.preorder, node.MadeOf tokens := by
    rintro id span message rfl
    rw [Statement.preorder, List.forall_mem_singleton]
    exact hs.madeOf hunread hreaches (by simp [Node.written?])
  rcases h with ⟨heof, hbrace, hround⟩ | ⟨hbrace, hstray⟩
  · rcases recovering_cases hround with ⟨_, ⟨⟩, hread⟩ | ⟨fault, s₁, hread, rfl, ⟨⟩⟩
      | ⟨_, _, -, -, -, ⟨⟩⟩
    · have hopened : s.takeId.2.Opened tokens := hs.opened heof hbrace hseparator
      exact ⟨hparse _ hopened hread, hready (s := s.takeId.2) hs.suffix hread⟩
    · have hs₁ : s₁.unread <:+ tokens := (hforwards _).suffix hread hs.suffix
      exact ⟨herror rfl, Reader.ready_synchronize (s := s₁.report fault) hs₁⟩
  · obtain ⟨rfl, rfl⟩ := Prod.mk.inj hstray
    have hclosed : (s.skip 1).Opened tokens :=
      Reader.opened_skip_one hs.suffix (by rw [hbrace]; rfl)
    exact ⟨herror rfl, hclosed.suffix, Or.inl hclosed⟩

theorem blockStatements_makes (horder : Token.InOrder tokens) {opening : Span} {s s' : Reader}
    {statements : List Statement} (hs : s.Ready tokens) (hseparator : s.peek.isSeparator = false)
    (h : blockStatements parse opening s = (.ok statements, s')) :
    ∀ node ∈ Statement.preorderAll statements, node.MadeOf tokens := by
  replace h := blockRounds_of_ok h
  induction h with
  | closed => exact List.forall_mem_nil _
  | @more s first s₁ others s' hround _ ih =>
      obtain ⟨hmade, hs₁⟩ :=
        topRound_makes hparse hplaces hforwards hready horder hs (.statement hround) hseparator
      rw [Statement.preorderAll]
      exact List.forall_mem_append.mpr ⟨hmade, ih hs₁.skipSeparators s₁.peek_skipSeparators⟩
  | stuck hround =>
      obtain ⟨hmade, -⟩ :=
        topRound_makes hparse hplaces hforwards hready horder hs (.statement hround) hseparator
      rw [Statement.preorderAll]
      exact List.forall_mem_append.mpr ⟨hmade, List.forall_mem_nil _⟩

theorem blockWith_makes (horder : Token.InOrder tokens) :
    Makes tokens (·.unread <:+ tokens) (blockWith parse) Statement.preorderBody := by
  intro s s' body hs h
  obtain ⟨statements, s₁, hpeek, hstatements, rfl, -⟩ := blockWith_eq_ok.mp h
  have hmark : s.peek.isMark = true := by rw [hpeek]; rfl
  have hopen : (s.takeId.2.skip 1).Opened tokens := Reader.opened_skip_one (s := s.takeId.2) hs hmark
  exact blockStatements_makes hparse hplaces hforwards hready horder hopen.ready.skipSeparators
    (Reader.peek_skipSeparators _) hstatements

theorem topStatements_makes (horder : Token.InOrder tokens) {s s' : Reader}
    {statements : List Statement} (hs : s.Ready tokens) (hseparator : s.peek.isSeparator = false)
    (h : topStatements parse s = (statements, s')) :
    ∀ node ∈ Statement.preorderAll statements, node.MadeOf tokens := by
  replace h := topRounds_of_eq h
  induction h with
  | done | gaveUp => exact List.forall_mem_nil _
  | @more s first s₁ others s' hround _ _ ih =>
      obtain ⟨hmade, hs₁⟩ :=
        topRound_makes hparse hplaces hforwards hready horder hs hround hseparator
      rw [Statement.preorderAll]
      exact List.forall_mem_append.mpr ⟨hmade, ih hs₁.skipSeparators s₁.peek_skipSeparators⟩
  | last hround =>
      obtain ⟨hmade, -⟩ :=
        topRound_makes hparse hplaces hforwards hready horder hs hround hseparator
      rw [Statement.preorderAll]
      exact List.forall_mem_append.mpr ⟨hmade, List.forall_mem_nil _⟩

end

theorem block_makes (horder : Token.InOrder tokens) :
    ∀ fuel : Nat, Makes tokens (·.unread <:+ tokens) (block fuel) Statement.preorderBody
  | 0 => by
      rintro s s' body - ⟨⟩
  | fuel + 1 => by
      have hmakes := statement_makes (value_makes fuel) (value_forwards fuel)
        (block_makes horder fuel) (block_forwards fuel)
      have hplaces := @statement_places _ (value_forwards fuel) _ (block_forwards fuel)
      have hready := @statement_ready tokens _ (value_forwards fuel) _ (block_forwards fuel)
      exact (blockWith_makes hmakes hplaces (statement_forwards fuel) hready horder).nested
        fun _ h => h

end Parser

section

variable {tokens : List Token} {last : Token} (htokens : ∀ t ∈ tokens, t.kind ≠ .eof)
  (hlast : last.kind = .eof) (horder : Token.InOrder tokens)

include htokens hlast horder

/-- **Statements and values are runs of tokens**, and a name comes only behind a mark. -/
theorem madeOf_ofTokens (source : String) :
    ∀ node ∈ (ofTokens source (tokens ++ [last])).script.preorder, node.MadeOf tokens := by
  let start := Reader.ofTokens (tokens ++ [last])
  have hunread : start.unread = tokens := Reader.unread_ofTokens htokens hlast
  have hstart : start.Opened tokens := ⟨[], hunread.symm, by simp [EndsWithMark]⟩
  have hmakes := Parser.statement_makes (Parser.value_makes Parser.fullFuel)
    (Parser.value_forwards Parser.fullFuel) (Parser.block_makes horder Parser.fullFuel)
    (Parser.block_forwards Parser.fullFuel)
  have hready := @Parser.statement_ready tokens _ (Parser.value_forwards Parser.fullFuel) _
    (Parser.block_forwards Parser.fullFuel)
  exact Parser.topStatements_makes hmakes Parser.topStatement_places Parser.topStatement_forwards
    hready horder hstart.ready.skipSeparators start.peek_skipSeparators rfl

end

/-- The tokens of a text, without its end. -/
theorem madeOf_ofText (source text : String) :
    ∀ node ∈ (ofText source text).script.preorder,
      node.MadeOf (Token.scan Token.maxFaults 0 text.toList).tokens := by
  have hscans := Token.scans_scan Token.maxFaults 0 text.toList
  exact madeOf_ofTokens (fun t ht => (hscans.occurs t ht).ne_eof) rfl hscans.inOrder source

end Script

end Declarative
