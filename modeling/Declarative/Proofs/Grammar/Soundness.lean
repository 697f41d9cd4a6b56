import Declarative.Proofs.Grammar.Reading

/-!
# What is read without fault is derived

Each parser that yields a value, while no fault is on record, has gone over tokens from
which the grammar derives the plain tree of that value, and the tree is no higher than
there were levels left (`Parser.Sound`). A statement that was passed over leaves a fault
on record for good, because what follows is read without adding or dropping one; so no
derivation has to be found for it.

The parsers for values and for blocks call themselves with less fuel, and the induction is
on the fuel. The loops over arguments and statements are settled before it, for any parser
of values or statements that is sound.
-/

namespace Declarative.Script.Parser

open Token (Kind)

variable {α : Type}

/-- What the parser yields, while no fault is on record, is derived from the tokens that
it has gone over and is no higher than there were levels left. -/
def Sound (p : Parser α) (derives : α → List Kind → Prop) (height : α → Nat) : Prop :=
  ∀ ⦃s s' : Reader⦄ ⦃a : α⦄, p s = (.ok a, s') → s'.faults = [] →
    ∃ tokens, s.Advances tokens s' ∧ derives a tokens ∧ height a ≤ maxDepth - s.depth

theorem Sound.nested {inner : Parser α} {derives : α → List Kind → Prop} {height : α → Nat}
    (h : Sound inner derives (height · - 1)) : Sound (nested inner) derives height := by
  intro s s' a hs hclean
  obtain ⟨hdepth, s₁, hinner, rfl⟩ := nested_eq_ok.mp hs
  obtain ⟨tokens, hread, hderives, hheight⟩ := h hinner hclean
  refine ⟨tokens, ⟨hread.kinds, ?_, hread.faults⟩, hderives, ?_⟩
  · simp only [hread.depth, Nat.add_sub_cancel]
  · simp only at hheight
    omega

/-! ## Values -/

section

variable {value : Parser Value}
  (hvalue : Sound value (fun v => Grammar.Value v.plain) (·.plain.height))

include hvalue

theorem listed_sound {s s' : Reader} {values : List Value} (h : listed value s = (.ok values, s'))
    (hclean : s'.faults = []) :
    ∃ tokens, s.Advances (tokens ++ [.rightParen]) s'
      ∧ Grammar.Items (Value.plainAll values) tokens
      ∧ Plain.Value.heightAll (Value.plainAll values) ≤ maxDepth - s.depth := by
  fun_induction listed value s generalizing values with
  | case1 s hclose =>
      obtain ⟨hvalues, rfl⟩ := Prod.mk.inj h
      obtain rfl := Except.ok.inj hvalues
      exact ⟨[], Reader.advances_skip_one hclose nofun, .none, Nat.zero_le _⟩
  | case2 | case4 =>
      cases h
  | case3 s _ first s₁ hfirst s₂ =>
      rename_i hclose
      obtain ⟨hvalues, rfl⟩ := Prod.mk.inj h
      obtain rfl := Except.ok.inj hvalues
      obtain ⟨lines, hlines, hskip⟩ := s₁.advances_skipNewlines
      have hlast := hskip.trans (Reader.advances_skip_one hclose nofun)
      obtain ⟨tokens, hread, hderives, hheight⟩ := hvalue hfirst (hlast.clean hclean)
      refine ⟨tokens ++ lines, ?_, .last hderives hlines, ?_⟩
      · simpa using hread.trans hlast
      · simpa [Value.plainAll, Plain.Value.heightAll] using hheight
  | case5 s _ first s₁ hfirst s₂ _ _ s₃ hcomma s₄ _ others s₅ hothers =>
      rename_i ih
      obtain ⟨hpeek, rfl⟩ := expect_eq_ok.mp hcomma
      obtain ⟨hvalues, rfl⟩ := Prod.mk.inj h
      cases others with
      | error fault => cases hvalues
      | ok others =>
          obtain rfl := Except.ok.inj hvalues
          obtain ⟨tokens₂, hread₂, hitems, hheight₂⟩ := ih hothers
          obtain ⟨before, hbefore, hskip₁⟩ := s₁.advances_skipNewlines
          obtain ⟨after, hafter, hskip₂⟩ := (s₂.skip 1).advances_skipNewlines
          have hbetween := hskip₁.trans ((Reader.advances_skip_one hpeek nofun).trans hskip₂)
          obtain ⟨tokens₁, hread₁, hderives, hheight₁⟩ :=
            hvalue hfirst (hbetween.clean (hread₂.clean hclean))
          refine ⟨_, ?_, .more hderives hbefore hafter hitems, ?_⟩
          · simpa using hread₁.trans (hbetween.trans hread₂)
          · rw [(hread₁.trans hbetween).depth] at hheight₂
            rw [Value.plainAll, Plain.Value.heightAll]
            exact max_le hheight₁ hheight₂
  | case6 s _ first s₁ hfirst s₂ _ _ s₃ hcomma s₄ =>
      rename_i hstuck
      -- a comma was read, so this is not the state that reading started in
      obtain ⟨hpeek, rfl⟩ := expect_eq_ok.mp hcomma
      obtain ⟨-, rfl⟩ := Prod.mk.inj h
      obtain ⟨before, _, hskip₁⟩ := s₁.advances_skipNewlines
      obtain ⟨after, _, hskip₂⟩ := (s₂.skip 1).advances_skipNewlines
      have hbetween := hskip₁.trans ((Reader.advances_skip_one hpeek nofun).trans hskip₂)
      obtain ⟨tokens₁, hread₁, -, -⟩ := hvalue hfirst (hbetween.clean hclean)
      exact absurd ((hbetween.length_lt (by simp)).trans_le hread₁.length_le) hstuck

theorem arguments_sound : Sound (arguments value)
    (fun values => Grammar.Arguments (Value.plainAll values))
    (fun values => Plain.Value.heightAll (Value.plainAll values)) := by
  intro s s' values h hclean
  obtain ⟨hopen, hlisted⟩ := arguments_eq_ok.mp h
  obtain ⟨lines, hlines, hskip⟩ := (s.skip 1).advances_skipNewlines
  have hstart := (Reader.advances_skip_one hopen nofun).trans hskip
  obtain ⟨tokens, hread, hitems, hheight⟩ := listed_sound hvalue hlisted hclean
  rw [hstart.depth] at hheight
  exact ⟨_, hstart.trans hread, .parenthesised hlines hitems, hheight⟩

theorem valueWith_sound : Sound (valueWith value) (fun v => Grammar.Value v.plain)
    (·.plain.height - 1) := by
  intro s s' v h hclean
  rcases valueWith_eq_ok.mp h with
    ⟨content, hkind, rfl, rfl⟩ | ⟨name, values, hname, -, harguments, rfl⟩
  · have hne : content.kind ≠ .eof := by cases content <;> nofun
    exact ⟨_, s.advances_takeId.trans (Reader.advances_skip_one hkind hne), .literal,
      Nat.zero_le _⟩
  · have hstart := s.advances_takeId.trans (Reader.advances_skip_one hname nofun)
    obtain ⟨tokens, hread, hderives, hheight⟩ := arguments_sound hvalue harguments hclean
    rw [hstart.depth] at hheight
    refine ⟨_, hstart.trans hread, .factory hderives, ?_⟩
    simpa [Value.plain, Plain.Value.height] using hheight

end

theorem value_sound : ∀ fuel : Nat,
    Sound (value fuel) (fun v => Grammar.Value v.plain) (·.plain.height)
  | 0 => by
      rintro s s' v ⟨⟩
  | fuel + 1 => (valueWith_sound (value_sound fuel)).nested

/-! ## Statements -/

/-- As `Sound`, for a parser that reads a statement with its end. -/
def SoundStatement (parse : NodeId → Parser Statement) : Prop :=
  ∀ ⦃id : NodeId⦄ ⦃s s' : Reader⦄ ⦃st : Statement⦄, parse id s = (.ok st, s') → s'.faults = [] →
    ∃ tokens, s.Ends tokens s' ∧ Grammar.Statement st.plain tokens
      ∧ st.plain.height ≤ maxDepth - s.depth

section

variable {value : Parser Value} {block : Parser Body}
  (hvalue : Sound value (fun v => Grammar.Value v.plain) (·.plain.height))
  (hblock : Sound block (fun body => Grammar.Block body.plain) (·.plain.height))

include hvalue hblock

theorem statementRest_sound {name : Name} {s s' : Reader} {make : NodeId → Span → Statement}
    (h : statementRest value block name s = (.ok make, s')) (hclean : s'.faults = []) :
    ∃ tokens, s.Advances tokens s' ∧ ∀ id span,
      Grammar.Statement (make id span).plain (.ident name.text :: tokens)
        ∧ (make id span).plain.height ≤ maxDepth - s.depth := by
  rcases statementRest_eq_ok.mp h with ⟨assigned, hpeek, hassigned, rfl⟩
    | ⟨values, harguments, -, rfl⟩ | ⟨values, s₁, body, harguments, -, hbody, rfl⟩
    | ⟨body, -, hbody, rfl⟩
  · have hequals := Reader.advances_skip_one hpeek nofun
    obtain ⟨tokens, hread, hderives, hheight⟩ := hvalue hassigned hclean
    rw [hequals.depth] at hheight
    exact ⟨_, hequals.trans hread, fun _ _ => ⟨.assign hderives, hheight⟩⟩
  · obtain ⟨tokens, hread, hderives, hheight⟩ := arguments_sound hvalue harguments hclean
    refine ⟨_, hread, fun _ _ => ⟨.call hderives, ?_⟩⟩
    exact max_le hheight (Nat.zero_le _)
  · obtain ⟨inner, hread₂, hderives₂, hheight₂⟩ := hblock hbody hclean
    obtain ⟨tokens, hread₁, hderives₁, hheight₁⟩ :=
      arguments_sound hvalue harguments (hread₂.clean hclean)
    rw [hread₁.depth] at hheight₂
    exact ⟨_, hread₁.trans hread₂, fun _ _ => ⟨.callBlock hderives₁ hderives₂,
      max_le hheight₁ hheight₂⟩⟩
  · obtain ⟨tokens, hread, hderives, hheight⟩ := hblock hbody hclean
    refine ⟨_, hread, fun _ _ => ⟨.block hderives, ?_⟩⟩
    exact max_le (Nat.zero_le _) hheight

theorem statement_sound : SoundStatement (statement value block) := by
  intro id s s' st h hclean
  obtain ⟨name, make, s₁, hname, -, hrest, hend, rfl⟩ := statement_eq_ok.mp h
  have hident := Reader.advances_skip_one hname nofun
  rcases terminator_eq_ok.mp hend with ⟨hseparator, rfl⟩ | ⟨hstop, rfl⟩
  · -- a separator is a token, the end of the text is none
    have hne : s₁.peek ≠ .eof := Token.Kind.ne_eof_of_isSeparator hseparator
    have hlast := Reader.advances_skip_one rfl hne
    obtain ⟨tokens, hread, hmake⟩ := statementRest_sound hvalue hblock hrest (hlast.clean hclean)
    refine ⟨_, Or.inl ⟨_, hseparator, ?_⟩, hmake _ _⟩
    simpa using hident.trans (hread.trans hlast)
  · obtain ⟨tokens, hread, hmake⟩ := statementRest_sound hvalue hblock hrest hclean
    exact ⟨_, Or.inr ⟨hident.trans hread, hstop⟩, hmake _ _⟩

end

/-- Reading has gone over statements that the grammar derives, with room for them. -/
def ReadsStatements (s : Reader) (statements : List Statement) (s' : Reader) : Prop :=
  ∃ tokens, s.Advances tokens s' ∧ Grammar.Statements (Statement.plainAll statements) tokens
    ∧ Plain.Statement.heightAll (Statement.plainAll statements) ≤ maxDepth - s.depth

theorem ReadsStatements.nil (s : Reader) : ReadsStatements s [] s :=
  ⟨[], .refl s, .none, Nat.zero_le _⟩

/-- The rest of a list of statements goes together with the statement in front of it. -/
theorem exists_statements_cons {s s₁ s₂ : Reader} {first : Plain.Statement}
    {statements : List Plain.Statement} {tokens others : List Kind}
    (hfirst : Grammar.Statement first tokens) (hends : s.Ends tokens s₁)
    (hread : s₁.skipSeparators.Advances others s₂)
    (hstatements : Grammar.Statements statements others) :
    ∃ tokens, s.Advances tokens s₂ ∧ Grammar.Statements (first :: statements) tokens := by
  rcases hends with ⟨kind, hkind, hread₁⟩ | ⟨hread₁, hend⟩
  · obtain ⟨separators, hseparators, hskip⟩ := s₁.advances_skipSeparators
    refine ⟨_, ?_, .more hfirst hkind (hstatements.prepend hseparators)⟩
    simpa using hread₁.trans (hskip.trans hread)
  · -- what ends the statements comes next, so none follow
    rw [Reader.skipSeparators_eq_self hend] at hread
    cases others with
    | nil =>
        obtain rfl := hstatements.eq_nil
        exact ⟨_, hread₁.trans hread, by simpa using .last hfirst⟩
    | cons kind others =>
        have hkind := Reader.peek_of_kinds hread.kinds
        rcases hstatements.starts with hseparator | ⟨name, rfl⟩
        · rcases hend with hend | hend <;>
            · obtain rfl := hkind.symm.trans hend
              cases hseparator
        · rcases hend with hend | hend <;> cases hkind.symm.trans hend

theorem length_lt_of_ends {s s₁ : Reader} {first : Plain.Statement} {tokens : List Kind}
    (hfirst : Grammar.Statement first tokens) (hends : s.Ends tokens s₁) :
    s₁.skipSeparators.unread.length < s.unread.length := by
  obtain ⟨separators, -, hskip⟩ := s₁.advances_skipSeparators
  obtain ⟨name, rest, rfl⟩ := hfirst.starts
  refine hskip.length_le.trans_lt ?_
  rcases hends with ⟨kind, -, hread⟩ | ⟨hread, -⟩
  · exact hread.length_lt nofun
  · exact hread.length_lt nofun

section

variable {parse : NodeId → Parser Statement} (hparse : SoundStatement parse)

omit hparse in
theorem strayBrace_faults {s s₁ : Reader} {first : Statement} (h : strayBrace s = (first, s₁)) :
    s₁.faults ≠ [] := by
  obtain ⟨-, rfl⟩ := Prod.mk.inj h
  exact List.append_ne_nil_of_right_ne_nil _ (List.cons_ne_nil _ _)

omit hparse in
/-- A statement that was passed over leaves its fault on record. -/
theorem recovering_clean {s s' : Reader} {first? : Option Statement}
    (h : recovering parse s = (first?, s')) (hclean : s'.faults = []) :
    ∃ first, first? = some first ∧ parse ⟨s.nextId⟩ s.takeId.2 = (.ok first, s') := by
  have hreport : ∀ (s₁ : Reader) (fault : Fault), (s₁.report fault).faults ≠ [] :=
    fun _ _ => List.append_ne_nil_of_right_ne_nil _ (List.cons_ne_nil _ _)
  rcases recovering_cases h with ⟨first, hfirst, hread⟩ | ⟨fault, s₁, -, rfl, -⟩
    | ⟨fault, s₁, -, rfl, -⟩
  · exact ⟨first, hfirst, hread⟩
  · exact absurd hclean (hreport s₁ fault)
  · exact absurd hclean (hreport s₁ fault)

include hparse

theorem recovering_sound {s s' : Reader} {first? : Option Statement}
    (h : recovering parse s = (first?, s')) (hclean : s'.faults = []) :
    ∃ first tokens, first? = some first ∧ s.Ends tokens s'
      ∧ Grammar.Statement first.plain tokens ∧ first.plain.height ≤ maxDepth - s.depth := by
  obtain ⟨first, hfirst, hok⟩ := recovering_clean h hclean
  obtain ⟨tokens, hends, hderives, hheight⟩ := hparse hok hclean
  refine ⟨first, tokens, hfirst, ?_, hderives, hheight⟩
  rcases hends with ⟨kind, hkind, hread⟩ | ⟨hread, hend⟩
  · exact Or.inl ⟨kind, hkind, s.advances_takeId.trans hread⟩
  · exact Or.inr ⟨s.advances_takeId.trans hread, hend⟩

/-- One round of a loop over statements: the first is read, then what follows the
separators. -/
theorem ReadsStatements.cons {s s₁ s₂ : Reader} {first : Statement} {statements : List Statement}
    (hfirst : recovering parse s = (some first, s₁))
    (hrest : ReadsStatements s₁.skipSeparators statements s₂) (hclean : s₂.faults = []) :
    ReadsStatements s (first :: statements) s₂ := by
  obtain ⟨others, hread₂, hderives₂, hheight₂⟩ := hrest
  obtain ⟨separators, -, hskip⟩ := s₁.advances_skipSeparators
  obtain ⟨_, tokens₁, ⟨⟩, hends, hderives₁, hheight₁⟩ :=
    recovering_sound hparse hfirst (hskip.clean (hread₂.clean hclean))
  obtain ⟨tokens, hread, hderives⟩ := exists_statements_cons hderives₁ hends hread₂ hderives₂
  rw [show s₁.skipSeparators.depth = s.depth from hread₂.depth.symm.trans hread.depth] at hheight₂
  exact ⟨tokens, hread, hderives, max_le hheight₁ hheight₂⟩

theorem length_lt_of_recovering {s s₁ : Reader} {first : Statement}
    (hfirst : recovering parse s = (some first, s₁)) (hclean : s₁.skipSeparators.faults = []) :
    s₁.skipSeparators.unread.length < s.unread.length := by
  obtain ⟨separators, -, hskip⟩ := s₁.advances_skipSeparators
  obtain ⟨_, tokens, ⟨⟩, hends, hderives, -⟩ :=
    recovering_sound hparse hfirst (hskip.clean hclean)
  exact length_lt_of_ends hderives hends

theorem blockStatements_sound {opening : Span} {s s' : Reader} {statements : List Statement}
    (h : blockStatements parse opening s = (.ok statements, s')) (hclean : s'.faults = []) :
    ReadsStatements s statements s' ∧ s'.peek = .rightBrace := by
  replace h := blockRounds_of_ok h
  induction h with
  | closed hpeek => exact ⟨.nil _, hpeek⟩
  | more hround _ ih =>
      obtain ⟨hrest, hclose⟩ := ih hclean
      exact ⟨hrest.cons hparse hround.hread hclean, hclose⟩
  | stuck hround hstuck =>
      exact absurd (length_lt_of_recovering hparse hround.hread hclean) hstuck

theorem topStatements_sound {s s' : Reader} {statements : List Statement}
    (h : topStatements parse s = (statements, s')) (hclean : s'.faults = []) :
    ReadsStatements s statements s' ∧ s'.peek = .eof := by
  replace h := topRounds_of_eq h
  induction h with
  | done hpeek => exact ⟨.nil _, hpeek⟩
  | gaveUp _ _ hnone =>
      obtain ⟨first, hsome, -⟩ := recovering_clean hnone hclean
      cases hsome
  | @more s first s₁ others s' hround _ _ ih =>
      obtain ⟨hrest, hclose⟩ := ih hclean
      cases hround with
      | statement hround => exact ⟨hrest.cons hparse hround.hread hclean, hclose⟩
      | brace _ hstray =>
          -- the stray brace is still on record at the end
          obtain ⟨tokens, hread, -⟩ := hrest
          obtain ⟨separators, -, hskip⟩ := s₁.advances_skipSeparators
          exact absurd (hskip.clean (hread.clean hclean)) (strayBrace_faults hstray)
  | @last s first s₁ s' hround hend hstop =>
      have hclean₁ : s₁.faults = [] := by rcases hend with rfl | rfl <;> exact hclean
      cases hround with
      | statement hround =>
          have hpatience : s₁.hasPatience = true := by simp [Reader.hasPatience, hclean₁, maxFaults]
          have hlt := length_lt_of_recovering hparse hround.hread hclean₁
          exact absurd hlt (hstop hpatience)
      | brace _ hstray => exact absurd hclean₁ (strayBrace_faults hstray)

theorem blockWith_sound : Sound (blockWith parse) (fun body => Grammar.Block body.plain)
    (·.plain.height - 1) := by
  intro s s' body h hclean
  obtain ⟨statements, s₁, hopen, hstatements, rfl, rfl⟩ := blockWith_eq_ok.mp h
  obtain ⟨separators, hseparators, hskip⟩ := (s.takeId.2.skip 1).advances_skipSeparators
  have hbrace := @Reader.advances_skip_one s.takeId.2 _ hopen nofun
  have hstart := s.advances_takeId.trans (hbrace.trans hskip)
  obtain ⟨⟨tokens, hread, hderives, hheight⟩, hclose⟩ :=
    blockStatements_sound hparse hstatements hclean
  have hlast := Reader.advances_skip_one hclose nofun
  refine ⟨_, ?_, .braced (hderives.prepend hseparators), ?_⟩
  · simpa using hstart.trans (hread.trans hlast)
  · rw [hstart.depth] at hheight
    simpa [Body.plain, Plain.Body.height] using hheight

end

theorem block_sound : ∀ fuel : Nat,
    Sound (block fuel) (fun body => Grammar.Block body.plain) (·.plain.height)
  | 0 => by
      rintro s s' body ⟨⟩
  | fuel + 1 =>
      (blockWith_sound (statement_sound (value_sound fuel) (block_sound fuel))).nested

end Declarative.Script.Parser
