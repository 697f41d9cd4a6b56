import Declarative.Proofs.Parser.Laws
import Declarative.Proofs.Renamed
import Declarative.Proofs.Unplaced

/-!
# Reading other names

Two rows of tokens that are of the same kinds, but for the names that a function gives, are read side
by side. What two readers see of their tokens is the same at each step but for the names
(`Reader.Alike`), and so is what they find and what they leave, but for names and places
(`Parser.Alike`). No parser looks at a name or at an offset before it decides what to do, in recovery
and at the limit of faults neither.

So the script that is read of the second row is that of the first one with the names that the
function gives, wherever its parts stand, and the same is said of the faults in both
(`Script.ofTokens_named`).
-/

namespace Declarative

/-! ## Tokens with other names -/

namespace Token

/-- The kind with the name that the function gives at the span. -/
def Kind.as (f : Name → String) (span : Span) : Kind → Kind
  | .ident text => .ident (f ⟨text, span⟩)
  | kind => kind

/-- The kind of the token with the name that the function gives. -/
def kindAs (f : Name → String) (t : Token) : Kind := t.kind.as f t.span

/-- The second kind is the first one, but for the name that the function gives to what has one. -/
inductive Kind.Read (f : Name → String) : Kind → Kind → Prop where
  | same {kind} : Read f kind kind
  | ident {name : Name} : Read f (.ident name.text) (.ident (f name))

variable {f : Name → String} {span : Span}

theorem Kind.read_as (kind : Kind) : kind.Read f (kind.as f span) := by
  cases kind with
  | ident text => exact @Read.ident f ⟨text, span⟩
  | _ => exact .same

theorem Kind.as_text (kind : Kind) : kind.as Name.text span = kind := by
  cases kind <;> rfl

theorem Kind.isSeparator_as (kind : Kind) : (kind.as f span).isSeparator = kind.isSeparator := by
  cases kind <;> rfl

theorem Kind.isNewline_as (kind : Kind) : (kind.as f span == .newline) = (kind == .newline) := by
  cases kind <;> rfl

namespace Kind.Read

variable {kind other : Kind} (h : kind.Read f other)

include h

theorem describe_eq : other.describe = kind.describe := by
  cases h <;> rfl

theorem literal?_eq : Script.Parser.literal? other = Script.Parser.literal? kind := by
  cases h <;> rfl

theorem eq_iff {wanted : Kind} (hwanted : ∀ text, wanted ≠ .ident text) :
    other = wanted ↔ kind = wanted := by
  cases h with
  | same => rfl
  | ident =>
      constructor
      · exact fun heq => absurd heq.symm (hwanted _)
      · exact fun heq => absurd heq.symm (hwanted _)

end Kind.Read

end Token

namespace Script

variable {f : Name → String}

/-! ## Faults with other names -/

/-- What is waited for is the same, but for the name that the function gives to what has one. -/
inductive Wanted.Read (f : Name → String) : Wanted → Wanted → Prop where
  | same {wanted} : Read f wanted wanted
  | arguments {name : Name} : Read f (.arguments name.text) (.arguments (f name))

/-- The causes are the same, but for the names that the function gives. -/
inductive Fault.Cause.Read (f : Name → String) : Cause → Cause → Prop where
  | same {cause} : Read f cause cause
  | expected {wanted other found kind} (hwanted : Wanted.Read f wanted other)
      (hfound : Token.Kind.Read f found kind) :
      Read f (.expected wanted found) (.expected other kind)

theorem Wanted.Read.describe_eq {wanted other : Wanted} (h : wanted.Read f other) :
    other.describe = wanted.describe := by
  cases h <;> rfl

/-- No name is told in a message. -/
theorem Fault.message_eq_of_read {fault other : Fault} (h : fault.cause.Read f other.cause) :
    other.message = fault.message := by
  obtain ⟨span, cause⟩ := fault
  obtain ⟨place, cause'⟩ := other
  cases h with
  | same => rfl
  | expected hwanted hfound => simp only [Fault.message, hwanted.describe_eq, hfound.describe_eq]

/-- With the names that are there the causes are the same. -/
theorem Fault.Cause.Read.eq {cause other : Fault.Cause} (h : cause.Read Name.text other) :
    cause = other := by
  cases h with
  | same => rfl
  | expected hwanted hfound => cases hwanted <;> cases hfound <;> rfl

/-! ## Readers that see the same -/

namespace Reader

/-- The two states of reading differ in places, and in the names that the function gives. -/
structure Alike (f : Name → String) (s t : Reader) : Prop where
  kinds : t.kinds = s.unread.map (Token.kindAs f)
  nextId : s.nextId = t.nextId
  depth : s.depth = t.depth
  faults : List.Forall₂ (fun fault other => fault.cause.Read f other.cause) s.faults t.faults

/-- How far a malformed statement reaches is not seen from names. -/
theorem statementLength_eq : ∀ (depth : Nat) {tokens others : List Token},
    others.map (·.kind) = tokens.map (Token.kindAs f) →
      statementLength depth others = statementLength depth tokens
  | _, [], [], _ => rfl
  | depth, ⟨kind, span⟩ :: rest, ⟨_, place⟩ :: others, h => by
      obtain ⟨hkind, hrest⟩ := List.cons.inj h
      dsimp only [Token.kindAs] at hkind
      subst hkind
      unfold statementLength
      cases kind <;> cases depth <;> simp only [Token.Kind.as, statementLength_eq _ hrest]

namespace Alike

variable {s t : Reader} (h : s.Alike f t)

include h

theorem peek_eq : t.peek = s.peek.as f s.here := by
  have hkinds := h.kinds
  unfold Reader.peek Reader.here
  cases hs : s.unread <;> cases ht : t.unread <;> simp only [Reader.kinds, hs, ht] at hkinds ⊢
  · rfl
  · cases hkinds
  · cases hkinds
  · exact (List.cons.inj hkinds).1

theorem peek : s.peek.Read f t.peek := by
  rw [h.peek_eq]
  exact Token.Kind.read_as _

theorem length_unread : t.unread.length = s.unread.length := by
  simpa [Reader.kinds] using congrArg List.length h.kinds

theorem hasPatience : t.hasPatience = s.hasPatience := by
  rw [Reader.hasPatience, Reader.hasPatience, h.faults.length_eq]

theorem skip (n : Nat) : (s.skip n).Alike f (t.skip n) := by
  refine { h with kinds := ?_ }
  show (t.unread.drop n).map _ = (s.unread.drop n).map _
  rw [List.map_drop, List.map_drop]
  exact congrArg (List.drop n) h.kinds

theorem skipWhile {test : Token.Kind → Bool}
    (htest : ∀ (kind : Token.Kind) span, test (kind.as f span) = test kind) :
    (s.skipWhile test).Alike f (t.skipWhile test) := by
  have hcount : (t.unread.takeWhile (test ·.kind)).length
      = (s.unread.takeWhile (test ·.kind)).length := by
    have hkinds : ∀ tokens : List Token,
        (tokens.takeWhile (test ·.kind)).length = ((tokens.map (·.kind)).takeWhile test).length := by
      intro tokens
      rw [List.takeWhile_map, List.length_map]
      rfl
    rw [hkinds, show t.unread.map (·.kind) = s.unread.map (Token.kindAs f) from h.kinds,
      List.takeWhile_map, List.length_map]
    exact congrArg (fun p => (s.unread.takeWhile p).length) (funext fun token => htest _ _)
  rw [Reader.skipWhile, Reader.skipWhile, hcount]
  exact h.skip _

theorem skipSeparators : s.skipSeparators.Alike f t.skipSeparators :=
  h.skipWhile fun kind _ => kind.isSeparator_as

theorem skipNewlines : s.skipNewlines.Alike f t.skipNewlines :=
  h.skipWhile fun kind _ => kind.isNewline_as

theorem synchronize : s.synchronize.Alike f t.synchronize := by
  rw [Reader.synchronize, Reader.synchronize, statementLength_eq 0 h.kinds]
  exact h.skip _

theorem takeId : s.takeId.2.Alike f t.takeId.2 :=
  { h with nextId := congrArg (· + 1) h.nextId }

theorem id_eq : s.takeId.1 = t.takeId.1 := congrArg NodeId.mk h.nextId

theorem report {fault other : Fault} (hcause : fault.cause.Read f other.cause) :
    (s.report fault).Alike f (t.report other) :=
  { h with faults := List.rel_append h.faults (.cons hcause .nil) }

theorem atDepth {n m : Nat} (heq : n = m) :
    Alike f { s with depth := n } { t with depth := m } :=
  { h with depth := heq }

end Alike

end Reader

/-! ## Parsers that go the same way -/

namespace Parser

variable {α β : Type}

/-- The two runs ended alike: with values that the relation joins or with faults of the same cause. -/
inductive Agree (f : Name → String) (R : α → α → Prop) :
    Except Fault α × Reader → Except Fault α × Reader → Prop where
  | ok {a b s t} : R a b → s.Alike f t → Agree f R (.ok a, s) (.ok b, t)
  | error {fault other s t} : fault.cause.Read f other.cause → s.Alike f t →
      Agree f R (.error fault, s) (.error other, t)

theorem Agree.map {R : α → α → Prop} {S : β → β → Prop} {g k : α → β}
    (hgk : ∀ a b, R a b → S (g a) (k b)) {run other : Except Fault α × Reader}
    (h : Agree f R run other) : Agree f S (run.1.map g, run.2) (other.1.map k, other.2) := by
  cases h with
  | ok hab halike => exact .ok (hgk _ _ hab) halike
  | error hcause halike => exact .error hcause halike

/-- From states that differ in places and names only the two parsers go the same way. -/
def Alike (f : Name → String) (R : α → α → Prop) (p q : Parser α) : Prop :=
  ∀ ⦃s t : Reader⦄, s.Alike f t → Agree f R (p s) (q t)

/-- Nothing is asked of what was seen of places. -/
def Anywhere (_ _ : α) : Prop := True

/-- The second name is what the function gives for the first one. -/
def SameText (f : Name → String) (name other : Name) : Prop := f name = other.text

/-- With the names that the function gives, the two are the same without places. -/
def SameValue (f : Name → String) (v w : Value) : Prop :=
  (v.named fun _ => f).unplaced = w.unplaced

def SameValues (f : Name → String) (vs ws : List Value) : Prop :=
  Value.unplacedAll (Value.namedAll (fun _ => f) vs) = Value.unplacedAll ws

def SameStatement (f : Name → String) (s t : Statement) : Prop :=
  (s.named fun _ => f).unplaced = t.unplaced

def SameStatements (f : Name → String) (ss ts : List Statement) : Prop :=
  Statement.unplacedAll (Statement.namedAll (fun _ => f) ss) = Statement.unplacedAll ts

def SameBody (f : Name → String) (b c : Body) : Prop := (b.named fun _ => f).unplaced = c.unplaced

/-- The two make the same statement of a number, wherever it stands. -/
def SameMake (f : Name → String) (make other : NodeId → Span → Statement) : Prop :=
  ∀ id span place, SameStatement f (make id span) (other id place)

theorem SameText.unplaced_eq {name other : Name} (h : SameText f name other) :
    Name.unplaced { name with text := f name } = other.unplaced :=
  congrArg (Name.mk · .nowhere) h

theorem sameValues_cons {v w : Value} {vs ws : List Value} (h : SameValue f v w)
    (hothers : SameValues f vs ws) : SameValues f (v :: vs) (w :: ws) := by
  rw [SameValues, Value.namedAll, Value.unplacedAll, Value.unplacedAll, h, hothers]

theorem sameStatements_cons {st other : Statement} {sts others : List Statement}
    (h : SameStatement f st other) (hothers : SameStatements f sts others) :
    SameStatements f (st :: sts) (other :: others) := by
  rw [SameStatements, Statement.namedAll, Statement.unplacedAll, Statement.unplacedAll, h, hothers]

theorem alike_bind {R : α → α → Prop} {S : β → β → Prop} {p q : Parser α} {g k : α → Parser β}
    (hp : Alike f R p q) (hgk : ∀ a b, R a b → Alike f S (g a) (k b)) :
    Alike f S (p >>= g) (q >>= k) := by
  intro s t h
  have hfirst := hp h
  simp only [bind]
  revert hfirst
  rcases p s with ⟨_ | a, s₁⟩ <;> rcases q t with ⟨_ | b, t₁⟩
  · rintro ⟨⟩
    exact .error ‹_› ‹_›
  · rintro ⟨⟩
  · rintro ⟨⟩
  · rintro ⟨⟩
    exact hgk a b ‹_› ‹_›

theorem alike_pure {R : α → α → Prop} {a b : α} (h : R a b) : Alike f R (pure a) (pure b) :=
  fun _ _ hst => .ok h hst

theorem alike_peek : Alike f (Token.Kind.Read f) (view Reader.peek) (view Reader.peek) :=
  fun _ _ hst => .ok hst.peek hst

theorem alike_anywhere (g : Reader → α) : Alike f Anywhere (view g) (view g) :=
  fun _ _ hst => .ok trivial hst

theorem alike_advance : Alike f Eq advance advance := fun _ _ hst => .ok rfl (hst.skip 1)

theorem alike_skipNewlines : Alike f Eq (step Reader.skipNewlines) (step Reader.skipNewlines) :=
  fun _ _ hst => .ok rfl hst.skipNewlines

theorem alike_skipSeparators :
    Alike f Eq (step Reader.skipSeparators) (step Reader.skipSeparators) :=
  fun _ _ hst => .ok rfl hst.skipSeparators

theorem alike_freshId : Alike f Eq freshId freshId := fun _ _ hst => .ok hst.id_eq hst.takeId

theorem alike_fail {R : α → α → Prop} (cause : Fault.Cause) : Alike f R (fail cause) (fail cause) :=
  fun _ _ hst => .error .same hst

theorem alike_missing {R : α → α → Prop} {wanted other : Wanted} (h : wanted.Read f other) :
    Alike f R (missing wanted) (missing other) :=
  fun _ _ hst => .error (.expected h hst.peek) hst

theorem alike_expect {kind : Token.Kind} (hkind : ∀ text, kind ≠ .ident text) :
    Alike f Eq (expect kind) (expect kind) := by
  intro s t hst
  have hpeek := hst.peek.eq_iff hkind
  rw [expect, expect]
  by_cases hs : s.peek = kind
  · rw [if_pos hs, if_pos (hpeek.mpr hs)]
    exact alike_advance hst
  · rw [if_neg hs, if_neg (mt hpeek.mp hs)]
    exact alike_missing .same hst

theorem alike_identifier (wanted : Wanted) :
    Alike f (SameText f) (identifier wanted) (identifier wanted) := by
  intro s t hst
  have hpeek := hst.peek_eq
  have hmissing := @alike_missing f Name (SameText f) wanted wanted .same s t hst
  rw [identifier, identifier, hpeek]
  cases s.peek with
  | ident text => exact .ok rfl (hst.skip 1)
  | _ => exact hmissing

theorem alike_terminator : Alike f Eq terminator terminator := by
  intro s t hst
  have hpeek := hst.peek_eq
  have hmissing := @alike_missing f Unit Eq .separator .separator .same s t hst
  rw [terminator, terminator, hpeek]
  cases s.peek with
  | newline | semicolon => exact alike_advance hst
  | eof | rightBrace => exact .ok rfl hst
  | _ => exact hmissing

theorem alike_nested {R : α → α → Prop} {p q : Parser α} (h : Alike f R p q) :
    Alike f R (nested p) (nested q) := by
  intro s t hst
  rw [nested, nested, hst.depth]
  split
  · have hinner := h (hst.atDepth (congrArg (· + 1) hst.depth))
    rw [hst.depth] at hinner
    revert hinner
    generalize p { s with depth := t.depth + 1 } = run
    generalize q { t with depth := t.depth + 1 } = other
    rintro (⟨hab, halike⟩ | ⟨hcause, halike⟩)
    · exact .ok hab (halike.atDepth (congrArg (· - 1) halike.depth))
    · exact .error hcause (halike.atDepth (congrArg (· - 1) halike.depth))
  · exact alike_fail _ hst

/-! ## Values -/

section

variable {value : Parser Value} (hvalue : Alike f (SameValue f) value value)

include hvalue

theorem listed_alike {s t : Reader} (hst : s.Alike f t) :
    Agree f (SameValues f) (listed value s) (listed value t) := by
  have hclose : ∀ {s t : Reader}, s.Alike f t → (t.peek = .rightParen ↔ s.peek = .rightParen) :=
    fun hst => hst.peek.eq_iff (by simp)
  rw [listed, listed]
  simp only [hclose hst]
  split
  · exact .ok rfl (hst.skip 1)
  · have hfirst := hvalue hst
    revert hfirst
    generalize value s = run, value t = other
    rintro (⟨hsame, halike⟩ | ⟨hcause, halike⟩)
    · have hlines := halike.skipNewlines
      have hcomma := @alike_expect f .comma (by simp) _ _ hlines
      dsimp only
      simp only [hclose hlines]
      split
      · exact .ok (sameValues_cons hsame rfl) (hlines.skip 1)
      · revert hcomma
        generalize expect .comma _ = run, expect .comma _ = other
        rintro (⟨-, halike⟩ | ⟨hcause, halike⟩)
        · have hnext := halike.skipNewlines
          dsimp only
          rw [hnext.length_unread, hst.length_unread]
          split
          · refine Agree.map (fun _ _ hothers => ?_) (listed_alike hnext)
            exact sameValues_cons hsame hothers
          · exact .ok (sameValues_cons hsame rfl) hnext
        · exact .error hcause halike
    · exact .error hcause halike
termination_by s.unread.length

theorem arguments_alike : Alike f (SameValues f) (arguments value) (arguments value) :=
  alike_bind (alike_expect (by simp)) fun _ _ _ =>
    alike_bind alike_skipNewlines fun _ _ _ _ _ => listed_alike hvalue

theorem valueWith_alike : Alike f (SameValue f) (valueWith value) (valueWith value) := by
  refine alike_bind alike_freshId fun id _ hid => ?_
  refine alike_bind (alike_anywhere _) fun span place _ => ?_
  refine alike_bind alike_peek fun kind other hkind => ?_
  subst hid
  rw [hkind.literal?_eq]
  split
  · exact alike_bind alike_advance fun _ _ _ => alike_pure rfl
  · refine alike_bind (alike_identifier _) fun name other hname => ?_
    refine alike_bind alike_peek fun next _ hnext => ?_
    simp only [hnext.eq_iff (show ∀ text, Token.Kind.leftParen ≠ .ident text by simp)]
    split
    · refine alike_bind (arguments_alike hvalue) fun values others hvalues => ?_
      refine alike_bind (alike_anywhere _) fun _ _ _ => alike_pure ?_
      rw [SameValue, Value.named, Value.unplaced, Value.unplaced, hname.unplaced_eq, hvalues]
    · rw [← hname]
      exact alike_missing .arguments

end

theorem value_alike : ∀ fuel : Nat, Alike f (SameValue f) (value fuel) (value fuel)
  | 0 => alike_fail _
  | fuel + 1 => alike_nested (valueWith_alike (value_alike fuel))

/-! ## Statements -/

section

variable {value : Parser Value} (hvalue : Alike f (SameValue f) value value) {block : Parser Body}
  (hblock : Alike f (SameBody f) block block)

include hvalue hblock

theorem statementRest_alike {name other : Name} (hname : SameText f name other) :
    Alike f (SameMake f) (statementRest value block name) (statementRest value block other) := by
  have hcall : ∀ {values others : List Value} {body inner : Body}, SameValues f values others →
      SameBody f body inner → SameMake f (fun id span => .call id span name values body)
        (fun id span => .call id span other others inner) := by
    intro values others body inner hvalues hbody id span place
    rw [SameStatement, Statement.named, Statement.unplaced, Statement.unplaced, hname.unplaced_eq,
      hvalues, hbody]
  refine alike_bind alike_peek fun kind _ hkind => ?_
  cases hkind with
  | ident => exact alike_missing .same
  | same =>
      split
      · refine alike_bind alike_advance fun _ _ _ => ?_
        refine alike_bind hvalue fun assigned _ hassigned => alike_pure fun id span place => ?_
        rw [SameStatement, Statement.named, Statement.unplaced, Statement.unplaced,
          hname.unplaced_eq, hassigned]
      · refine alike_bind (arguments_alike hvalue) fun values _ hvalues => ?_
        refine alike_bind alike_peek fun next _ hnext => ?_
        simp only [hnext.eq_iff (show ∀ text, Token.Kind.leftBrace ≠ .ident text by simp)]
        split
        · exact alike_bind hblock fun body _ hbody => alike_pure (hcall hvalues hbody)
        · exact alike_pure (hcall hvalues rfl)
      · exact alike_bind hblock fun body _ hbody => alike_pure (hcall rfl hbody)
      · exact alike_missing .same

theorem statement_alike (id : NodeId) :
    Alike f (SameStatement f) (statement value block id) (statement value block id) := by
  refine alike_bind (alike_anywhere _) fun start _ _ => ?_
  refine alike_bind (alike_identifier _) fun name other hname => ?_
  refine alike_bind (statementRest_alike hvalue hblock hname) fun make others hmake => ?_
  refine alike_bind (alike_anywhere _) fun stop _ _ => ?_
  exact alike_bind alike_terminator fun _ _ _ => alike_pure (hmake _ _ _)

end

section

variable {parse : NodeId → Parser Statement}
  (hparse : ∀ id, Alike f (SameStatement f) (parse id) (parse id))

include hparse

/-- Also what is passed over is passed over alike. -/
theorem recovering_alike {s t : Reader} (hst : s.Alike f t) :
    Option.Rel (SameStatement f) (recovering parse s).1 (recovering parse t).1
      ∧ (recovering parse s).2.Alike f (recovering parse t).2 := by
  have hread := hparse s.takeId.1 hst.takeId
  rw [recovering, recovering]
  dsimp only
  rw [← hst.id_eq]
  revert hread
  generalize parse s.takeId.1 s.takeId.2 = run, parse s.takeId.1 t.takeId.2 = other
  rintro (⟨hsame, halike⟩ | ⟨hcause, halike⟩)
  · exact ⟨.some hsame, halike⟩
  · have hreport := halike.report hcause
    dsimp only
    rw [hreport.hasPatience]
    split
    · refine ⟨.some ?_, hreport.synchronize⟩
      rw [SameStatement, Statement.named, Statement.unplaced, Statement.unplaced,
        Fault.message_eq_of_read hcause]
    · exact ⟨.none, hreport⟩

omit hparse in
/-- What is neither a closing brace nor the end of the text is read as a statement. -/
theorem blockStatements_eq {opening : Span} {s : Reader} (hbrace : s.peek ≠ .rightBrace)
    (heof : s.peek ≠ .eof) :
    blockStatements parse opening s
      = (recovering parse s).1.elim (fail .tooManyFaults (recovering parse s).2) fun first =>
          let s₂ := (recovering parse s).2.skipSeparators
          if s₂.unread.length < s.unread.length then
            let others := blockStatements parse opening s₂
            (others.1.map (first :: ·), others.2)
          else
            (.ok [first], s₂) := by
  rw [blockStatements]
  split
  · exact absurd ‹_› hbrace
  · exact absurd ‹_› heof
  · rcases recovering parse s with ⟨_ | first, s₁⟩ <;> rfl

theorem blockStatements_alike {opening place : Span} {s t : Reader} (hst : s.Alike f t) :
    Agree f (SameStatements f) (blockStatements parse opening s) (blockStatements parse place t) := by
  have hbrace := hst.peek.eq_iff (show ∀ text, Token.Kind.rightBrace ≠ .ident text by simp)
  have heof := hst.peek.eq_iff (show ∀ text, Token.Kind.eof ≠ .ident text by simp)
  by_cases hs : s.peek = .rightBrace
  · rw [blockStatements, blockStatements, hs, hbrace.mpr hs]
    exact .ok rfl hst
  by_cases hend : s.peek = .eof
  · rw [blockStatements, blockStatements, hend, heof.mpr hend]
    exact .error .same hst
  rw [blockStatements_eq hs hend, blockStatements_eq (mt hbrace.mp hs) (mt heof.mp hend)]
  have hfirst := recovering_alike hparse hst
  revert hfirst
  rcases recovering parse s with ⟨first?, s₁⟩
  rcases recovering parse t with ⟨other?, t₁⟩
  rintro ⟨hsame, halike⟩
  cases hsame with
  | none => exact alike_fail _ halike
  | some hsame =>
      have hnext := halike.skipSeparators
      simp only [Option.elim_some, hnext.length_unread, hst.length_unread]
      split
      · refine Agree.map (fun _ _ hothers => ?_) (blockStatements_alike hnext)
        exact sameStatements_cons hsame hothers
      · exact .ok (sameStatements_cons hsame rfl) hnext
termination_by s.unread.length

theorem blockWith_alike : Alike f (SameBody f) (blockWith parse) (blockWith parse) := by
  refine alike_bind alike_freshId fun id _ hid => ?_
  refine alike_bind (alike_anywhere _) fun opening place _ => ?_
  refine alike_bind (alike_expect (by simp)) fun _ _ _ => ?_
  refine alike_bind alike_skipSeparators fun _ _ _ => ?_
  refine alike_bind (fun _ _ hst => blockStatements_alike hparse hst) fun _ _ hstatements => ?_
  refine alike_bind (alike_anywhere _) fun closing _ _ => ?_
  refine alike_bind alike_advance fun _ _ _ => alike_pure ?_
  rw [SameBody, Body.named, Body.unplaced, Body.unplaced, hid, hstatements]

omit hparse in
theorem strayBrace_alike {s t : Reader} (hst : s.Alike f t) :
    SameStatement f (strayBrace s).1 (strayBrace t).1
      ∧ (strayBrace s).2.Alike f (strayBrace t).2 := by
  have hskip := hst.skip 1
  refine ⟨?_, hskip.takeId.report .same⟩
  show Statement.error ⟨(s.skip 1).nextId⟩ _ _ = Statement.error ⟨(t.skip 1).nextId⟩ _ _
  rw [hskip.nextId]
  rfl

omit hparse in
theorem topStatements_eq {s : Reader} (hbrace : s.peek ≠ .rightBrace) (heof : s.peek ≠ .eof) :
    topStatements parse s
      = (recovering parse s).1.elim ([], (recovering parse s).2) fun first =>
          let s₂ := (recovering parse s).2.skipSeparators
          if s₂.unread.length < s.unread.length then
            (first :: (topStatements parse s₂).1, (topStatements parse s₂).2)
          else
            ([first], s₂) := by
  rw [topStatements]
  split
  · exact absurd ‹_› heof
  · exact absurd ‹_› hbrace
  · rcases recovering parse s with ⟨_ | first, s₁⟩ <;> rfl

theorem topStatements_alike {s t : Reader} (hst : s.Alike f t) :
    SameStatements f (topStatements parse s).1 (topStatements parse t).1
      ∧ (topStatements parse s).2.Alike f (topStatements parse t).2 := by
  have hbrace := hst.peek.eq_iff (show ∀ text, Token.Kind.rightBrace ≠ .ident text by simp)
  have heof := hst.peek.eq_iff (show ∀ text, Token.Kind.eof ≠ .ident text by simp)
  by_cases hend : s.peek = .eof
  · rw [topStatements, topStatements, hend, heof.mpr hend]
    exact ⟨rfl, hst⟩
  by_cases hs : s.peek = .rightBrace
  · obtain ⟨hsame, halike⟩ := strayBrace_alike hst
    have hnext := halike.skipSeparators
    rw [topStatements, topStatements, hs, hbrace.mpr hs]
    dsimp only
    rw [hnext.length_unread, hst.length_unread, halike.hasPatience]
    split
    · split
      · obtain ⟨hothers, hrest⟩ := topStatements_alike hnext
        exact ⟨sameStatements_cons hsame hothers, hrest⟩
      · exact ⟨sameStatements_cons hsame rfl, halike⟩
    · exact ⟨sameStatements_cons hsame rfl, halike⟩
  rw [topStatements_eq hs hend, topStatements_eq (mt hbrace.mp hs) (mt heof.mp hend)]
  have hfirst := recovering_alike hparse hst
  revert hfirst
  rcases recovering parse s with ⟨first?, s₁⟩
  rcases recovering parse t with ⟨other?, t₁⟩
  rintro ⟨hsame, halike⟩
  cases hsame with
  | none => exact ⟨rfl, halike⟩
  | some hsame =>
      have hnext := halike.skipSeparators
      simp only [Option.elim_some, hnext.length_unread, hst.length_unread]
      split
      · obtain ⟨hothers, hrest⟩ := topStatements_alike hnext
        exact ⟨sameStatements_cons hsame hothers, hrest⟩
      · exact ⟨sameStatements_cons hsame rfl, hnext⟩
termination_by s.unread.length

end

theorem block_alike : ∀ fuel : Nat, Alike f (SameBody f) (block fuel) (block fuel)
  | 0 => alike_fail _
  | fuel + 1 =>
      alike_nested (blockWith_alike (statement_alike (value_alike fuel) (block_alike fuel)))

theorem topStatement_alike (id : NodeId) :
    Alike f (SameStatement f) (statement (value fullFuel) (block fullFuel) id)
      (statement (value fullFuel) (block fullFuel) id) :=
  statement_alike (value_alike fullFuel) (block_alike fullFuel) id

end Parser

/-! ## Scripts -/

theorem Reader.alike_ofTokens {tokens others : List Token}
    (h : others.map (·.kind) = tokens.map (Token.kindAs f)) :
    (Reader.ofTokens tokens).Alike f (Reader.ofTokens others) := by
  have heof : ∀ t : Token, (t.kindAs f != .eof) = (t.kind != .eof) := by
    rintro ⟨kind, span⟩
    cases kind <;> rfl
  refine ⟨?_, rfl, rfl, .nil⟩
  show (others.takeWhile (·.kind != .eof)).map _ = (tokens.takeWhile (·.kind != .eof)).map _
  have hothers := congrArg (List.takeWhile (· != .eof)) h
  rw [List.takeWhile_map, List.takeWhile_map] at hothers
  simpa only [Function.comp_def, heof] using hothers

/-- **Names change nothing but names.** Tokens of the same kinds, but for the names that the function
gives, make the same script but for these, and the same faults are found in them. -/
theorem ofTokens_named (source : String) {tokens others : List Token}
    (h : others.map (·.kind) = tokens.map (Token.kindAs f)) :
    ((ofTokens source tokens).script.named fun _ => f).unplaced
        = (ofTokens source others).script.unplaced
      ∧ List.Forall₂ (fun fault other : Fault => fault.cause.Read f other.cause)
          (ofTokens source tokens).faults (ofTokens source others).faults := by
  have hstart := (Reader.alike_ofTokens h).skipSeparators
  obtain ⟨hsame, hend⟩ := Parser.topStatements_alike Parser.topStatement_alike hstart
  refine ⟨?_, hend.faults⟩
  rw [unplaced, unplaced, named]
  exact congrArg (Script.mk source · .nowhere) hsame

end Script

end Declarative
