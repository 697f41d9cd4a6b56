import Declarative.Proofs.Grammar

/-!
# What ends statements, and what is none

A statement ends with a token that is no separator, and no derivation holds the end of the text. So
tokens that end with a separator are statements each of which has its end (`Grammar.Terminated`),
and behind other statements stands what closes the list of them (`Grammar.Closes`).

Tokens between separators that are no statement are malformed (`Grammar.Malformed`) if it is clear
that they belong together: either they start with a token that starts no statement, and their braces
close each other with all separators inside, or they hold no separators, braces and parentheses.
-/

namespace Declarative.Grammar

open Token (Kind)

/-! ## What derivations end with -/

theorem Arguments.ends {arguments : List Plain.Value} {tokens : List Kind}
    (h : Arguments arguments tokens) : ∃ front, tokens = front ++ [.rightParen] := by
  cases h with
  | @parenthesised _ lines inner _ _ =>
      exact ⟨.leftParen :: (lines ++ inner), by simp⟩

theorem Block.ends {body : Plain.Body} {tokens : List Kind} (h : Block body tokens) :
    ∃ front, tokens = front ++ [.rightBrace] := by
  cases h with
  | @braced _ inner _ => exact ⟨.leftBrace :: inner, rfl⟩

theorem Value.ends {value : Plain.Value} {tokens : List Kind} (h : Value value tokens) :
    ∃ front kind, tokens = front ++ [kind] ∧ kind.isSeparator = false := by
  cases h with
  | @literal content => exact ⟨[], content.kind, rfl, by cases content <;> rfl⟩
  | @factory name _ _ harguments =>
      obtain ⟨front, rfl⟩ := harguments.ends
      exact ⟨.ident name :: front, _, rfl, rfl⟩

theorem Statement.ends {statement : Plain.Statement} {tokens : List Kind}
    (h : Statement statement tokens) :
    ∃ front kind, tokens = front ++ [kind] ∧ kind.isSeparator = false := by
  cases h with
  | @assign name _ _ hvalue =>
      obtain ⟨front, kind, rfl, hkind⟩ := hvalue.ends
      exact ⟨.ident name :: .equals :: front, kind, rfl, hkind⟩
  | @call name _ _ harguments =>
      obtain ⟨front, rfl⟩ := harguments.ends
      exact ⟨.ident name :: front, _, rfl, rfl⟩
  | @callBlock name _ tokens _ _ _ hblock =>
      obtain ⟨front, rfl⟩ := hblock.ends
      exact ⟨.ident name :: (tokens ++ front), .rightBrace, by simp, rfl⟩
  | @block name _ _ hblock =>
      obtain ⟨front, rfl⟩ := hblock.ends
      exact ⟨.ident name :: front, _, rfl, rfl⟩

/-- The tokens end with a separator, if there are any. -/
def Terminated (tokens : List Kind) : Prop := ∀ kind ∈ tokens.getLast?, kind.isSeparator = true

instance (tokens : List Kind) : Decidable (Terminated tokens) :=
  inferInstanceAs (Decidable (∀ kind ∈ tokens.getLast?, kind.isSeparator = true))

theorem Statement.not_terminated {statement : Plain.Statement} {tokens : List Kind}
    (h : Statement statement tokens) : ¬Terminated tokens := by
  obtain ⟨front, kind, rfl, hkind⟩ := h.ends
  intro hterminated
  have hseparator := hterminated kind (by simp)
  rw [hkind] at hseparator
  cases hseparator

theorem Terminated.of_append {front tokens : List Kind} (h : Terminated (front ++ tokens)) :
    Terminated tokens := by
  intro kind hkind
  exact h kind (by simp [List.getLast?_append, Option.mem_def.mp hkind])

/-- What closes a list of statements: nothing more, or the brace that closes the block around. -/
def Closes : List Kind → Prop
  | [] => True
  | kind :: _ => kind = .rightBrace

theorem Closes.follows {tokens : List Kind} (h : Closes tokens) : Follows tokens := by
  cases tokens with
  | nil => trivial
  | cons kind rest => exact Or.inr h

/-- A separator in front belongs to no statement. -/
theorem Statements.of_separator {statements : List Plain.Statement} {kind : Kind}
    {tokens : List Kind} (h : Statements statements (kind :: tokens))
    (hkind : kind.isSeparator = true) : Statements statements tokens := by
  have hne {tree : Plain.Statement} {front : List Kind} (hstatement : Statement tree front)
      (rest : List Kind) : front ++ rest ≠ kind :: tokens := by
    obtain ⟨name, others, rfl⟩ := hstatement.starts
    intro hcons
    rw [List.cons_append] at hcons
    obtain ⟨rfl, -⟩ := List.cons.inj hcons
    cases hkind
  generalize hall : kind :: tokens = all at h
  cases h with
  | none => cases hall
  | separator _ hrest =>
      obtain ⟨-, rfl⟩ := List.cons.inj hall
      exact hrest
  | last hstatement => exact absurd ((List.append_nil _).trans hall.symm) (hne hstatement [])
  | more hstatement _ _ => exact absurd hall.symm (hne hstatement _)

/-- The tokens are statements, and the trees of these are no higher than there is room for. -/
def WellFormed (room : Nat) (tokens : List Kind) : Prop :=
  ∃ trees, Statements trees tokens ∧ Plain.Statement.heightAll trees ≤ room

/-! ## No derivation holds the end of the text -/

theorem Lines.eof_notMem {tokens : List Kind} (h : Lines tokens) : .eof ∉ tokens := by
  intro hmem
  cases h _ hmem

mutual

theorem Value.eof_notMem : ∀ {value : Plain.Value} {tokens : List Kind}, Value value tokens →
    .eof ∉ tokens
  | _, _, @Value.literal content => by cases content <;> simp [Literal.kind]
  | _, _, .factory harguments => by simp [harguments.eof_notMem]

theorem Arguments.eof_notMem : ∀ {arguments : List Plain.Value} {tokens : List Kind},
    Arguments arguments tokens → .eof ∉ tokens
  | _, _, .parenthesised hlines hitems => by simp [hlines.eof_notMem, hitems.eof_notMem]

theorem Items.eof_notMem : ∀ {values : List Plain.Value} {tokens : List Kind},
    Items values tokens → .eof ∉ tokens
  | _, _, .none => by simp
  | _, _, .last hvalue hlines => by simp [hvalue.eof_notMem, hlines.eof_notMem]
  | _, _, .more hvalue hbefore hafter hothers => by
      simp [hvalue.eof_notMem, hbefore.eof_notMem, hafter.eof_notMem, hothers.eof_notMem]

end

mutual

theorem Statement.eof_notMem : ∀ {statement : Plain.Statement} {tokens : List Kind},
    Statement statement tokens → .eof ∉ tokens
  | _, _, .assign hvalue => by simp [hvalue.eof_notMem]
  | _, _, .call harguments => by simp [harguments.eof_notMem]
  | _, _, .callBlock harguments hblock => by simp [harguments.eof_notMem, hblock.eof_notMem]
  | _, _, .block hblock => by simp [hblock.eof_notMem]

theorem Block.eof_notMem : ∀ {body : Plain.Body} {tokens : List Kind}, Block body tokens →
    .eof ∉ tokens
  | _, _, .braced hstatements => by simp [hstatements.eof_notMem]

theorem Statements.eof_notMem : ∀ {statements : List Plain.Statement} {tokens : List Kind},
    Statements statements tokens → .eof ∉ tokens
  | _, _, .none => by simp
  | _, _, .separator hkind hrest => by simp [(Kind.ne_eof_of_isSeparator hkind).symm, hrest.eof_notMem]
  | _, _, .last hstatement => hstatement.eof_notMem
  | _, _, .more hstatement hkind hothers => by
      simp [hstatement.eof_notMem, (Kind.ne_eof_of_isSeparator hkind).symm, hothers.eof_notMem]

end

/-! ## Malformed statements -/

/-- With `depth` braces open before, all braces are closed at the end and none too early, and
separators stand only where a brace is open. -/
inductive Balanced : Nat → List Kind → Prop where
  | done : Balanced 0 []
  | opening {depth rest} : Balanced (depth + 1) rest → Balanced depth (.leftBrace :: rest)
  | closing {depth rest} : Balanced depth rest → Balanced (depth + 1) (.rightBrace :: rest)
  | separator {depth kind rest} : kind.isSeparator = true → Balanced (depth + 1) rest →
      Balanced (depth + 1) (kind :: rest)
  | other {depth kind rest} : kind.isSeparator = false → kind ≠ .leftBrace → kind ≠ .rightBrace →
      Balanced depth rest → Balanced depth (kind :: rest)

/-- Neither a separator nor a brace nor a parenthesis. -/
structure Flat (kind : Kind) : Prop where
  separator : kind.isSeparator = false
  leftBrace : kind ≠ .leftBrace
  rightBrace : kind ≠ .rightBrace
  leftParen : kind ≠ .leftParen
  rightParen : kind ≠ .rightParen

theorem balanced_of_flat : ∀ {tokens : List Kind}, (∀ kind ∈ tokens, Flat kind) → Balanced 0 tokens
  | [], _ => .done
  | kind :: _, hall => by
      obtain ⟨hflat, hrest⟩ := List.forall_mem_cons.mp hall
      exact .other hflat.separator hflat.leftBrace hflat.rightBrace (balanced_of_flat hrest)

/-- Tokens in one place that make no statement. -/
inductive Malformed : List Kind → Prop where
  /-- No statement starts like this, and none starts inside. -/
  | garbled {kind rest} : (∀ name, kind ≠ .ident name) → kind.isSeparator = false →
      kind ≠ .rightBrace → Balanced 0 (kind :: rest) → Malformed (kind :: rest)
  | flat {tokens} : tokens ≠ [] → (∀ kind ∈ tokens, Flat kind) →
      (¬∃ statement, Statement statement tokens) → Malformed tokens

/-- The first token of malformed ones lets reading go on: it separates and closes nothing. -/
theorem Malformed.exists_first {tokens : List Kind} (h : Malformed tokens) :
    ∃ kind rest, tokens = kind :: rest ∧ kind.isSeparator = false ∧ kind ≠ .rightBrace := by
  cases h with
  | @garbled kind rest _ hseparator hbrace _ => exact ⟨kind, rest, rfl, hseparator, hbrace⟩
  | flat hne hflat _ =>
      obtain ⟨kind, rest, rfl⟩ := List.exists_cons_of_ne_nil hne
      have hkind := hflat kind (List.mem_cons_self ..)
      exact ⟨kind, rest, rfl, hkind.separator, hkind.rightBrace⟩

end Declarative.Grammar
