import Mathlib.Data.List.Basic
import Declarative.Script
import Declarative.Token

/-!
# The grammar of scripts

Which lists of tokens are scripts, and of which tree: `Grammar.Statements` derives the
statements of a script or of a block, `Grammar.Value` a value. A derivation says nothing
of numbers and places, so its tree is a plain one (`Plain.Statement`), which names the
calls, literals and blocks in their order and no more.

The grammar has no end of statement of its own. A statement in a list is followed by a
separator or is the last one, and then what follows is the brace that closes the block, or
the end of the text.
-/

namespace Declarative

/-! ## Plain trees -/

namespace Plain

/-- A value without numbers and places. -/
inductive Value where
  | literal (content : Literal)
  | factory (name : String) (arguments : List Value)

mutual

inductive Statement where
  | call (name : String) (arguments : List Value) (body : Body)
  | assign (target : String) (value : Value)
  | error (message : String)

inductive Body where
  | absent
  | block (statements : List Statement)

end

mutual

/-- The most blocks and values that a path from the root to a leaf holds. -/
def Value.height : Value → Nat
  | .literal _ => 1
  | .factory _ arguments => 1 + Value.heightAll arguments

def Value.heightAll : List Value → Nat
  | [] => 0
  | value :: values => max value.height (Value.heightAll values)

end

mutual

/-- The most blocks and values that a path from the root to a leaf holds; the statements
on it do not count. -/
def Statement.height : Statement → Nat
  | .call _ arguments body => max (Value.heightAll arguments) body.height
  | .assign _ value => value.height
  | .error _ => 0

def Body.height : Body → Nat
  | .absent => 0
  | .block statements => 1 + Statement.heightAll statements

def Statement.heightAll : List Statement → Nat
  | [] => 0
  | statement :: statements => max statement.height (Statement.heightAll statements)

end

theorem Value.height_pos : ∀ value : Value, 0 < value.height
  | .literal _ => Nat.one_pos
  | .factory _ arguments => by
      rw [Value.height]
      omega

end Plain

mutual

def Value.plain : Value → Plain.Value
  | literal _ _ content => .literal content
  | factory _ _ name arguments => .factory name.text (plainAll arguments)

def Value.plainAll : List Value → List Plain.Value
  | [] => []
  | value :: values => plain value :: plainAll values

end

mutual

def Statement.plain : Statement → Plain.Statement
  | .call _ _ name arguments body => .call name.text (Value.plainAll arguments) body.plain
  | .assign _ _ target value => .assign target.text value.plain
  | .error _ _ message => .error message

def Body.plain : Body → Plain.Body
  | .absent => .absent
  | .block _ _ statements => .block (Statement.plainAll statements)

def Statement.plainAll : List Statement → List Plain.Statement
  | [] => []
  | statement :: statements => statement.plain :: Statement.plainAll statements

end

def Literal.kind : Literal → Token.Kind
  | string value => .string value
  | int value => .int value
  | long value => .long value
  | bool value => .bool value
  | null => .null

/-! ## Derivations -/

namespace Grammar

open Token (Kind)

def Lines (tokens : List Kind) : Prop := ∀ kind ∈ tokens, kind = .newline

mutual

/-- A literal, or a name with arguments. -/
inductive Value : Plain.Value → List Kind → Prop where
  | literal {content} : Value (.literal content) [content.kind]
  | factory {name arguments tokens} :
      Arguments arguments tokens → Value (.factory name arguments) (.ident name :: tokens)

/-- Values in parentheses. -/
inductive Arguments : List Plain.Value → List Kind → Prop where
  | parenthesised {values lines tokens} : Lines lines → Items values tokens →
      Arguments values (.leftParen :: (lines ++ (tokens ++ [.rightParen])))

/-- Values with commas between them, and perhaps one behind the last. -/
inductive Items : List Plain.Value → List Kind → Prop where
  | none : Items [] []
  | last {value tokens lines} : Value value tokens → Lines lines → Items [value] (tokens ++ lines)
  | more {value tokens before after values others} : Value value tokens → Lines before →
      Lines after → Items values others →
      Items (value :: values) (tokens ++ (before ++ .comma :: (after ++ others)))

end

mutual

inductive Statement : Plain.Statement → List Kind → Prop where
  | assign {name value tokens} : Value value tokens →
      Statement (.assign name value) (.ident name :: .equals :: tokens)
  | call {name arguments tokens} : Arguments arguments tokens →
      Statement (.call name arguments .absent) (.ident name :: tokens)
  | callBlock {name arguments tokens body inner} : Arguments arguments tokens → Block body inner →
      Statement (.call name arguments body) (.ident name :: (tokens ++ inner))
  | block {name body inner} : Block body inner →
      Statement (.call name [] body) (.ident name :: inner)

/-- Statements in braces. -/
inductive Block : Plain.Body → List Kind → Prop where
  | braced {statements tokens} : Statements statements tokens →
      Block (.block statements) (.leftBrace :: (tokens ++ [.rightBrace]))

/-- Separators and statements, these with separators between them. -/
inductive Statements : List Plain.Statement → List Kind → Prop where
  | none : Statements [] []
  | separator {kind statements tokens} : kind.isSeparator → Statements statements tokens →
      Statements statements (kind :: tokens)
  | last {statement tokens} : Statement statement tokens → Statements [statement] tokens
  | more {statement tokens kind statements others} : Statement statement tokens →
      kind.isSeparator → Statements statements others →
      Statements (statement :: statements) (tokens ++ kind :: others)

end

/-! ## What derivations start with -/

/-- A value starts with a name or a literal. -/
inductive StartsValue : Kind → Prop where
  | ident {name} : StartsValue (.ident name)
  | literal {content : Literal} : StartsValue content.kind

theorem Value.starts {value : Plain.Value} {tokens : List Kind} (h : Value value tokens) :
    ∃ kind rest, tokens = kind :: rest ∧ StartsValue kind := by
  cases h with
  | literal => exact ⟨_, [], rfl, .literal⟩
  | factory _ => exact ⟨_, _, rfl, .ident⟩

theorem StartsValue.ne {kind : Kind} (h : StartsValue kind) :
    kind ≠ .newline ∧ kind ≠ .rightParen := by
  cases h with
  | ident => exact ⟨nofun, nofun⟩
  | @literal content => cases content <;> exact ⟨nofun, nofun⟩

theorem Items.head_ne {values : List Plain.Value} {tokens rest : List Kind}
    (h : Items values tokens) : (tokens ++ .rightParen :: rest).head? ≠ some .newline := by
  cases h with
  | none => simp
  | last hvalue _ | more hvalue _ _ _ =>
      obtain ⟨kind, others, rfl, hstarts⟩ := hvalue.starts
      simpa using hstarts.ne.1

theorem Statement.starts {statement : Plain.Statement} {tokens : List Kind}
    (h : Statement statement tokens) : ∃ name rest, tokens = .ident name :: rest := by
  cases h <;> exact ⟨_, _, rfl⟩

theorem Block.starts {body : Plain.Body} {tokens : List Kind} (h : Block body tokens) :
    ∃ rest, tokens = .leftBrace :: rest := by
  cases h
  exact ⟨_, rfl⟩

theorem Block.height_pos {body : Plain.Body} {tokens : List Kind} (h : Block body tokens) :
    0 < body.height := by
  cases h
  rw [Plain.Body.height]
  omega

/-- What can follow a statement: nothing, a separator, or the brace that closes the block
around. -/
def Follows : List Kind → Prop
  | [] => True
  | kind :: _ => kind.isSeparator ∨ kind = .rightBrace

/-- Statements start with a separator or a name, if they start with anything. -/
theorem Statements.starts {statements : List Plain.Statement} {kind : Kind} {rest : List Kind}
    (h : Statements statements (kind :: rest)) : kind.isSeparator ∨ ∃ name, kind = .ident name := by
  generalize htokens : kind :: rest = tokens at h
  cases h with
  | none => cases htokens
  | separator hkind _ =>
      obtain ⟨rfl, -⟩ := List.cons.inj htokens
      exact Or.inl hkind
  | last hstatement =>
      obtain ⟨name, others, rfl⟩ := hstatement.starts
      exact Or.inr ⟨name, (List.cons.inj htokens).1⟩
  | more hstatement _ _ =>
      obtain ⟨name, others, rfl⟩ := hstatement.starts
      exact Or.inr ⟨name, (List.cons.inj htokens).1⟩

theorem Statements.eq_nil {statements : List Plain.Statement} (h : Statements statements []) :
    statements = [] := by
  generalize htokens : ([] : List Kind) = tokens at h
  cases h with
  | none => rfl
  | separator _ _ => cases htokens
  | last hstatement =>
      obtain ⟨name, others, rfl⟩ := hstatement.starts
      cases htokens
  | more hstatement _ _ =>
      obtain ⟨name, others, rfl⟩ := hstatement.starts
      cases htokens

/-- Separators may stand in front of statements. -/
theorem Statements.prepend {statements : List Plain.Statement} {tokens : List Kind}
    (h : Statements statements tokens) : ∀ {separators : List Kind},
    (∀ kind ∈ separators, kind.isSeparator) → Statements statements (separators ++ tokens)
  | [], _ => h
  | kind :: _, hall =>
      .separator (hall kind (List.mem_cons_self ..))
        (h.prepend fun k hk => hall k (List.mem_cons_of_mem _ hk))

end Grammar

end Declarative
