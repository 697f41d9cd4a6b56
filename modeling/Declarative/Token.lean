import Declarative.Source.Span

/-!
# Tokens

The words of the language. Line feeds are tokens of their own because they separate statements; blanks
and comments are none.
-/

namespace Declarative

namespace Token

/-- What a token is, with the value that its spelling denotes. -/
inductive Kind where
  | int (value : Int64)
  | long (value : Int64)
  | string (value : String)
  | bool (value : Bool)
  | null
  | ident (name : String)
  | leftParen
  | rightParen
  | leftBrace
  | rightBrace
  | equals
  | comma
  | semicolon
  | newline
  /-- The end of the text. -/
  | eof
  deriving DecidableEq, Repr

namespace Kind

def describe : Kind → String
  | int _ => "integer"
  | long _ => "long integer"
  | string _ => "string"
  | bool _ => "boolean"
  | null => "'null'"
  | ident _ => "identifier"
  | leftParen => "'('"
  | rightParen => "')'"
  | leftBrace => "'\x7b'"
  | rightBrace => "'\x7d'"
  | equals => "'='"
  | comma => "','"
  | semicolon => "';'"
  | newline => "newline"
  | eof => "end of file"

def isSeparator : Kind → Bool
  | newline | semicolon => true
  | _ => false

theorem ne_eof_of_isSeparator {kind : Kind} (h : kind.isSeparator = true) : kind ≠ .eof := by
  rintro rfl
  cases h

/-- Whether the token ends a statement. -/
def isTerminator : Kind → Bool
  | newline | semicolon | eof => true
  | _ => false

end Kind

end Token

/-- A word of the source and where it stands. -/
structure Token where
  kind : Token.Kind
  span : Span
  deriving DecidableEq, Repr

end Declarative
