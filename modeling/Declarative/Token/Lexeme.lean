import Declarative.Token

/-!
# Lexemes

The longest piece of text that belongs together at the head of what is still to be read. `measure`
decides from the first character which shape the piece has and how many further characters it takes;
no shape is a start of another that could be longer, so the first character and the one after it are
all the choice there is.
-/

namespace Declarative.Token

/-- What a piece of text at the head of the input is. -/
inductive Shape where
  /-- A run of spaces, tabs and carriage returns. -/
  | blank
  /-- From two slashes to the end of the line. -/
  | lineComment
  /-- Between slash-star and its own star-slash; comments nest, and an open one runs to the end. -/
  | blockComment
  /-- One character that is a token by itself. -/
  | mark (kind : Kind)
  /-- An identifier or a keyword. -/
  | word
  | int
  | long
  /-- A text with both its quotes. -/
  | quoted
  /-- A quote and what follows it, where no closing quote comes before the end of the line. -/
  | unclosed
  /-- A character that starts nothing. -/
  | stray
  deriving DecidableEq, Repr

namespace Shape

/-- The characters between the words of a line. -/
def isBlank (c : Char) : Bool := c == ' ' || c == '\t' || c == '\r'

/-- Identifiers are made of ASCII letters, digits and underscores. -/
def isWordStart (c : Char) : Bool := c.isAlpha || c == '_'

def isWordPart (c : Char) : Bool := c.isAlphanum || c == '_'

def isNumberPart (c : Char) : Bool := c.isDigit || c == '_'

/-- The kind of a token that is one fixed character. -/
def markOf? : Char → Option Kind
  | '(' => some .leftParen
  | ')' => some .rightParen
  | '\x7b' => some .leftBrace
  | '\x7d' => some .rightBrace
  | '=' => some .equals
  | ',' => some .comma
  | ';' => some .semicolon
  | '\n' => some .newline
  | _ => none

/-- How many characters belong to a block comment that is open `depth` times. -/
def commentLength : Nat → List Char → Nat
  | 0, _ => 0
  | _ + 1, [] => 0
  | depth + 1, '/' :: '*' :: r => 2 + commentLength (depth + 2) r
  | depth + 1, '*' :: '/' :: r => 2 + commentLength depth r
  | depth + 1, _ :: r => 1 + commentLength (depth + 1) r

/-- How many characters after an opening quote are text: all up to a quote, a line feed, or a
backslash that has no character of its line behind it. A backslash takes the next character along. -/
def quotedLength : List Char → Nat
  | [] => 0
  | ['\\'] => 0
  | '\\' :: c :: r => if c = '\n' then 0 else 2 + quotedLength r
  | c :: r => if c = '"' ∨ c = '\n' then 0 else 1 + quotedLength r

/-- A text is closed by a quote; a lone backslash at the end of its line belongs to an unclosed one. -/
def measureQuoted (r : List Char) : Shape × Nat :=
  let n := quotedLength r
  match r.drop n with
  | '"' :: _ => (quoted, n + 1)
  | '\\' :: _ => (unclosed, n + 1)
  | _ => (unclosed, n)

/-- Digits and underscores; a capital L behind them makes the number a long one. -/
def measureNumber (r : List Char) : Shape × Nat :=
  let n := (r.takeWhile isNumberPart).length
  match r.drop n with
  | 'L' :: _ => (long, n + 1)
  | _ => (int, n)

/-- The shape of the piece that starts with `c`, and how many characters of `r` it takes along. -/
def measure (c : Char) (r : List Char) : Shape × Nat :=
  if isBlank c then
    (blank, (r.takeWhile isBlank).length)
  else if let some kind := markOf? c then
    (mark kind, 0)
  else if isWordStart c then
    (word, (r.takeWhile isWordPart).length)
  else if c.isDigit then
    measureNumber r
  else if c = '"' then
    measureQuoted r
  else
    match c, r with
    | '/', '/' :: t => (lineComment, 1 + (t.takeWhile (· != '\n')).length)
    | '/', '*' :: t => (blockComment, 1 + commentLength 1 t)
    | '-', d :: _ => if d.isDigit then measureNumber r else (stray, 0)
    | _, _ => (stray, 0)

end Shape

end Declarative.Token
