import Declarative.Text.Number

/-!
# Quoted texts in TOML

A text stands between quotes or between apostrophes; between quotes a backslash starts an escape. If the
mark is written three times the text is long: it can have line breaks in it, and one or two marks.
-/

namespace Declarative.Toml

open Text (hexadecimal? charOfNumber?)

def isBlank (c : Char) : Bool := c == ' ' || c == '\t'

def skipBlanks (cs : List Char) : List Char := cs.dropWhile isBlank

def skipLines : List Char → List Char
  | '\r' :: '\n' :: r => skipLines r
  | c :: r => if isBlank c || c == '\n' then skipLines r else c :: r
  | [] => []

/-- Characters that stand nowhere but in line breaks. -/
def isControl (c : Char) : Bool := (c < ' ' && c != '\t') || c == '\x7f'

/-- How a text is written. -/
structure Quoting where
  mark : Char
  isLong : Bool
  deriving DecidableEq, Repr

/-- The character that so many hexadecimal digits at the head denote. -/
def numbered? (count : Nat) (cs : List Char) : Option (List Char × List Char) := do
  let digits := cs.take count
  guard (digits.length = count)
  let c ← charOfNumber? (← hexadecimal? digits)
  return ([c], cs.drop count)

/-- The character that a letter after a backslash stands for. -/
def escaped? : Char → Option Char
  | 'b' => some '\x08'
  | 't' => some '\t'
  | 'n' => some '\n'
  | 'f' => some '\x0c'
  | 'r' => some '\r'
  | 'e' => some '\x1b'
  | '"' => some '"'
  | '\\' => some '\\'
  | _ => none

/-- What an escape behind its backslash denotes. In a long text, a backslash at the end of a line takes
itself and all blanks and line breaks behind it out of the text. -/
def escape? (isLong : Bool) (cs : List Char) : Option (List Char × List Char) :=
  match cs with
  | 'x' :: r => numbered? 2 r
  | 'u' :: r => numbered? 4 r
  | 'U' :: r => numbered? 8 r
  | c :: r =>
    match escaped? c, skipBlanks cs with
    | some c, _ => some ([c], r)
    | none, '\n' :: r | none, '\r' :: '\n' :: r => if isLong then some ([], skipLines r) else none
    | none, _ => none
  | [] => none

namespace Quoting

/-- The end of a text: its mark, or three of them behind at most two that belong to the text. -/
def close? (q : Quoting) (cs : List Char) : Option (List Char × List Char) :=
  let marks := (cs.takeWhile (· == q.mark)).length
  if q.isLong then
    let own := min (marks - 3) 2
    if 3 ≤ marks then some (List.replicate own q.mark, cs.drop (own + 3)) else none
  else
    if 1 ≤ marks then some ([], cs.drop 1) else none

/-- One character of a text, or one escape. -/
def piece? (q : Quoting) (cs : List Char) : Option (List Char × List Char) :=
  match cs with
  | '\\' :: r => if q.mark = '"' then escape? q.isLong r else some (['\\'], r)
  | '\n' :: r | '\r' :: '\n' :: r => if q.isLong then some (['\n'], r) else none
  | c :: r => if isControl c then none else some ([c], r)
  | [] => none

/-- Reads a text behind its opening marks. The fuel bounds the number of its pieces. -/
def content (q : Quoting) : (fuel : Nat) → List Char → Option (List Char × List Char)
  | 0, _ => none
  | fuel + 1, cs =>
    match q.close? cs with
    | some found => some found
    | none => do
      let (front, r) ← q.piece? cs
      let (back, rest) ← q.content fuel r
      return (front ++ back, rest)

/-- Reads a text behind its opening marks. A line break directly behind these is not part of a long text. -/
def read (q : Quoting) (cs : List Char) : Option (String × List Char) := do
  let body := match cs with
    | '\n' :: r | '\r' :: '\n' :: r => if q.isLong then r else cs
    | _ => cs
  let (text, rest) ← q.content (body.length + 1) body
  return (String.ofList text, rest)

end Quoting

end Declarative.Toml
