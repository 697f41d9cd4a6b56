import Declarative.Json
import Declarative.Json.Scaled
import Declarative.Text.Number

/-!
# Reading JSON

A text is one JSON value with blanks around it. Each reader takes the text from a place on and returns
what it has read with the text behind it, or nothing if no such thing starts there.
-/

namespace Declarative.Json

open Text (magnitude hexadecimal? charOfNumber?)

def skipBlanks (cs : List Char) : List Char :=
  cs.dropWhile fun c => c == ' ' || c == '\t' || c == '\n' || c == '\r'

/-- What the letter after a backslash stands for. -/
def escaped? : Char → Option Char
  | '"' => some '"'
  | '\\' => some '\\'
  | '/' => some '/'
  | 'b' => some '\x08'
  | 'f' => some '\x0c'
  | 'n' => some '\n'
  | 'r' => some '\r'
  | 't' => some '\t'
  | _ => none

/-- The code points and surrogates of a text up to its closing quote. -/
def textUnits : List Char → Option (List Nat × List Char)
  | '"' :: r => some ([], r)
  | '\\' :: 'u' :: a :: b :: c :: d :: r => do
    let unit ← hexadecimal? [a, b, c, d]
    let (units, rest) ← textUnits r
    return (unit :: units, rest)
  | '\\' :: e :: r => do
    let c ← escaped? e
    let (units, rest) ← textUnits r
    return (c.toNat :: units, rest)
  | c :: r =>
    if c < ' ' ∨ c = '\\' then
      none
    else do
      let (units, rest) ← textUnits r
      return (c.toNat :: units, rest)
  | [] => none

/-- The text of code points, where two halves of a surrogate pair make one character. -/
def joinUnits? : List Nat → Option (List Char)
  | [] => some []
  | high :: low :: r =>
    if 0xD800 ≤ high ∧ high < 0xDC00 ∧ 0xDC00 ≤ low ∧ low < 0xE000 then do
      let c ← charOfNumber? (0x10000 + (high - 0xD800) * 0x400 + (low - 0xDC00))
      let text ← joinUnits? r
      return c :: text
    else do
      let c ← charOfNumber? high
      let text ← joinUnits? (low :: r)
      return c :: text
  | [unit] => do
    let c ← charOfNumber? unit
    return [c]

/-- Reads a text behind its opening quote; its value is nothing if a surrogate in it stands alone. -/
def text (cs : List Char) : Option (Option String × List Char) := do
  let (units, rest) ← textUnits cs
  return ((joinUnits? units).map String.ofList, rest)

/-- The digits at the head, of which there must be one. -/
def digits (cs : List Char) : Option (List Char × List Char) :=
  let found := cs.takeWhile Char.isDigit
  if found.isEmpty then none else some (found, cs.drop found.length)

/-- The digits in front of the point: a zero stands alone. -/
def wholePart : List Char → Option (List Char × List Char)
  | '0' :: r => some (['0'], r)
  | cs => digits cs

/-- The digits behind the point, if there is one. -/
def fraction : List Char → Option (List Char × List Char)
  | '.' :: r => digits r
  | cs => some ([], cs)

/-- The exponent, if there is one. -/
def exponentPart (cs : List Char) : Option (Option Int × List Char) :=
  match cs with
  | e :: r =>
    if e = 'e' ∨ e = 'E' then do
      let (negative, r) := match r with
        | '-' :: r => (true, r)
        | '+' :: r => (false, r)
        | r => (false, r)
      let (ds, rest) ← digits r
      let value : Int := magnitude ds
      return (some (if negative then -value else value), rest)
    else
      some (none, cs)
  | [] => some (none, cs)

def number (cs : List Char) : Option (Json × List Char) := do
  let (negative, r) := match cs with
    | '-' :: r => (true, r)
    | r => (false, r)
  let (whole, r) ← wholePart r
  let (part, r) ← fraction r
  let (exponent, rest) ← exponentPart r
  let mantissa := magnitude (whole ++ part)
  let power := exponent.getD 0 - part.length
  let value :=
    if (Scaled.ofDigits whole part (exponent.getD 0)).isOutOfRange then void
    else if negative || !part.isEmpty || exponent.isSome then
      decimal (if negative then -mantissa else mantissa) power
    else
      natural mantissa
  return (value, rest)

/-- An object of members whose keys denote something; nothing if one does not. -/
def ofMembers (members : List (Option String × Json)) : Json :=
  match members.mapM fun (key, value) => key.map (·, value) with
  | some members => object members
  | none => void

mutual

/-- Reads a value. The fuel bounds how many values are begun and still open or just finished; twice the
length of the text is enough. -/
def value : (fuel : Nat) → List Char → Option (Json × List Char)
  | 0, _ => none
  | fuel + 1, cs =>
    match skipBlanks cs with
    | 'n' :: 'u' :: 'l' :: 'l' :: r => some (null, r)
    | 't' :: 'r' :: 'u' :: 'e' :: r => some (bool true, r)
    | 'f' :: 'a' :: 'l' :: 's' :: 'e' :: r => some (bool false, r)
    | '"' :: r => do
      let (content, rest) ← text r
      return (content.elim void string, rest)
    | '[' :: r =>
      match skipBlanks r with
      | ']' :: rest => some (array [], rest)
      | r => do
        let (elements, rest) ← elements fuel r
        return (array elements, rest)
    | '\x7b' :: r =>
      match skipBlanks r with
      | '\x7d' :: rest => some (object [], rest)
      | r => do
        let (members, rest) ← members fuel r
        return (ofMembers members, rest)
    | r => number r

/-- Reads the elements of an array with the bracket behind the last one. -/
def elements : (fuel : Nat) → List Char → Option (List Json × List Char)
  | 0, _ => none
  | fuel + 1, cs => do
    let (first, r) ← value fuel cs
    match skipBlanks r with
    | ',' :: r =>
      let (others, rest) ← elements fuel r
      return (first :: others, rest)
    | ']' :: rest => return ([first], rest)
    | _ => none

/-- Reads the members of an object with the brace behind the last one. -/
def members : (fuel : Nat) → List Char → Option (List (Option String × Json) × List Char)
  | 0, _ => none
  | fuel + 1, cs =>
    match skipBlanks cs with
    | '"' :: r => do
      let (key, r) ← text r
      match skipBlanks r with
      | ':' :: r =>
        let (first, r) ← value fuel r
        match skipBlanks r with
        | ',' :: r =>
          let (others, rest) ← members fuel r
          return ((key, first) :: others, rest)
        | '\x7d' :: rest => return ([(key, first)], rest)
        | _ => none
      | _ => none
    | _ => none

end

def ofText? (source : String) : Option Json :=
  let cs := source.toList
  match value (2 * cs.length + 2) cs with
  | some (json, rest) => if (skipBlanks rest).isEmpty then some json else none
  | none => none

end Declarative.Json
