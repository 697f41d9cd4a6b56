import Declarative.Text.Number

/-!
# Values of spellings

What the spelling of a number or of a quoted text denotes. Numbers are decimal, underscores in them
mean nothing, and the value must fit into 64 bits with a sign. In a text a backslash starts an
escape: a fixed letter, or the number of a character in one to six hexadecimal digits.
-/

namespace Declarative.Token

open Text (magnitude hexDigit? hexadecimal? charOfNumber?)

/-- An integer as one of 64 bits, if it is one. -/
def int64? (n : Int) : Option Int64 :=
  if Int64.minValue.toInt ≤ n ∧ n ≤ Int64.maxValue.toInt then some (Int64.ofInt n) else none

/-- The value of a number's spelling, with its sign and without the mark of a long one. -/
def integer? : List Char → Option Int64
  | '-' :: digits => int64? (-(magnitude digits : Int))
  | digits => int64? (magnitude digits)

/-- The character that one to six hexadecimal digits denote. -/
def numbered? (digits : List Char) : Option Char := do
  let number ← hexadecimal? digits
  if 1 ≤ digits.length ∧ digits.length ≤ 6 then charOfNumber? number else none

/-- The character that a letter after a backslash stands for. -/
def escaped? : Char → Option Char
  | 'n' => some '\n'
  | 'r' => some '\r'
  | 't' => some '\t'
  | '\\' => some '\\'
  | '0' => some '\x00'
  | '"' => some '"'
  | '$' => some '$'
  | _ => none

/-- The text that stands between two quotes, with its escapes resolved. -/
def unescape? (cs : List Char) : Option (List Char) :=
  match cs with
  | [] => some []
  | '\\' :: 'u' :: '\x7b' :: r =>
    let digits := r.takeWhile fun c => (hexDigit? c).isSome
    match _h : r.drop digits.length with
    | '\x7d' :: rest => do
      let c ← numbered? digits
      let text ← unescape? rest
      return c :: text
    | _ => none
  | '\\' :: e :: r => do
    let c ← escaped? e
    let text ← unescape? r
    return c :: text
  | ['\\'] => none
  | c :: r => do
    let text ← unescape? r
    return c :: text
termination_by cs.length
decreasing_by
  · have := congrArg List.length _h
    simp only [List.length_drop, List.length_cons] at this
    simp only [List.length_cons]
    omega
  · simp only [List.length_cons]
    omega
  · simp

end Declarative.Token
