import Declarative.Text.Double
import Declarative.Text.Number
import Declarative.Toml

/-!
# Words of TOML

Values that are written as one word, without quotes or brackets: truth values, numbers, dates and times.
-/

namespace Declarative.Toml

open Text (magnitude hexDigit? exceedsDouble)

/-! ## Dates and times -/

/-- Two decimal digits at the head as a number. -/
def twoDigits? : List Char → Option (Nat × List Char)
  | a :: b :: r => if a.isDigit && b.isDigit then some (magnitude [a, b], r) else none
  | _ => none

/-- Two decimal digits behind a mark. -/
def twoDigitsAfter? (mark : Char) : List Char → Option (Nat × List Char)
  | c :: r => if c = mark then twoDigits? r else none
  | [] => none

def daysOf (year month : Nat) : Nat :=
  let isLeap := year % 4 = 0 ∧ (year % 100 ≠ 0 ∨ year % 400 = 0)
  if month = 2 then (if isLeap then 29 else 28)
  else if month = 4 ∨ month = 6 ∨ month = 9 ∨ month = 11 then 30
  else 31

/-- What stands behind the date at the head, which must be one of the calendar. -/
def afterDate? (cs : List Char) : Option (List Char) := do
  let (century, r) ← twoDigits? cs
  let (year, r) ← twoDigits? r
  let (month, r) ← twoDigitsAfter? '-' r
  let (day, r) ← twoDigitsAfter? '-' r
  guard (1 ≤ month ∧ month ≤ 12 ∧ 1 ≤ day ∧ day ≤ daysOf (100 * century + year) month)
  return r

/-- What stands behind the fraction of a second, if there is one. -/
def afterFraction? : List Char → Option (List Char)
  | '.' :: r =>
    let rest := r.dropWhile Char.isDigit
    if rest.length < r.length then some rest else none
  | cs => some cs

/-- What stands behind the time at the head. The seconds may be missing, and there are leap seconds. -/
def afterTime? (cs : List Char) : Option (List Char) := do
  let (hour, r) ← twoDigits? cs
  let (minute, r) ← twoDigitsAfter? ':' r
  guard (hour ≤ 23 ∧ minute ≤ 59)
  match r with
  | ':' :: _ =>
    let (second, r) ← twoDigitsAfter? ':' r
    guard (second ≤ 60)
    afterFraction? r
  | _ => return r

/-- Whether this is a distance from universal time, or nothing at all. -/
def isOffset : List Char → Bool
  | [] | ['Z'] | ['z'] => true
  | sign :: r =>
    (sign == '+' || sign == '-') &&
      match twoDigits? r with
      | some (hour, r) =>
        match twoDigitsAfter? ':' r with
        | some (minute, []) => hour ≤ 23 && minute ≤ 59
        | _ => false
      | none => false

/-- Whether the word is a date, a time, or a date with a time. -/
def isMoment (cs : List Char) : Bool :=
  match afterDate? cs with
  | some [] => true
  | some (c :: r) => (c == 'T' || c == 't' || c == ' ') && ((afterTime? r).any isOffset)
  | none => afterTime? cs == some []

/-! ## Numbers -/

/-- Takes the underscores out of a word. Each of them must stand between two digits. -/
def ungroup? (isDigit : Char → Bool) : List Char → Option (List Char)
  | [] => some []
  | '_' :: _ => none
  | c :: '_' :: r =>
    if isDigit c && r.head?.any isDigit then (ungroup? isDigit r).map (c :: ·) else none
  | c :: r => (ungroup? isDigit r).map (c :: ·)

/-- Digits without the single underscores that can stand between them. There must be at least one. -/
def digits? (isDigit : Char → Bool) (cs : List Char) : Option (List Char) := do
  let digits ← ungroup? isDigit cs
  guard (digits ≠ [] ∧ digits.all isDigit)
  return digits

/-- A whole number as a value; its range is that of 128 bits with or without a sign. -/
def Value.ofInt (n : Int) : Value :=
  let bound : Int := Nat.pow 2 127
  if -bound ≤ n ∧ n < 2 * bound then integer n else void

/-- A number with a point or an exponent as a value. -/
def Value.ofDecimal (isNegative : Bool) (mantissa : Nat) (exponent : Int) : Value :=
  if exceedsDouble mantissa exponent then void
  else decimal (if isNegative then -mantissa else mantissa) exponent

/-- The number that digits to a base of at most sixteen denote. No digits at all denote none. -/
def basedNumber? (base : Nat) (cs : List Char) : Option Value :=
  match cs with
  | [] => some .void
  | _ => do
    let isDigit (c : Char) := (hexDigit? c).any (· < base)
    let values ← (← digits? isDigit cs).mapM hexDigit?
    let n : Nat := values.foldl (fun n digit => base * n + digit) 0
    return .ofInt n

/-- A sign, if there is one: whether it is a minus, and what stands behind it. -/
def sign : List Char → Bool × List Char
  | '-' :: r => (true, r)
  | '+' :: r => (false, r)
  | cs => (false, cs)

/-- The digits behind the point, if there is one, and the exponent, if there is one. -/
def fractionAndExponent? (cs : List Char) : Option (List Char × Int) := do
  let inNumber (c : Char) := c.isDigit || c == '_'
  let (fraction, r) ← match cs with
    | '.' :: r => do pure (← digits? Char.isDigit (r.takeWhile inNumber), r.dropWhile inNumber)
    | _ => some ([], cs)
  match r with
  | [] => return (fraction, 0)
  | e :: r =>
    guard (e = 'e' ∨ e = 'E')
    let (isNegative, r) := sign r
    let exponent : Int := magnitude (← digits? Char.isDigit r)
    return (fraction, if isNegative then -exponent else exponent)

/-- A whole number behind its sign. What starts with digits and an underscore counts as one whatever else is in
it, as long as underscores stand between digits, be they hexadecimal; it denotes one only if there are just
decimal digits in it. -/
def wholeNumber? (isNegative : Bool) (cs : List Char) : Option Value := do
  guard (cs.head?.any Char.isDigit ∧ (cs.dropWhile Char.isDigit).head?.all (· == '_') ∧ ' ' ∉ cs)
  let digits ← ungroup? (fun c => (hexDigit? c).isSome) cs
  if digits.all Char.isDigit then
    let n : Int := magnitude digits
    return .ofInt (if isNegative then -n else n)
  else
    return .void

/-- A decimal number, which is whole if it has neither a point nor an exponent. A zero at its head stands alone
in front of the point. -/
def number? (cs : List Char) : Option Value := do
  let (isNegative, r) := sign cs
  let front := r.takeWhile fun c => c.isDigit || c == '_'
  guard (r.head? ≠ some '0' ∨ front = ['0'])
  if r.any fun c => c == '.' || c == 'e' || c == 'E' then
    let whole ← digits? Char.isDigit front
    let (fraction, exponent) ← fractionAndExponent? (r.drop front.length)
    return .ofDecimal isNegative (magnitude (whole ++ fraction)) (exponent - fraction.length)
  else
    wholeNumber? isNegative r

def Value.ofWord? (cs : List Char) : Option Value :=
  match cs with
  | ['t', 'r', 'u', 'e'] => some (bool true)
  | ['f', 'a', 'l', 's', 'e'] => some (bool false)
  | '0' :: 'x' :: r => basedNumber? 16 r
  | '0' :: 'o' :: r => basedNumber? 8 r
  | '0' :: 'b' :: r => basedNumber? 2 r
  | _ =>
    let (_, unsigned) := sign cs
    if unsigned = ['i', 'n', 'f'] ∨ unsigned = ['n', 'a', 'n'] then some nonFinite
    else if isMoment cs then some (moment (String.ofList cs))
    else number? cs

end Declarative.Toml
