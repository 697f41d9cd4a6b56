import Declarative.Text.Double

/-!
# Scaled numbers

The digits of a number, as many as fit into a word of 64 bits, and the power of ten that they are scaled by.
A number with more digits is cut off behind them. Whether a number is in range is asked of its scaled form.
-/

namespace Declarative.Json

open Text (roundToDouble doubleBound)

/-- The number `significand` times ten to the power `exponent`. -/
structure Scaled where
  significand : Nat
  exponent : Int
  deriving DecidableEq, Repr

namespace Scaled

/-- Appends digits to a significand as long as it fits into the word, and tells how many have been left
over. -/
def append (significand : Nat) : List Char → Nat × Nat
  | [] => (significand, 0)
  | digit :: digits =>
    let longer := 10 * significand + (digit.toNat - '0'.toNat)
    if longer < Nat.pow 2 64 then append longer digits else (significand, digits.length + 1)

/-- The scaled form of a number with these digits in front of the point and behind it. Digits behind the point
may still fit when some in front of it have been left over. -/
def ofDigits (whole fraction : List Char) (exponent : Int) : Scaled :=
  let (front, scaledUp) := append 0 whole
  let (significand, leftOver) := append front fraction
  ⟨significand, exponent + scaledUp - (fraction.length - leftOver : Nat)⟩

/-- Whether the number is out of range: the significand and the power of ten, both rounded, have a product that
does not round to a finite number. Scaling down never leads out of range. -/
def isOutOfRange (number : Scaled) : Bool :=
  if number.significand = 0 ∨ number.exponent < 0 then false
  else if 308 < number.exponent then true
  else doubleBound ≤ roundToDouble number.significand * roundToDouble (Nat.pow 10 number.exponent.toNat)

end Scaled

end Declarative.Json
