/-!
# Floating-point numbers

Rounding to floating-point numbers of 64 bits, which keep 53 significant bits, and the decimals that are too
large for them.
-/

namespace Declarative.Text

/-- The quotient rounded to the nearest integer; a half goes to the even neighbour. -/
def roundDiv (n d : Nat) : Nat :=
  let quotient := n / d
  let twice := 2 * (n % d)
  if d < twice ∨ d = twice ∧ quotient % 2 = 1 then quotient + 1 else quotient

/-- The number rounded to 53 significant bits. -/
def roundToDouble (n : Nat) : Nat :=
  let unit := Nat.pow 2 (n.log2 - 52)
  roundDiv n unit * unit

/-- The least number that does not round to a finite one. -/
def doubleBound : Nat := Nat.pow 2 1024 - Nat.pow 2 970

/-- Whether `mantissa` times ten to the power `exponent` does not round to a finite number. The number of
digits decides unless it is close. -/
def exceedsDouble (mantissa : Nat) (exponent : Int) : Bool :=
  let magnitude : Int := (toString mantissa).length + exponent
  if mantissa = 0 ∨ magnitude ≤ 308 then false
  else if 310 ≤ magnitude then true
  else if 0 ≤ exponent then doubleBound ≤ mantissa * Nat.pow 10 exponent.toNat
  else doubleBound * Nat.pow 10 (-exponent).toNat ≤ mantissa

end Declarative.Text
