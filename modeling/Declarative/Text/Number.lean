/-!
# Numbers in texts

What digits denote, and which numbers are those of characters.
-/

namespace Declarative.Text

/-- The number that decimal digits denote; underscores are passed over. -/
def magnitude (cs : List Char) : Nat :=
  (cs.filter (· != '_')).foldl (fun n c => 10 * n + (c.toNat - '0'.toNat)) 0

/-- What a hexadecimal digit denotes, upper and lower case alike. -/
def hexDigit? (c : Char) : Option Nat :=
  if c.isDigit then some (c.toNat - '0'.toNat)
  else if 'a' ≤ c ∧ c ≤ 'f' then some (c.toNat - 'a'.toNat + 10)
  else if 'A' ≤ c ∧ c ≤ 'F' then some (c.toNat - 'A'.toNat + 10)
  else none

def hexadecimal? (digits : List Char) : Option Nat := do
  let values ← digits.mapM hexDigit?
  return values.foldl (fun n digit => 16 * n + digit) 0

/-- The character with this number; there is none for surrogates and past the last plane. -/
def charOfNumber? (n : Nat) : Option Char :=
  if n.isValidChar then some (Char.ofNat n) else none

end Declarative.Text
