/-!
# Edit distance

How many characters have to be inserted, left out or replaced to make one text of another. The distances
are computed row by row: a row holds the distance of every suffix of the first text, the longest first,
to one suffix of the second text.
-/

namespace Declarative.Text

/-- The row of `xs` to the empty text: every suffix is left out. -/
def emptyRow : List Char → List Nat
  | [] => [0]
  | x :: xs => (x :: xs).length :: emptyRow xs

/-- The row of `xs` to `y :: ys`, from its row to `ys`. -/
def nextRow (y : Char) : List Char → List Nat → List Nat
  | x :: xs, d :: row =>
    let rest := nextRow y xs row
    let leftOut := rest.headD 0 + 1
    let inserted := d + 1
    let replaced := row.headD 0 + (if x = y then 0 else 1)
    min leftOut (min inserted replaced) :: rest
  | _, row => [row.headD 0 + 1]

/-- The row of `xs` to `ys`. -/
def distanceRow (xs : List Char) : List Char → List Nat
  | [] => emptyRow xs
  | y :: ys => nextRow y xs (distanceRow xs ys)

/-- The edit distance of two texts, counted in characters. -/
def distance (a b : String) : Nat := (distanceRow a.toList b.toList).headD 0

end Declarative.Text
