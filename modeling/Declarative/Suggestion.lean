import Declarative.Text.Distance
import Declarative.Text.Utf8

/-!
# Names that were perhaps meant

For a name that is not known, the known name that is nearest to it, if it is near enough: the longer the
name, the more it may differ.
-/

namespace Declarative.Suggestion

/-- How far away a candidate may be, by the length of the name in bytes. -/
def allowance (name : String) : Nat :=
  let n := Text.width name.toList
  if n ≤ 2 then 1 else if n ≤ 5 then 2 else 3

/-- Whether the lengths alone leave open that the candidate is near enough. -/
def isPlausible (name candidate : String) : Bool :=
  let n := Text.width name.toList
  let m := Text.width candidate.toList
  n - m ≤ allowance name && m - n ≤ allowance name

/-- The better of the best candidate so far and the next one, each with its distance; on a draw the
former stays. -/
def better (name : String) (best : Option (String × Nat)) (candidate : String) :
    Option (String × Nat) :=
  if isPlausible name candidate then
    let d := Text.distance name candidate
    if d ≤ allowance name ∧ best.all (d < ·.2) then some (candidate, d) else best
  else
    best

/-- The candidate nearest to the name, if one is near enough; the first of several. -/
def closest? (name : String) (candidates : List String) : Option String :=
  (candidates.foldl (better name) none).map (·.1)

def question (candidate : String) : String := "did you mean `" ++ candidate ++ "`?"

end Declarative.Suggestion
