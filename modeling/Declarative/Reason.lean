/-!
# Reasons of failures

Why something in a script did not resolve. The reasons of one failure are kept in the order in which they
were found, each once.
-/

namespace Declarative

/-- Why a statement or a value did not resolve. -/
inductive Reason where
  /-- No function or property of this name fits, or more than one function fits equally well. -/
  | unresolvedSignature
  /-- The value is not of a type that the property accepts. -/
  | valueTypeMismatch
  /-- The member belongs to a receiver further out, and only the current receiver's may be used. -/
  | crossScopeAccess
  /-- The block around it belongs to a call that did not resolve itself. -/
  | unresolvedBase
  /-- It is an error already, or it depends on a value that did not resolve. -/
  | isError
  /-- The property cannot be assigned. -/
  | readOnlyProperty
  deriving DecidableEq, Repr

/-- The name by which tools know the reason. -/
def Reason.name : Reason → String
  | unresolvedSignature => "UnresolvedSignature"
  | valueTypeMismatch => "ValueTypeMismatch"
  | crossScopeAccess => "CrossScopeAccess"
  | unresolvedBase => "UnresolvedBase"
  | isError => "IsError"
  | readOnlyProperty => "ReadOnlyProperty"

/-- The reasons of one failure in the order of their discovery. -/
structure ReasonSet where
  toList : List Reason
  deriving DecidableEq, Repr

namespace ReasonSet

def empty : ReasonSet := ⟨[]⟩

def single (reason : Reason) : ReasonSet := ⟨[reason]⟩

def contains (set : ReasonSet) (reason : Reason) : Bool := reason ∈ set.toList

/-- The set with a reason more, which comes last if it is new. -/
def insert (set : ReasonSet) (reason : Reason) : ReasonSet :=
  if set.contains reason then set else ⟨set.toList ++ [reason]⟩

def ofList (reasons : List Reason) : ReasonSet := reasons.foldl insert empty

def isEmpty (set : ReasonSet) : Bool := set.toList.isEmpty

def size (set : ReasonSet) : Nat := set.toList.length

/-- The names of the reasons, with commas between them. -/
def display (set : ReasonSet) : String := ", ".intercalate (set.toList.map Reason.name)

theorem toList_insert (set : ReasonSet) (reason : Reason) :
    (set.insert reason).toList =
      if reason ∈ set.toList then set.toList else set.toList ++ [reason] := by
  by_cases h : reason ∈ set.toList <;> simp [insert, contains, h]

end ReasonSet

end Declarative
