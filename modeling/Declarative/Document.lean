import Declarative.Script

/-!
# Documents

A document is a script without its punctuation: elements with values and content, properties with a
value, and errors. Each node and each value remembers the number of the source node it comes from and
where that was written. Documents can be compared; two are equal if they agree in everything, spans
and origins included.
-/

namespace Declarative

namespace Document

/-- Where a part of a document comes from. -/
structure Origin where
  node : NodeId
  span : Span
  deriving DecidableEq, Repr

inductive Value where
  | literal (content : Literal) (origin : Origin)
  | factory (name : String) (values : List Value) (origin : Origin)
  deriving Repr

inductive Node where
  | element (name : String) (values : List Value) (content : List Node) (origin : Origin)
  | property (name : String) (value : Value) (origin : Origin)
  /-- What was no statement, with the reason why not. -/
  | error (message : String) (origin : Origin)
  deriving Repr

end Document

/-- The content of a source, called `source`. -/
structure Document where
  source : String
  content : List Document.Node
  deriving Repr

namespace Document

def Value.origin : Value → Origin
  | literal _ origin => origin
  | factory _ _ origin => origin

def Node.origin : Node → Origin
  | element _ _ _ origin => origin
  | property _ _ origin => origin
  | error _ origin => origin

mutual

/-- Equality of values is decided part by part. -/
def Value.decEq (a b : Value) : Decidable (a = b) :=
  match a, b with
  | .literal c o, .literal c' o' => decidable_of_iff (c = c' ∧ o = o') (by simp)
  | .factory n vs o, .factory n' vs' o' =>
    have := Value.decEqAll vs vs'
    decidable_of_iff (n = n' ∧ vs = vs' ∧ o = o') (by simp)
  | .literal _ _, .factory _ _ _ => isFalse (by simp)
  | .factory _ _ _, .literal _ _ => isFalse (by simp)

def Value.decEqAll (as bs : List Value) : Decidable (as = bs) :=
  match as, bs with
  | [], [] => isTrue rfl
  | a :: as, b :: bs =>
    have := Value.decEq a b
    have := Value.decEqAll as bs
    decidable_of_iff (a = b ∧ as = bs) (by simp)
  | [], _ :: _ => isFalse (by simp)
  | _ :: _, [] => isFalse (by simp)

end

instance : DecidableEq Value := Value.decEq

mutual

/-- Equality of nodes is decided part by part. -/
def Node.decEq (a b : Node) : Decidable (a = b) :=
  match a, b with
  | .element n vs ns o, .element n' vs' ns' o' =>
    have := Node.decEqAll ns ns'
    decidable_of_iff (n = n' ∧ vs = vs' ∧ ns = ns' ∧ o = o') (by simp)
  | .property n v o, .property n' v' o' =>
    decidable_of_iff (n = n' ∧ v = v' ∧ o = o') (by simp)
  | .error m o, .error m' o' => decidable_of_iff (m = m' ∧ o = o') (by simp)
  | .element .., .property .. => isFalse (by simp)
  | .element .., .error .. => isFalse (by simp)
  | .property .., .element .. => isFalse (by simp)
  | .property .., .error .. => isFalse (by simp)
  | .error .., .element .. => isFalse (by simp)
  | .error .., .property .. => isFalse (by simp)

def Node.decEqAll (as bs : List Node) : Decidable (as = bs) :=
  match as, bs with
  | [], [] => isTrue rfl
  | a :: as, b :: bs =>
    have := Node.decEq a b
    have := Node.decEqAll as bs
    decidable_of_iff (a = b ∧ as = bs) (by simp)
  | [], _ :: _ => isFalse (by simp)
  | _ :: _, [] => isFalse (by simp)

end

instance : DecidableEq Node := Node.decEq

instance : DecidableEq Document := fun a b =>
  decidable_of_iff (a.source = b.source ∧ a.content = b.content) (by
    cases a
    cases b
    simp)

end Document

end Declarative
