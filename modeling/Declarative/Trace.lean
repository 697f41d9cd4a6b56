import Declarative.Reason
import Declarative.Schema
import Declarative.Script

/-!
# Traces

What became of each statement and each value of a script: what it resolved to, or why it did not. Nodes are
known by their numbers. A trace lists its nodes in the order of the script, a node before what is inside of
it. Should a number occur twice, what was recorded last counts for all its places.
-/

namespace Declarative

/-- What a statement or value resolved to, or why it did not. -/
inductive Outcome (α : Type) where
  | resolved (target : α)
  | failed (reasons : ReasonSet)
  deriving DecidableEq, Repr

namespace Outcome

variable {α : Type}

def reasons? : Outcome α → Option ReasonSet
  | resolved _ => none
  | failed reasons => some reasons

def target? : Outcome α → Option α
  | resolved target => some target
  | failed _ => none

end Outcome

/-- What a call statement resolved to. -/
inductive ElementTarget where
  /-- It adds an element of the class `type`. -/
  | added (receiver type : String) (function : Schema.Function)
  /-- It configures the element of the class `type` that is there. -/
  | configured (receiver type : String) (function : Schema.Function)
  deriving DecidableEq, Repr

namespace ElementTarget

/-- What a call of the function, found on a receiver, resolves to; nothing for a function that makes a
value. -/
def ofFunction? (receiver : String) (function : Schema.Function) : Option ElementTarget :=
  match function.semantics with
  | .adding type _ => some (added receiver type function)
  | .configuring type => some (configured receiver type function)
  | .plain => none

/-- The receiver of the statements in the call's block. -/
def blockReceiver : ElementTarget → String
  | added _ type _ => type
  | configured _ type _ => type

/-- The receiver on which the function was found. -/
def receiver : ElementTarget → String
  | added receiver _ _ => receiver
  | configured receiver _ _ => receiver

def function : ElementTarget → Schema.Function
  | added _ _ function => function
  | configured _ _ function => function

end ElementTarget

structure AssignmentTarget where
  receiver : String
  property : Schema.Property
  deriving DecidableEq, Repr

inductive ValueTarget where
  | literal (content : Literal) (type : DataType)
  | factory (function : Schema.Function)
  deriving DecidableEq, Repr

def ValueTarget.type : ValueTarget → DataType
  | literal _ type => type
  | factory function => function.returns

namespace Trace

/-- What is recorded of one node. -/
inductive Entry where
  | element (outcome : Outcome ElementTarget)
  | assignment (outcome : Outcome AssignmentTarget)
  | value (outcome : Outcome ValueTarget)
  deriving DecidableEq, Repr

namespace Entry

def reasons? : Entry → Option ReasonSet
  | element outcome => outcome.reasons?
  | assignment outcome => outcome.reasons?
  | value outcome => outcome.reasons?

def isFailure (entry : Entry) : Bool := entry.reasons?.isSome

end Entry

end Trace

/-- The outcomes of the nodes of a script. -/
structure Trace where
  /-- The nodes in the order of the script. -/
  order : List NodeId
  /-- The outcomes in the order in which they became known. -/
  records : List (NodeId × Trace.Entry)
  deriving DecidableEq, Repr

namespace Trace

def empty : Trace := ⟨[], []⟩

/-- The outcomes of some nodes and then of others. -/
def append (a b : Trace) : Trace := ⟨a.order ++ b.order, a.records ++ b.records⟩

instance : Append Trace := ⟨append⟩

/-- Gives a node its place in the order before its outcome is known. -/
def reserve (id : NodeId) : Trace := ⟨[id], []⟩

/-- The outcome of a node that has its place already. -/
def record (id : NodeId) (entry : Entry) : Trace := ⟨[], [(id, entry)]⟩

/-- What was recorded last of a node. -/
def get? (trace : Trace) (id : NodeId) : Option Entry :=
  (trace.records.findRev? (·.1 == id)).map (·.2)

/-- The nodes with their outcomes in the order of the script. -/
def toList (trace : Trace) : List (NodeId × Entry) :=
  trace.order.filterMap fun id => (trace.get? id).map (id, ·)

/-- The nodes of which something is recorded, each once. -/
def recorded (trace : Trace) : List NodeId := (trace.records.map (·.1)).eraseDups

/-- How many nodes have an outcome. -/
def size (trace : Trace) : Nat := trace.recorded.length

def isEmpty (trace : Trace) : Bool := trace.records.isEmpty

/-- How many nodes did not resolve. -/
def failureCount (trace : Trace) : Nat :=
  trace.recorded.countP fun id => (trace.get? id).any Entry.isFailure

@[simp] theorem order_append (a b : Trace) : (a ++ b).order = a.order ++ b.order := rfl

@[simp] theorem records_append (a b : Trace) : (a ++ b).records = a.records ++ b.records := rfl

theorem append_assoc (a b c : Trace) : a ++ b ++ c = a ++ (b ++ c) :=
  (Trace.mk.injEq ..).mpr ⟨List.append_assoc .., List.append_assoc ..⟩

end Trace

end Declarative
