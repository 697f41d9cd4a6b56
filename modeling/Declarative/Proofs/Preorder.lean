import Declarative.Script

/-!
# The preorder of a script

The statements and values of a script in the order in which they are written: a node
before its values, these from left to right, and then the statements of its block. Every
walk over scripts is compared with this order. Blocks have numbers too, but nothing is
recorded of them, so they are no nodes here.
-/

namespace Declarative

/-- A statement or a value of a script. -/
inductive Script.Node where
  | statement (statement : Statement)
  | value (value : Value)

namespace Script.Node

def id : Node → NodeId
  | statement s => s.id
  | value v => v.id

def span : Node → Span
  | statement s => s.span
  | value v => v.span

/-- The name of what is called or assigned, where it is written. -/
def written? : Node → Option Name
  | statement (.call _ _ name _ _) => some name
  | statement (.assign _ _ target _) => some target
  | statement (.error ..) => none
  | value (.literal ..) => none
  | value (.factory _ _ name _) => some name

end Script.Node

namespace Value

mutual

/-- The value and what is inside of it: a factory before its arguments. -/
def preorder : Value → List Script.Node
  | literal id span content => [.value (literal id span content)]
  | factory id span name arguments =>
    .value (factory id span name arguments) :: preorderAll arguments

def preorderAll : List Value → List Script.Node
  | [] => []
  | value :: values => preorder value ++ preorderAll values

end

end Value

namespace Statement

mutual

/-- The statement and what is inside of it: a statement before its values, these before
its block. -/
def preorder : Statement → List Script.Node
  | call id span name arguments body =>
    .statement (call id span name arguments body) ::
      (Value.preorderAll arguments ++ preorderBody body)
  | assign id span target value => .statement (assign id span target value) :: value.preorder
  | error id span message => [.statement (error id span message)]

def preorderBody : Body → List Script.Node
  | .absent => []
  | .block _ _ statements => preorderAll statements

def preorderAll : List Statement → List Script.Node
  | [] => []
  | statement :: statements => preorder statement ++ preorderAll statements

end

end Statement

/-- The statements and values of a script in the order in which they are written. -/
def Script.preorder (script : Script) : List Script.Node := Statement.preorderAll script.statements

def Script.nodeIds (script : Script) : List NodeId := script.preorder.map Script.Node.id

/-! ## The preorder is as long as the nodes are many -/

mutual

theorem Value.length_preorder : ∀ value : Value, value.preorder.length = value.nodeCount
  | .literal _ _ _ => rfl
  | .factory _ _ _ arguments => by
      rw [Value.preorder, Value.nodeCount, List.length_cons, Value.length_preorderAll arguments,
        Nat.add_comm]

theorem Value.length_preorderAll : ∀ values : List Value,
    (Value.preorderAll values).length = Value.nodeCountAll values
  | [] => rfl
  | value :: values => by
      rw [Value.preorderAll, Value.nodeCountAll, List.length_append, Value.length_preorder value,
        Value.length_preorderAll values]

end

mutual

theorem Statement.length_preorder : ∀ s : Statement, s.preorder.length = s.nodeCount
  | .call _ _ _ arguments body => by
      rw [Statement.preorder, Statement.nodeCount, List.length_cons, List.length_append,
        Value.length_preorderAll arguments, Statement.length_preorderBody body, Nat.add_comm]
  | .assign _ _ _ value => by
      rw [Statement.preorder, Statement.nodeCount, List.length_cons, value.length_preorder,
        Nat.add_comm]
  | .error _ _ _ => rfl

theorem Statement.length_preorderBody : ∀ body : Body,
    (Statement.preorderBody body).length = Statement.nodeCountBody body
  | .absent => rfl
  | .block _ _ statements => Statement.length_preorderAll statements

theorem Statement.length_preorderAll : ∀ statements : List Statement,
    (Statement.preorderAll statements).length = Statement.nodeCountAll statements
  | [] => rfl
  | s :: statements => by
      rw [Statement.preorderAll, Statement.nodeCountAll, List.length_append,
        Statement.length_preorder s, Statement.length_preorderAll statements]

end

end Declarative
