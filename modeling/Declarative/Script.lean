import Declarative.Source.Span

/-!
# Scripts

A script is a list of statements: calls with values and perhaps a block, assignments, and the places
where no statement could be made out. Every statement, value and block has a number of its own by which
later stages speak about it, and the span of text it was read from.
-/

namespace Declarative

/-- The number of a statement, value or block in its script. There is no end to the numbers here, where 32
bits hold those in use; a script has no more of them than it has tokens
(`Script.nextId_afterTokens_le`). -/
structure NodeId where
  index : Nat
  deriving DecidableEq, Repr, Inhabited

/-- The written form, a number sign and the number. -/
def NodeId.display (id : NodeId) : String := "\x23" ++ toString id.index

/-- A name and where it is written. -/
structure Name where
  text : String
  span : Span
  deriving DecidableEq, Repr

inductive Literal where
  | string (value : String)
  | int (value : Int64)
  | long (value : Int64)
  | bool (value : Bool)
  | null
  deriving DecidableEq, Repr

namespace Literal

/-- The value as text: strings without quotes, long numbers with their mark. -/
def display : Literal → String
  | string value => value
  | int value => toString value.toInt
  | long value => toString value.toInt ++ "L"
  | bool value => if value then "true" else "false"
  | null => "null"

end Literal

/-- What stands on the right of an assignment or between the parentheses of a call. -/
inductive Value where
  | literal (id : NodeId) (span : Span) (content : Literal)
  /-- A call of a function that makes the value. -/
  | factory (id : NodeId) (span : Span) (name : Name) (arguments : List Value)
  deriving Repr

mutual

inductive Statement where
  | call (id : NodeId) (span : Span) (name : Name) (arguments : List Value) (body : Body)
  | assign (id : NodeId) (span : Span) (target : Name) (value : Value)
  /-- A piece of the script that is no statement, with the reason why not. -/
  | error (id : NodeId) (span : Span) (message : String)

/-- What follows the name and the arguments of a call. -/
inductive Body where
  | absent
  | block (id : NodeId) (span : Span) (statements : List Statement)

end

namespace Value

def id : Value → NodeId
  | literal id _ _ => id
  | factory id _ _ _ => id

def span : Value → Span
  | literal _ span _ => span
  | factory _ span _ _ => span

mutual

/-- How many values there are in the value, with itself. -/
def nodeCount : Value → Nat
  | literal _ _ _ => 1
  | factory _ _ _ arguments => 1 + nodeCountAll arguments

def nodeCountAll : List Value → Nat
  | [] => 0
  | value :: values => nodeCount value + nodeCountAll values

end

end Value

namespace Statement

def id : Statement → NodeId
  | call id _ _ _ _ => id
  | assign id _ _ _ => id
  | error id _ _ => id

def span : Statement → Span
  | call _ span _ _ _ => span
  | assign _ span _ _ => span
  | error _ span _ => span

mutual

/-- How many statements and values there are in the statement, with itself; a block counts for nothing
but the statements in it. -/
def nodeCount : Statement → Nat
  | call _ _ _ arguments body => 1 + (Value.nodeCountAll arguments + nodeCountBody body)
  | assign _ _ _ value => 1 + value.nodeCount
  | error _ _ _ => 1

def nodeCountBody : Body → Nat
  | .absent => 0
  | .block _ _ statements => nodeCountAll statements

def nodeCountAll : List Statement → Nat
  | [] => 0
  | statement :: statements => nodeCount statement + nodeCountAll statements

end

end Statement

namespace Body

/-- Whether a block is there at all, even an empty one. -/
def isPresent : Body → Bool
  | absent => false
  | block _ _ _ => true

/-- The statements of the block; none where there is no block. -/
def statements : Body → List Statement
  | absent => []
  | block _ _ statements => statements

end Body

structure Script where
  /-- What the text is called, usually the name of its file. -/
  source : String
  statements : List Statement
  span : Span

end Declarative
