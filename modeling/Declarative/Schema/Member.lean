/-!
# Members of data classes

The types of a schema, and what a data class can declare: properties that scripts assign, and functions
that scripts call. A function adds an element, configures a nested one, or makes a value.
-/

namespace Declarative

inductive DataType where
  | string
  | int
  | long
  | boolean
  | unit
  /-- The type of the literal `null`, which nothing accepts. -/
  | null
  /-- A data class. The name is not looked at: a class that is called like a built-in type is another
  type than that. -/
  | named (name : String)
  deriving DecidableEq, Repr

namespace DataType

/-- The type that a text names: a built-in type, otherwise a data class. -/
def ofText : String → DataType
  | "String" => string
  | "Int" => int
  | "Long" => long
  | "Boolean" => boolean
  | "Unit" => unit
  | "Null" => null
  | name => named name

def display : DataType → String
  | string => "String"
  | int => "Int"
  | long => "Long"
  | boolean => "Boolean"
  | unit => "Unit"
  | null => "Null"
  | named name => name

def className? : DataType → Option String
  | named name => some name
  | _ => none

theorem display_ofText (text : String) : (ofText text).display = text := by
  unfold ofText
  split <;> rfl

end DataType

namespace Schema

/-- Whether a call may be followed by a block. -/
inductive BlockRule where
  | notAllowed
  | allowed
  | required
  deriving DecidableEq, Repr, Inhabited

/-- Whether a call with a block, or without one, is as the rule wants it. -/
def BlockRule.accepts (rule : BlockRule) (hasBlock : Bool) : Bool :=
  match rule with
  | notAllowed => !hasBlock
  | allowed => true
  | required => hasBlock

/-- What calling a function does. -/
inductive Semantics where
  /-- The call adds an element; a block configures that element. -/
  | adding (produced : String) (block : BlockRule)
  /-- The call's block configures an element that is there already. -/
  | configuring (configured : String)
  /-- The call makes a value and stands only where a value is wanted. -/
  | plain
  deriving DecidableEq, Repr

namespace Semantics

/-- Whether a call of such a function is a statement, not a value. -/
def isElement : Semantics → Bool
  | adding _ _ | configuring _ => true
  | plain => false

/-- The data class that a block of the call configures. -/
def target? : Semantics → Option String
  | adding produced _ => some produced
  | configuring configured => some configured
  | plain => none

/-- The word for such a function in messages. -/
def label : Semantics → String
  | adding _ _ => "element"
  | configuring _ => "configure"
  | plain => "factory"

end Semantics

/-- A function of the data class `receiver`. -/
structure Function where
  receiver : String
  name : String
  parameters : List DataType
  returns : DataType
  semantics : Semantics
  deriving DecidableEq, Repr

namespace Function

/-- Name, parameter types and result, as in `name(Int, String): Unit`. -/
def signature (f : Function) : String :=
  f.name ++ "(" ++ ", ".intercalate (f.parameters.map DataType.display) ++ "): " ++ f.returns.display

/-- The signature behind the receiver's name. -/
def display (f : Function) : String := f.receiver ++ "." ++ f.signature

end Function

/-- A property of the data class `owner`. -/
structure Property where
  owner : String
  name : String
  type : DataType
  /-- A hidden property can be assigned but is never suggested. -/
  hidden : Bool
  readOnly : Bool
  deriving DecidableEq, Repr

/-- Owner, name and type, as in `Owner.name: Int`. -/
def Property.display (p : Property) : String :=
  p.owner ++ "." ++ p.name ++ ": " ++ p.type.display

end Schema

end Declarative
