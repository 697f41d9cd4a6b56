import Declarative.Schema.Member

/-!
# Data classes

A data class is declared member by member. Members of the same kind keep the order of their
declaration; how the kinds are mixed has no effect.
-/

namespace Declarative.Schema

/-- A receiver: what a block can configure. -/
structure DataClass where
  name : String
  supertypes : List String
  properties : List Property
  functions : List Function
  deriving DecidableEq, Repr

/-- One declaration in a data class. -/
inductive Member where
  | supertype (name : String)
  | property (name : String) (type : DataType) (hidden readOnly : Bool)
  | function (name : String) (parameters : List DataType) (returns : DataType)
      (semantics : Semantics)
  deriving DecidableEq, Repr

namespace Member

/-- A function that adds an element of the class `produced` and returns it. -/
def adding (name : String) (parameters : List DataType) (produced : String) (block : BlockRule) :
    Member :=
  function name parameters (.named produced) (.adding produced block)

/-- A function whose block configures an element of the class `configured`. -/
def configuring (name configured : String) : Member :=
  function name [] .unit (.configuring configured)

def factory (name : String) (parameters : List DataType) (returns : DataType) : Member :=
  function name parameters returns .plain

end Member

namespace DataClass

def empty (name : String) : DataClass := ⟨name, [], [], []⟩

def declare (c : DataClass) : Member → DataClass
  | .supertype name => { c with supertypes := c.supertypes ++ [name] }
  | .property name type hidden readOnly =>
    { c with properties := c.properties ++ [⟨c.name, name, type, hidden, readOnly⟩] }
  | .function name parameters returns semantics =>
    { c with functions := c.functions ++ [⟨c.name, name, parameters, returns, semantics⟩] }

def ofMembers (name : String) (members : List Member) : DataClass :=
  members.foldl declare (empty name)

end DataClass

end Declarative.Schema
