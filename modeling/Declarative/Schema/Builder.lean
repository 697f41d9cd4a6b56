import Declarative.Schema

/-!
# Building schemas

A builder collects data classes; `build` checks them and files them. The checks come in a fixed order, and
the first that fails is the one reported: the names of the classes, the top-level receiver, then class by
class its supertypes, properties and functions, and last whether a class stands below itself.
-/

namespace Declarative.Schema

/-- What can be wrong with the declarations of a schema. -/
inductive Error where
  | missingTopLevel (name : String)
  | duplicateClass (name : String)
  | duplicateProperty (owner name : String)
  | duplicateOverload (owner signature : String)
  | unknownType (owner member type : String)
  | unknownSupertype (owner supertype : String)
  | supertypeCycle (name : String)
  | configuringReturnsValue (owner function configured : String)
  deriving DecidableEq, Repr

namespace Error

def message : Error → String
  | missingTopLevel name => "top-level receiver `" ++ name ++ "` is not declared"
  | duplicateClass name => "data class `" ++ name ++ "` is declared more than once"
  | duplicateProperty owner name =>
    "`" ++ owner ++ "` declares property `" ++ name ++ "` more than once"
  | duplicateOverload owner signature =>
    "`" ++ owner ++ "` declares function `" ++ signature ++ "` more than once"
  | unknownType owner member type =>
    "`" ++ owner ++ "." ++ member ++ "` refers to unknown type `" ++ type ++ "`"
  | unknownSupertype owner supertype =>
    "`" ++ owner ++ "` has unknown supertype `" ++ supertype ++ "`"
  | supertypeCycle name => "supertype cycle through `" ++ name ++ "`"
  | configuringReturnsValue owner function configured =>
    "`" ++ owner ++ "." ++ function ++ "` must return `Unit` because it configures `" ++
      configured ++ "`"

end Error

/-- The declarations of a schema before they are checked. -/
structure Builder where
  topLevel : String
  classes : List DataClass
  deriving DecidableEq, Repr

namespace Builder

def empty (topLevel : String) : Builder := ⟨topLevel, []⟩

def declare (b : Builder) (name : String) (members : List Member) : Builder :=
  { b with classes := b.classes ++ [DataClass.ofMembers name members] }

end Builder

/-- The first name that occurs a second time, at its second place. -/
def firstRepeated? (seen : List String) : List String → Option String
  | [] => none
  | name :: names =>
    if name ∈ seen then some name else firstRepeated? (name :: seen) names

namespace DataClass

/-- A property must not repeat a name and must have a type that is known. -/
def propertyError? (owner : String) (known : List String) (seen : List String) :
    List Property → Option Error
  | [] => none
  | p :: properties =>
    if p.name ∈ seen then
      some (.duplicateProperty owner p.name)
    else
      match p.type.className?.filter (· ∉ known) with
      | some type => some (.unknownType owner p.name type)
      | none => propertyError? owner known (p.name :: seen) properties

end DataClass

namespace Function

/-- The data classes that the declaration of a function refers to. -/
def references (f : Function) : List String :=
  (f.parameters ++ [f.returns]).filterMap DataType.className? ++ f.semantics.target?.toList

/-- What the function itself declares wrong. -/
def error? (owner : String) (known : List String) (f : Function) : Option Error :=
  match f.references.find? (· ∉ known), f.semantics with
  | some type, _ => some (.unknownType owner f.name type)
  | none, .configuring configured =>
    if f.returns = .unit then none
    else some (.configuringReturnsValue owner f.name configured)
  | none, _ => none

end Function

namespace DataClass

/-- A function must be right by itself and must differ from those before it in its name or in the types of
its parameters. -/
def functionError? (owner : String) (known : List String) (seen : List (String × List DataType)) :
    List Function → Option Error
  | [] => none
  | f :: functions =>
    match f.error? owner known with
    | some error => some error
    | none =>
      if (f.name, f.parameters) ∈ seen then
        some (.duplicateOverload owner f.signature)
      else
        functionError? owner known ((f.name, f.parameters) :: seen) functions

/-- The first thing wrong with a class, where the names of all classes are known. -/
def error? (known : List String) (c : DataClass) : Option Error :=
  match c.supertypes.find? (· ∉ known) with
  | some supertype => some (.unknownSupertype c.name supertype)
  | none =>
    match propertyError? c.name known [] c.properties with
    | some error => some error
    | none => functionError? c.name known [] c.functions

end DataClass

def directSupertypes (classes : List DataClass) (name : String) : List String :=
  match classes.find? (·.name == name) with
  | some c => c.supertypes
  | none => []

/-- Takes up the names that are pending one by one, the one that came last first. A name that is new is
reached, and what is declared as its supertypes is pending from then on. There is no answer as soon as the
class `name` itself is met. -/
def search? (direct : String → List String) (name : String) :
    (steps : Nat) → (reached pending : List String) → Option (List String)
  | _, reached, [] => some reached
  | 0, reached, _ :: _ => some reached
  | steps + 1, reached, next :: pending =>
    if next = name then
      none
    else if next ∈ reached then
      search? direct name steps reached pending
    else
      search? direct name steps (reached ++ [next]) ((direct next).reverse ++ pending)

/-- All classes that a class stands below, unless it stands below itself. No class is gone through twice,
so no more names are ever taken up than supertypes are declared. -/
def allSupertypes? (classes : List DataClass) (c : DataClass) : Option (List String) :=
  search? (directSupertypes classes) c.name (classes.flatMap (·.supertypes)).length []
    c.supertypes.reverse

/-- The first thing wrong with the classes of a schema. -/
def Builder.error? (b : Builder) : Option Error :=
  let known := b.classes.map (·.name)
  match firstRepeated? [] known with
  | some name => some (.duplicateClass name)
  | none =>
    if b.topLevel ∉ known then
      some (.missingTopLevel b.topLevel)
    else
      match b.classes.findSome? (DataClass.error? known) with
      | some error => some error
      | none =>
        (b.classes.find? fun c => (allSupertypes? b.classes c).isNone).map (.supertypeCycle ·.name)

/-- The schema of the declarations, if nothing is wrong with them. -/
def Builder.build (b : Builder) : Except Error Schema :=
  match b.error? with
  | some error => .error error
  | none => .ok (ofClasses b.topLevel b.classes
      (b.classes.map fun c => (c.name, (allSupertypes? b.classes c).getD [])))

end Declarative.Schema
