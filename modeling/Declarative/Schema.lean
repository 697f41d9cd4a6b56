import Declarative.Schema.DataClass
import Declarative.Schema.Index

/-!
# Schemas

A schema says which data classes there are, what can be called and assigned in a block of each, and which
class stands for which others. Members are found by receiver and name.
-/

namespace Declarative

/-- The data classes with their members, filed for looking up. -/
structure Schema where
  /-- The receiver of the statements outside of all blocks. -/
  topLevel : String
  /-- The classes in the order of their declaration. -/
  classes : List Schema.DataClass
  classIndex : Schema.Index Schema.DataClass
  /-- The functions of a receiver by their name, overloads in the order of their declaration. -/
  functionIndex : Schema.Index (Schema.Index (List Schema.Function))
  propertyIndex : Schema.Index (Schema.Index Schema.Property)
  /-- All supertypes of each class, also those of its supertypes, but not the class itself. -/
  supertypeIndex : Schema.Index (List String)
  deriving DecidableEq, Repr

namespace Schema

/-- Files the functions of a class by name, each behind those that are there already. -/
def DataClass.fileFunctions (c : DataClass) (index : Index (List Function)) : Index (List Function) :=
  c.functions.foldl (fun index f => index.alter f.name fun known => known.getD [] ++ [f]) index

def DataClass.fileProperties (c : DataClass) (index : Index Property) : Index Property :=
  c.properties.foldl (fun index p => index.insert p.name p) index

/-- Files the members of all classes. What classes of one name declare comes together. -/
def ofClasses (topLevel : String) (classes : List DataClass) (supertypes : Index (List String)) :
    Schema where
  topLevel := topLevel
  classes := classes
  classIndex := classes.foldl (fun index c => index.insert c.name c) []
  functionIndex := classes.foldl
    (fun index c => index.alter c.name fun known => c.fileFunctions (known.getD [])) []
  propertyIndex := classes.foldl
    (fun index c => index.alter c.name fun known => c.fileProperties (known.getD [])) []
  supertypeIndex := supertypes

def dataClass? (s : Schema) (name : String) : Option DataClass := s.classIndex.get? name

/-- The functions of this name that a receiver declares, in the order of their declaration. -/
def functionsNamed (s : Schema) (receiver name : String) : List Function :=
  ((s.functionIndex.get? receiver).bind (·.get? name)).getD []

def property? (s : Schema) (receiver name : String) : Option Property :=
  (s.propertyIndex.get? receiver).bind (·.get? name)

/-- The properties of a receiver that an author may be told about. -/
def visibleProperties (s : Schema) (receiver : String) : List Property :=
  match s.dataClass? receiver with
  | some c => c.properties.filter (!·.hidden)
  | none => []

/-- Adds the names that are new, each once and at the end. -/
def addNew (seen names : List String) : List String :=
  names.foldl (fun seen name => if name ∈ seen then seen else seen ++ [name]) seen

/-- The names of the functions of a receiver, each once. -/
def functionNames (s : Schema) (receiver : String) : List String :=
  match s.dataClass? receiver with
  | some c => addNew [] (c.functions.map (·.name))
  | none => []

/-- Whether an element of the class `a` is one of the class `b`. -/
def isSubtype (s : Schema) (a b : String) : Bool :=
  a == b || ((s.supertypeIndex.get? a).getD []).contains b

/-- Whether a value of the type `given` can stand where the type `wanted` is declared. -/
def isAssignable (s : Schema) (given wanted : DataType) : Bool :=
  match given, wanted with
  | .null, _ => false
  | .int, .long => true
  | .named a, .named b => s.isSubtype a b
  | given, wanted => given == wanted

end Schema

end Declarative
