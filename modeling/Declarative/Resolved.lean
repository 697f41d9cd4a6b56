import Declarative.Document
import Declarative.Trace

/-!
# Resolved documents

A resolved document is a document in which every node and every value carries what it resolved to, or why
it did not. Leaving the resolutions out gives the document back; going through it depth first gives the
resolutions in the order of the script.
-/

namespace Declarative

inductive ElementResolution where
  | added (type : String) (function : Schema.Function)
  | configured (type : String) (function : Schema.Function)
  | failed (reasons : ReasonSet)
  deriving DecidableEq, Repr

inductive PropertyResolution where
  | assigned (receiver : String) (property : Schema.Property)
  | failed (reasons : ReasonSet)
  deriving DecidableEq, Repr

inductive LiteralResolution where
  | resolved (content : Literal)
  | failed (reasons : ReasonSet)
  deriving DecidableEq, Repr

inductive FactoryResolution where
  | resolved (function : Schema.Function)
  | failed (reasons : ReasonSet)
  deriving DecidableEq, Repr

/-- What any part of a document resolved to. Errors of the script are failures without reasons. -/
inductive Resolution where
  | element (resolution : ElementResolution)
  | property (resolution : PropertyResolution)
  | literal (resolution : LiteralResolution)
  | factory (resolution : FactoryResolution)
  | error
  deriving DecidableEq, Repr

namespace Resolution

/-- The name by which tools know the outcome. -/
def name : Resolution → String
  | element (.added _ _) => "ContainerElementResolved"
  | element (.configured _ _) => "PropertyConfiguringElementResolved"
  | element (.failed _) => "ElementNotResolved"
  | property (.assigned _ _) => "PropertyAssignmentResolved"
  | property (.failed _) => "PropertyNotAssigned"
  | literal (.resolved _) => "LiteralValueResolved"
  | literal (.failed _) => "LiteralValueNotResolved"
  | factory (.resolved _) => "ValueFactoryResolved"
  | factory (.failed _) => "ValueFactoryNotResolved"
  | error => "ErrorResolution"

def reasons? : Resolution → Option ReasonSet
  | element (.failed reasons) => some reasons
  | property (.failed reasons) => some reasons
  | literal (.failed reasons) => some reasons
  | factory (.failed reasons) => some reasons
  | _ => none

def isFailure (resolution : Resolution) : Bool :=
  resolution == error || resolution.reasons?.isSome

end Resolution

namespace Resolved

inductive Value where
  | literal (content : Literal) (origin : Document.Origin) (resolution : LiteralResolution)
  | factory (name : String) (values : List Value) (origin : Document.Origin)
      (resolution : FactoryResolution)
  deriving Repr

inductive Node where
  | element (name : String) (values : List Value) (content : List Node)
      (origin : Document.Origin) (resolution : ElementResolution)
  | property (name : String) (value : Value) (origin : Document.Origin)
      (resolution : PropertyResolution)
  | error (message : String) (origin : Document.Origin)
  deriving Repr

end Resolved

/-- A document in which everything carries its resolution. -/
structure ResolvedDocument where
  source : String
  content : List Resolved.Node
  deriving Repr

namespace Resolved

mutual

def Value.strip : Value → Document.Value
  | .literal content origin _ => .literal content origin
  | .factory name values origin _ => .factory name (Value.stripAll values) origin

def Value.stripAll : List Value → List Document.Value
  | [] => []
  | value :: values => Value.strip value :: Value.stripAll values

end

mutual

def Node.strip : Node → Document.Node
  | .element name values content origin _ =>
    .element name (Value.stripAll values) (Node.stripAll content) origin
  | .property name value origin _ => .property name value.strip origin
  | .error message origin => .error message origin

def Node.stripAll : List Node → List Document.Node
  | [] => []
  | node :: nodes => Node.strip node :: Node.stripAll nodes

end

/-- A part of a document and what it resolved to. -/
abbrev Part := Document.Origin × Resolution

mutual

/-- The value and what is inside of it: a factory before its arguments. -/
def Value.flatten : Value → List Part
  | .literal _ origin resolution => [(origin, .literal resolution)]
  | .factory _ values origin resolution =>
    (origin, .factory resolution) :: Value.flattenAll values

def Value.flattenAll : List Value → List Part
  | [] => []
  | value :: values => Value.flatten value ++ Value.flattenAll values

end

mutual

/-- The node and what is inside of it: a node before its values, these before its content. -/
def Node.flatten : Node → List Part
  | .element _ values content origin resolution =>
    (origin, .element resolution) :: (Value.flattenAll values ++ Node.flattenAll content)
  | .property _ value origin resolution => (origin, .property resolution) :: value.flatten
  | .error _ origin => [(origin, .error)]

def Node.flattenAll : List Node → List Part
  | [] => []
  | node :: nodes => Node.flatten node ++ Node.flattenAll nodes

end

end Resolved

namespace ResolvedDocument

def strip (document : ResolvedDocument) : Document :=
  ⟨document.source, Resolved.Node.stripAll document.content⟩

/-- All parts of the document in the order of the script. -/
def flatten (document : ResolvedDocument) : List Resolved.Part :=
  Resolved.Node.flattenAll document.content

def failures (document : ResolvedDocument) : List Resolved.Part :=
  document.flatten.filter (·.2.isFailure)

def hasFailures (document : ResolvedDocument) : Bool := document.flatten.any (·.2.isFailure)

end ResolvedDocument

end Declarative
