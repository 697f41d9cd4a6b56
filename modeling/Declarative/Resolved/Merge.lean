import Declarative.Document.Builder
import Declarative.Resolved
import Declarative.Resolver

/-!
# Documents with the outcomes of a trace

Each part of a document gets what the trace has recorded of its origin. Where the trace has recorded nothing
that such a part could have resolved to, the part is not resolved, for want of a receiver. The schema is not
looked at again, and the shape of the document stays as it is.
-/

namespace Declarative

namespace Resolved

def elementResolution : Option Trace.Entry → ElementResolution
  | some (.element (.resolved (.added _ type f))) => .added type f
  | some (.element (.resolved (.configured _ type f))) => .configured type f
  | some (.element (.failed reasons)) => .failed reasons
  | _ => .failed (.single .unresolvedBase)

def propertyResolution : Option Trace.Entry → PropertyResolution
  | some (.assignment (.resolved target)) => .assigned target.receiver target.property
  | some (.assignment (.failed reasons)) => .failed reasons
  | _ => .failed (.single .unresolvedBase)

def literalResolution : Option Trace.Entry → LiteralResolution
  | some (.value (.resolved (.literal content _))) => .resolved content
  | some (.value (.failed reasons)) => .failed reasons
  | _ => .failed (.single .unresolvedBase)

def factoryResolution : Option Trace.Entry → FactoryResolution
  | some (.value (.resolved (.factory f))) => .resolved f
  | some (.value (.failed reasons)) => .failed reasons
  | _ => .failed (.single .unresolvedBase)

mutual

def Value.ofDocument (trace : Trace) : Document.Value → Value
  | .literal content origin =>
    .literal content origin (literalResolution (trace.get? origin.node))
  | .factory name values origin =>
    .factory name (Value.ofDocuments trace values) origin
      (factoryResolution (trace.get? origin.node))

def Value.ofDocuments (trace : Trace) : List Document.Value → List Value
  | [] => []
  | value :: values => Value.ofDocument trace value :: Value.ofDocuments trace values

end

mutual

def Node.ofDocument (trace : Trace) : Document.Node → Node
  | .element name values content origin =>
    .element name (Value.ofDocuments trace values) (Node.ofDocuments trace content) origin
      (elementResolution (trace.get? origin.node))
  | .property name value origin =>
    .property name (Value.ofDocument trace value) origin
      (propertyResolution (trace.get? origin.node))
  | .error message origin => .error message origin

def Node.ofDocuments (trace : Trace) : List Document.Node → List Node
  | [] => []
  | node :: nodes => Node.ofDocument trace node :: Node.ofDocuments trace nodes

end

end Resolved

/-- The document with the outcomes that a trace has recorded. -/
def Document.resolveWith (trace : Trace) (document : Document) : ResolvedDocument :=
  ⟨document.source, Resolved.Node.ofDocuments trace document.content⟩

def Script.resolvedDocument (schema : Schema) (settings : Settings) (script : Script) :
    ResolvedDocument :=
  (Document.ofScript script).resolveWith (script.resolve schema settings)

end Declarative
