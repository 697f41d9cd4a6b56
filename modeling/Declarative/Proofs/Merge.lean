import Declarative.Document.Printer
import Declarative.Resolved.Merge

/-!
# What merging keeps of a document

Merging a document with a trace copies its tree, and so does leaving the resolutions out
again; neither looks at the other. Whatever the trace has recorded, of this document's
script or of another one, the two copies undo each other: names, contents, order and spans
come back as they were.
-/

namespace Declarative

namespace Resolved

mutual

theorem Value.strip_ofDocument (trace : Trace) : ∀ value : Document.Value,
    (Value.ofDocument trace value).strip = value
  | .literal _ _ => rfl
  | .factory _ values _ => by
      rw [Value.ofDocument, Value.strip, Value.stripAll_ofDocuments trace values]

theorem Value.stripAll_ofDocuments (trace : Trace) : ∀ values : List Document.Value,
    Value.stripAll (Value.ofDocuments trace values) = values
  | [] => rfl
  | value :: values => by
      rw [Value.ofDocuments, Value.stripAll, Value.strip_ofDocument trace value,
        Value.stripAll_ofDocuments trace values]

end

mutual

theorem Node.strip_ofDocument (trace : Trace) : ∀ node : Document.Node,
    (Node.ofDocument trace node).strip = node
  | .element _ values content _ => by
      rw [Node.ofDocument, Node.strip, Value.stripAll_ofDocuments trace values,
        Node.stripAll_ofDocuments trace content]
  | .property _ value _ => by
      rw [Node.ofDocument, Node.strip, Value.strip_ofDocument trace value]
  | .error _ _ => rfl

theorem Node.stripAll_ofDocuments (trace : Trace) : ∀ nodes : List Document.Node,
    Node.stripAll (Node.ofDocuments trace nodes) = nodes
  | [] => rfl
  | node :: nodes => by
      rw [Node.ofDocuments, Node.stripAll, Node.strip_ofDocument trace node,
        Node.stripAll_ofDocuments trace nodes]

end

end Resolved

/-- **Merging is invertible.** Whatever a trace has recorded, a document comes back from
its merge with the trace, and is printed as before, with or without its spans. -/
theorem Document.strip_resolveWith (trace : Trace) (document : Document) :
    (document.resolveWith trace).strip = document
      ∧ ∀ withSpans, (document.resolveWith trace).strip.print withSpans = document.print withSpans := by
  have hstrip : (document.resolveWith trace).strip = document := by
    rw [Document.resolveWith, ResolvedDocument.strip,
      Resolved.Node.stripAll_ofDocuments trace document.content]
  refine ⟨hstrip, fun withSpans => ?_⟩
  rw [hstrip]

end Declarative
