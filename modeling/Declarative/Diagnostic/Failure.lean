import Declarative.Diagnostic
import Declarative.Diagnostic.Code
import Declarative.Resolved
import Declarative.Suggestion

/-!
# Diagnostics of failures

Why parts of a document did not resolve, as diagnostics for its author. Only what failed for the sole reason
that something around it did is a note; everything else is an error. Where a name is not known on the receiver
of its block, a name that is known there is suggested, or the members of the receiver are listed.

Errors of the script are passed over, because they were reported when it was read.
-/

namespace Declarative.Resolved

open Diagnostic

/-- The remark on the place of a failure for a reason. -/
def reasonLabel : Reason → String
  | .unresolvedSignature => "no matching signature"
  | .valueTypeMismatch => "value has the wrong type"
  | .crossScopeAccess => "not a member of the current receiver"
  | .unresolvedBase => "enclosing element did not resolve"
  | .isError => "value did not resolve"
  | .readOnlyProperty => "read-only"

def failureLabel (reasons : ReasonSet) : String :=
  "; ".intercalate (reasons.toList.map reasonLabel)

/-- The name at the start of a part, which reaches no further than the part itself. A part need not be long
enough for its name; offsets are numbers of 64 bits, and behind the greatest one comes zero. -/
def nameSpan (span : Span) (name : String) : Span :=
  let stop := span.start + Text.width name.toList
  let limit := max span.stop span.start
  ⟨span.start, if stop ≤ limit then stop else min (stop % Nat.pow 2 64) limit⟩

/-- A failure with the code of its first reason. -/
def failureDiagnostic (reasons : ReasonSet) (message : String) : Diagnostic :=
  let severity := if reasons.toList.all (· == .unresolvedBase) then .note else .error
  (Diagnostic.new severity message).withCode
    (reasonCode (reasons.toList.headD .unresolvedBase))

/-- Help for a call that does not fit: the signatures of the functions of its name that the receiver has
for its place, or else a name like it. -/
def functionHelp (schema : Schema) (receiver : Option String) (isElement : Bool) (name : String)
    (span : Span) (d : Diagnostic) : Diagnostic :=
  match receiver with
  | none => d
  | some receiver =>
    match (schema.functionsNamed receiver name).filter (·.semantics.isElement == isElement) with
    | [] =>
      match Suggestion.closest? name (schema.functionNames receiver) with
      | some closest => (d.withHelp (Suggestion.question closest)).withReplacement span closest
      | none => d
    | overloads =>
      d.withHelp ("available signatures: " ++
        "; ".intercalate (overloads.map Schema.Function.signature))

def factoryDiagnostic (schema : Schema) (receiver : Option String) (name : String) (span : Span)
    (reasons : ReasonSet) : Diagnostic :=
  let place := nameSpan span name
  let d := (failureDiagnostic reasons ("cannot resolve value factory `" ++ name ++ "`")).withPrimary
    place (failureLabel reasons)
  if reasons.contains .unresolvedSignature then functionHelp schema receiver false name place d else d

def elementDiagnostic (schema : Schema) (receiver : Option String) (name : String) (span : Span)
    (reasons : ReasonSet) : Diagnostic :=
  let place := nameSpan span name
  let d := (failureDiagnostic reasons ("cannot resolve element `" ++ name ++ "`")).withPrimary
    place (failureLabel reasons)
  let d :=
    if reasons.contains .unresolvedSignature then functionHelp schema receiver true name place d
    else d
  if reasons.contains .crossScopeAccess then
    d.withNote ("`" ++ name ++ "` belongs to an enclosing receiver, not the block it is called in")
  else
    d

/-- Help for a property that is not known: a name like it, or else the properties of the receiver. -/
def propertyHelp (schema : Schema) (receiver name : String) (span : Span) (d : Diagnostic) :
    Diagnostic :=
  let names := (schema.visibleProperties receiver).map (·.name)
  match Suggestion.closest? name names, names with
  | some closest, _ => (d.withHelp (Suggestion.question closest)).withReplacement span closest
  | none, [] => d
  | none, names =>
    d.withHelp ("`" ++ receiver ++ "` has properties: " ++ ", ".intercalate names)

def propertyDiagnostic (schema : Schema) (receiver : Option String) (name : String) (span value : Span)
    (reasons : ReasonSet) : Diagnostic :=
  let place := nameSpan span name
  let d := ((failureDiagnostic reasons ("cannot assign property `" ++ name ++ "`")).withPrimary
    place (failureLabel reasons)).withSecondary value "assigned value"
  let d :=
    match receiver with
    | some receiver =>
      if reasons.contains .unresolvedSignature then propertyHelp schema receiver name place d else d
    | none => d
  let d :=
    match receiver.bind (schema.property? · name) with
    | some p =>
      if reasons.contains .valueTypeMismatch then
        d.withNote ("`" ++ p.owner ++ "." ++ p.name ++ "` expects `" ++ p.type.display ++ "`")
      else
        d
    | none => d
  let d :=
    if reasons.contains .crossScopeAccess then
      d.withNote
        ("`" ++ name ++ "` belongs to an enclosing receiver, not the block it is assigned in")
    else
      d
  if reasons.contains .readOnlyProperty then d.withNote ("`" ++ name ++ "` is read-only") else d

def Value.origin : Value → Document.Origin
  | .literal _ origin _ => origin
  | .factory _ _ origin _ => origin

mutual

/-- The diagnostics of a value in a block of the receiver: those of a call before those of its
arguments. -/
def Value.diagnostics (schema : Schema) (receiver : Option String) : Value → List Diagnostic
  | .literal _ _ _ => []
  | .factory name values origin resolution =>
    (match resolution with
      | .failed reasons => [factoryDiagnostic schema receiver name origin.span reasons]
      | .resolved _ => []) ++ Value.diagnosticsOfAll schema receiver values

def Value.diagnosticsOfAll (schema : Schema) (receiver : Option String) :
    List Value → List Diagnostic
  | [] => []
  | value :: values =>
    Value.diagnostics schema receiver value ++ Value.diagnosticsOfAll schema receiver values

end

/-- The receiver of an element's content; there is none if the element did not resolve. -/
def blockReceiver? : ElementResolution → Option String
  | .added type _ => some type
  | .configured type _ => some type
  | .failed _ => none

mutual

/-- The diagnostics of a node in a block of the receiver, if the block has one. Those of an element's values
come before its own, and its own before those of its content; those of a property come before those of its
value. -/
def Node.diagnostics (schema : Schema) (receiver : Option String) : Node → List Diagnostic
  | .element name values content origin resolution =>
    Value.diagnosticsOfAll schema receiver values ++
      (match resolution with
        | .failed reasons => [elementDiagnostic schema receiver name origin.span reasons]
        | _ => []) ++
      Node.diagnosticsOfAll schema (blockReceiver? resolution) content
  | .property name value origin resolution =>
    (match resolution with
      | .failed reasons =>
        [propertyDiagnostic schema receiver name origin.span value.origin.span reasons]
      | .assigned _ _ => []) ++ value.diagnostics schema receiver
  | .error _ _ => []

def Node.diagnosticsOfAll (schema : Schema) (receiver : Option String) :
    List Node → List Diagnostic
  | [] => []
  | node :: nodes =>
    Node.diagnostics schema receiver node ++ Node.diagnosticsOfAll schema receiver nodes

end

end Resolved

def ResolvedDocument.diagnostics (schema : Schema) (document : ResolvedDocument) : List Diagnostic :=
  Resolved.Node.diagnosticsOfAll schema (some schema.topLevel) document.content

end Declarative
