import Declarative.Document

/-!
# Documents from scripts

A call becomes an element, with or without content; an assignment becomes a property. Nothing else is
decided here: an element without a block and one with an empty block are the same.
-/

namespace Declarative.Document

mutual

def Value.ofScript : Declarative.Value → Value
  | .literal id span content => .literal content ⟨id, span⟩
  | .factory id span name arguments => .factory name.text (Value.ofScripts arguments) ⟨id, span⟩

def Value.ofScripts : List Declarative.Value → List Value
  | [] => []
  | value :: values => Value.ofScript value :: Value.ofScripts values

end

mutual

def Node.ofStatement : Statement → Node
  | .call id span name arguments body =>
    .element name.text (Value.ofScripts arguments) (Node.ofBody body) ⟨id, span⟩
  | .assign id span target value => .property target.text (Value.ofScript value) ⟨id, span⟩
  | .error id span message => .error message ⟨id, span⟩

def Node.ofBody : Body → List Node
  | .absent => []
  | .block _ _ statements => Node.ofStatements statements

def Node.ofStatements : List Statement → List Node
  | [] => []
  | statement :: statements => Node.ofStatement statement :: Node.ofStatements statements

end

def ofScript (script : Script) : Document :=
  ⟨script.source, Node.ofStatements script.statements⟩

end Declarative.Document
