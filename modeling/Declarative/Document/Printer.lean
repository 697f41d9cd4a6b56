import Declarative.Document
import Declarative.Text.Quoted
import Declarative.Text.Style

/-!
# Printed documents

A document is printed with one line for each node and each value, a node before its values and these
before its content. A line is indented by the depth of its node and names what it is; with spans it also
says where it was written.
-/

namespace Declarative.Document

/-- What a printed line says and how deep it stands. -/
structure Line where
  depth : Nat
  text : String
  span : Span
  deriving DecidableEq, Repr

/-- How a literal is printed: texts in quotes, everything else as it is written in a script. -/
def literalText : Literal → String
  | .string value => Text.quoted value
  | content => content.display

mutual

def Value.lines (depth : Nat) : Value → List Line
  | .literal content origin => [⟨depth, "literal " ++ literalText content, origin.span⟩]
  | .factory name values origin =>
    ⟨depth, "factory " ++ name, origin.span⟩ :: Value.linesOfAll (depth + 1) values

def Value.linesOfAll (depth : Nat) : List Value → List Line
  | [] => []
  | value :: values => Value.lines depth value ++ Value.linesOfAll depth values

end

mutual

def Node.lines (depth : Nat) : Node → List Line
  | .element name values content origin =>
    ⟨depth, "element " ++ name, origin.span⟩ ::
      (Value.linesOfAll (depth + 1) values ++ Node.linesOfAll (depth + 1) content)
  | .property name value origin =>
    ⟨depth, "property " ++ name, origin.span⟩ :: Value.lines (depth + 1) value
  | .error message origin => [⟨depth, "error " ++ Text.quoted message, origin.span⟩]

def Node.linesOfAll (depth : Nat) : List Node → List Line
  | [] => []
  | node :: nodes => Node.lines depth node ++ Node.linesOfAll depth nodes

end

/-- A line with its line feed, indented by two blanks a level. -/
def Line.render (withSpans : Bool) (line : Line) : String :=
  Text.blanks (2 * line.depth) ++ line.text ++
    (if withSpans then " @" ++ line.span.display else "") ++ "\n"

def print (document : Document) (withSpans : Bool) : String :=
  String.join ((Node.linesOfAll 0 document.content).map (Line.render withSpans))

end Declarative.Document
