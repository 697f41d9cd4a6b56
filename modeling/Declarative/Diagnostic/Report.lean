import Declarative.Diagnostic
import Declarative.Diagnostic.Code
import Declarative.Json.Writer
import Declarative.Source.LineMap

/-!
# Reports

Diagnostics for tools: a JSON document with every diagnostic of a file, its places as lines and columns and
the lines that replacements would make. What is not there is left out.
-/

namespace Declarative.Diagnostic

/-- A member of an object that is only there if it has a value. -/
def optionalMember (key : String) (value : Option Json) : List (String × Json) :=
  (value.map (key, ·)).toList

/-- The texts as a member of an object, if there are any. -/
def textsMember (key : String) : List String → List (String × Json)
  | [] => []
  | texts => [(key, .array (texts.map .string))]

namespace Report

/-- A byte offset with its line and column. -/
def place (lines : LineMap) (offset : Nat) : Json :=
  let position := lines.locate offset
  .object [("line", .natural position.line), ("column", .natural position.column),
    ("byte_offset", .natural offset)]

/-- Where a diagnostic is, with the text of the line. -/
def location (lines : LineMap) (span : Span) : Json :=
  let position := lines.locate span.start
  .object [("line", .natural position.line), ("column", .natural position.column),
    ("byte_offset", .natural span.start),
    ("source_line", .string ((lines.text? position.line).getD ""))]

def label (lines : LineMap) (l : Label) : Json :=
  .object ([("role", .string l.style.name)] ++ optionalMember "message" (l.message.map .string) ++
    [("start", place lines l.span.start), ("end", place lines l.span.stop)])

/-- The line that a replacement makes of the line it starts on. Nothing of other lines is replaced. -/
def resultLine (lines : LineMap) (r : Replacement) : String :=
  let position := lines.locate r.span.start
  let text := ((lines.text? position.line).getD "").toList
  let frontWidth := min position.preceding (Text.width text)
  String.ofList (Text.takeBytes frontWidth text ++ r.text.toList ++
    Text.dropBytes (frontWidth + r.span.length) text)

def replacement (lines : LineMap) (r : Replacement) : Json :=
  .object [("start", .natural r.span.start), ("end", .natural r.span.stop),
    ("replacement", .string r.text), ("result_line", .string (resultLine lines r))]

def diagnostic (lines : LineMap) (d : Diagnostic) : Json :=
  let category := (d.code.bind Code.find?).map (·.category.name)
  .object ([("severity", .string d.severity.name)] ++
    optionalMember "code" (d.code.map .string) ++
    optionalMember "category" (category.map .string) ++
    [("message", .string d.message)] ++
    optionalMember "location" (d.primarySpan?.map (location lines)) ++
    [("labels", .array (d.labels.map (label lines)))] ++
    textsMember "notes" d.notes ++
    optionalMember "help" (d.help.map (.string ·.message)) ++
    optionalMember "suggestion" ((d.help.bind (·.replacement)).map (replacement lines)))

end Report

/-- All diagnostics of a file, found in a phase of its treatment, and the lines of its resolutions. A file
without errors is a success, whatever else is to be said about it. -/
def report (ds : List Diagnostic) (source file phase : String) (resolutions : List String) : Json :=
  let lines := LineMap.ofSource source
  let errors := ds.countP isError
  .object ([("version", .natural 1), ("file", .string file), ("success", .bool (errors == 0)),
    ("phase", .string phase), ("diagnostics", .array (ds.map (Report.diagnostic lines))),
    ("error_count", .natural errors),
    ("warning_count", .natural (ds.countP (·.severity == .warning)))] ++
    textsMember "resolutions" resolutions)

end Declarative.Diagnostic
