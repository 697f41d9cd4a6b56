import Declarative.Diagnostic
import Declarative.Source.LineMap
import Declarative.Text.Style

/-!
# Diagnostics on a terminal

A diagnostic is shown with its message, the lines of the source on which its labels start, and its notes and
help below. Under each line the places of its labels are underlined and their remarks written; a label that
reaches over several lines is underlined on its first one only. A replacement is shown as the line that it
would make.
-/

namespace Declarative.Diagnostic

open Text (Style Color blanks padLeft)

/-- How diagnostics of a source are shown. -/
structure Terminal where
  hasColor : Bool
  /-- What the source is called. -/
  file : Option String
  lines : LineMap

/-- A label as it lies on its first line: the columns from `start` on up to but without `stop`. -/
structure Annotation where
  start : Nat
  stop : Nat
  style : LabelStyle
  message : Option String
  deriving DecidableEq, Repr

/-- A line of the source with the labels that start on it. -/
structure AnnotatedLine where
  number : Nat
  text : String
  annotations : List Annotation
  deriving DecidableEq, Repr

namespace Terminal

def labelStyle : LabelStyle → Style
  | .primary => .boldColor .red
  | .secondary => .ofColor .blue

def underlineMark : LabelStyle → Char
  | .primary => '^'
  | .secondary => '-'

def severityStyle : Severity → Style
  | .error => .boldColor .red
  | .warning => .boldColor .yellow
  | .note => .boldColor .blue

variable (t : Terminal)

def paint (style : Style) (text : String) : String := style.paint t.hasColor text

/-- The line between the numbers of lines and the source. -/
def bar : String := t.paint (.ofColor .blue) "|"

/-- The text of a line; lines that are not there are empty. -/
def lineText (number : Nat) : String := (t.lines.text? number).getD ""

/-- Where a label lies on its first line. It covers at least one column. -/
def annotation (label : Label) : Nat × Annotation :=
  let start := t.lines.locate label.span.start
  let stop := t.lines.locate label.span.stop
  let lineEnd := Text.width (t.lineText start.line).toList + 1
  let column := if stop.line = start.line then stop.column else lineEnd
  let first := start.preceding + 1
  (start.line, ⟨first, max column (first + 1), label.style, label.message⟩)

/-- The lines on which labels start, in their order, each once. -/
def annotatedLines (d : Diagnostic) : List AnnotatedLine :=
  let placed := d.labels.map t.annotation
  ((placed.map (·.1)).mergeSort (· ≤ ·)).eraseDups.map fun number =>
    ⟨number, t.lineText number, (placed.filter (·.1 == number)).map (·.2)⟩

/-- Primary labels come first, and labels of one style in the order of their columns. -/
def precedes (a b : Annotation) : Bool :=
  match a.style, b.style with
  | .primary, .secondary => true
  | .secondary, .primary => false
  | _, _ => a.start ≤ b.start

/-- The character under a column: that of the last label that covers it. -/
def columnMark (annotations : List Annotation) (column : Nat) : Char :=
  match (annotations.filter fun a => a.start ≤ column && column < a.stop).getLast? with
  | some a => underlineMark a.style
  | none => ' '

/-- How many columns an underline can go past the end of its line. -/
def overhang : Nat := 10

/-- The underline of a line without the blanks at its end. -/
def underline (line : AnnotatedLine) (annotations : List Annotation) : List Char :=
  let columns := Text.width line.text.toList + overhang
  let marks := (List.range columns).map fun i => columnMark annotations (i + 1)
  (marks.reverse.dropWhile (· == ' ')).reverse

/-- A run of one character of an underline, in the style of its labels. -/
def paintRun (run : List Char) : String :=
  match run with
  | '^' :: _ => t.paint (labelStyle .primary) (String.ofList run)
  | '-' :: _ => t.paint (labelStyle .secondary) (String.ofList run)
  | _ => String.ofList run

def paintUnderline (marks : List Char) : String :=
  String.join ((marks.splitBy (· == ·)).map t.paintRun)

/-- A row below a line of the source, behind its margin. -/
def row (margin : Nat) (content : String) : String :=
  blanks margin ++ " " ++ t.bar ++ " " ++ content ++ "\n"

/-- The rows below a line. A single remark stands behind the underline; several stand below it, the last
one first, each at the column where its label starts. -/
def annotationRows (margin : Nat) (line : AnnotatedLine) : List String :=
  let annotations := line.annotations.mergeSort precedes
  match underline line annotations with
  | [] => []
  | marks =>
    let painted := t.paintUnderline marks
    let remarks := annotations.filterMap fun a => a.message.map (a, ·)
    match remarks with
    | [] => [t.row margin painted]
    | [(a, message)] => [t.row margin (painted ++ " " ++ t.paint (labelStyle a.style) message)]
    | remarks =>
      t.row margin painted :: remarks.reverse.map fun (a, message) =>
        let style := labelStyle a.style
        t.row margin
          (blanks (a.start - 1) ++ t.paint style "|" ++ " " ++ t.paint style message)

/-- A line of the source behind its number. -/
def sourceRow (margin number : Nat) (content : String) : String :=
  t.paint (.boldColor .blue) (padLeft margin (toString number)) ++ " " ++ t.bar ++ " " ++ content ++
    "\n"

/-- What stands in front of a line: an empty row in front of the first one, dots where lines are left out. -/
def gap (margin : Nat) (before : Option Nat) (number : Nat) : String :=
  match before with
  | none => blanks margin ++ " " ++ t.bar ++ "\n"
  | some last =>
    if last + 1 < number then
      blanks (margin - 1) ++ " " ++ t.paint (.ofColor .blue) "..." ++ "\n"
    else
      ""

/-- The lines of the source with their rows below; `before` is the line shown last. -/
def lineRows (margin : Nat) : Option Nat → List AnnotatedLine → List String
  | _, [] => []
  | before, line :: lines =>
    t.gap margin before line.number :: t.sourceRow margin line.number line.text ::
      (t.annotationRows margin line ++ lineRows margin (some line.number) lines)

/-- The first line: severity, code and message. -/
def header (d : Diagnostic) : String :=
  let severity := t.paint (severityStyle d.severity) d.severity.name
  let code := d.code.elim "" fun code => "[" ++ t.paint (.boldColor .red) code ++ "]"
  severity ++ code ++ ": " ++ t.paint .boldText d.message ++ "\n"

def remark (kind text : String) : String :=
  blanks 3 ++ " " ++ t.paint (.ofColor .cyan) "=" ++ " " ++ t.paint (.boldColor .cyan) kind ++ ": " ++
    text ++ "\n"

/-- The line that a replacement would make, with the replacement marked. -/
def replacementRows (r : Replacement) : List String :=
  let place := t.lines.locate r.span.start
  match t.lines.text? place.line with
  | none => []
  | some text =>
    let front := Text.takeBytes place.preceding text.toList
    let back := Text.dropBytes (place.preceding + r.span.length) text.toList
    let green := Style.ofColor .green
    let tildes := String.ofList (List.replicate (Text.width r.text.toList) '~')
    [blanks 3 ++ " " ++ t.bar ++ "\n",
      t.sourceRow 3 place.line
        (String.ofList front ++ t.paint green r.text ++ String.ofList back),
      t.row 3 (blanks place.preceding ++ t.paint green tildes)]

def footer (d : Diagnostic) : List String :=
  d.notes.map (t.remark "note") ++
    match d.help with
    | none => []
    | some help => t.remark "help" help.message ::
        (help.replacement.elim [] t.replacementRows)

/-- Where the source is shown: the first line shown, and the column of the first label. -/
def location (line : AnnotatedLine) (label : Label) : String :=
  blanks 2 ++ t.paint (.ofColor .blue) "-->" ++ " " ++ t.file.getD "<source>" ++ ":" ++
    toString line.number ++ ":" ++ toString (t.lines.locate label.span.start).column ++ "\n"

/-- The room for the numbers of lines: at least three columns, and one more than the last number has. -/
def marginOf (lines : List AnnotatedLine) : Nat :=
  let last := (lines.getLast?.map (·.number)).getD 1
  max (toString last).length 2 + 1

def format (d : Diagnostic) : String :=
  let lines := t.annotatedLines d
  let snippet :=
    match lines, d.labels with
    | first :: _, label :: _ => t.location first label :: t.lineRows (marginOf lines) none lines
    | _, _ => []
  String.join (t.header d :: (snippet ++ t.footer d))

/-- Diagnostics as they are shown, with empty lines between them. -/
def formatAll (ds : List Diagnostic) : String := "\n".intercalate (ds.map t.format)

end Terminal

end Declarative.Diagnostic
