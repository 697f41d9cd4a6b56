import Declarative.Source.Span

/-!
# Diagnostics

A diagnostic tells an author what is wrong, where, and what can be done about it. It is built up step by
step, starting from its severity and message.
-/

namespace Declarative

namespace Diagnostic

inductive Severity where
  | error
  | warning
  | note
  deriving DecidableEq, Repr

def Severity.name : Severity → String
  | error => "error"
  | warning => "warning"
  | note => "note"

/-- Whether a label is the place that the diagnostic is about or a related one. -/
inductive LabelStyle where
  | primary
  | secondary
  deriving DecidableEq, Repr

def LabelStyle.name : LabelStyle → String
  | primary => "primary"
  | secondary => "secondary"

/-- A place in the source with a remark on it. -/
structure Label where
  span : Span
  style : LabelStyle
  message : Option String
  deriving DecidableEq, Repr

/-- A text to be put in place of what stands at a span. -/
structure Replacement where
  span : Span
  text : String
  deriving DecidableEq, Repr

/-- What the author can do. -/
structure Help where
  message : String
  replacement : Option Replacement
  deriving DecidableEq, Repr

end Diagnostic

/-- A message to the author of a script. -/
structure Diagnostic where
  severity : Diagnostic.Severity
  code : Option String
  message : String
  labels : List Diagnostic.Label
  notes : List String
  help : Option Diagnostic.Help
  deriving DecidableEq, Repr

namespace Diagnostic

/-- A diagnostic that says nothing but its message. -/
def new (severity : Severity) (message : String) : Diagnostic :=
  ⟨severity, none, message, [], [], none⟩

def withCode (d : Diagnostic) (code : String) : Diagnostic := { d with code := some code }

def withLabel (d : Diagnostic) (span : Span) (style : LabelStyle) (message : String) : Diagnostic :=
  { d with labels := d.labels ++ [⟨span, style, some message⟩] }

def withPrimary (d : Diagnostic) (span : Span) (message : String) : Diagnostic :=
  d.withLabel span .primary message

def withSecondary (d : Diagnostic) (span : Span) (message : String) : Diagnostic :=
  d.withLabel span .secondary message

def withNote (d : Diagnostic) (note : String) : Diagnostic := { d with notes := d.notes ++ [note] }

/-- Help without a replacement, in place of the help that was there. -/
def withHelp (d : Diagnostic) (message : String) : Diagnostic := { d with help := some ⟨message, none⟩ }

/-- Adds a replacement to the help; where there is no help there is nothing to add it to. -/
def withReplacement (d : Diagnostic) (span : Span) (text : String) : Diagnostic :=
  { d with help := d.help.map fun help => { help with replacement := some ⟨span, text⟩ } }

/-- The place that the diagnostic is about: its first primary label, or else its first label. -/
def primarySpan? (d : Diagnostic) : Option Span :=
  ((d.labels.find? (·.style == .primary)).or d.labels.head?).map (·.span)

def isError (d : Diagnostic) : Bool := d.severity == .error

end Diagnostic

end Declarative
