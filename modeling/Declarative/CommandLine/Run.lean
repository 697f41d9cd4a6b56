import Declarative.CommandLine
import Declarative.Configuration
import Declarative.Diagnostic.Failure
import Declarative.Diagnostic.Fault
import Declarative.Diagnostic.Report
import Declarative.Diagnostic.Terminal
import Declarative.Document.Builder
import Declarative.Document.Printer
import Declarative.Resolved.Merge
import Declarative.Resolved.Rendering
import Declarative.Schema.Declaration

/-!
# Running commands

A command reads some files and says something: results on the standard output, diagnostics and errors on the
standard error. Its exit code tells whether anything was wrong.
-/

namespace Declarative.CommandLine

open Text (Style)

/-! ## Files -/

inductive ReadError where
  | missing
  | isDirectory
  | notUtf8
  /-- Whatever else the system says. -/
  | system (text : String)
  deriving DecidableEq, Repr

def ReadError.message : ReadError → String
  | missing => "No such file or directory (os error 2)"
  | isDirectory => "Is a directory (os error 21)"
  | notUtf8 => "stream did not contain valid UTF-8"
  | system text => text

/-- The bytes of files by their paths. -/
abbrev Files := String → Except ReadError ByteArray

/-- The file that configures the program where no other one is named. -/
def configurationFile : String := "dcl.toml"

/-- The paths of all files that a command may look at. -/
def Command.paths : Command → List String
  | parse file _ | document file _ => [file]
  | resolve file schema _ config _ => [config.getD configurationFile, schema, file]

/-! ## Errors -/

/-- What stops a command before it says anything else. -/
inductive Error where
  | unreadable (path : String) (cause : ReadError)
  | notConfiguration (path : String)
  | notDeclaration (path : String)
  | schema (error : Schema.Error)

def Error.message : Error → String
  | unreadable path cause => "cannot read `" ++ path ++ "`: " ++ cause.message
  | notConfiguration path => "invalid configuration in `" ++ path ++ "`: not the settings it should be"
  | notDeclaration path =>
    "`" ++ path ++ "` is not a valid schema declaration: not the JSON it should be"
  | schema error => "invalid schema: " ++ error.message

def Files.read (files : Files) (path : String) : Except Error String :=
  match files path with
  | .ok bytes =>
    match String.fromUTF8? bytes with
    | some text => .ok text
    | none => .error (.unreadable path .notUtf8)
  | .error cause => .error (.unreadable path cause)

/-- The settings in the file named, or in the standard file if there is one. -/
def Files.settings (files : Files) (config : Option String) : Except Error Settings := do
  let path := config.getD configurationFile
  match config, files path with
  | none, .error .missing | none, .error .isDirectory => return .standard
  | _, _ =>
    match Settings.ofText? (← files.read path) with
    | some settings => return settings
    | none => .error (.notConfiguration path)

def Files.schema (files : Files) (path : String) : Except Error Schema := do
  match Schema.Declaration.ofText? (← files.read path) with
  | none => .error (.notDeclaration path)
  | some declaration =>
    match declaration.build with
    | .ok schema => return schema
    | .error error => .error (.schema error)

/-! ## Output -/

/-- What a command says, and its exit code. -/
structure Output where
  code : Nat
  stdout : String
  stderr : String
  deriving DecidableEq, Repr

/-- The exit code: a failure if there is any error. -/
def exitCode (ds : List Diagnostic) : Nat := if ds.any Diagnostic.isError then 1 else 0

section

variable (hasColor : Bool)

/-- A line between two marks. -/
def banner (style : Style) (text : String) : String :=
  let mark := Style.dimmedText.paint hasColor "==="
  mark ++ " " ++ style.paint hasColor text ++ " " ++ mark

/-- Diagnostics of a file as they are shown, if there are any. -/
def shown (file source : String) (ds : List Diagnostic) : String :=
  match ds with
  | [] => ""
  | _ => Diagnostic.Terminal.formatAll ⟨hasColor, some file, .ofSource source⟩ ds ++ "\n"

/-- Says how a phase went: `before` and then the diagnostics, and last the result, which is shown where it
belongs. -/
def summary (phase file source before remark : String) (ds : List Diagnostic) : Output :=
  let errors := ds.countP Diagnostic.isError
  let details := shown hasColor file source ds
  if errors = 0 then
    let result := banner hasColor (.boldColor .green) (phase ++ " OK")
    ⟨exitCode ds, before ++ result ++ remark ++ "\n", details⟩
  else
    let text := phase ++ " FAILED: " ++ toString errors ++ " error(s)"
    ⟨exitCode ds, before, details ++ banner hasColor (.boldColor .red) text ++ "\n"⟩

def reported (phase file source : String) (lines : List String) (ds : List Diagnostic) : Output :=
  ⟨exitCode ds, (Diagnostic.report ds source file phase lines).render ++ "\n", ""⟩

def parseOutput (file source : String) (format : Format) : Output :=
  let reading := Script.ofText file source
  let ds := reading.diagnostics
  match format with
  | .json => reported "parse" file source [] ds
  | .text =>
    let count := toString reading.script.statements.length
    summary hasColor "Parse" file source "" (" (" ++ count ++ " statement(s))") ds

def documentOutput (file source : String) (withSpans : Bool) : Output :=
  let reading := Script.ofText file source
  let ds := reading.diagnostics
  ⟨exitCode ds, (Document.ofScript reading.script).print withSpans, shown hasColor file source ds⟩

def resolveOutput (file source : String) (schema : Schema) (settings : Settings)
    (format : Format) : Output :=
  let reading := Script.ofText file source
  let document := reading.script.resolvedDocument schema settings
  let ds := reading.diagnostics ++ document.diagnostics schema
  let lines := document.render
  match format with
  | .json => reported "resolve" file source lines ds
  | .text =>
    let title := banner hasColor .boldText "Resolutions"
    let before := String.join ((title :: lines).map (· ++ "\n"))
    summary hasColor "Resolve" file source before "" ds

/-- Runs a command on the files it can read. A schema is read before the script, and the configuration
before both. -/
def Command.run (files : Files) : Command → Except Error Output
  | parse file format => do return parseOutput hasColor file (← files.read file) format
  | document file withSpans => do
    return documentOutput hasColor file (← files.read file) withSpans
  | resolve file schema strict config format => do
    let settings ← files.settings config
    let schema ← files.schema schema
    let source ← files.read file
    return resolveOutput hasColor file source schema ⟨strict || settings.strict⟩ format

def Command.output (files : Files) (command : Command) : Output :=
  match command.run hasColor files with
  | .ok output => output
  | .error error =>
    ⟨1, "", (Style.boldColor .red).paint hasColor "error:" ++ " " ++ error.message ++ "\n"⟩

end

def usageText : String :=
  "Usage: dcl parse FILE [--format text|json]\n" ++
  "       dcl document FILE [--no-spans]\n" ++
  "       dcl resolve FILE --schema FILE [--strict] [--config FILE] [--format text|json]\n" ++
  "       dcl --version\n"

def Stop.output : Stop → Output
  | help => ⟨0, usageText, ""⟩
  | version => ⟨0, "dcl 0.1.0\n", ""⟩
  | usage => ⟨2, "", "error: the arguments are not understood\n" ++ usageText⟩

end Declarative.CommandLine
