/-!
# Command lines

What the arguments of the program ask for. A subcommand comes first; behind it a file and options stand in any
order. An option has its value in the next argument or behind an equals sign; a short one can also have it
directly behind its letter. After two dashes alone there are no more options.
-/

namespace Declarative.CommandLine

inductive Format where
  | text
  | json
  deriving DecidableEq, Repr

def Format.ofName? : String → Option Format
  | "text" => some text
  | "json" => some json
  | _ => none

inductive Command where
  /-- Reports what is wrong with the text of a script. -/
  | parse (file : String) (format : Format)
  /-- Prints the document of a script. -/
  | document (file : String) (withSpans : Bool)
  /-- Resolves a script; a file can be named that configures how. -/
  | resolve (file schema : String) (strict : Bool) (config : Option String) (format : Format)
  deriving DecidableEq, Repr

inductive Stop where
  | help
  | version
  /-- The arguments cannot be understood. -/
  | usage
  deriving DecidableEq, Repr

inductive Parameter where
  | format
  | schema
  | config
  | strict
  | noSpans
  deriving DecidableEq, Repr

namespace Parameter

def longName : Parameter → String
  | format => "format"
  | schema => "schema"
  | config => "config"
  | strict => "strict"
  | noSpans => "no-spans"

def letter? : Parameter → Option Char
  | schema => some 's'
  | config => some 'c'
  | _ => none

/-- Flags are given or not; all others have a value. -/
def isFlag : Parameter → Bool
  | strict | noSpans => true
  | _ => false

/-- Whether this can be the value: the name of a format, or a path, which is not empty. -/
def accepts (parameter : Parameter) (value : String) : Bool :=
  match parameter with
  | format => (Format.ofName? value).isSome
  | _ => value != ""

end Parameter

inductive Subcommand where
  | parse
  | document
  | resolve
  deriving DecidableEq, Repr

namespace Subcommand

def ofName? : String → Option Subcommand
  | "parse" => some parse
  | "document" => some document
  | "resolve" => some resolve
  | _ => none

def parameters : Subcommand → List Parameter
  | parse => [.format]
  | document => [.noSpans]
  | resolve => [.schema, .strict, .config, .format]

def long? (subcommand : Subcommand) (name : List Char) : Option Parameter :=
  subcommand.parameters.find? (·.longName.toList == name)

def short? (subcommand : Subcommand) (letter : Char) : Option Parameter :=
  subcommand.parameters.find? (·.letter? == some letter)

end Subcommand

/-- What has been given to a subcommand so far. Flags are given with an empty value. -/
structure Given where
  file : Option String
  values : List (Parameter × String)
  deriving DecidableEq, Repr

namespace Given

def empty : Given := ⟨none, []⟩

/-- Gives the file, of which there is one. -/
def withFile (given : Given) (file : String) : Except Stop Given :=
  if file = "" ∨ given.file.isSome then .error .usage else .ok { given with file := some file }

/-- Gives a parameter that has not been given before. -/
def withParameter (given : Given) (parameter : Parameter) (value : String) : Except Stop Given :=
  if (given.values.lookup parameter).isSome then .error .usage
  else .ok { given with values := given.values ++ [(parameter, value)] }

def withValue (given : Given) (parameter : Parameter) (value : String) : Except Stop Given :=
  if parameter.accepts value then given.withParameter parameter value else .error .usage

def value? (given : Given) (parameter : Parameter) : Option String := given.values.lookup parameter

def hasFlag (given : Given) (parameter : Parameter) : Bool := (given.value? parameter).isSome

/-- The format that is asked for, which is text where nothing is said. -/
def format (given : Given) : Format := ((given.value? .format).bind Format.ofName?).getD .text

/-- What a subcommand with this is to do, if nothing is missing. -/
def command? (given : Given) : Subcommand → Option Command
  | .parse => do return .parse (← given.file) given.format
  | .document => do return .document (← given.file) (!given.hasFlag .noSpans)
  | .resolve => do
    return .resolve (← given.file) (← given.value? .schema) (given.hasFlag .strict)
      (given.value? .config) given.format

end Given

/-- Arguments in three kinds; everything that starts with a dash and goes on is an option. -/
inductive Argument where
  /-- Two dashes, a name, and perhaps a value behind an equals sign. -/
  | long (name : List Char) (value : Option String)
  /-- A dash, a letter, and what stands behind it. -/
  | short (letter : Char) (rest : List Char)
  /-- Two dashes alone. -/
  | separator
  | plain (text : String)
  deriving DecidableEq, Repr

def Argument.ofText (text : String) : Argument :=
  match text.toList with
  | ['-', '-'] => separator
  | '-' :: '-' :: r =>
    match r.dropWhile (· != '=') with
    | _ :: value => long (r.takeWhile (· != '=')) (some (String.ofList value))
    | [] => long r none
  | '-' :: letter :: rest => short letter rest
  | _ => plain text

namespace Subcommand

variable (subcommand : Subcommand)

/-- Reads the arguments of a subcommand. An option that has no value yet waits for it; then the next argument
must be plain. -/
def read : Option Parameter → Given → List String → Except Stop Given
  | none, given, [] => .ok given
  | some _, _, [] => .error .usage
  | some parameter, given, argument :: arguments =>
    match Argument.ofText argument with
    | .plain value => do read none (← given.withValue parameter value) arguments
    | _ => .error .usage
  | none, given, argument :: arguments =>
    match Argument.ofText argument with
    | .separator => arguments.foldlM Given.withFile given
    | .plain file => do read none (← given.withFile file) arguments
    | .long name value =>
      match subcommand.long? name, value with
      | some parameter, value =>
        match parameter.isFlag, value with
        | true, none => do read none (← given.withParameter parameter "") arguments
        | true, some _ => .error .usage
        | false, some value => do read none (← given.withValue parameter value) arguments
        | false, none => read (some parameter) given arguments
      | none, none => .error (if name = "help".toList then .help else .usage)
      | none, some _ => .error .usage
    | .short letter rest =>
      match subcommand.short? letter, rest with
      | some parameter, [] => read (some parameter) given arguments
      | some parameter, '=' :: value | some parameter, value => do
        read none (← given.withValue parameter (String.ofList value)) arguments
      | none, _ => .error (if letter = 'h' then .help else .usage)

/-- What the subcommand is to do with its arguments. -/
def command (arguments : List String) : Except Stop Command := do
  match (← subcommand.read none .empty arguments).command? subcommand with
  | some command => .ok command
  | none => .error .usage

end Subcommand

/-- What all arguments ask for. -/
def Command.ofArguments : List String → Except Stop Command
  | [] => .error .usage
  | first :: arguments =>
    match Argument.ofText first with
    | .long name none =>
      .error (if name = "help".toList then .help
        else if name = "version".toList then .version else .usage)
    | .short 'h' _ => .error .help
    | .short 'V' _ => .error .version
    | .plain "help" =>
      match arguments with
      | [] | ["help"] => .error .help
      | [name] => .error (if (Subcommand.ofName? name).isSome then .help else .usage)
      | _ => .error .usage
    | .plain name =>
      match Subcommand.ofName? name with
      | some subcommand => subcommand.command arguments
      | none => .error .usage
    | _ => .error .usage

end Declarative.CommandLine
