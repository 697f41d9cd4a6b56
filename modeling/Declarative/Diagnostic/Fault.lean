import Declarative.Diagnostic
import Declarative.Schema.Builder
import Declarative.Script.Parser

/-!
# Diagnostics of faults

What is wrong with the text of a script or with a schema, as diagnostics.
-/

namespace Declarative

/-- The diagnostic of a fault at a place. -/
def Diagnostic.ofFault (code message : String) (span : Span) (label : String)
    (hint : Option String) : Diagnostic :=
  let d := ((new .error message).withCode code).withPrimary span label
  hint.elim d d.withHelp

def Token.Fault.diagnostic (fault : Token.Fault) : Diagnostic :=
  .ofFault "E0001" fault.message fault.span "invalid token" fault.hint?

def Script.Fault.diagnostic (fault : Script.Fault) : Diagnostic :=
  .ofFault "E0100" fault.message fault.span "here" fault.hint?

def Schema.Error.diagnostic (error : Schema.Error) : Diagnostic :=
  let d := (Diagnostic.new .error error.message).withCode "E0300"
  match error with
  | .unknownType _ _ _ | .unknownSupertype _ _ =>
    d.withHelp "declare the type as a data class of the schema"
  | .configuringReturnsValue _ _ _ =>
    d.withNote "configuring functions redirect a block and produce no value"
  | _ => d

/-- Everything that is wrong with the text of a script: first its words, then its statements. -/
def Script.Reading.diagnostics (reading : Script.Reading) : List Diagnostic :=
  reading.lexical.map Token.Fault.diagnostic ++ reading.structural.map Script.Fault.diagnostic

end Declarative
