import Declarative.CommandLine.Run

/-!
# The program

Reads the files that the arguments name and writes what the command says.
-/

namespace Declarative.CommandLine

def readFile (path : String) : IO (Except ReadError ByteArray) := do
  try
    return .ok (← IO.FS.readBinFile path)
  catch
    | .noFileOrDirectory .. => return .error .missing
    | .inappropriateType .. => return .error .isDirectory
    | cause => return .error (.system (toString cause))

/-- Whether the terminal and the environment ask for colours. -/
def asksForColor : IO Bool := do
  if (← IO.getEnv "NO_COLOR").isSome then
    return false
  else if (← IO.getEnv "FORCE_COLOR").isSome then
    return true
  else
    (← IO.getStdout).isTty

end Declarative.CommandLine

open Declarative.CommandLine in
def main (arguments : List String) : IO UInt32 := do
  let output ← match Command.ofArguments arguments with
    | .error stop => pure stop.output
    | .ok command => do
      let contents ← command.paths.mapM fun path => do return (path, ← readFile path)
      let files : Files := fun path => (contents.lookup path).getD (.error .missing)
      pure (command.output (← asksForColor) files)
  IO.print output.stdout
  IO.eprint output.stderr
  return output.code.toUInt32
