import Declarative.Resolved

/-!
# Resolutions as lines

A resolved document is shown with one line for each of its parts, in the order of the script: the name of
the outcome, and behind it what the part resolved to or the reasons why it did not.
-/

namespace Declarative

namespace Resolution

/-- What a part resolved to; nothing for a failure. -/
def summary? : Resolution → Option String
  | element (.added _ f) => some (f.semantics.label ++ " " ++ f.signature)
  | element (.configured type f) => some (f.semantics.label ++ " " ++ f.name ++ ": " ++ type)
  | property (.assigned receiver p) => some (receiver ++ "." ++ p.name ++ ": " ++ p.type.display)
  | literal (.resolved content) => some content.display
  | factory (.resolved f) => some (f.semantics.label ++ " " ++ f.signature)
  | _ => none

def render (resolution : Resolution) : String :=
  match resolution.reasons?, resolution.summary? with
  | some reasons, _ => resolution.name ++ "(" ++ reasons.display ++ ")"
  | none, some summary => resolution.name ++ " -> " ++ summary
  | none, none => resolution.name

end Resolution

def ResolvedDocument.render (document : ResolvedDocument) : List String :=
  document.flatten.map (·.2.render)

end Declarative
