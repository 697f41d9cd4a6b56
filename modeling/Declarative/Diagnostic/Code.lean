import Declarative.Reason

/-!
# Codes of diagnostics

Every kind of diagnostic has a code, which belongs to a category.
-/

namespace Declarative.Diagnostic

inductive Category where
  | lexicalOrStructural
  | schema
  | resolution
  deriving DecidableEq, Repr

def Category.name : Category → String
  | lexicalOrStructural => "Syntax"
  | schema => "Schema"
  | resolution => "Resolution"

structure Code where
  text : String
  title : String
  category : Category
  deriving DecidableEq, Repr

namespace Code

/-- The codes in their order; there is one for each reason of a failure. -/
def all : List Code :=
  [⟨"E0001", "invalid token", .lexicalOrStructural⟩,
    ⟨"E0100", "invalid syntax", .lexicalOrStructural⟩,
    ⟨"E0300", "invalid schema", .schema⟩,
    ⟨"E0400", "unresolved signature", .resolution⟩,
    ⟨"E0401", "value type mismatch", .resolution⟩,
    ⟨"E0402", "cross-scope access", .resolution⟩,
    ⟨"E0403", "unresolved base", .resolution⟩,
    ⟨"E0404", "depends on an error", .resolution⟩,
    ⟨"E0405", "read-only property", .resolution⟩]

def find? (text : String) : Option Code := all.find? (·.text == text)

end Code

/-- The code of failures for a reason. -/
def reasonCode : Reason → String
  | .unresolvedSignature => "E0400"
  | .valueTypeMismatch => "E0401"
  | .crossScopeAccess => "E0402"
  | .unresolvedBase => "E0403"
  | .isError => "E0404"
  | .readOnlyProperty => "E0405"

end Declarative.Diagnostic
