import Declarative.Resolver
import Declarative.Toml.Reader

/-!
# Configurations

Settings can be written down as TOML. Everything is in the table `resolver`, beside which nothing may
stand; in it, keys that are not known mean nothing.
-/

namespace Declarative.Settings

def standard : Settings := ⟨false⟩

/-- The settings that the value of `resolver` makes. An array stands for the values of the known keys in their
order, and a date for a table without known keys. Numbers under unknown keys have to be in range. -/
def ofResolver? : Toml.Value → Option Settings
  | .table _ entries =>
    if Toml.Value.areSoundEntries entries then
      match entries.lookup "strict-receiver-checks" with
      | none => some standard
      | some (.bool strict) => some ⟨strict⟩
      | some _ => none
    else
      none
  | .array _ [] => some standard
  | .array _ (.bool strict :: _) => some ⟨strict⟩
  | .moment _ => some standard
  | _ => none

def ofText? (text : String) : Option Settings := do
  let .table _ entries ← Toml.Value.ofText? text | none
  guard (entries.all (·.1 == "resolver"))
  match entries.lookup "resolver" with
  | some value => ofResolver? value
  | none => return standard

end Declarative.Settings
