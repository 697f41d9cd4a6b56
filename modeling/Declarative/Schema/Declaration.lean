import Declarative.Json.Reader
import Declarative.Schema.Builder

/-!
# Declared schemas

A schema can be written down as JSON. A declaration is only another way to a builder: types are names, and
the checks are those of every other schema.
-/

namespace Declarative.Schema

structure PropertyDeclaration where
  name : String
  type : String
  hidden : Bool
  readOnly : Bool
  deriving DecidableEq, Repr

inductive SemanticsDeclaration where
  | adding (produces : String) (block : BlockRule)
  | configuring (configures : String)
  | plain (returns : String)
  deriving DecidableEq, Repr

structure FunctionDeclaration where
  name : String
  parameters : List String
  semantics : SemanticsDeclaration
  deriving DecidableEq, Repr

structure ClassDeclaration where
  name : String
  supertypes : List String
  properties : List PropertyDeclaration
  functions : List FunctionDeclaration
  deriving DecidableEq, Repr

structure Declaration where
  topLevel : String
  classes : List ClassDeclaration
  deriving DecidableEq, Repr

/-! ## Building -/

def PropertyDeclaration.member (p : PropertyDeclaration) : Member :=
  .property p.name (.ofText p.type) p.hidden p.readOnly

/-- What a function returns: what it adds, nothing where it configures, otherwise what it says. -/
def SemanticsDeclaration.returns : SemanticsDeclaration → DataType
  | adding produces _ => .named produces
  | configuring _ => .unit
  | plain returns => .ofText returns

def SemanticsDeclaration.semantics : SemanticsDeclaration → Semantics
  | adding produces block => .adding produces block
  | configuring configures => .configuring configures
  | plain _ => .plain

def FunctionDeclaration.member (f : FunctionDeclaration) : Member :=
  .function f.name (f.parameters.map DataType.ofText) f.semantics.returns f.semantics.semantics

/-- The members of a class: supertypes, then properties, then functions. -/
def ClassDeclaration.members (c : ClassDeclaration) : List Member :=
  c.supertypes.map .supertype ++ c.properties.map PropertyDeclaration.member ++
    c.functions.map FunctionDeclaration.member

def Declaration.toBuilder (d : Declaration) : Builder :=
  d.classes.foldl (fun b c => b.declare c.name c.members) (Builder.empty d.topLevel)

def Declaration.build (d : Declaration) : Except Error Schema := d.toBuilder.build

/-! ## Reading -/

/-- How deep a declaration is nested down to a function, and how deep JSON may be nested at all. -/
def maxFieldLevels : Nat := 127 - 5

def BlockRule.ofName? : String → Option BlockRule
  | "not_allowed" => some notAllowed
  | "allowed" => some allowed
  | "required" => some required
  | _ => none

/-- A rule is named by a text, or by the only key of an object that holds nothing under it. -/
def BlockRule.ofJson? : Json → Option BlockRule
  | .string name => ofName? name
  | .object [(name, .null)] | .object [(name, .object [])] => ofName? name
  | _ => none

inductive Kind where
  | adding
  | configuring
  | plain
  deriving DecidableEq, Repr

/-- A kind is given by its name or by its number. -/
def Kind.ofJson? : Json → Option Kind
  | .string "adding" | .natural 0 => some adding
  | .string "configuring" | .natural 1 => some configuring
  | .string "plain" | .natural 2 => some plain
  | _ => none

open Json in
/-- Reads the fields that the kind of a function asks for. -/
def SemanticsDeclaration.ofJson? (kind : Kind) (json : Json) : Option SemanticsDeclaration :=
  match kind with
  | .adding => do
    let [produces, block] ← record? ["produces", "block"] json | none
    return .adding (← required string? produces) (← optional BlockRule.ofJson? .allowed block)
  | .configuring => do
    let [configures] ← record? ["configures"] json | none
    return .configuring (← required string? configures)
  | .plain => do
    let [returns] ← record? ["returns"] json | none
    return .plain (← required string? returns)

open Json in
/-- Reads a function, which is always an object. Fields that belong to no kind, or to another one, are
not looked at, but they have to denote something. -/
def FunctionDeclaration.ofJson? (json : Json) : Option FunctionDeclaration :=
  match json with
  | .object members => do
    let [name, parameters, kind] ← record? ["name", "parameters", "kind"] json | none
    guard ((members.filter fun (key, _) => key != "name" && key != "parameters").all
      fun (_, value) => value.isSound maxFieldLevels)
    let kind ← required Kind.ofJson? kind
    return {
      name := ← required string? name
      parameters := ← optional (list? string?) [] parameters
      semantics := ← SemanticsDeclaration.ofJson? kind json }
  | _ => none

open Json in
def PropertyDeclaration.ofJson? (json : Json) : Option PropertyDeclaration := do
  let [name, type, hidden, readOnly] ← record? ["name", "type", "hidden", "read_only"] json | none
  return {
    name := ← required string? name
    type := ← required string? type
    hidden := ← optional bool? false hidden
    readOnly := ← optional bool? false readOnly }

open Json in
def ClassDeclaration.ofJson? (json : Json) : Option ClassDeclaration := do
  let [name, supertypes, properties, functions] ←
    record? ["name", "supertypes", "properties", "functions"] json | none
  return {
    name := ← required string? name
    supertypes := ← optional (list? string?) [] supertypes
    properties := ← optional (list? PropertyDeclaration.ofJson?) [] properties
    functions := ← optional (list? FunctionDeclaration.ofJson?) [] functions }

open Json in
def Declaration.ofJson? (json : Json) : Option Declaration := do
  let [topLevel, classes] ← record? ["top_level", "classes"] json | none
  return {
    topLevel := ← required string? topLevel
    classes := ← required (list? ClassDeclaration.ofJson?) classes }

def Declaration.ofText? (text : String) : Option Declaration :=
  (Json.ofText? text).bind Declaration.ofJson?

end Declarative.Schema
