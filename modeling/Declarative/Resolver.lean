import Declarative.Scope
import Declarative.Trace

/-!
# Resolving scripts

A script is walked against a schema, statement by statement and depth first, with a stack of the receivers
whose blocks are open. What a statement or value resolves to depends on nothing but the schema, the stack
and what is inside of it, and after each statement the stack is as it was before.

A call binds to a function of the innermost receiver that has any function of its name fit for its place.
Among these its arguments decide; where several functions fit, the one whose parameters are exactly of the
arguments' types is taken. A statement in a block whose call did not resolve is not resolved either.
-/

namespace Declarative

structure Settings where
  /-- Whether only members of the current receiver may be used, not those of receivers further out. -/
  strict : Bool
  deriving DecidableEq, Repr

namespace Resolver

/-- Where a call stands, which decides the functions that it may bind to. -/
inductive CallSite where
  | statement (hasBlock : Bool)
  | value
  deriving DecidableEq, Repr

namespace CallSite

/-- Statements bind to functions that add or configure elements, values to functions that make one. -/
def admits (site : CallSite) (f : Schema.Function) : Bool :=
  match site with
  | statement _ => f.semantics.isElement
  | value => !f.semantics.isElement

/-- Whether the call has a block if the function asks for one, and none if it takes none. -/
def acceptsBlock (site : CallSite) (f : Schema.Function) : Bool :=
  match site, f.semantics with
  | statement hasBlock, .adding _ rule => rule.accepts hasBlock
  | _, _ => true

end CallSite

/-- Whether values of the given types can be passed to a function. -/
def argumentsMatch (schema : Schema) (f : Schema.Function) (types : List DataType) : Bool :=
  f.parameters.length == types.length &&
    (f.parameters.zip types).all fun (wanted, given) => schema.isAssignable given wanted

/-- The functions of a receiver that have the name and fit the place; nothing if there are none. -/
def candidates? (schema : Schema) (site : CallSite) (name receiver : String) :
    Option (List Schema.Function) :=
  match (schema.functionsNamed receiver name).filter site.admits with
  | [] => none
  | functions => some functions

/-- The function that stands out among those that fit: the only one, or else the only one that takes
exactly these types. -/
def mostFitting? (types : List DataType) : List Schema.Function → Option Schema.Function
  | [] => none
  | [f] => some f
  | functions =>
    match functions.filter (·.parameters == types) with
    | [f] => some f
    | _ => none

/-- The function that a call binds to, with the receiver that declares it. The types of the arguments are
those of the values that resolved. -/
def selectFunction (schema : Schema) (settings : Settings) (stack : ScopeStack) (site : CallSite)
    (name : String) (types : List (Option DataType)) : Except Reason (String × Schema.Function) :=
  match stack.lookup (candidates? schema site name), types.mapM id with
  | some found, some types =>
    let fitting := found.member.filter fun f =>
      site.acceptsBlock f && argumentsMatch schema f types
    match mostFitting? types fitting with
    | some f =>
      if found.isOuter && settings.strict then .error .crossScopeAccess
      else .ok (found.receiver, f)
    | none => .error .unresolvedSignature
  | _, _ => .error .unresolvedSignature

def literalType : Literal → DataType
  | .string _ => .string
  | .int _ => .int
  | .long _ => .long
  | .bool _ => .boolean
  | .null => .null

def factoryOutcome (schema : Schema) (settings : Settings) (stack : ScopeStack) (name : String)
    (types : List (Option DataType)) : Outcome ValueTarget :=
  match stack.current with
  | .unresolved => .failed (.single .unresolvedBase)
  | .receiver _ =>
    match selectFunction schema settings stack .value name types with
    | .ok (_, f) => .resolved (.factory f)
    | .error reason => .failed (.single reason)

mutual

/-- The trace of a value, and its type if it resolves. -/
def value (schema : Schema) (settings : Settings) (stack : ScopeStack) :
    Value → Trace × Option DataType
  | .literal id _ content =>
    let type := literalType content
    (.reserve id ++ .record id (.value (.resolved (.literal content type))), some type)
  | .factory id _ name arguments =>
    let (inside, types) := values schema settings stack arguments
    let outcome := factoryOutcome schema settings stack name.text types
    (.reserve id ++ inside ++ .record id (.value outcome), outcome.target?.map ValueTarget.type)

def values (schema : Schema) (settings : Settings) (stack : ScopeStack) :
    List Value → Trace × List (Option DataType)
  | [] => (.empty, [])
  | first :: others =>
    let (trace, type) := value schema settings stack first
    let (later, types) := values schema settings stack others
    (trace ++ later, type :: types)

end

def elementOutcome (schema : Schema) (settings : Settings) (stack : ScopeStack) (hasBlock : Bool)
    (name : String) (types : List (Option DataType)) : Outcome ElementTarget :=
  match stack.current with
  | .unresolved => .failed (.single .unresolvedBase)
  | .receiver _ =>
    match selectFunction schema settings stack (.statement hasBlock) name types with
    | .ok (receiver, f) =>
      match ElementTarget.ofFunction? receiver f with
      | some target => .resolved target
      | none => .failed (.single .unresolvedSignature)
    | .error reason => .failed (.single reason)

/-- What an assignment resolves to. The reasons against it are found in a fixed order: where the property
was found, whether it can be assigned, and last whether the value fits. -/
def assignmentOutcome (schema : Schema) (settings : Settings) (stack : ScopeStack) (name : String)
    (type : Option DataType) : Outcome AssignmentTarget :=
  match stack.current with
  | .unresolved => .failed (.single .unresolvedBase)
  | .receiver _ =>
    match stack.lookup (schema.property? · name), type with
    | none, some _ => .failed (.single .unresolvedSignature)
    | none, none => .failed (.ofList [.unresolvedSignature, .isError])
    | some found, type =>
      let property := found.member
      let fault :=
        match type with
        | none => [Reason.isError]
        | some type => if schema.isAssignable type property.type then [] else [.valueTypeMismatch]
      let reasons := ReasonSet.ofList
        ((if found.isOuter && settings.strict then [.crossScopeAccess] else []) ++
          (if property.readOnly then [.readOnlyProperty] else []) ++ fault)
      if reasons.isEmpty then .resolved ⟨found.receiver, property⟩ else .failed reasons

/-- The scope of a call's block: the receiver that the call resolved to, if it did. -/
def blockScope : Outcome ElementTarget → Scope
  | .resolved target => .receiver target.blockReceiver
  | .failed _ => .unresolved

mutual

/-- The trace of a statement, and the stack after it. -/
def statement (schema : Schema) (settings : Settings) (stack : ScopeStack) :
    Statement → Trace × ScopeStack
  | .call id _ name arguments block =>
    let (inside, types) := values schema settings stack arguments
    let outcome := elementOutcome schema settings stack block.isPresent name.text types
    let (below, stack) := body schema settings stack (blockScope outcome) block
    (.reserve id ++ inside ++ .record id (.element outcome) ++ below, stack)
  | .assign id _ target assigned =>
    let (inside, type) := value schema settings stack assigned
    let outcome := assignmentOutcome schema settings stack target.text type
    (.reserve id ++ inside ++ .record id (.assignment outcome), stack)
  | .error id _ _ =>
    (.reserve id ++ .record id (.element (.failed (.single .isError))), stack)

/-- The trace of what follows a call, in the scope given. -/
def body (schema : Schema) (settings : Settings) (stack : ScopeStack) (scope : Scope) :
    Body → Trace × ScopeStack
  | .absent => (.empty, stack)
  | .block _ _ inner =>
    let (trace, stack) := statements schema settings (stack.push scope) inner
    (trace, stack.pop)

def statements (schema : Schema) (settings : Settings) (stack : ScopeStack) :
    List Statement → Trace × ScopeStack
  | [] => (.empty, stack)
  | first :: others =>
    let (trace, stack) := statement schema settings stack first
    let (later, stack) := statements schema settings stack others
    (trace ++ later, stack)

end

end Resolver

/-- The outcomes of all statements and values of a script. -/
def Script.resolve (schema : Schema) (settings : Settings) (script : Script) : Trace :=
  (Resolver.statements schema settings (.new schema.topLevel) script.statements).1

end Declarative
