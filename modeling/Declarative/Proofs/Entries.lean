import Declarative.Proofs.Listing
import Declarative.Proofs.Preorder
import Declarative.Resolver

/-!
# What the walk over a script records

The walk gives a node its place when it comes to it and records the outcome once the
node's values are known, so that outcomes are recorded in another order than nodes are
listed. Here the outcomes are written down in the order of the nodes, by one recursion
over the script (`Resolver.statementEntries`), and the trace of a script whose numbers are
distinct is shown to list just these entries (`Script.toList_resolve`).

The stack is the same after a statement as before it, so each entry depends on the
statements around its node, not on those in front of it.
-/

namespace Declarative

namespace Resolver

variable (schema : Schema) (settings : Settings)

/-! ## The outcomes of single nodes -/

def valueTypes (stack : ScopeStack) (arguments : List Value) : List (Option DataType) :=
  (values schema settings stack arguments).2

def factoryCallOutcome (stack : ScopeStack) (name : Name) (arguments : List Value) :
    Outcome ValueTarget :=
  factoryOutcome schema settings stack name.text (valueTypes schema settings stack arguments)

def callOutcome (stack : ScopeStack) (name : Name) (arguments : List Value) (block : Body) :
    Outcome ElementTarget :=
  elementOutcome schema settings stack block.isPresent name.text
    (valueTypes schema settings stack arguments)

def assignOutcome (stack : ScopeStack) (target : Name) (assigned : Value) :
    Outcome AssignmentTarget :=
  assignmentOutcome schema settings stack target.text (value schema settings stack assigned).2

theorem valueTypes_eq_map (stack : ScopeStack) (arguments : List Value) :
    valueTypes schema settings stack arguments
      = arguments.map fun argument => (value schema settings stack argument).2 := by
  induction arguments with
  | nil => rfl
  | cons first others ih =>
      rw [List.map_cons, ← ih]
      simp only [valueTypes, values]

/-! ## Entries in the order of the script -/

mutual

def valueEntries (stack : ScopeStack) : Value → List (NodeId × Trace.Entry)
  | .literal id _ content => [(id, .value (.resolved (.literal content (literalType content))))]
  | .factory id _ name arguments =>
    (id, .value (factoryCallOutcome schema settings stack name arguments)) ::
      valuesEntries stack arguments

def valuesEntries (stack : ScopeStack) : List Value → List (NodeId × Trace.Entry)
  | [] => []
  | first :: others => valueEntries stack first ++ valuesEntries stack others

end

mutual

def statementEntries (stack : ScopeStack) : Statement → List (NodeId × Trace.Entry)
  | .call id _ name arguments block =>
    let outcome := callOutcome schema settings stack name arguments block
    (id, .element outcome) ::
      (valuesEntries schema settings stack arguments ++
        bodyEntries (stack.push (blockScope outcome)) block)
  | .assign id _ target assigned =>
    (id, .assignment (assignOutcome schema settings stack target assigned)) ::
      valueEntries schema settings stack assigned
  | .error id _ _ => [(id, .element (.failed (.single .isError)))]

/-- What is recorded of the statements of a block, whose scope is on the stack already. -/
def bodyEntries (stack : ScopeStack) : Body → List (NodeId × Trace.Entry)
  | .absent => []
  | .block _ _ inner => statementsEntries stack inner

def statementsEntries (stack : ScopeStack) : List Statement → List (NodeId × Trace.Entry)
  | [] => []
  | first :: others => statementEntries stack first ++ statementsEntries stack others

end

/-! ## The stack is left as it was found -/

mutual

@[simp] theorem statement_snd (stack : ScopeStack) : ∀ s : Statement,
    (statement schema settings stack s).2 = stack
  | .call _ _ name arguments block => by
      simp only [statement]
      exact body_snd stack _ block
  | .assign _ _ _ _ => by simp only [statement]
  | .error _ _ _ => by simp only [statement]

@[simp] theorem body_snd (stack : ScopeStack) (scope : Scope) : ∀ block : Body,
    (body schema settings stack scope block).2 = stack
  | .absent => by simp only [body]
  | .block _ _ inner => by
      simp only [body]
      rw [statements_snd (stack.push scope) inner, ScopeStack.pop_push]

@[simp] theorem statements_snd (stack : ScopeStack) : ∀ ss : List Statement,
    (statements schema settings stack ss).2 = stack
  | [] => by simp only [statements]
  | first :: others => by
      simp only [statements]
      rw [statement_snd stack first, statements_snd stack others]

end

/-! ## The walk lists the nodes in the order of the script -/

mutual

theorem valueEntries_ids (stack : ScopeStack) : ∀ v : Value,
    (valueEntries schema settings stack v).map (·.1) = v.preorder.map Script.Node.id
  | .literal _ _ _ => rfl
  | .factory _ _ _ arguments => by
      rw [valueEntries, Value.preorder, List.map_cons, List.map_cons,
        valuesEntries_ids stack arguments]
      rfl

theorem valuesEntries_ids (stack : ScopeStack) : ∀ vs : List Value,
    (valuesEntries schema settings stack vs).map (·.1)
      = (Value.preorderAll vs).map Script.Node.id
  | [] => rfl
  | first :: others => by
      rw [valuesEntries, Value.preorderAll, List.map_append, List.map_append,
        valueEntries_ids stack first, valuesEntries_ids stack others]

end

mutual

theorem statementEntries_ids (stack : ScopeStack) : ∀ s : Statement,
    (statementEntries schema settings stack s).map (·.1) = s.preorder.map Script.Node.id
  | .call _ _ _ arguments block => by
      rw [statementEntries, Statement.preorder]
      simp only [List.map_cons, List.map_append]
      rw [valuesEntries_ids schema settings stack arguments, bodyEntries_ids _ block]
      rfl
  | .assign _ _ _ assigned => by
      rw [statementEntries, Statement.preorder, List.map_cons, List.map_cons,
        valueEntries_ids schema settings stack assigned]
      rfl
  | .error _ _ _ => rfl

theorem bodyEntries_ids (stack : ScopeStack) : ∀ block : Body,
    (bodyEntries schema settings stack block).map (·.1)
      = (Statement.preorderBody block).map Script.Node.id
  | .absent => rfl
  | .block _ _ inner => statementsEntries_ids stack inner

theorem statementsEntries_ids (stack : ScopeStack) : ∀ ss : List Statement,
    (statementsEntries schema settings stack ss).map (·.1)
      = (Statement.preorderAll ss).map Script.Node.id
  | [] => rfl
  | first :: others => by
      rw [statementsEntries, Statement.preorderAll, List.map_append, List.map_append,
        statementEntries_ids stack first, statementsEntries_ids stack others]

end

/-! ## The trace lists the entries -/

mutual

theorem value_lists (stack : ScopeStack) : ∀ v : Value,
    (value schema settings stack v).1.Lists (valueEntries schema settings stack v)
  | .literal id _ _ => by
      simp only [value, valueEntries]
      exact .leaf id _
  | .factory id _ _ arguments => by
      simp only [value, valueEntries]
      exact (values_lists stack arguments).node id _

theorem values_lists (stack : ScopeStack) : ∀ vs : List Value,
    (values schema settings stack vs).1.Lists (valuesEntries schema settings stack vs)
  | [] => by
      simp only [values, valuesEntries]
      exact .empty
  | first :: others => by
      simp only [values, valuesEntries]
      exact (value_lists stack first).append (values_lists stack others)

end

mutual

theorem statement_lists (stack : ScopeStack) : ∀ s : Statement,
    (statement schema settings stack s).1.Lists (statementEntries schema settings stack s)
  | .call id _ _ arguments block => by
      simp only [statement, statementEntries]
      exact ((values_lists schema settings stack arguments).node id _).append
        (body_lists stack _ block)
  | .assign id _ _ assigned => by
      simp only [statement, statementEntries]
      exact (value_lists schema settings stack assigned).node id _
  | .error id _ _ => by
      simp only [statement, statementEntries]
      exact .leaf id _

theorem body_lists (stack : ScopeStack) (scope : Scope) : ∀ block : Body,
    (body schema settings stack scope block).1.Lists
      (bodyEntries schema settings (stack.push scope) block)
  | .absent => by
      simp only [body, bodyEntries]
      exact .empty
  | .block _ _ inner => by
      simp only [body, bodyEntries]
      exact statements_lists (stack.push scope) inner

theorem statements_lists (stack : ScopeStack) : ∀ ss : List Statement,
    (statements schema settings stack ss).1.Lists (statementsEntries schema settings stack ss)
  | [] => by
      simp only [statements, statementsEntries]
      exact .empty
  | first :: others => by
      simp only [statements, statementsEntries, statement_snd]
      exact (statement_lists stack first).append (statements_lists stack others)

end

end Resolver

namespace Script

variable (schema : Schema) (settings : Settings) (script : Script)

/-- What is recorded of the nodes of a script, in their order. -/
def entries : List (NodeId × Trace.Entry) :=
  Resolver.statementsEntries schema settings (.new schema.topLevel) script.statements

theorem entries_ids : (script.entries schema settings).map (·.1) = script.nodeIds :=
  Resolver.statementsEntries_ids schema settings _ script.statements

theorem resolve_lists : (script.resolve schema settings).Lists (script.entries schema settings) :=
  Resolver.statements_lists schema settings _ script.statements

variable {schema settings script} (hids : script.nodeIds.Nodup)

include hids

theorem entries_ids_nodup : ((script.entries schema settings).map (·.1)).Nodup := by
  rw [entries_ids]
  exact hids

theorem get?_resolve_eq_some_iff {id : NodeId} {entry : Trace.Entry} :
    (script.resolve schema settings).get? id = some entry
      ↔ (id, entry) ∈ script.entries schema settings :=
  (script.resolve_lists schema settings).get?_eq_some_iff (entries_ids_nodup hids)

theorem toList_resolve :
    (script.resolve schema settings).toList = script.entries schema settings :=
  (script.resolve_lists schema settings).toList_eq (entries_ids_nodup hids)

end Script

end Declarative
