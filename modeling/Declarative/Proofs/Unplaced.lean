import Declarative.Proofs.Alignment

/-!
# Scripts without their places

Every statement, value, block and name of a script has a span. Putting all of them at the start of
the text leaves of a script what it says: its shape, names, literals, numbers and the messages of
its error statements (`Script.unplaced`). Two scripts are equal up to spans if they are equal without
places.

Resolving looks at none of the spans, so a script without places has the same trace
(`Script.resolve_unplaced`) and its resolutions are shown as the same lines
(`Script.render_unplaced`).
-/

namespace Declarative

/-- The place that all have in common that have none. -/
def Span.nowhere : Span := .point 0

def Name.unplaced (name : Name) : Name := { name with span := .nowhere }

mutual

def Value.unplaced : Value → Value
  | .literal id _ content => .literal id .nowhere content
  | .factory id _ name arguments => .factory id .nowhere name.unplaced (Value.unplacedAll arguments)

def Value.unplacedAll : List Value → List Value
  | [] => []
  | value :: values => value.unplaced :: Value.unplacedAll values

end

mutual

def Statement.unplaced : Statement → Statement
  | .call id _ name arguments body =>
    .call id .nowhere name.unplaced (Value.unplacedAll arguments) body.unplaced
  | .assign id _ target value => .assign id .nowhere target.unplaced value.unplaced
  | .error id _ message => .error id .nowhere message

def Body.unplaced : Body → Body
  | .absent => .absent
  | .block id _ statements => .block id .nowhere (Statement.unplacedAll statements)

def Statement.unplacedAll : List Statement → List Statement
  | [] => []
  | statement :: statements => statement.unplaced :: Statement.unplacedAll statements

end

namespace Script

def unplaced (script : Script) : Script :=
  ⟨script.source, Statement.unplacedAll script.statements, .nowhere⟩

def Node.unplaced : Node → Node
  | .statement s => .statement s.unplaced
  | .value v => .value v.unplaced

end Script

@[simp] theorem Body.isPresent_unplaced (block : Body) :
    block.unplaced.isPresent = block.isPresent := by
  cases block <;> rfl

/-! ## Resolving without places -/

namespace Resolver

variable (schema : Schema) (settings : Settings)

mutual

@[simp] theorem value_unplaced (stack : ScopeStack) : ∀ v : Value,
    value schema settings stack v.unplaced = value schema settings stack v
  | .literal _ _ _ => by simp only [Value.unplaced, value]
  | .factory _ _ _ arguments => by
      simp only [Value.unplaced, value, Name.unplaced]
      rw [values_unplaced stack arguments]

@[simp] theorem values_unplaced (stack : ScopeStack) : ∀ vs : List Value,
    values schema settings stack (Value.unplacedAll vs) = values schema settings stack vs
  | [] => rfl
  | first :: others => by
      simp only [Value.unplacedAll, values]
      rw [value_unplaced stack first, values_unplaced stack others]

end

mutual

theorem statement_unplaced (stack : ScopeStack) : ∀ s : Statement,
    statement schema settings stack s.unplaced = statement schema settings stack s
  | .call _ _ _ _ block => by
      simp only [Statement.unplaced, statement, Name.unplaced, values_unplaced,
        Body.isPresent_unplaced]
      rw [body_unplaced stack _ block]
  | .assign _ _ _ _ => by
      simp only [Statement.unplaced, statement, Name.unplaced, value_unplaced]
  | .error _ _ _ => by simp only [Statement.unplaced, statement]

theorem body_unplaced (stack : ScopeStack) (scope : Scope) : ∀ block : Body,
    body schema settings stack scope block.unplaced = body schema settings stack scope block
  | .absent => rfl
  | .block _ _ inner => by
      simp only [Body.unplaced, body]
      rw [statements_unplaced (stack.push scope) inner]

theorem statements_unplaced (stack : ScopeStack) : ∀ ss : List Statement,
    statements schema settings stack (Statement.unplacedAll ss)
      = statements schema settings stack ss
  | [] => rfl
  | first :: others => by
      simp only [Statement.unplacedAll, statements, statement_snd]
      rw [statement_unplaced stack first, statements_unplaced stack others]

end

end Resolver

/-! ## The nodes without places -/

mutual

theorem Value.preorder_unplaced : ∀ v : Value,
    v.unplaced.preorder = v.preorder.map Script.Node.unplaced
  | .literal _ _ _ => rfl
  | .factory _ _ _ arguments => by
      rw [Value.unplaced, Value.preorder, Value.preorder, List.map_cons,
        Value.preorderAll_unplaced arguments, Script.Node.unplaced, Value.unplaced]

theorem Value.preorderAll_unplaced : ∀ vs : List Value,
    Value.preorderAll (Value.unplacedAll vs) = (Value.preorderAll vs).map Script.Node.unplaced
  | [] => rfl
  | v :: vs => by
      rw [Value.unplacedAll, Value.preorderAll, Value.preorderAll, List.map_append,
        Value.preorder_unplaced v, Value.preorderAll_unplaced vs]

end

mutual

theorem Statement.preorder_unplaced : ∀ s : Statement,
    s.unplaced.preorder = s.preorder.map Script.Node.unplaced
  | .call _ _ _ arguments block => by
      rw [Statement.unplaced, Statement.preorder, Statement.preorder, List.map_cons, List.map_append,
        Value.preorderAll_unplaced arguments, Statement.preorderBody_unplaced block,
        Script.Node.unplaced, Statement.unplaced]
  | .assign _ _ _ assigned => by
      rw [Statement.unplaced, Statement.preorder, Statement.preorder, List.map_cons,
        Value.preorder_unplaced assigned, Script.Node.unplaced, Statement.unplaced]
  | .error _ _ _ => rfl

theorem Statement.preorderBody_unplaced : ∀ block : Body,
    Statement.preorderBody block.unplaced
      = (Statement.preorderBody block).map Script.Node.unplaced
  | .absent => rfl
  | .block _ _ inner => Statement.preorderAll_unplaced inner

theorem Statement.preorderAll_unplaced : ∀ ss : List Statement,
    Statement.preorderAll (Statement.unplacedAll ss)
      = (Statement.preorderAll ss).map Script.Node.unplaced
  | [] => rfl
  | s :: ss => by
      rw [Statement.unplacedAll, Statement.preorderAll, Statement.preorderAll, List.map_append,
        Statement.preorder_unplaced s, Statement.preorderAll_unplaced ss]

end

namespace Script

@[simp] theorem Node.id_unplaced (node : Node) : node.unplaced.id = node.id := by
  rcases node with (_ | _ | _) | (_ | _) <;> rfl

@[simp] theorem Node.resolution_unplaced (node : Node) (recorded : Option Trace.Entry) :
    node.unplaced.resolution recorded = node.resolution recorded := by
  rcases node with (_ | _ | _) | (_ | _) <;> rfl

variable (schema : Schema) (settings : Settings) (script : Script)

theorem resolve_unplaced :
    script.unplaced.resolve schema settings = script.resolve schema settings := by
  rw [resolve, resolve, unplaced, Resolver.statements_unplaced]

theorem render_unplaced :
    (script.unplaced.resolvedDocument schema settings).render
      = (script.resolvedDocument schema settings).render := by
  rw [render_resolvedDocument, render_resolvedDocument, resolve_unplaced, preorder, preorder, unplaced,
    Statement.preorderAll_unplaced, List.map_map]
  simp only [Function.comp_def, Node.id_unplaced, Node.resolution_unplaced]

end Script

end Declarative
