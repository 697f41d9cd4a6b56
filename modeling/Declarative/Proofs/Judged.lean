import Declarative.Proofs.Entries
import Declarative.Proofs.Selection

/-!
# The trace records the judgement

For each call and each assignment of a script, wherever it stands, the trace says that it
resolved just where the judgement allows it (`Script.judged_of_nodup`). The judgement is
about the scopes around the place and the types of the values there. Both are read off the
trace itself: the scope of a block is what is recorded of its call, the type of a value is
what is recorded of the value. So the resolved calls of a script are determined from the
outside inward, without any stack.

The walk has a stack at each place (`Resolver.stackInside`). That it holds just the scopes
recorded of the calls around (`Script.Stands.reached`) is shown by induction on the place,
from one block to the next inside of it.
-/

namespace Declarative

/-! ## Places in a script -/

def Statement.inner : Statement → List Statement
  | call _ _ _ _ block => block.statements
  | assign .. => []
  | error .. => []

/-- The arguments of a call, or the value of an assignment. -/
def Statement.values : Statement → List Value
  | call _ _ _ arguments _ => arguments
  | assign _ _ _ assigned => [assigned]
  | error .. => []

def Value.arguments : Value → List Value
  | literal .. => []
  | factory _ _ _ arguments => arguments

/-- The statement is one of the script, inside of the blocks of the calls, the innermost
first. -/
inductive Script.Stands (script : Script) : List Statement → Statement → Prop where
  | top {s} : s ∈ script.statements → Stands script [] s
  | inside {calls call s} :
      Stands script calls call → s ∈ call.inner → Stands script (call :: calls) s

/-- The value is somewhere in the statement, but not in its block. -/
inductive Statement.Holds (s : Statement) : Value → Prop where
  | direct {v} : v ∈ s.values → Holds s v
  | argument {outer v} : Holds s outer → v ∈ outer.arguments → Holds s v

/-! ## Types and scopes, as a trace has them -/

namespace Trace

/-- The type of a value that is recorded as a success. -/
def typeOf? (trace : Trace) (v : Value) : Option DataType :=
  match trace.get? v.id with
  | some (.value outcome) => outcome.target?.map ValueTarget.type
  | _ => none

/-- The scope of a call's block: the receiver that the recorded success configures. -/
def scopeOf (trace : Trace) (call : Statement) : Scope :=
  match trace.get? call.id with
  | some (.element outcome) => Resolver.blockScope outcome
  | _ => .unresolved

/-- The scopes at a place inside of the blocks of the calls. -/
def scopesAround (trace : Trace) (topLevel : String) (calls : List Statement) : List Scope :=
  calls.map trace.scopeOf ++ [.receiver topLevel]

/-- The values are recorded as successes, of these types. -/
def HaveTypes (trace : Trace) : List Value → List DataType → Prop :=
  List.Forall₂ fun v type => trace.typeOf? v = some type

theorem haveTypes_iff {trace : Trace} {values : List Value} {types : List DataType} :
    trace.HaveTypes values types ↔ values.map trace.typeOf? = types.map some := by
  rw [HaveTypes, ← List.forall₂_eq_eq_eq, List.forall₂_map_left_iff, List.forall₂_map_right_iff]

end Trace

/-! ## Entries inside of entries -/

namespace Resolver

variable {schema : Schema} {settings : Settings} {stack : ScopeStack}

theorem valueEntries_subset_of_mem {v : Value} : ∀ {vs : List Value}, v ∈ vs →
    valueEntries schema settings stack v ⊆ valuesEntries schema settings stack vs
  | first :: others, hv => by
      rw [valuesEntries]
      rcases List.mem_cons.mp hv with rfl | hv
      · exact List.subset_append_left _ _
      · exact List.Subset.trans (valueEntries_subset_of_mem hv) (List.subset_append_right _ _)

theorem statementEntries_subset_of_mem {s : Statement} : ∀ {ss : List Statement}, s ∈ ss →
    statementEntries schema settings stack s ⊆ statementsEntries schema settings stack ss
  | first :: others, hs => by
      rw [statementsEntries]
      rcases List.mem_cons.mp hs with rfl | hs
      · exact List.subset_append_left _ _
      · exact List.Subset.trans (statementEntries_subset_of_mem hs) (List.subset_append_right _ _)

theorem valueEntries_subset_of_argument {outer v : Value} (hv : v ∈ outer.arguments) :
    valueEntries schema settings stack v ⊆ valueEntries schema settings stack outer := by
  cases outer with
  | literal id span content => cases hv
  | factory id span name arguments =>
      rw [valueEntries]
      exact List.Subset.trans (valueEntries_subset_of_mem hv) (List.subset_cons_self _ _)

theorem valueEntries_subset_of_value {s : Statement} {v : Value} (hv : v ∈ s.values) :
    valueEntries schema settings stack v ⊆ statementEntries schema settings stack s := by
  cases s with
  | call id span name arguments block =>
      rw [statementEntries]
      exact List.subset_cons_of_subset _
        (List.subset_append_of_subset_left _ (valueEntries_subset_of_mem hv))
  | assign id span target assigned =>
      obtain rfl := List.mem_singleton.mp hv
      rw [statementEntries]
      exact List.subset_cons_self _ _
  | error id span message => cases hv

theorem valueEntries_subset_of_holds {s : Statement} {v : Value} (h : s.Holds v) :
    valueEntries schema settings stack v ⊆ statementEntries schema settings stack s := by
  induction h with
  | direct hv => exact valueEntries_subset_of_value hv
  | argument _ hv ih => exact List.Subset.trans (valueEntries_subset_of_argument hv) ih

theorem mem_valueEntries_literal {id : NodeId} {span : Span} {content : Literal} :
    (id, .value (.resolved (.literal content (literalType content))))
      ∈ valueEntries schema settings stack (.literal id span content) := by
  rw [valueEntries]
  exact List.mem_cons_self ..

theorem mem_valueEntries_factory {id : NodeId} {span : Span} {name : Name}
    {arguments : List Value} :
    (id, .value (factoryCallOutcome schema settings stack name arguments))
      ∈ valueEntries schema settings stack (.factory id span name arguments) := by
  rw [valueEntries]
  exact List.mem_cons_self ..

theorem exists_mem_valueEntries (v : Value) : ∃ outcome : Outcome ValueTarget,
    (v.id, .value outcome) ∈ valueEntries schema settings stack v
      ∧ (value schema settings stack v).2 = outcome.target?.map ValueTarget.type := by
  cases v with
  | literal id span content =>
      refine ⟨_, mem_valueEntries_literal, ?_⟩
      simp only [value]
      rfl
  | factory id span name arguments =>
      refine ⟨_, mem_valueEntries_factory, ?_⟩
      simp only [value]
      rfl

/-- The entries of a block's statements, with the scope of the block on the stack. -/
theorem statementEntries_subset_of_inner {id : NodeId} {span : Span} {name : Name}
    {arguments : List Value} {block : Body} {s : Statement}
    (hs : s ∈ (Statement.call id span name arguments block).inner) :
    statementEntries schema settings
        (stack.push (blockScope (callOutcome schema settings stack name arguments block))) s
      ⊆ statementEntries schema settings stack (.call id span name arguments block) := by
  cases block with
  | absent => cases hs
  | block blockId blockSpan inner =>
      rw [statementEntries]
      exact List.subset_cons_of_subset _
        (List.subset_append_of_subset_right _ (statementEntries_subset_of_mem hs))

/-- A call resolves only where the scope around has a receiver. -/
theorem exists_current_of_blockScope {hasBlock : Bool} {name : String}
    {types : List (Option DataType)}
    (h : ∃ receiver, blockScope (elementOutcome schema settings stack hasBlock name types)
      = .receiver receiver) :
    ∃ current, stack.current = .receiver current := by
  cases hcurrent : stack.current with
  | receiver current => exact ⟨current, rfl⟩
  | unresolved => simp [elementOutcome, hcurrent, blockScope] at h

/-! ## The stack at a place -/

variable (schema settings)

/-- The scope that a statement gives to its block, where the walk comes to it with the stack. -/
def innerScope (stack : ScopeStack) : Statement → Scope
  | .call _ _ name arguments block =>
    blockScope (callOutcome schema settings stack name arguments block)
  | .assign .. => .unresolved
  | .error .. => .unresolved

/-- The stack that the walk has inside of the blocks of the calls, the innermost first. -/
def stackInside : List Statement → ScopeStack
  | [] => .new schema.topLevel
  | call :: calls =>
    (stackInside calls).push (innerScope schema settings (stackInside calls) call)

variable {schema settings}

theorem exists_current_of_innerScope {call : Statement}
    (h : ∃ receiver, innerScope schema settings stack call = .receiver receiver) :
    ∃ current, stack.current = .receiver current := by
  cases call with
  | call id span name arguments block => exact exists_current_of_blockScope h
  | assign id span target assigned => simp [innerScope] at h
  | error id span message => simp [innerScope] at h

variable (schema settings)

theorem grounded_stackInside (calls : List Statement) :
    (stackInside schema settings calls).Grounded := by
  induction calls with
  | nil => exact ScopeStack.grounded_new _
  | cons call calls ih => exact ih.push exists_current_of_innerScope

end Resolver

namespace Script

variable {schema : Schema} {settings : Settings} {script : Script} (hids : script.nodeIds.Nodup)

theorem Stands.entries_subset {calls : List Statement} {s : Statement} (h : script.Stands calls s) :
    Resolver.statementEntries schema settings (Resolver.stackInside schema settings calls) s
      ⊆ script.entries schema settings := by
  induction h with
  | top hs => exact Resolver.statementEntries_subset_of_mem hs
  | @inside calls call s _ hs ih =>
      cases call with
      | call id span name arguments block =>
          exact List.Subset.trans (Resolver.statementEntries_subset_of_inner hs) ih
      | assign id span target assigned => cases hs
      | error id span message => cases hs

/-- The walk comes to the statement, inside of the blocks of the calls, with the stack. -/
structure Reached (schema : Schema) (settings : Settings) (script : Script) (calls : List Statement)
    (s : Statement) (stack : ScopeStack) : Prop where
  scopes : stack.scopes = (script.resolve schema settings).scopesAround schema.topLevel calls
  grounded : stack.Grounded
  entries : Resolver.statementEntries schema settings stack s ⊆ script.entries schema settings

theorem Reached.valueEntries_subset {calls : List Statement} {s : Statement} {stack : ScopeStack}
    (h : script.Reached schema settings calls s stack) {v : Value} (hv : s.Holds v) :
    Resolver.valueEntries schema settings stack v ⊆ script.entries schema settings :=
  List.Subset.trans (Resolver.valueEntries_subset_of_holds hv) h.entries

include hids

/-- What the walk decides of a call when it comes to it is what is recorded of the call. -/
theorem Reached.get?_call {calls : List Statement} {stack : ScopeStack} {id : NodeId} {span : Span}
    {name : Name} {arguments : List Value} {block : Body}
    (h : script.Reached schema settings calls (.call id span name arguments block) stack) :
    (script.resolve schema settings).get? id
      = some (.element (Resolver.callOutcome schema settings stack name arguments block)) := by
  refine (get?_resolve_eq_some_iff hids).mpr (h.entries ?_)
  rw [Resolver.statementEntries]
  exact List.mem_cons_self ..

/-- The scopes on the walk's own stack are those recorded of the calls around, from the outside inward. -/
theorem Stands.reached {calls : List Statement} {s : Statement} (h : script.Stands calls s) :
    script.Reached schema settings calls s (Resolver.stackInside schema settings calls) := by
  induction h with
  | top hs =>
      exact ⟨rfl, Resolver.grounded_stackInside _ _ _, (Stands.top hs).entries_subset⟩
  | @inside calls call s hcall hs ih =>
      refine ⟨?_, Resolver.grounded_stackInside _ _ _, (hcall.inside hs).entries_subset⟩
      cases call with
      | call id span name arguments block =>
          rw [Resolver.stackInside, ScopeStack.scopes_push, ih.scopes, Trace.scopesAround,
            Trace.scopesAround, List.map_cons, List.cons_append, Trace.scopeOf, Statement.id,
            ih.get?_call hids, Resolver.innerScope]
      | assign id span target assigned => cases hs
      | error id span message => cases hs

theorem exists_reached {calls : List Statement} {s : Statement} (h : script.Stands calls s) :
    ∃ stack, script.Reached schema settings calls s stack :=
  ⟨_, h.reached hids⟩

/-- The type that the walk finds for a value is the one recorded of the value. -/
theorem typeOf?_eq {stack : ScopeStack} {v : Value}
    (hv : Resolver.valueEntries schema settings stack v ⊆ script.entries schema settings) :
    (script.resolve schema settings).typeOf? v = (Resolver.value schema settings stack v).2 := by
  obtain ⟨outcome, hmem, htype⟩ := @Resolver.exists_mem_valueEntries schema settings stack v
  rw [Trace.typeOf?, (get?_resolve_eq_some_iff hids).mpr (hv hmem), htype]

theorem valueTypes_eq {stack : ScopeStack} {arguments : List Value}
    (h : ∀ v ∈ arguments,
      Resolver.valueEntries schema settings stack v ⊆ script.entries schema settings) :
    Resolver.valueTypes schema settings stack arguments
      = arguments.map (script.resolve schema settings).typeOf? := by
  rw [Resolver.valueTypes_eq_map]
  exact List.map_congr_left fun v hv => (typeOf?_eq hids (h v hv)).symm

end Script

/-! ## The trace records the judgement -/

namespace Script

/-- What it means that the trace of a script records successes by the judgement. -/
structure Judged (schema : Schema) (settings : Settings) (script : Script) : Prop where
  /-- A call statement adds or configures an element, as its function does. -/
  calls : ∀ {calls id span name arguments block},
    script.Stands calls (.call id span name arguments block) → ∀ target : ElementTarget,
      (script.resolve schema settings).get? id = some (.element (.resolved target)) ↔
        ∃ types, (script.resolve schema settings).HaveTypes arguments types
          ∧ Binds schema settings
              ((script.resolve schema settings).scopesAround schema.topLevel calls)
              (.statement block.isPresent) name.text types target.receiver target.function
          ∧ ElementTarget.ofFunction? target.receiver target.function = some target
  factories : ∀ {calls s id span name arguments}, script.Stands calls s →
    s.Holds (.factory id span name arguments) → ∀ f : Schema.Function,
      (script.resolve schema settings).get? id = some (.value (.resolved (.factory f))) ↔
        ∃ types receiver, (script.resolve schema settings).HaveTypes arguments types
          ∧ Binds schema settings
              ((script.resolve schema settings).scopesAround schema.topLevel calls)
              .value name.text types receiver f
  literals : ∀ {calls s id span content}, script.Stands calls s →
    s.Holds (.literal id span content) →
      (script.resolve schema settings).get? id
        = some (.value (.resolved (.literal content (Resolver.literalType content))))
  assignments : ∀ {calls id span name assigned},
    script.Stands calls (.assign id span name assigned) → ∀ target : AssignmentTarget,
      (script.resolve schema settings).get? id = some (.assignment (.resolved target)) ↔
        ∃ type, (script.resolve schema settings).typeOf? assigned = some type
          ∧ Assigns schema settings
              ((script.resolve schema settings).scopesAround schema.topLevel calls)
              name.text type target.receiver target.property

section

variable {b : Schema.Builder} {schema : Schema} (hb : b.build = .ok schema) {settings : Settings}
  {script : Script} (hids : script.nodeIds.Nodup) {calls : List Statement} {stack : ScopeStack}

include hb hids

theorem Reached.call_iff {id : NodeId} {span : Span} {name : Name} {arguments : List Value}
    {block : Body}
    (h : script.Reached schema settings calls (.call id span name arguments block) stack)
    (target : ElementTarget) :
    (script.resolve schema settings).get? id = some (.element (.resolved target)) ↔
      ∃ types, (script.resolve schema settings).HaveTypes arguments types
        ∧ Binds schema settings
            ((script.resolve schema settings).scopesAround schema.topLevel calls)
            (.statement block.isPresent) name.text types target.receiver target.function
        ∧ ElementTarget.ofFunction? target.receiver target.function = some target := by
  have harguments : ∀ v ∈ arguments,
      Resolver.valueEntries schema settings stack v ⊆ script.entries schema settings :=
    fun v hv => h.valueEntries_subset (.direct hv)
  rw [h.get?_call hids, Option.some.injEq, Trace.Entry.element.injEq, Resolver.callOutcome,
    Resolver.elementOutcome_eq_resolved_iff hb h.grounded, valueTypes_eq hids harguments, h.scopes]
  simp only [Trace.haveTypes_iff]

theorem Reached.factory_iff {s : Statement} {id : NodeId} {span : Span} {name : Name}
    {arguments : List Value} (h : script.Reached schema settings calls s stack)
    (hv : s.Holds (.factory id span name arguments)) (f : Schema.Function) :
    (script.resolve schema settings).get? id = some (.value (.resolved (.factory f))) ↔
      ∃ types receiver, (script.resolve schema settings).HaveTypes arguments types
        ∧ Binds schema settings
            ((script.resolve schema settings).scopesAround schema.topLevel calls)
            .value name.text types receiver f := by
  have harguments : ∀ v ∈ arguments,
      Resolver.valueEntries schema settings stack v ⊆ script.entries schema settings :=
    fun v harg => h.valueEntries_subset (hv.argument harg)
  have hget := (get?_resolve_eq_some_iff hids).mpr
    (h.valueEntries_subset hv Resolver.mem_valueEntries_factory)
  rw [hget, Option.some.injEq, Trace.Entry.value.injEq, Resolver.factoryCallOutcome,
    Resolver.factoryOutcome_eq_resolved_iff hb h.grounded, valueTypes_eq hids harguments, h.scopes]
  simp only [Trace.haveTypes_iff]

theorem Reached.assign_iff {id : NodeId} {span : Span} {name : Name} {assigned : Value}
    (h : script.Reached schema settings calls (.assign id span name assigned) stack)
    (target : AssignmentTarget) :
    (script.resolve schema settings).get? id = some (.assignment (.resolved target)) ↔
      ∃ type, (script.resolve schema settings).typeOf? assigned = some type
        ∧ Assigns schema settings
            ((script.resolve schema settings).scopesAround schema.topLevel calls)
            name.text type target.receiver target.property := by
  have hassigned := h.valueEntries_subset (.direct (List.mem_singleton_self _))
  have hget := (get?_resolve_eq_some_iff hids).mpr (h.entries (by
    rw [Resolver.statementEntries]
    exact List.mem_cons_self ..))
  rw [hget, Option.some.injEq, Trace.Entry.assignment.injEq, Resolver.assignOutcome,
    Resolver.assignmentOutcome_eq_resolved_iff hb h.grounded, typeOf?_eq hids hassigned, h.scopes]

/-- **Resolution is sound and complete for the judgement**, with every schema that was
built. -/
theorem judged_of_nodup (settings : Settings) : script.Judged schema settings where
  calls hstands target := by
    obtain ⟨stack, hstack⟩ := exists_reached hids hstands
    exact hstack.call_iff hb hids target
  factories hstands hv f := by
    obtain ⟨stack, hstack⟩ := exists_reached hids hstands
    exact hstack.factory_iff hb hids hv f
  literals hstands hv := by
    obtain ⟨stack, hstack⟩ := exists_reached hids hstands
    exact (get?_resolve_eq_some_iff hids).mpr
      (hstack.valueEntries_subset hv Resolver.mem_valueEntries_literal)
  assignments hstands target := by
    obtain ⟨stack, hstack⟩ := exists_reached hids hstands
    exact hstack.assign_iff hb hids target

end

/-- A bed is added with a count that the garden makes, and in the bed a property of the
garden is assigned: strict checks refuse this. -/
theorem judged_of_nodup_garden :
    let builder := (Schema.Builder.empty "Garden").declare "Garden"
        [.adding "bed" [.long] "Bed" .required, .adding "bed" [.string] "Bed" .allowed,
          .factory "count" [.int] .long, .property "name" .string false false]
      |>.declare "Bed" []
    let schema := Schema.ofClasses builder.topLevel builder.classes [("Garden", []), ("Bed", [])]
    let name (text : String) : Name := ⟨text, ⟨0, 0⟩⟩
    let script : Script := ⟨"garden", [
      .call ⟨0⟩ ⟨0, 40⟩ (name "bed")
        [.factory ⟨1⟩ ⟨4, 12⟩ (name "count") [.literal ⟨2⟩ ⟨10, 11⟩ (.int 3)]]
        (.block ⟨3⟩ ⟨14, 40⟩ [
          .assign ⟨4⟩ ⟨16, 38⟩ (name "name") (.literal ⟨5⟩ ⟨23, 38⟩ (.string "north"))])], ⟨0, 40⟩⟩
    builder.build = .ok schema ∧ script.nodeIds.Nodup ∧ script.Judged schema ⟨true⟩ := by
  intro builder schema name script
  have hb : builder.build = .ok schema := rfl
  have hids : script.nodeIds.Nodup := by decide +revert
  exact ⟨hb, hids, judged_of_nodup hb hids _⟩

end Script

end Declarative
