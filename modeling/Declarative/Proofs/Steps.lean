import Mathlib.Logic.Relation
import Declarative.Proofs.Entries

/-!
# The walk over a script, step by step

The resolver walks over a script by recursion. Here the walk is taken apart into steps: a state has
the stack, the trace so far, the types of the values that no call or assignment has taken yet, and the
tasks that are left (`Resolver.State`). Each step carries out the first task. What the recursion keeps
in its calls is among the tasks: a call whose arguments are walked over, and a block that is still to be
left.

Step by step and by recursion the same is recorded. A value puts its type in front of the types
(`Resolver.steps_value`), a statement leaves the stack and the types as they were
(`Resolver.steps_statement`). So from the first state on the steps lead to the trace of the script and end
there (`Script.steps_resolve`), and every state that they come by is on this way
(`Script.steps_done_of_steps`).
-/

namespace Declarative

theorem Trace.append_empty (trace : Trace) : trace ++ Trace.empty = trace :=
  (Trace.mk.injEq ..).mpr ⟨List.append_nil _, List.append_nil _⟩

namespace Resolver

/-! ## States and steps -/

/-- What is left to do of a walk. -/
inductive Task where
  | statement (statement : Statement)
  | value (value : Value)
  /-- The arguments of a value have types, and its call is decided. -/
  | factory (id : NodeId) (name : Name) (count : Nat)
  /-- The arguments of a statement have types, its call is decided and its block is entered. -/
  | call (id : NodeId) (span : Span) (name : Name) (arguments : List Value) (block : Body)
  /-- The value has a type, and the assignment is decided. -/
  | assign (id : NodeId) (target : Name)
  /-- The block of a call is left. -/
  | leave (call : Statement)

/-- Where a walk stands. -/
structure State where
  stack : ScopeStack
  trace : Trace
  /-- The types of values that are not taken yet, that of the last value first. -/
  types : List (Option DataType)
  tasks : List Task

/-- Carries out the first task. -/
def step (schema : Schema) (settings : Settings) (st : State) : Option State :=
  match st.tasks with
  | [] => none
  | .statement (.call id span name arguments block) :: rest =>
    some { st with
      trace := st.trace ++ .reserve id
      tasks := arguments.map .value ++ .call id span name arguments block :: rest }
  | .statement (.assign id _ target assigned) :: rest =>
    some { st with
      trace := st.trace ++ .reserve id
      tasks := .value assigned :: .assign id target :: rest }
  | .statement (.error id _ _) :: rest =>
    some { st with
      trace := st.trace ++ (.reserve id ++ .record id (.element (.failed (.single .isError))))
      tasks := rest }
  | .value (.literal id _ content) :: rest =>
    let type := literalType content
    some { st with
      trace := st.trace ++ (.reserve id ++ .record id (.value (.resolved (.literal content type))))
      types := some type :: st.types
      tasks := rest }
  | .value (.factory id _ name arguments) :: rest =>
    some { st with
      trace := st.trace ++ .reserve id
      tasks := arguments.map .value ++ .factory id name arguments.length :: rest }
  | .factory id name count :: rest =>
    let outcome := factoryOutcome schema settings st.stack name.text (st.types.take count).reverse
    some { st with
      trace := st.trace ++ .record id (.value outcome)
      types := outcome.target?.map ValueTarget.type :: st.types.drop count
      tasks := rest }
  | .call id span name arguments block :: rest =>
    let outcome := elementOutcome schema settings st.stack block.isPresent name.text
      (st.types.take arguments.length).reverse
    let trace := st.trace ++ .record id (.element outcome)
    let types := st.types.drop arguments.length
    match block with
    | .absent => some ⟨st.stack, trace, types, rest⟩
    | .block bid bspan inner =>
      some ⟨st.stack.push (blockScope outcome), trace, types,
        inner.map .statement ++
          .leave (.call id span name arguments (.block bid bspan inner)) :: rest⟩
  | .assign id target :: rest =>
    let outcome := assignmentOutcome schema settings st.stack target.text (st.types.headD none)
    some { st with
      trace := st.trace ++ .record id (.assignment outcome)
      types := st.types.tail
      tasks := rest }
  | .leave _ :: rest => some { st with stack := st.stack.pop, tasks := rest }

/-- One state after another, as many steps as it takes. -/
def Steps (schema : Schema) (settings : Settings) : State → State → Prop :=
  Relation.ReflTransGen fun st next => step schema settings st = some next

variable {schema : Schema} {settings : Settings}

theorem Steps.of_step {st next last : State} (h : step schema settings st = some next)
    (hlast : Steps schema settings next last) : Steps schema settings st last :=
  Relation.ReflTransGen.head h hlast

theorem Steps.trans {st next last : State} (h : Steps schema settings st next)
    (hlast : Steps schema settings next last) : Steps schema settings st last :=
  Relation.ReflTransGen.trans h hlast

/-! ## Step by step the recursion is carried out -/

variable (schema settings)

/-- The arguments of a call have as many types as there are arguments. -/
theorem length_valueTypes (stack : ScopeStack) (arguments : List Value) :
    (valueTypes schema settings stack arguments).reverse.length = arguments.length := by
  rw [valueTypes_eq_map, List.length_reverse, List.length_map]

/-- A call takes the types of its arguments. -/
theorem take_valueTypes (stack : ScopeStack) (arguments : List Value)
    (types : List (Option DataType)) :
    (((valueTypes schema settings stack arguments).reverse ++ types).take arguments.length).reverse
      = valueTypes schema settings stack arguments := by
  rw [List.take_left' (length_valueTypes schema settings stack arguments), List.reverse_reverse]

theorem drop_valueTypes (stack : ScopeStack) (arguments : List Value)
    (types : List (Option DataType)) :
    ((valueTypes schema settings stack arguments).reverse ++ types).drop arguments.length = types :=
  List.drop_left' (length_valueTypes schema settings stack arguments)

mutual

/-- A value puts its type in front of the types. -/
theorem steps_value : ∀ (v : Value) (stack : ScopeStack) (trace : Trace)
    (types : List (Option DataType)) (rest : List Task),
    Steps schema settings ⟨stack, trace, types, .value v :: rest⟩
      ⟨stack, trace ++ (value schema settings stack v).1,
        (value schema settings stack v).2 :: types, rest⟩
  | .literal _ _ _, stack, trace, types, rest => by
      simp only [value]
      exact .of_step rfl .refl
  | .factory id span name arguments, stack, trace, types, rest => by
      have harguments := steps_values arguments stack (trace ++ .reserve id) types
        (.factory id name arguments.length :: rest)
      refine .of_step rfl (harguments.trans (.of_step rfl ?_))
      rw [← valueTypes, take_valueTypes, drop_valueTypes]
      simp only [value, Trace.append_assoc]
      exact .refl

/-- Values put their types in front of the types, one after another. -/
theorem steps_values : ∀ (vs : List Value) (stack : ScopeStack) (trace : Trace)
    (types : List (Option DataType)) (rest : List Task),
    Steps schema settings ⟨stack, trace, types, vs.map .value ++ rest⟩
      ⟨stack, trace ++ (values schema settings stack vs).1,
        (values schema settings stack vs).2.reverse ++ types, rest⟩
  | [], stack, trace, types, rest => by
      simp only [values, Trace.append_empty]
      exact .refl
  | first :: others, stack, trace, types, rest => by
      refine (steps_value first stack trace types _).trans ?_
      have hothers := steps_values others stack (trace ++ (value schema settings stack first).1)
        ((value schema settings stack first).2 :: types) rest
      simp only [values, List.reverse_cons, List.append_assoc, List.singleton_append]
      rwa [← Trace.append_assoc]

end

mutual

/-- A statement leaves the stack and the types as they were. -/
theorem steps_statement : ∀ (s : Statement) (stack : ScopeStack) (trace : Trace)
    (types : List (Option DataType)) (rest : List Task),
    Steps schema settings ⟨stack, trace, types, .statement s :: rest⟩
      ⟨stack, trace ++ (statement schema settings stack s).1, types, rest⟩
  | .call id span name arguments block, stack, trace, types, rest => by
      have harguments := steps_values schema settings arguments stack (trace ++ .reserve id) types
        (.call id span name arguments block :: rest)
      have hcall := steps_call id span name arguments block stack
        (trace ++ .reserve id ++ (values schema settings stack arguments).1) types rest
      refine .of_step rfl (harguments.trans ?_)
      simp only [statement]
      rwa [← Trace.append_assoc, ← Trace.append_assoc, ← Trace.append_assoc]
  | .assign id span target assigned, stack, trace, types, rest => by
      have hassigned := steps_value schema settings assigned stack (trace ++ .reserve id) types
        (.assign id target :: rest)
      refine .of_step rfl (hassigned.trans (.of_step rfl ?_))
      simp only [statement, Trace.append_assoc]
      exact .refl
  | .error id span message, stack, trace, types, rest => by
      simp only [statement]
      exact .of_step rfl .refl

/-- The call is decided, and its block is walked over and left. -/
theorem steps_call : ∀ (id : NodeId) (span : Span) (name : Name) (arguments : List Value)
    (block : Body) (stack : ScopeStack) (trace : Trace) (types : List (Option DataType))
    (rest : List Task),
    let outcome := callOutcome schema settings stack name arguments block
    Steps schema settings
      ⟨stack, trace, (valueTypes schema settings stack arguments).reverse ++ types,
        .call id span name arguments block :: rest⟩
      ⟨stack, trace ++ .record id (.element outcome)
        ++ (body schema settings stack (blockScope outcome) block).1, types, rest⟩
  | id, span, name, arguments, .absent, stack, trace, types, rest => by
      intro outcome
      refine .of_step rfl ?_
      rw [take_valueTypes, drop_valueTypes]
      simp only [body, Trace.append_empty]
      exact .refl
  | id, span, name, arguments, .block bid bspan inner, stack, trace, types, rest => by
      intro outcome
      refine .of_step rfl ?_
      rw [take_valueTypes, drop_valueTypes]
      have hinner := steps_statements inner (stack.push (blockScope outcome))
        (trace ++ .record id (.element outcome)) types
        (.leave (.call id span name arguments (.block bid bspan inner)) :: rest)
      refine hinner.trans (.of_step rfl ?_)
      simp only [body, ScopeStack.pop_push]
      exact .refl

/-- Statements leave the stack and the types as they were. -/
theorem steps_statements : ∀ (ss : List Statement) (stack : ScopeStack) (trace : Trace)
    (types : List (Option DataType)) (rest : List Task),
    Steps schema settings ⟨stack, trace, types, ss.map .statement ++ rest⟩
      ⟨stack, trace ++ (statements schema settings stack ss).1, types, rest⟩
  | [], stack, trace, types, rest => by
      simp only [statements, Trace.append_empty]
      exact .refl
  | first :: others, stack, trace, types, rest => by
      have hothers := steps_statements others stack
        (trace ++ (statement schema settings stack first).1) types rest
      refine (steps_statement first stack trace types _).trans ?_
      simp only [statements, statement_snd]
      rwa [← Trace.append_assoc]

end

/-! ## The walk over a script -/

def State.start (schema : Schema) (script : Script) : State :=
  ⟨.new schema.topLevel, .empty, [], script.statements.map .statement⟩

/-- Outside of all blocks, with nothing left to do. -/
def State.done (schema : Schema) (trace : Trace) : State := ⟨.new schema.topLevel, trace, [], []⟩

end Resolver

namespace Script

open Resolver

variable (schema : Schema) (settings : Settings) (script : Script)

/-- Step by step the trace of the script is recorded. -/
theorem steps_resolve :
    Steps schema settings (.start schema script) (.done schema (script.resolve schema settings)) := by
  have hsteps := steps_statements schema settings script.statements (.new schema.topLevel) .empty [] []
  rwa [List.append_nil] at hsteps

variable {schema settings script}

/-- Each step leads to one state only, so every state that the walk comes by is on the way to the end. -/
theorem steps_done_of_steps {st : State} (h : Steps schema settings (.start schema script) st) :
    Steps schema settings st (.done schema (script.resolve schema settings)) := by
  have honce : Relator.RightUnique fun st next => step schema settings st = some next :=
    fun _ _ _ hnext hother => Option.some.inj (hnext.symm.trans hother)
  rcases h.total_of_right_unique honce (steps_resolve schema settings script) with hsteps | hdone
  · exact hsteps
  · rcases hdone.cases_head with rfl | ⟨_, hnone, -⟩
    · exact .refl
    · cases hnone

end Script

end Declarative
