import Declarative.Proofs.Judged
import Declarative.Proofs.Steps

/-!
# The scopes on the stack

Wherever a walk over a script stands, there is one scope on the stack for each block around, and below
them the top-level receiver. The scope of a block is the type that its call adds or configures if the
call resolved, and unresolved otherwise (`Script.scoped_of_steps`).

The stack of a state is that of its place (`Resolver.stackInside`), because each call is decided by the
types of its arguments. What a state has to offer for this is told by the tasks that are left
(`Resolver.Plans`): a value will put its type in front of the types, and a call will take as many as it
has arguments. Each step carries out what was planned (`Resolver.Consistent.step`).

A call resolves only where the innermost scope has a receiver. So inside of an unresolved scope all are
unresolved, and a look-up that starts at a receiver meets receivers only.
-/

namespace Declarative

namespace Resolver

variable {schema : Schema} {settings : Settings} {script : Script} {calls : List Statement}
  {types : List (Option DataType)} {tasks : List Task}

/-! ## Scopes of blocks -/

/-- The scope that the outcome of a call gives to its block. -/
inductive GivesScope : Outcome ElementTarget → Scope → Prop where
  /-- The type that the function of the call adds or configures. -/
  | resolved {target : ElementTarget} {type : String}
      (htype : target.function.semantics.target? = some type) :
      GivesScope (.resolved target) (.receiver type)
  | failed {reasons : ReasonSet} : GivesScope (.failed reasons) .unresolved

theorem target?_of_ofFunction? {receiver : String} {f : Schema.Function} {target : ElementTarget}
    (h : ElementTarget.ofFunction? receiver f = some target) :
    target.function.semantics.target? = some target.blockReceiver := by
  rcases ofFunction?_cases h with ⟨_, _, hsemantics, rfl⟩ | ⟨_, hsemantics, rfl⟩ <;>
    exact congrArg Schema.Semantics.target? hsemantics

theorem elementOutcome_givesScope (stack : ScopeStack) (hasBlock : Bool) (name : String)
    (types : List (Option DataType)) :
    GivesScope (elementOutcome schema settings stack hasBlock name types)
      (blockScope (elementOutcome schema settings stack hasBlock name types)) := by
  unfold elementOutcome
  split
  · exact .failed
  · split
    · split
      · rename_i target htarget
        exact .resolved (target?_of_ofFunction? htarget)
      · exact .failed
    · exact .failed

theorem topLevel_stackInside (calls : List Statement) :
    (stackInside schema settings calls).topLevel = schema.topLevel := by
  induction calls with
  | nil => rfl
  | cons call calls ih => exact ih

/-- Inside of an unresolved scope there are unresolved ones only. -/
theorem pairwise_stackInside (calls : List Statement) :
    (stackInside schema settings calls).scopes.Pairwise
      fun inner outer => outer = .unresolved → inner = .unresolved := by
  induction calls with
  | nil => exact List.pairwise_singleton _ _
  | cons call calls ih =>
      refine List.pairwise_cons.mpr ⟨?_, ih⟩
      rintro _ houter rfl
      cases hscope : innerScope schema settings (stackInside schema settings calls) call with
      | unresolved => rfl
      | receiver name =>
          have hcurrent := exists_current_of_innerScope ⟨name, hscope⟩
          obtain ⟨_, hnone⟩ := grounded_stackInside schema settings calls hcurrent _ houter
          cases hnone

/-! ## What is planned -/

variable (schema settings script)

/-- Inside of the blocks of the calls, with these types, the tasks can be carried out: statements are
where they stand in the script, values get their types, each call of a statement gets the types of its
arguments, and the blocks are left from the inside outward. -/
inductive Plans : List Statement → List (Option DataType) → List Task → Prop where
  | done : Plans [] [] []
  | statement {calls types s rest} (hstands : script.Stands calls s)
      (hrest : Plans calls types rest) : Plans calls types (.statement s :: rest)
  | value {calls types v rest}
      (hrest : Plans calls
        ((value schema settings (stackInside schema settings calls) v).2 :: types) rest) :
      Plans calls types (.value v :: rest)
  | factory {calls types id name count rest}
      (hrest : Plans calls
        ((factoryOutcome schema settings (stackInside schema settings calls) name.text
          (types.take count).reverse).target?.map ValueTarget.type :: types.drop count) rest) :
      Plans calls types (.factory id name count :: rest)
  | call {calls types id span name arguments block rest}
      (hstands : script.Stands calls (.call id span name arguments block))
      (htypes : (types.take arguments.length).reverse
        = valueTypes schema settings (stackInside schema settings calls) arguments)
      (hrest : Plans calls (types.drop arguments.length) rest) :
      Plans calls types (.call id span name arguments block :: rest)
  | assign {calls types id target rest} (hrest : Plans calls types.tail rest) :
      Plans calls types (.assign id target :: rest)
  | leave {calls types call rest} (hstands : script.Stands calls call)
      (hrest : Plans calls types rest) : Plans (call :: calls) types (.leave call :: rest)

def Task.left? : Task → Option Statement
  | .leave left => some left
  | _ => none

/-- The calls whose blocks are around, the innermost first. -/
def State.openCalls (st : State) : List Statement := st.tasks.filterMap Task.left?

variable {schema settings script}

namespace Plans

theorem openCalls (h : Plans schema settings script calls types tasks) :
    tasks.filterMap Task.left? = calls := by
  induction h with
  | done => rfl
  | statement _ _ ih | value _ ih | factory _ ih | call _ _ _ ih | assign _ ih =>
      rwa [List.filterMap_cons_none rfl]
  | leave _ _ ih => simp only [List.filterMap_cons, Task.left?, ih]

/-- Each of the calls stands in the block of the next one. -/
theorem stands (h : Plans schema settings script calls types tasks) :
    ∀ {inner call outer}, calls = inner ++ call :: outer → script.Stands outer call := by
  induction h with
  | done =>
      intro inner call outer hsplit
      cases inner <;> cases hsplit
  | statement _ _ ih | value _ ih | factory _ ih | call _ _ _ ih | assign _ ih => exact ih
  | leave hstands _ ih =>
      intro inner call outer hsplit
      cases inner with
      | nil =>
          obtain ⟨rfl, rfl⟩ := List.cons.inj hsplit
          exact hstands
      | cons _ inner => exact ih (List.cons.inj hsplit).2

theorem statements {rest : List Task} (hrest : Plans schema settings script calls types rest) :
    ∀ {ss : List Statement}, (∀ s ∈ ss, script.Stands calls s) →
      Plans schema settings script calls types (ss.map .statement ++ rest)
  | [], _ => hrest
  | s :: _, h =>
      .statement (h s (List.mem_cons_self ..))
        (statements hrest fun other hother => h other (List.mem_cons_of_mem _ hother))

/-- Values are walked over one after another, and so the type of the last one comes first. -/
theorem values {rest : List Task} : ∀ {vs : List Value} {types : List (Option DataType)},
    Plans schema settings script calls
      ((valueTypes schema settings (stackInside schema settings calls) vs).reverse ++ types) rest →
      Plans schema settings script calls types (vs.map .value ++ rest)
  | [], _, hrest => by
      simpa [valueTypes_eq_map] using hrest
  | v :: vs, types, hrest => by
      refine .value (values ?_)
      simpa [valueTypes_eq_map] using hrest

end Plans

/-! ## What each step keeps -/

/-- The outcome of the call is on record, and the scope is what it gives to the block. -/
def Decided (trace : Trace) (call : Statement) (scope : Scope) : Prop :=
  ∃ outcome, (call.id, .element outcome) ∈ trace.records ∧ GivesScope outcome scope

theorem Decided.append {trace : Trace} {call : Statement} {scope : Scope}
    (h : Decided trace call scope) (later : Trace) : Decided (trace ++ later) call scope := by
  obtain ⟨outcome, hrecord, hgives⟩ := h
  exact ⟨outcome, List.mem_append_left _ hrecord, hgives⟩

variable (schema settings script)

/-- The state stands inside of the blocks of the calls. -/
structure Consistent (calls : List Statement) (st : State) : Prop where
  stack : st.stack = stackInside schema settings calls
  plans : Plans schema settings script calls st.types st.tasks
  decided : List.Forall₂ (Decided st.trace) calls st.stack.entered

variable {schema settings script}

theorem consistent_start : Consistent schema settings script [] (.start schema script) where
  stack := rfl
  plans := by
    have hplans : Plans schema settings script [] [] (script.statements.map .statement ++ []) :=
      Plans.done.statements fun _ hs => .top hs
    rwa [List.append_nil] at hplans
  decided := .nil

namespace Consistent

/-- Where no block is entered or left, and the trace has grown, it is enough to have a plan. -/
theorem same_block {stack : ScopeStack} {trace : Trace}
    (h : Consistent schema settings script calls ⟨stack, trace, types, tasks⟩) {later : Trace}
    {types' : List (Option DataType)} {tasks' : List Task}
    (hplans : Plans schema settings script calls types' tasks') :
    Consistent schema settings script calls ⟨stack, trace ++ later, types', tasks'⟩ :=
  ⟨h.stack, hplans, h.decided.imp fun _ _ hdecided => hdecided.append later⟩

theorem step {st next : State} (h : Consistent schema settings script calls st)
    (hstep : step schema settings st = some next) :
    ∃ calls', Consistent schema settings script calls' next := by
  obtain ⟨stack, trace, types, tasks⟩ := st
  obtain ⟨rfl, hplans, hdecided⟩ := id h
  cases hplans with
  | done => cases hstep
  | @statement _ _ s rest hstands hrest =>
      cases s with
      | call id span name arguments block =>
          obtain rfl := Option.some.inj hstep
          refine ⟨calls, h.same_block (.values (.call hstands ?_ ?_))⟩
          · exact take_valueTypes schema settings _ arguments types
          · rwa [drop_valueTypes]
      | assign id span target assigned =>
          obtain rfl := Option.some.inj hstep
          exact ⟨calls, h.same_block (.value (.assign hrest))⟩
      | error id span message =>
          obtain rfl := Option.some.inj hstep
          exact ⟨calls, h.same_block hrest⟩
  | @value _ _ v rest hrest =>
      cases v with
      | literal id span content =>
          obtain rfl := Option.some.inj hstep
          simp only [Resolver.value] at hrest
          exact ⟨calls, h.same_block hrest⟩
      | factory id span name arguments =>
          obtain rfl := Option.some.inj hstep
          simp only [Resolver.value] at hrest
          refine ⟨calls, h.same_block (.values (.factory ?_))⟩
          rwa [take_valueTypes, drop_valueTypes]
  | factory hrest =>
      obtain rfl := Option.some.inj hstep
      exact ⟨calls, h.same_block hrest⟩
  | @call _ _ id span name arguments block rest hstands htypes hrest =>
      cases block with
      | absent =>
          obtain rfl := Option.some.inj hstep
          exact ⟨calls, h.same_block hrest⟩
      | block bid bspan inner =>
          obtain rfl := Option.some.inj hstep
          refine ⟨.call id span name arguments (.block bid bspan inner) :: calls, ?_, ?_, ?_⟩
          · rw [stackInside, innerScope, callOutcome, ← htypes]
          · exact (Plans.leave hstands hrest).statements fun s hs => hstands.inside hs
          · refine .cons ⟨_, List.mem_append_right _ (List.mem_singleton_self _), ?_⟩
              (hdecided.imp fun _ _ hcall => hcall.append _)
            exact elementOutcome_givesScope _ _ _ _
  | assign hrest =>
      obtain rfl := Option.some.inj hstep
      exact ⟨calls, h.same_block hrest⟩
  | @leave calls _ call rest hstands hrest =>
      obtain rfl := Option.some.inj hstep
      cases hdecided with
      | cons _ houter => exact ⟨calls, rfl, hrest, houter⟩

end Consistent

theorem exists_consistent {st : State} (h : Steps schema settings (.start schema script) st) :
    ∃ calls, Consistent schema settings script calls st := by
  induction h with
  | refl => exact ⟨[], consistent_start⟩
  | tail _ hstep ih =>
      obtain ⟨calls, hconsistent⟩ := ih
      exact hconsistent.step hstep

/-! ## The invariant -/

variable (schema settings script)

/-- The stack holds the scopes of the place where the walk stands. -/
structure State.Scoped (st : State) : Prop where
  /-- The calls whose blocks are around stand in each other's blocks. -/
  nested : ∀ {inner call outer}, st.openCalls = inner ++ call :: outer → script.Stands outer call
  /-- A statement that comes next stands in the innermost of these blocks. -/
  next : ∀ {s rest}, st.tasks = .statement s :: rest → script.Stands st.openCalls s
  topLevel : st.stack.topLevel = schema.topLevel
  /-- There is one scope for each block, the one that its call gives to it. -/
  entered : List.Forall₂ (Decided st.trace) st.openCalls st.stack.entered
  /-- Each of these calls was decided with the scopes of the blocks around it. -/
  decided : st.stack = stackInside schema settings st.openCalls
  /-- Inside of an unresolved scope all are unresolved. -/
  closed : st.stack.scopes.Pairwise fun inner outer => outer = .unresolved → inner = .unresolved
  /-- A look-up from a receiver is not cut short: nothing is found only where all scopes are receivers
  that do not have it. -/
  lookups : ∀ {name}, st.stack.current = .receiver name → ∀ {α : Type} (find : String → Option α),
    st.stack.lookup find = none ↔
      ∀ scope ∈ st.stack.scopes, ∃ receiver, scope = .receiver receiver ∧ find receiver = none
  /-- A statement is walked over, and the stack is as it was. -/
  restored : ∀ {s rest}, st.tasks = .statement s :: rest →
    Steps schema settings st
      ⟨st.stack, st.trace ++ (statement schema settings st.stack s).1, st.types, rest⟩

variable {schema settings script}

theorem Consistent.scoped {st : State} (h : Consistent schema settings script calls st) :
    st.Scoped schema settings script := by
  obtain ⟨stack, trace, types, tasks⟩ := st
  obtain ⟨rfl, hplans, hdecided⟩ := h
  have hcalls : State.openCalls ⟨stackInside schema settings calls, trace, types, tasks⟩ = calls :=
    hplans.openCalls
  refine ⟨?_, ?_, ?_, ?_, ?_, ?_, ?_, ?_⟩
  · intro inner call outer hsplit
    exact hplans.stands (hcalls.symm.trans hsplit)
  · rintro s rest rfl
    rw [hcalls]
    cases hplans with
    | statement hstands _ => exact hstands
  · exact topLevel_stackInside calls
  · rwa [hcalls]
  · rw [hcalls]
  · exact pairwise_stackInside calls
  · intro name hcurrent α find
    have hresolved := grounded_stackInside schema settings calls ⟨name, hcurrent⟩
    rw [ScopeStack.lookup_eq_none_iff hresolved]
    constructor
    · intro hnone scope hscope
      obtain ⟨receiver, rfl⟩ := hresolved scope hscope
      exact ⟨receiver, rfl, hnone receiver hscope⟩
    · intro hnone receiver hreceiver
      obtain ⟨_, hsame, hfind⟩ := hnone _ hreceiver
      obtain rfl := Scope.receiver.inj hsame
      exact hfind
  · rintro s rest rfl
    exact steps_statement schema settings s _ trace types rest

end Resolver

namespace Script

open Resolver

/-- **The stack is that of the place**, in every state of a walk over any script, with repeated numbers or
not, and with any schema. The walk goes on to the trace of the script, and after each statement the stack
is as it was. -/
theorem scoped_of_steps {schema : Schema} {settings : Settings} {script : Script} {st : State}
    (h : Steps schema settings (.start schema script) st) :
    st.Scoped schema settings script
      ∧ Steps schema settings st (.done schema (script.resolve schema settings))
      ∧ ∀ stack s, (statement schema settings stack s).2 = stack := by
  obtain ⟨calls, hconsistent⟩ := exists_consistent h
  exact ⟨hconsistent.scoped, steps_done_of_steps h, statement_snd schema settings⟩

/-- A garden has beds, and a bed has no pots: in the block of the pot nothing is resolved. -/
theorem scoped_of_steps_pot :
    let builder := (Schema.Builder.empty "Garden").declare "Garden" [.adding "bed" [] "Bed" .required]
      |>.declare "Bed" []
    let schema := Schema.ofClasses builder.topLevel builder.classes [("Garden", []), ("Bed", [])]
    let name (text : String) : Name := ⟨text, ⟨0, 0⟩⟩
    let pot : Statement := .call ⟨2⟩ ⟨6, 12⟩ (name "pot") [] (.block ⟨3⟩ ⟨10, 12⟩ [])
    let bed : Statement := .call ⟨0⟩ ⟨0, 14⟩ (name "bed") [] (.block ⟨1⟩ ⟨4, 14⟩ [pot])
    let script : Script := ⟨"garden", [bed], ⟨0, 14⟩⟩
    ∃ st : State, Steps schema ⟨false⟩ (.start schema script) st
      ∧ st.openCalls = [pot, bed] ∧ st.stack.entered = [.unresolved, .receiver "Bed"]
      ∧ st.Scoped schema ⟨false⟩ script := by
  intro builder schema name pot bed script
  have hsteps : Steps schema ⟨false⟩ (.start schema script) _ :=
    .of_step rfl (.of_step rfl (.of_step rfl (.of_step rfl .refl)))
  exact ⟨_, hsteps, rfl, rfl, (scoped_of_steps hsteps).1⟩

end Script

end Declarative
