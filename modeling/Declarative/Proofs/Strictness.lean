import Declarative.Proofs.Cascade

/-!
# Strict checks only reject

A script is resolved twice, with strict checks and without. Where the strict run has a
success the lenient run has the same one, and if the strict run never refuses a member of
an outer receiver the two runs are one (`Script.strictRejects_of_nodup`).

The stacks of the two runs differ once a call is refused, but then the strict one has no
receiver on top, and nothing succeeds there that needs one: the runs are compared on
stacks that are equal, or of which the strict one is unresolved (`Script.Admits`). The
types of arguments differ as well, but a strict success has types for all of them.
-/

namespace Declarative

theorem Outcome.exists_eq_resolved {α : Type} {outcome : Outcome α}
    (h : outcome.reasons?.isSome = false) : ∃ target, outcome = .resolved target := by
  cases outcome with
  | resolved target => exact ⟨target, rfl⟩
  | failed reasons => cases h

namespace Trace

/-- The receiver on which a successful call statement or assignment found its member. -/
def Entry.receiver? : Entry → Option String
  | element (.resolved target) => some target.receiver
  | assignment (.resolved target) => some target.receiver
  | _ => none

/-- The receiver of the innermost block at a place inside of the blocks of the calls: what
the trace has recorded of the innermost call, or the top-level one outside of all blocks. -/
def InnermostReceiver (trace : Trace) (topLevel : String) : List Statement → String → Prop
  | [], receiver => receiver = topLevel
  | call :: _, receiver => ∃ target : ElementTarget,
      trace.get? call.id = some (.element (.resolved target)) ∧ target.blockReceiver = receiver

theorem scopesAround_nil (trace : Trace) (topLevel : String) :
    trace.scopesAround topLevel [] = [.receiver topLevel] := rfl

theorem scopesAround_cons (trace : Trace) (topLevel : String) (call : Statement)
    (calls : List Statement) : trace.scopesAround topLevel (call :: calls)
      = trace.scopeOf call :: trace.scopesAround topLevel calls := rfl

theorem innermostReceiver_of_head? {trace : Trace} {topLevel receiver : String}
    {calls : List Statement}
    (h : (trace.scopesAround topLevel calls).head? = some (.receiver receiver)) :
    trace.InnermostReceiver topLevel calls receiver := by
  cases calls with
  | nil => exact (Scope.receiver.inj (Option.some.inj h)).symm
  | cons call outer =>
      have hscope : trace.scopeOf call = .receiver receiver := Option.some.inj h
      unfold scopeOf at hscope
      split at hscope
      · rename_i outcome hget
        cases outcome with
        | resolved target => exact ⟨target, hget, Scope.receiver.inj hscope⟩
        | failed reasons => cases hscope
      · cases hscope

end Trace

/-! ## Single outcomes in both modes -/

namespace Resolver

variable {schema : Schema} {stack : ScopeStack}

/-- A strict selection refuses what was found further out, or is the lenient one. -/
theorem selectFunction_strict (site : CallSite) (name : String) (types : List (Option DataType)) :
    selectFunction schema ⟨true⟩ stack site name types = .error .crossScopeAccess
      ∨ selectFunction schema ⟨true⟩ stack site name types
          = selectFunction schema ⟨false⟩ stack site name types := by
  unfold selectFunction
  split
  · rename_i found known _ _
    dsimp only
    split
    · cases found.isOuter with
      | true => exact Or.inl rfl
      | false => exact Or.inr rfl
    · exact Or.inr rfl
  · exact Or.inr rfl

/-- The outcome refuses a member of an outer receiver. -/
def Refuses {α : Type} (outcome : Outcome α) : Prop :=
  ∃ reasons, outcome = .failed reasons ∧ .crossScopeAccess ∈ reasons.toList

theorem elementOutcome_strict (hasBlock : Bool) (name : String) (types : List (Option DataType)) :
    Refuses (elementOutcome schema ⟨true⟩ stack hasBlock name types)
      ∨ elementOutcome schema ⟨true⟩ stack hasBlock name types
          = elementOutcome schema ⟨false⟩ stack hasBlock name types := by
  unfold elementOutcome
  cases stack.current with
  | unresolved => exact Or.inr rfl
  | receiver current =>
      rcases @selectFunction_strict schema stack (.statement hasBlock) name types with h | h
      · exact Or.inl ⟨.single .crossScopeAccess, by simp only [h], List.mem_singleton_self _⟩
      · exact Or.inr (by simp only [h])

theorem factoryOutcome_strict (name : String) (types : List (Option DataType)) :
    Refuses (factoryOutcome schema ⟨true⟩ stack name types)
      ∨ factoryOutcome schema ⟨true⟩ stack name types
          = factoryOutcome schema ⟨false⟩ stack name types := by
  unfold factoryOutcome
  cases stack.current with
  | unresolved => exact Or.inr rfl
  | receiver current =>
      rcases @selectFunction_strict schema stack .value name types with h | h
      · exact Or.inl ⟨.single .crossScopeAccess, by simp only [h], List.mem_singleton_self _⟩
      · exact Or.inr (by simp only [h])

theorem assignmentOutcome_strict (name : String) (type : Option DataType) :
    Refuses (assignmentOutcome schema ⟨true⟩ stack name type)
      ∨ assignmentOutcome schema ⟨true⟩ stack name type
          = assignmentOutcome schema ⟨false⟩ stack name type := by
  unfold assignmentOutcome
  cases stack.current with
  | unresolved => exact Or.inr rfl
  | receiver current =>
      cases hlookup : stack.lookup (schema.property? · name) with
      | none => cases type <;> exact Or.inr rfl
      | some found =>
          cases houter : found.isOuter with
          | false => exact Or.inr (by simp only [houter, Bool.false_and])
          | true =>
              refine Or.inl ⟨_, if_neg ?_, ?_⟩
              · simp [houter, isEmpty_ofList]
              · simp [houter]

section

variable {types types' : List (Option DataType)}
  (htypes : ∀ known : List DataType, types = known.map some → types' = types)

include htypes

theorem selectFunction_lenient {site : CallSite} {name receiver : String} {f : Schema.Function}
    (h : selectFunction schema ⟨true⟩ stack site name types = .ok (receiver, f)) :
    selectFunction schema ⟨false⟩ stack site name types' = .ok (receiver, f) := by
  obtain ⟨known, functions, isOuter, hknown, hlookup, -, hfitting⟩ := selectFunction_eq_ok.mp h
  exact selectFunction_eq_ok.mpr ⟨known, functions, isOuter, (htypes known hknown).trans hknown,
    hlookup, Bool.and_false _, hfitting⟩

theorem elementOutcome_lenient {hasBlock : Bool} {name : String} {target : ElementTarget}
    (h : elementOutcome schema ⟨true⟩ stack hasBlock name types = .resolved target) :
    elementOutcome schema ⟨false⟩ stack hasBlock name types' = .resolved target := by
  unfold elementOutcome at h ⊢
  cases hcurrent : stack.current with
  | unresolved => simp [hcurrent] at h
  | receiver current =>
      simp only [hcurrent] at h ⊢
      split at h
      · rename_i receiver f hselect
        rw [selectFunction_lenient htypes hselect]
        exact h
      · cases h

theorem factoryOutcome_lenient {name : String} {target : ValueTarget}
    (h : factoryOutcome schema ⟨true⟩ stack name types = .resolved target) :
    factoryOutcome schema ⟨false⟩ stack name types' = .resolved target := by
  unfold factoryOutcome at h ⊢
  cases hcurrent : stack.current with
  | unresolved => simp [hcurrent] at h
  | receiver current =>
      simp only [hcurrent] at h ⊢
      split at h
      · rename_i receiver f hselect
        rw [selectFunction_lenient htypes hselect]
        exact h
      · cases h

end

theorem assignmentOutcome_lenient {name : String} {type type' : Option DataType}
    {target : AssignmentTarget} (htype : ∀ known, type = some known → type' = some known)
    (h : assignmentOutcome schema ⟨true⟩ stack name type = .resolved target) :
    assignmentOutcome schema ⟨false⟩ stack name type' = .resolved target := by
  obtain ⟨hcurrent, known, isOuter, hknown, hlookup, -, hwritable, hassignable⟩ :=
    assignmentOutcome_eq_resolved.mp h
  exact assignmentOutcome_eq_resolved.mpr ⟨hcurrent, known, isOuter, htype known hknown, hlookup,
    Bool.and_false _, hwritable, hassignable⟩

/-! ## Strict successes are lenient successes -/

theorem value_snd_factory {settings : Settings} {id : NodeId} {span : Span} {name : Name}
    {arguments : List Value} :
    (value schema settings stack (.factory id span name arguments)).2
      = (factoryCallOutcome schema settings stack name arguments).target?.map ValueTarget.type := by
  simp only [value]
  rfl

theorem valueTypes_cons {settings : Settings} {first : Value} {others : List Value} :
    valueTypes schema settings stack (first :: others)
      = (value schema settings stack first).2 :: valueTypes schema settings stack others := by
  simp only [valueTypes_eq_map, List.map_cons]

mutual

theorem value_type_lenient : ∀ (v : Value) {type : DataType},
    (value schema ⟨true⟩ stack v).2 = some type → (value schema ⟨false⟩ stack v).2 = some type
  | .literal _ _ _, _, h => h
  | .factory id span name arguments, type, h => by
      rw [value_snd_factory] at h ⊢
      obtain ⟨target, htarget, htype⟩ := Option.map_eq_some_iff.mp h
      cases houtcome : factoryCallOutcome schema ⟨true⟩ stack name arguments with
      | failed reasons =>
          rw [houtcome] at htarget
          cases htarget
      | resolved known =>
          have hlenient : factoryCallOutcome schema ⟨false⟩ stack name arguments = .resolved known :=
            factoryOutcome_lenient (fun _ => valueTypes_lenient arguments) houtcome
          rw [hlenient, ← houtcome]
          exact h

theorem valueTypes_lenient : ∀ (arguments : List Value) {known : List DataType},
    valueTypes schema ⟨true⟩ stack arguments = known.map some →
      valueTypes schema ⟨false⟩ stack arguments = valueTypes schema ⟨true⟩ stack arguments
  | [], _, _ => rfl
  | first :: others, known, h => by
      rw [valueTypes_cons] at h
      cases known with
      | nil => cases h
      | cons type types =>
          obtain ⟨hfirst, hothers⟩ := List.cons.inj h
          rw [valueTypes_cons, valueTypes_cons, valueTypes_lenient others hothers, hfirst,
            value_type_lenient first hfirst]

end

/-- What needs no receiver does not depend on the stack or on the settings. -/
theorem nodeEntry_of_not_needsReceiver {settings settings' : Settings} {stack' : ScopeStack}
    {node : Script.Node} (h : ¬node.NeedsReceiver) :
    nodeEntry schema settings stack node = nodeEntry schema settings' stack' node := by
  cases node with
  | statement s => cases s <;> first | rfl | exact absurd trivial h
  | value v => cases v <;> first | rfl | exact absurd trivial h

/-- On one stack a node that succeeds in the strict run succeeds in the same way in the
lenient run. -/
theorem nodeEntry_lenient {node : Script.Node}
    (h : (nodeEntry schema ⟨true⟩ stack node).isFailure = false) :
    nodeEntry schema ⟨false⟩ stack node = nodeEntry schema ⟨true⟩ stack node := by
  cases node with
  | statement s =>
      cases s with
      | call id span name arguments block =>
          obtain ⟨target, houtcome⟩ := Outcome.exists_eq_resolved h
          have hlenient : callOutcome schema ⟨false⟩ stack name arguments block
              = .resolved target :=
            elementOutcome_lenient (fun _ => valueTypes_lenient arguments) houtcome
          rw [nodeEntry, nodeEntry, houtcome, hlenient]
      | assign id span target assigned =>
          obtain ⟨found, houtcome⟩ := Outcome.exists_eq_resolved h
          have hlenient : assignOutcome schema ⟨false⟩ stack target assigned = .resolved found :=
            assignmentOutcome_lenient (fun _ => value_type_lenient assigned) houtcome
          rw [nodeEntry, nodeEntry, houtcome, hlenient]
      | error id span message => rfl
  | value v =>
      cases v with
      | literal id span content => rfl
      | factory id span name arguments =>
          obtain ⟨target, houtcome⟩ := Outcome.exists_eq_resolved h
          have hlenient : factoryCallOutcome schema ⟨false⟩ stack name arguments
              = .resolved target :=
            factoryOutcome_lenient (fun _ => valueTypes_lenient arguments) houtcome
          rw [nodeEntry, nodeEntry, houtcome, hlenient]

/-! ## Without refusals the runs are the same -/

theorem not_refuses {α : Type} {outcome : Outcome α} {id : NodeId} {entry : Trace.Entry}
    {entries : List (NodeId × Trace.Entry)} (hentry : (id, entry) ∈ entries)
    (hreasons : entry.reasons? = outcome.reasons?)
    (h : ∀ other ∈ entries, ¬other.2.HasReason .crossScopeAccess) : ¬Refuses outcome := by
  rintro ⟨reasons, rfl, hmem⟩
  exact h _ hentry ⟨reasons, hreasons, hmem⟩

mutual

theorem value_strict : ∀ v : Value,
    (∀ entry ∈ valueEntries schema ⟨true⟩ stack v, ¬entry.2.HasReason .crossScopeAccess) →
      value schema ⟨true⟩ stack v = value schema ⟨false⟩ stack v
  | .literal _ _ _, _ => rfl
  | .factory id span name arguments, h => by
      rw [valueEntries] at h
      have harguments := values_strict arguments fun entry hentry =>
        h entry (List.mem_cons_of_mem _ hentry)
      have houtcome := (factoryOutcome_strict name.text _).resolve_left
        (not_refuses (List.mem_cons_self ..) rfl h)
      simp only [value, ← harguments]
      rw [valueTypes] at houtcome
      rw [houtcome]

theorem values_strict : ∀ vs : List Value,
    (∀ entry ∈ valuesEntries schema ⟨true⟩ stack vs, ¬entry.2.HasReason .crossScopeAccess) →
      values schema ⟨true⟩ stack vs = values schema ⟨false⟩ stack vs
  | [], _ => rfl
  | first :: others, h => by
      rw [valuesEntries] at h
      simp only [values]
      rw [value_strict first fun entry hentry => h entry (List.mem_append_left _ hentry),
        values_strict others fun entry hentry => h entry (List.mem_append_right _ hentry)]

end

mutual

theorem statement_strict : ∀ {stack : ScopeStack} (s : Statement),
    (∀ entry ∈ statementEntries schema ⟨true⟩ stack s, ¬entry.2.HasReason .crossScopeAccess) →
      statement schema ⟨true⟩ stack s = statement schema ⟨false⟩ stack s
  | stack, .call id span name arguments block, h => by
      rw [statementEntries] at h
      have harguments := values_strict arguments fun entry hentry =>
        h entry (List.mem_cons_of_mem _ (List.mem_append_left _ hentry))
      have hblock := body_strict block fun entry hentry =>
        h entry (List.mem_cons_of_mem _ (List.mem_append_right _ hentry))
      have houtcome := (elementOutcome_strict block.isPresent name.text _).resolve_left
        (not_refuses (List.mem_cons_self ..) rfl h)
      rw [callOutcome, valueTypes] at hblock
      rw [valueTypes] at houtcome
      simp only [statement, ← harguments, ← houtcome, hblock]
  | stack, .assign id span target assigned, h => by
      rw [statementEntries] at h
      have hassigned := value_strict assigned fun entry hentry =>
        h entry (List.mem_cons_of_mem _ hentry)
      have houtcome := (assignmentOutcome_strict target.text _).resolve_left
        (not_refuses (List.mem_cons_self ..) rfl h)
      simp only [statement, ← hassigned]
      rw [houtcome]
  | _, .error _ _ _, _ => rfl

theorem body_strict : ∀ {stack : ScopeStack} {scope : Scope} (block : Body),
    (∀ entry ∈ bodyEntries schema ⟨true⟩ (stack.push scope) block,
        ¬entry.2.HasReason .crossScopeAccess) →
      body schema ⟨true⟩ stack scope block = body schema ⟨false⟩ stack scope block
  | _, _, .absent, _ => rfl
  | _, _, .block _ _ inner, h => by
      rw [bodyEntries] at h
      simp only [body]
      rw [statements_strict inner h]

theorem statements_strict : ∀ {stack : ScopeStack} (ss : List Statement),
    (∀ entry ∈ statementsEntries schema ⟨true⟩ stack ss, ¬entry.2.HasReason .crossScopeAccess) →
      statements schema ⟨true⟩ stack ss = statements schema ⟨false⟩ stack ss
  | _, [], _ => rfl
  | _, first :: others, h => by
      rw [statementsEntries] at h
      simp only [statements, statement_snd]
      rw [statement_strict first fun entry hentry => h entry (List.mem_append_left _ hentry),
        statements_strict others fun entry hentry => h entry (List.mem_append_right _ hentry)]

end

end Resolver

/-! ## The two runs at one place -/

theorem ScopeStack.eq_of_scopes {a b : ScopeStack} (h : a.scopes = b.scopes) : a = b := by
  obtain ⟨aTop, aEntered⟩ := a
  obtain ⟨bTop, bEntered⟩ := b
  obtain ⟨rfl, htop⟩ := List.append_inj' h rfl
  obtain rfl := Scope.receiver.inj (List.head_eq_of_cons_eq htop)
  rfl

namespace Script

variable {schema : Schema} {script : Script} {calls : List Statement} {node : Node}

/-- The scopes are the same in both runs, or the strict run has no receiver. -/
def Admits (schema : Schema) (script : Script) (calls : List Statement) : Prop :=
  ((script.resolve schema ⟨true⟩).scopesAround schema.topLevel calls).head? = some .unresolved
    ∨ (script.resolve schema ⟨false⟩).scopesAround schema.topLevel calls
        = (script.resolve schema ⟨true⟩).scopesAround schema.topLevel calls

variable (hids : script.nodeIds.Nodup)

include hids

/-- What needs a receiver and succeeds has one. -/
theorem Lies.head?_scopesAround_ne {settings : Settings} (h : script.Lies calls node)
    (hneeds : node.NeedsReceiver) {entry : Trace.Entry}
    (hentry : (script.resolve schema settings).get? node.id = some entry)
    (hsuccess : entry.isFailure = false) :
    ((script.resolve schema settings).scopesAround schema.topLevel calls).head?
      ≠ some .unresolved := by
  obtain ⟨stack, hscopes, -, hget⟩ := h.exists_entry hids
  obtain rfl := Option.some.inj (hget.symm.trans hentry)
  intro hunresolved
  rw [← hscopes, stack.head?_scopes] at hunresolved
  have hcurrent := Option.some.inj hunresolved
  rw [Trace.Entry.isFailure, Resolver.nodeEntry_of_unresolved hcurrent hneeds] at hsuccess
  cases hsuccess

/-- What succeeds in the strict run succeeds in the same way in the lenient run. -/
theorem Lies.get?_lenient (h : script.Lies calls node) (hadmits : script.Admits schema calls)
    {entry : Trace.Entry} (hentry : (script.resolve schema ⟨true⟩).get? node.id = some entry)
    (hsuccess : entry.isFailure = false) :
    (script.resolve schema ⟨false⟩).get? node.id = some entry := by
  obtain ⟨strict, hstrict, -, hget⟩ := @Lies.exists_entry schema ⟨true⟩ _ hids _ _ h
  obtain ⟨lenient, hlenient, -, hget'⟩ := @Lies.exists_entry schema ⟨false⟩ _ hids _ _ h
  by_cases hneeds : node.NeedsReceiver
  · have hscopes := hadmits.resolve_left (h.head?_scopesAround_ne hids hneeds hentry hsuccess)
    obtain rfl : lenient = strict :=
      ScopeStack.eq_of_scopes (hlenient.trans (hscopes.trans hstrict.symm))
    obtain rfl := Option.some.inj (hget.symm.trans hentry)
    rw [hget', Resolver.nodeEntry_lenient hsuccess]
  · rw [hget', ← hentry, hget, Resolver.nodeEntry_of_not_needsReceiver hneeds]

/-- The invariant of the two runs, from one block to the next inside of it. -/
theorem Stands.admits {s : Statement} (h : script.Stands calls s) :
    script.Admits schema calls := by
  induction h with
  | top _ => exact Or.inr (by rw [Trace.scopesAround_nil, Trace.scopesAround_nil])
  | @inside calls call s hcall hs ih =>
      cases call with
      | assign id span target assigned => cases hs
      | error id span message => cases hs
      | call id span name arguments block =>
          have hlies := Lies.statement hcall
          obtain ⟨outcome, hget⟩ := @Stands.exists_get?_call schema ⟨true⟩ _ _ hids _
            (.inside hcall hs) _ (List.mem_cons_self ..)
          cases outcome with
          | failed reasons =>
              refine Or.inl ?_
              rw [Trace.scopesAround_cons, List.head?_cons, Trace.scopeOf_eq hget,
                Resolver.blockScope]
          | resolved target =>
              have hscopes := ih.resolve_left (hlies.head?_scopesAround_ne hids trivial hget rfl)
              have hlenient := hlies.get?_lenient hids ih hget rfl
              refine Or.inr ?_
              rw [Trace.scopesAround_cons, Trace.scopesAround_cons, hscopes,
                Trace.scopeOf_eq hget, Trace.scopeOf_eq hlenient]

end Script

/-! ## Strict successes are found on the innermost receiver -/

namespace Resolver

variable {schema : Schema} {stack : ScopeStack}

theorem current_of_lookup {α : Type} {find : String → Option α} {member : α} {receiver : String}
    (h : stack.lookup find = some ⟨member, receiver, false⟩) :
    stack.current = .receiver receiver := by
  obtain ⟨inner, outer, hscopes, -, -, hinner⟩ := ScopeStack.lookup_eq_some_iff.mp h
  have hnil : inner = [] := by simpa using hinner
  have hhead := stack.head?_scopes
  rw [hscopes, hnil] at hhead
  exact (Option.some.inj hhead).symm

theorem current_of_selectFunction {site : CallSite} {name receiver : String}
    {types : List (Option DataType)} {f : Schema.Function}
    (h : selectFunction schema ⟨true⟩ stack site name types = .ok (receiver, f)) :
    stack.current = .receiver receiver := by
  obtain ⟨known, functions, isOuter, -, hlookup, hstrict, -⟩ := selectFunction_eq_ok.mp h
  obtain rfl : isOuter = false := by simpa using hstrict
  exact current_of_lookup hlookup

theorem current_of_elementOutcome {hasBlock : Bool} {name : String}
    {types : List (Option DataType)} {target : ElementTarget}
    (h : elementOutcome schema ⟨true⟩ stack hasBlock name types = .resolved target) :
    stack.current = .receiver target.receiver := by
  unfold elementOutcome at h
  split at h
  · cases h
  · split at h
    · rename_i receiver f hselect
      split at h
      · rename_i found hfound
        obtain rfl := Outcome.resolved.inj h
        rw [(ofFunction?_eq_some hfound).1]
        exact current_of_selectFunction hselect
      · cases h
    · cases h

theorem current_of_assignmentOutcome {name : String} {type : Option DataType}
    {target : AssignmentTarget}
    (h : assignmentOutcome schema ⟨true⟩ stack name type = .resolved target) :
    stack.current = .receiver target.receiver := by
  obtain ⟨-, known, isOuter, -, hlookup, hstrict, -⟩ := assignmentOutcome_eq_resolved.mp h
  obtain rfl : isOuter = false := by simpa using hstrict
  exact current_of_lookup hlookup

/-- A member that is used in the strict run is one of the innermost receiver. -/
theorem current_of_receiver? {node : Script.Node} {receiver : String}
    (h : (nodeEntry schema ⟨true⟩ stack node).receiver? = some receiver) :
    stack.current = .receiver receiver := by
  cases node with
  | statement s =>
      cases s with
      | call id span name arguments block =>
          cases houtcome : callOutcome schema ⟨true⟩ stack name arguments block with
          | failed reasons => simp [nodeEntry, houtcome, Trace.Entry.receiver?] at h
          | resolved target =>
              rw [nodeEntry, houtcome] at h
              obtain rfl := Option.some.inj h
              exact current_of_elementOutcome houtcome
      | assign id span target assigned =>
          cases houtcome : assignOutcome schema ⟨true⟩ stack target assigned with
          | failed reasons => simp [nodeEntry, houtcome, Trace.Entry.receiver?] at h
          | resolved found =>
              rw [nodeEntry, houtcome] at h
              obtain rfl := Option.some.inj h
              exact current_of_assignmentOutcome houtcome
      | error id span message => cases h
  | value v => cases v <;> cases h

end Resolver

/-! ## The two runs -/

namespace Script

/-- What it means that strict checks reject, and do nothing else. -/
structure StrictRejects (schema : Schema) (script : Script) : Prop where
  successes : ∀ id entry, (script.resolve schema ⟨true⟩).get? id = some entry →
    entry.isFailure = false → (script.resolve schema ⟨false⟩).get? id = some entry
  identical : (∀ id entry, (script.resolve schema ⟨true⟩).get? id = some entry →
    ¬entry.HasReason .crossScopeAccess) →
      script.resolve schema ⟨true⟩ = script.resolve schema ⟨false⟩
  /-- Members are found on the receiver of the innermost block around the statement. -/
  innermost : ∀ calls s, script.Stands calls s → ∀ entry receiver,
    (script.resolve schema ⟨true⟩).get? s.id = some entry → entry.receiver? = some receiver →
      (script.resolve schema ⟨true⟩).InnermostReceiver schema.topLevel calls receiver

section

variable {schema : Schema} {script : Script} (hids : script.nodeIds.Nodup)

include hids

theorem innermostReceiver_of_get? {calls : List Statement} {s : Statement}
    (h : script.Stands calls s) {entry : Trace.Entry} {receiver : String}
    (hentry : (script.resolve schema ⟨true⟩).get? s.id = some entry)
    (hreceiver : entry.receiver? = some receiver) :
    (script.resolve schema ⟨true⟩).InnermostReceiver schema.topLevel calls receiver := by
  obtain ⟨stack, hscopes, -, hget⟩ := (Lies.statement h).exists_entry hids
  obtain rfl := Option.some.inj (hget.symm.trans hentry)
  have hhead := stack.head?_scopes
  rw [hscopes, Resolver.current_of_receiver? hreceiver] at hhead
  exact Trace.innermostReceiver_of_head? hhead

/-- **Strict checks only reject.** -/
theorem strictRejects_of_nodup (schema : Schema) : script.StrictRejects schema where
  successes id entry hentry hsuccess := by
    obtain ⟨calls, node, hlies, rfl⟩ := exists_lies_of_get? hids hentry
    obtain ⟨s, hs, -⟩ := hlies.exists_stands
    exact hlies.get?_lenient hids (hs.admits hids) hentry hsuccess
  identical h := by
    have hwalk := Resolver.statements_strict script.statements fun entry hentry =>
      h entry.1 entry.2 ((get?_resolve_eq_some_iff hids).mpr hentry)
    rw [resolve, resolve, hwalk]
  innermost calls s hs entry receiver hentry hreceiver :=
    innermostReceiver_of_get? hids hs hentry hreceiver

end

/-- The inner bed is one of the garden, not of the bed around it, and so the strict run
refuses it and has no receiver for the assignment in its block. -/
theorem strictRejects_of_nodup_beds :
    let schema := Schema.ofClasses "Garden"
      [.ofMembers "Garden" [.adding "bed" [] "Bed" .allowed],
        .ofMembers "Bed" [.property "depth" .int false false]]
      [("Garden", []), ("Bed", [])]
    let name (text : String) : Name := ⟨text, ⟨0, 0⟩⟩
    let depth (id first last : Nat) : Statement :=
      .assign ⟨id⟩ ⟨first, last⟩ (name "depth") (.literal ⟨id + 1⟩ ⟨last - 1, last⟩ (.int 3))
    let script : Script := ⟨"garden", [
      .call ⟨0⟩ ⟨0, 40⟩ (name "bed") [] (.block ⟨1⟩ ⟨4, 40⟩ [
        depth 2 6 15,
        .call ⟨4⟩ ⟨17, 38⟩ (name "bed") [] (.block ⟨5⟩ ⟨21, 38⟩ [depth 6 23 32])])], ⟨0, 40⟩⟩
    script.nodeIds.Nodup ∧ script.StrictRejects schema
      ∧ (script.resolve schema ⟨true⟩).toList.map (·.2.reasons?)
          = [none, none, none, some ⟨[.crossScopeAccess]⟩, some ⟨[.unresolvedBase]⟩, none]
      ∧ (script.resolve schema ⟨false⟩).toList.map (·.2.receiver?)
          = [some "Garden", some "Bed", none, some "Garden", some "Bed", none] :=
  ⟨by decide, strictRejects_of_nodup (by decide) _, by decide, by decide⟩

end Script

end Declarative
