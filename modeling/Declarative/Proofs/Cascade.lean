import Declarative.Proofs.Places

/-!
# Failures cascade

A call that does not resolve leaves its block without a receiver. In such a block no call,
no assignment and no call of a value can resolve, at any depth, and the reason recorded is
the missing receiver alone; everywhere else it is never that reason
(`Script.cascades_of_nodup`).

Below, outcomes are told apart by the innermost scope: in an unresolved one each of them
is `UnresolvedBase` (`Resolver.nodeEntry_of_unresolved`), and with a receiver a failure has
reasons, but not this one (`Resolver.nodeEntry_of_receiver`). That the innermost scope is
unresolved just if some call around has failed is an induction on the place
(`Script.Stands.unresolved_iff`).
-/

namespace Declarative

/-! ## Reasons -/

namespace ReasonSet

theorem mem_foldl_insert {reason : Reason} : ∀ {reasons : List Reason} {set : ReasonSet},
    reason ∈ (reasons.foldl insert set).toList ↔ reason ∈ set.toList ∨ reason ∈ reasons
  | [], set => by simp
  | first :: others, set => by
      rw [List.foldl_cons, mem_foldl_insert, toList_insert, List.mem_cons, ← or_assoc]
      by_cases hfirst : first ∈ set.toList
      · rw [if_pos hfirst]
        have habsorb : reason = first → reason ∈ set.toList := fun h => h ▸ hfirst
        tauto
      · rw [if_neg hfirst, List.mem_append, List.mem_singleton]

@[simp] theorem mem_toList_ofList {reason : Reason} {reasons : List Reason} :
    reason ∈ (ofList reasons).toList ↔ reason ∈ reasons := by
  rw [ofList, mem_foldl_insert]
  simp [empty]

end ReasonSet

theorem Outcome.reasons?_eq_some_iff {α : Type} {outcome : Outcome α} {reasons : ReasonSet} :
    outcome.reasons? = some reasons ↔ outcome = .failed reasons := by
  cases outcome <;> simp [reasons?]

/-- The entry is a failure, and the reason is one of its reasons. -/
def Trace.Entry.HasReason (entry : Entry) (reason : Reason) : Prop :=
  ∃ reasons, entry.reasons? = some reasons ∧ reason ∈ reasons.toList

/-- The call statement is recorded as a failure. -/
def Trace.Fails (trace : Trace) (call : Statement) : Prop :=
  ∃ reasons, trace.get? call.id = some (.element (.failed reasons))

/-- Whether what becomes of the node depends on the receiver of the block around it: a
call, an assignment, or the call of a value. -/
def Script.Node.NeedsReceiver : Script.Node → Prop
  | .statement (.call ..) => True
  | .statement (.assign ..) => True
  | .statement (.error ..) => False
  | .value (.literal ..) => False
  | .value (.factory ..) => True

/-! ## Outcomes by the innermost scope -/

namespace Resolver

variable {schema : Schema} {settings : Settings} {stack : ScopeStack}

theorem selectFunction_eq_error {site : CallSite} {name : String} {types : List (Option DataType)}
    {reason : Reason} (h : selectFunction schema settings stack site name types = .error reason) :
    reason = .unresolvedSignature ∨ reason = .crossScopeAccess := by
  unfold selectFunction at h
  split at h
  · dsimp only at h
    split at h
    · split at h
      · exact Or.inr (Except.error.inj h).symm
      · cases h
    · exact Or.inl (Except.error.inj h).symm
  · exact Or.inl (Except.error.inj h).symm

/-- A failure that has reasons, but not a missing receiver. -/
def OwnFailure (reasons : ReasonSet) : Prop :=
  reasons.toList ≠ [] ∧ .unresolvedBase ∉ reasons.toList

theorem ownFailure_single {reason : Reason} (h : reason ≠ .unresolvedBase) :
    OwnFailure (.single reason) := by
  simp [OwnFailure, ReasonSet.single, Ne.symm h]

theorem ownFailure_of_selectFunction {site : CallSite} {name : String}
    {types : List (Option DataType)} {reason : Reason}
    (h : selectFunction schema settings stack site name types = .error reason) :
    OwnFailure (.single reason) := by
  rcases selectFunction_eq_error h with rfl | rfl
  · exact ownFailure_single (by decide)
  · exact ownFailure_single (by decide)

section

variable {current : String} (hcurrent : stack.current = .receiver current)

include hcurrent

theorem ownFailure_of_elementOutcome {hasBlock : Bool} {name : String}
    {types : List (Option DataType)} {reasons : ReasonSet}
    (h : elementOutcome schema settings stack hasBlock name types = .failed reasons) :
    OwnFailure reasons := by
  rw [elementOutcome, hcurrent] at h
  dsimp only at h
  split at h
  · split at h
    · cases h
    · obtain rfl := Outcome.failed.inj h
      exact ownFailure_single (by decide)
  · rename_i reason hselect
    obtain rfl := Outcome.failed.inj h
    exact ownFailure_of_selectFunction hselect

theorem ownFailure_of_factoryOutcome {name : String} {types : List (Option DataType)}
    {reasons : ReasonSet}
    (h : factoryOutcome schema settings stack name types = .failed reasons) :
    OwnFailure reasons := by
  rw [factoryOutcome, hcurrent] at h
  dsimp only at h
  split at h
  · cases h
  · rename_i reason hselect
    obtain rfl := Outcome.failed.inj h
    exact ownFailure_of_selectFunction hselect

theorem ownFailure_of_assignmentOutcome {name : String} {type : Option DataType}
    {reasons : ReasonSet}
    (h : assignmentOutcome schema settings stack name type = .failed reasons) :
    OwnFailure reasons := by
  obtain ⟨hreasons, hne⟩ := toList_of_assignmentOutcome hcurrent rfl h
  refine ⟨hne, fun hmem => ?_⟩
  rw [hreasons] at hmem
  exact absurd ((targetReasons_append_sublist _).subset hmem) (by decide)

/-- With a receiver around, a node that fails has reasons of its own. -/
theorem nodeEntry_of_receiver {node : Script.Node} {reasons : ReasonSet}
    (h : (nodeEntry schema settings stack node).reasons? = some reasons) : OwnFailure reasons := by
  cases node with
  | statement s =>
      cases s with
      | call id span name arguments block =>
          exact ownFailure_of_elementOutcome hcurrent (Outcome.reasons?_eq_some_iff.mp h)
      | assign id span target assigned =>
          exact ownFailure_of_assignmentOutcome hcurrent (Outcome.reasons?_eq_some_iff.mp h)
      | error id span message =>
          obtain rfl := Option.some.inj h
          exact ownFailure_single (by decide)
  | value v =>
      cases v with
      | literal id span content => cases h
      | factory id span name arguments =>
          exact ownFailure_of_factoryOutcome hcurrent (Outcome.reasons?_eq_some_iff.mp h)

end

/-- Without a receiver nothing resolves that needs one. -/
theorem nodeEntry_of_unresolved (hcurrent : stack.current = .unresolved) {node : Script.Node}
    (hnode : node.NeedsReceiver) :
    (nodeEntry schema settings stack node).reasons? = some (.single .unresolvedBase) := by
  cases node with
  | statement s =>
      cases s with
      | call id span name arguments block =>
          rw [nodeEntry, callOutcome, elementOutcome, hcurrent]
          rfl
      | assign id span target assigned =>
          simp only [nodeEntry, assignOutcome, assignmentOutcome, hcurrent]
          rfl
      | error id span message => exact hnode.elim
  | value v =>
      cases v with
      | literal id span content => exact hnode.elim
      | factory id span name arguments =>
          rw [nodeEntry, factoryCallOutcome, factoryOutcome, hcurrent]
          rfl

end Resolver

/-! ## Whether the innermost scope is unresolved -/

namespace Trace

variable {trace : Trace} {call : Statement} {outcome : Outcome ElementTarget}
  (h : trace.get? call.id = some (.element outcome))

include h

theorem scopeOf_eq : trace.scopeOf call = Resolver.blockScope outcome := by
  rw [scopeOf, h]

theorem scopeOf_eq_unresolved_iff : trace.scopeOf call = .unresolved ↔ trace.Fails call := by
  rw [scopeOf_eq h, Fails, h]
  cases outcome with
  | resolved target => simp [Resolver.blockScope]
  | failed reasons => simp [Resolver.blockScope]

end Trace

namespace Script

/-- The node is inside the block of a call that is recorded as a failure, at any depth. -/
def InFailedBlock (script : Script) (trace : Trace) (node : Node) : Prop :=
  ∃ call, .statement call ∈ script.preorder ∧ node ∈ Statement.preorderAll call.inner
    ∧ trace.Fails call

variable {schema : Schema} {settings : Settings} {script : Script} {calls : List Statement}
  {node : Node} (hids : script.nodeIds.Nodup)

include hids

theorem Stands.exists_get?_call {s : Statement} (h : script.Stands calls s) {call : Statement}
    (hcall : call ∈ calls) :
    ∃ outcome, (script.resolve schema settings).get? call.id = some (.element outcome) := by
  obtain ⟨hinner, outer, houter⟩ := h.exists_stands call hcall
  obtain ⟨stack, -, -, hget⟩ := (Lies.statement houter).exists_entry hids
  cases call with
  | call id span name arguments block => exact ⟨_, hget⟩
  | assign id span target assigned => exact absurd rfl hinner
  | error id span message => exact absurd rfl hinner

theorem Stands.unresolved_iff {s : Statement} (h : script.Stands calls s) {stack : ScopeStack}
    (hscopes : stack.scopes = (script.resolve schema settings).scopesAround schema.topLevel calls)
    (hground : stack.Grounded) :
    stack.current = .unresolved ↔ ∃ call ∈ calls, (script.resolve schema settings).Fails call := by
  have hscope : ∀ call ∈ calls, (script.resolve schema settings).scopeOf call = .unresolved
      ↔ (script.resolve schema settings).Fails call := fun call hcall => by
    obtain ⟨outcome, hget⟩ := h.exists_get?_call hids hcall
    exact Trace.scopeOf_eq_unresolved_iff hget
  constructor
  · intro hcurrent
    have hhead := stack.head?_scopes
    rw [hscopes, hcurrent] at hhead
    cases calls with
    | nil => cases hhead
    | cons call outer =>
        have hfails := (hscope call (List.mem_cons_self ..)).mp (Option.some.inj hhead)
        exact ⟨call, List.mem_cons_self .., hfails⟩
  · rintro ⟨call, hcall, hfails⟩
    cases hcurrent : stack.current with
    | unresolved => rfl
    | receiver current =>
        -- around a scope with a receiver there are only such scopes
        have hmem : Scope.unresolved ∈ stack.scopes := by
          rw [hscopes, ← (hscope call hcall).mpr hfails]
          exact List.mem_append_left _ (List.mem_map_of_mem hcall)
        obtain ⟨name, hname⟩ := hground ⟨current, hcurrent⟩ _ hmem
        cases hname

/-- Inside the block of a failed call the missing receiver is the one reason. -/
theorem reasons_of_inFailedBlock (hnode : node.NeedsReceiver)
    (h : script.InFailedBlock (script.resolve schema settings) node) :
    ∃ entry, (script.resolve schema settings).get? node.id = some entry
      ∧ entry.reasons? = some (.single .unresolvedBase) := by
  obtain ⟨call, hcall, hinner, hfails⟩ := h
  obtain ⟨calls, hlies, hmem⟩ := exists_lies_of_mem_inner hcall hinner
  obtain ⟨s, hs, -⟩ := hlies.exists_stands
  obtain ⟨stack, hscopes, hground, hget⟩ := hlies.exists_entry hids
  have hcurrent := (hs.unresolved_iff hids hscopes hground).mpr ⟨call, hmem, hfails⟩
  exact ⟨_, hget, Resolver.nodeEntry_of_unresolved hcurrent hnode⟩

/-- Where no call around has failed, a failure has reasons of its own. -/
theorem Lies.ownFailure (h : script.Lies calls node)
    (hcalls : ∀ call ∈ calls, ¬(script.resolve schema settings).Fails call) {entry : Trace.Entry}
    (hentry : (script.resolve schema settings).get? node.id = some entry) {reasons : ReasonSet}
    (hreasons : entry.reasons? = some reasons) : Resolver.OwnFailure reasons := by
  obtain ⟨s, hs, -⟩ := h.exists_stands
  obtain ⟨stack, hscopes, hground, hget⟩ := h.exists_entry hids
  obtain rfl := Option.some.inj (hget.symm.trans hentry)
  cases hcurrent : stack.current with
  | receiver current => exact Resolver.nodeEntry_of_receiver hcurrent hreasons
  | unresolved =>
      obtain ⟨call, hcall, hfails⟩ := (hs.unresolved_iff hids hscopes hground).mp hcurrent
      exact absurd hfails (hcalls call hcall)

theorem ownFailure_of_not_inFailedBlock (hnode : node ∈ script.preorder)
    (h : ¬script.InFailedBlock (script.resolve schema settings) node) {entry : Trace.Entry}
    (hentry : (script.resolve schema settings).get? node.id = some entry) {reasons : ReasonSet}
    (hreasons : entry.reasons? = some reasons) : Resolver.OwnFailure reasons := by
  obtain ⟨calls, hlies⟩ := mem_preorder_iff.mp hnode
  refine hlies.ownFailure hids (fun call hmem hfails => h ?_) hentry hreasons
  obtain ⟨hcall, hinner⟩ := hlies.mem_inner hmem
  exact ⟨call, hcall, hinner, hfails⟩

end Script

/-! ## The cascade -/

namespace Script

/-- What it means that failures cascade into blocks, and nowhere else. -/
structure Cascades (schema : Schema) (settings : Settings) (script : Script) : Prop where
  /-- What needs a receiver misses it just inside the blocks of failed calls. Then nothing
  else is wrong with it. -/
  dependents : ∀ node ∈ script.preorder, node.NeedsReceiver →
    ∃ entry, (script.resolve schema settings).get? node.id = some entry
      ∧ (entry.HasReason .unresolvedBase
          ↔ script.InFailedBlock (script.resolve schema settings) node)
      ∧ (script.InFailedBlock (script.resolve schema settings) node →
          entry.reasons? = some (.single .unresolvedBase))
  literals : ∀ id span content, .value (.literal id span content) ∈ script.preorder →
    (script.resolve schema settings).get? id
      = some (.value (.resolved (.literal content (Resolver.literalType content))))
  errors : ∀ id span message, .statement (.error id span message) ∈ script.preorder →
    (script.resolve schema settings).get? id = some (.element (.failed (.single .isError)))

/-- **Failures cascade as missing receivers**, whatever the schema and the settings are. -/
theorem cascades_of_nodup (schema : Schema) (settings : Settings) {script : Script}
    (hids : script.nodeIds.Nodup) : script.Cascades schema settings where
  dependents node hnode hneeds := by
    obtain ⟨calls, hlies⟩ := mem_preorder_iff.mp hnode
    obtain ⟨stack, -, -, hget⟩ := hlies.exists_entry hids
    have honly : script.InFailedBlock (script.resolve schema settings) node →
        (Resolver.nodeEntry schema settings stack node).reasons?
          = some (.single .unresolvedBase) := fun hfailed => by
      obtain ⟨entry, hentry, hreasons⟩ := reasons_of_inFailedBlock hids hneeds hfailed
      obtain rfl := Option.some.inj (hget.symm.trans hentry)
      exact hreasons
    refine ⟨_, hget, ⟨?_, fun hfailed => ⟨_, honly hfailed, List.mem_singleton_self _⟩⟩, honly⟩
    rintro ⟨reasons, hreasons, hmem⟩
    by_contra hfailed
    exact (ownFailure_of_not_inFailedBlock hids hnode hfailed hget hreasons).2 hmem
  literals id span content hnode := by
    obtain ⟨calls, hlies⟩ := mem_preorder_iff.mp hnode
    obtain ⟨stack, -, -, hget⟩ := hlies.exists_entry hids
    exact hget
  errors id span message hnode := by
    obtain ⟨calls, hlies⟩ := mem_preorder_iff.mp hnode
    obtain ⟨stack, -, -, hget⟩ := hlies.exists_entry hids
    exact hget

/-- No function of the garden is called `pond`. In its block stand a call with a block of
its own, and in that an assignment of a value that is called; the argument of the pond is
outside of the block. -/
theorem cascades_of_nodup_pond :
    let schema := Schema.ofClasses "Garden"
      [.ofMembers "Garden" [.factory "count" [.int] .long, .property "plants" .long false false]]
      [("Garden", [])]
    let name (text : String) : Name := ⟨text, ⟨0, 0⟩⟩
    let script : Script := ⟨"garden", [
      .call ⟨0⟩ ⟨0, 60⟩ (name "pond")
        [.factory ⟨1⟩ ⟨5, 13⟩ (name "count") [.literal ⟨2⟩ ⟨11, 12⟩ (.int 3)]]
        (.block ⟨3⟩ ⟨15, 60⟩ [
          .call ⟨4⟩ ⟨17, 50⟩ (name "bed") [] (.block ⟨5⟩ ⟨21, 50⟩ [
            .assign ⟨6⟩ ⟨23, 48⟩ (name "plants") (.factory ⟨7⟩ ⟨32, 48⟩ (name "count") [])]),
          .error ⟨8⟩ ⟨51, 52⟩ "Unexpected ')'"])], ⟨0, 60⟩⟩
    script.nodeIds.Nodup ∧ script.Cascades schema ⟨true⟩
      ∧ (script.resolve schema ⟨true⟩).toList.map (·.2.reasons?)
          = [some ⟨[.unresolvedSignature]⟩, none, none, some ⟨[.unresolvedBase]⟩,
              some ⟨[.unresolvedBase]⟩, some ⟨[.unresolvedBase]⟩, some ⟨[.isError]⟩] :=
  ⟨by decide, cascades_of_nodup _ _ (by decide), by decide⟩

end Script

end Declarative
