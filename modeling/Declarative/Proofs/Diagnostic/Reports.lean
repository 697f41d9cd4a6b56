import Declarative.Proofs.Cascade
import Declarative.Proofs.Diagnostic.Walk

/-!
# One diagnostic for each failure

Where the numbers of a script are distinct, the walk that makes the diagnostics comes by the nodes that
have failed, each once, and the reasons that it finds are those that the trace has recorded. These name
the missing receiver just inside the blocks of failed calls, so that notes are said there and nowhere
else (`Script.reported_of_nodup`).
-/

namespace Declarative

namespace Script

variable (schema : Schema) (settings : Settings) (script : Script)

/-- Whether the node did not resolve and is no error of the script. -/
def Node.hasFailed (trace : Trace) (node : Node) : Bool :=
  (node.part trace).2.isFailure && (node.part trace).2 != .error

/-- The nodes of the script that did not resolve, but for its errors. -/
def failedNodes : List Node :=
  script.preorder.filter (Node.hasFailed (script.resolve schema settings))

/-- The diagnostic is that of a failed node. -/
structure AccountsFor (node : Node) (d : Diagnostic) : Prop where
  message : node.complaint? = some d.message
  place : ∃ name, node.name? = some name
    ∧ d.primarySpan? = some (Resolved.nameSpan node.span name)
  /-- The code is that of the first reason recorded. -/
  code : ∃ entry reasons reason, (script.resolve schema settings).get? node.id = some entry
    ∧ entry.reasons? = some reasons ∧ reasons.toList.head? = some reason
    ∧ d.code = some (Diagnostic.reasonCode reason)
  note : d.severity = .note ↔ script.InFailedBlock (script.resolve schema settings) node
  error : d.severity = .error ↔ ¬script.InFailedBlock (script.resolve schema settings) node

/-- What it means that diagnostics and failures correspond, one to one. -/
structure Reported : Prop where
  failures : (script.resolvedDocument schema settings).failures.filter (·.2 != .error)
    = (script.failedNodes schema settings).map (Node.part (script.resolve schema settings))
  diagnostics : ∃ nodes, nodes.Perm (script.failedNodes schema settings)
    ∧ List.Forall₂ (script.AccountsFor schema settings) nodes
        ((script.resolvedDocument schema settings).diagnostics schema)

theorem failures_eq_map_failedNodes :
    (script.resolvedDocument schema settings).failures.filter (·.2 != .error)
      = (script.failedNodes schema settings).map
          (Node.part (script.resolve schema settings)) := by
  rw [ResolvedDocument.failures, List.filter_filter, flatten_resolvedDocument, List.filter_map,
    failedNodes]
  refine congrArg _ (List.filter_congr fun node _ => ?_)
  rw [Function.comp_apply, Bool.and_comm, Node.hasFailed]

section

variable {script} (hids : script.nodeIds.Nodup)

include hids

theorem isReported_eq {node : Node} (hnode : node ∈ script.preorder) :
    node.isReported (script.resolve schema settings)
      = node.hasFailed (script.resolve schema settings) := by
  obtain ⟨entry, -, hreflects⟩ := reflects_part schema settings hids hnode
  rw [Node.isReported, Node.hasFailed]
  generalize (node.part (script.resolve schema settings)).2 = resolution at hreflects ⊢
  cases hreflects <;> rfl

variable {schema settings}

/-- The reasons that a diagnostic is made of are those that the trace has recorded. -/
theorem exists_entry_of_reported {node : Node} (hnode : node ∈ script.preorder) {reasons : ReasonSet}
    (h : (node.part (script.resolve schema settings)).2.reported? = some reasons) :
    ∃ entry, (script.resolve schema settings).get? node.id = some entry
      ∧ entry.reasons? = some reasons ∧ node.NeedsReceiver := by
  obtain ⟨entry, hget, hreflects⟩ := reflects_part schema settings hids hnode
  generalize (node.part (script.resolve schema settings)).2 = resolution at hreflects h
  cases hreflects with
  | elementFailed | notAssigned | factoryFailed => exact ⟨_, hget, h, trivial⟩
  | added | configured | assigned | error | literal | factory => cases h

/-- Inside failed blocks the missing receiver is the one reason, and outside it is none of them. -/
theorem severityOf_cases {node : Node} (hnode : node ∈ script.preorder) (hneeds : node.NeedsReceiver)
    {entry : Trace.Entry} (hget : (script.resolve schema settings).get? node.id = some entry)
    {reasons : ReasonSet} (hreasons : entry.reasons? = some reasons) :
    reasons.toList ≠ []
      ∧ (Resolved.severityOf reasons = .note
            ∧ script.InFailedBlock (script.resolve schema settings) node
          ∨ Resolved.severityOf reasons = .error
            ∧ ¬script.InFailedBlock (script.resolve schema settings) node) := by
  by_cases hblock : script.InFailedBlock (script.resolve schema settings) node
  · obtain ⟨recorded, hrecorded, hmissing⟩ := reasons_of_inFailedBlock hids hneeds hblock
    obtain rfl := Option.some.inj (hget.symm.trans hrecorded)
    obtain rfl := Option.some.inj (hreasons.symm.trans hmissing)
    exact ⟨by decide, .inl ⟨rfl, hblock⟩⟩
  · obtain ⟨hne, hown⟩ := ownFailure_of_not_inFailedBlock hids hnode hblock hget hreasons
    exact ⟨hne, .inr ⟨Resolved.severityOf_eq_error hne hown, hblock⟩⟩

theorem accountsFor_of_tells {node : Node} (hnode : node ∈ script.preorder) {d : Diagnostic}
    (h : node.Tells (script.resolve schema settings) d) :
    script.AccountsFor schema settings node d := by
  obtain ⟨reasons, hreported, hdescribes⟩ := h
  obtain ⟨entry, hget, hreasons, hneeds⟩ := exists_entry_of_reported hids hnode hreported
  obtain ⟨hne, hseverity⟩ := severityOf_cases hids hnode hneeds hget hreasons
  obtain ⟨reason, others, hlist⟩ := List.exists_cons_of_ne_nil hne
  have hfirst : reasons.toList.head? = some reason := by rw [hlist, List.head?_cons]
  have hcode : d.code = some (Diagnostic.reasonCode reason) := by
    rw [hdescribes.code, hlist, List.headD_cons]
  rw [← hdescribes.severity] at hseverity
  refine ⟨hdescribes.message, hdescribes.place,
    ⟨entry, reasons, reason, hget, hreasons, hfirst, hcode⟩, ?_, ?_⟩
  · rcases hseverity with ⟨hnote, hblock⟩ | ⟨herror, hblock⟩ <;> simp [*]
  · rcases hseverity with ⟨hnote, hblock⟩ | ⟨herror, hblock⟩ <;> simp [*]

/-- Each diagnostic is that of a failed node, in the order of the walk. -/
theorem accountsFor_valuesFirst (schema : Schema) (settings : Settings) :
    List.Forall₂ (script.AccountsFor schema settings)
      (script.valuesFirst.filter (Node.hasFailed (script.resolve schema settings)))
      ((script.resolvedDocument schema settings).diagnostics schema) := by
  have hmem : ∀ node ∈ script.valuesFirst, node ∈ script.preorder :=
    fun _ hnode => script.valuesFirst_perm.subset hnode
  have hreports := reports_valuesFirst schema settings script
  rw [Trace.Reports, List.filter_congr fun node hnode =>
    isReported_eq schema settings hids (hmem node hnode)] at hreports
  refine ((List.forall₂_and_left _ _).mpr ⟨?_, hreports⟩).imp
    fun node d h => accountsFor_of_tells hids h.1 h.2
  exact fun node hnode => hmem node (List.mem_of_mem_filter hnode)

/-- **One diagnostic for each failure**, whatever the schema and the settings are. -/
theorem reported_of_nodup (schema : Schema) (settings : Settings) :
    script.Reported schema settings where
  failures := failures_eq_map_failedNodes schema settings script
  diagnostics := ⟨_, script.valuesFirst_perm.filter _, accountsFor_valuesFirst hids schema settings⟩

end

/-- Neither `pond` nor `pump` is known in the garden. What is said of the argument comes before what
is said of the call, and what is said of the block are notes. -/
theorem reported_of_nodup_pond :
    let schema := Schema.ofClasses "Garden" [.ofMembers "Garden" []] [("Garden", [])]
    let name (text : String) : Name := ⟨text, ⟨0, 0⟩⟩
    let script : Script := ⟨"garden", [
      .call ⟨0⟩ ⟨0, 30⟩ (name "pond") [.factory ⟨1⟩ ⟨5, 11⟩ (name "pump") []]
        (.block ⟨2⟩ ⟨13, 30⟩ [
          .assign ⟨3⟩ ⟨15, 28⟩ (name "depth") (.factory ⟨4⟩ ⟨22, 28⟩ (name "pump") [])])], ⟨0, 30⟩⟩
    script.nodeIds.Nodup ∧ script.Reported schema ⟨true⟩
      ∧ ((script.resolvedDocument schema ⟨true⟩).diagnostics schema).map
            (fun d => (d.severity, d.code, d.primarySpan?))
          = [(.error, some "E0400", some ⟨5, 9⟩), (.error, some "E0400", some ⟨0, 4⟩),
              (.note, some "E0403", some ⟨15, 20⟩), (.note, some "E0403", some ⟨22, 26⟩)] :=
  ⟨by decide, reported_of_nodup (by decide) _ _, by decide +kernel⟩

end Script

end Declarative
