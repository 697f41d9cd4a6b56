import Declarative.Proofs.Diagnostic.Reports
import Declarative.Proofs.Parser.Numbers
import Declarative.Proofs.Parser.Spans

/-!
# The order of diagnostics

Diagnostics come in the order of the walk that makes them, in which a call stands behind its values;
failures are listed in the order of the document, in which it stands in front of them. The two differ
just where a call has failed together with one of its values, at any depth
(`Script.Node.FailsAlone`). Where this is so nowhere, the diagnostics come in the order of the failures
and the places that they point to never go back in the text; where it is so anywhere, they do go back
(`Script.sequenced_ofText`).

That two orders agree on some nodes is shown by recursion over the script
(`Statement.filter_valuesFirst`), and that they do not by a call and a value that stand in both of
them, the other way round (`Script.call_value_sublist`).
-/

namespace Declarative

/-- The node is no call that has the property together with one of its values. -/
def Script.Node.Alone (p : Script.Node → Bool) : Script.Node → Prop
  | .statement (.call id span name arguments body) =>
    p (.statement (.call id span name arguments body)) = true →
      ∀ v ∈ Value.preorderAll arguments, p v = false
  | _ => True

/-! ## Where the two orders agree -/

namespace Statement

variable {p : Script.Node → Bool}

theorem filter_values_append {call : Script.Node} {values : List Script.Node}
    (h : p call = true → ∀ v ∈ values, p v = false) :
    (values ++ [call]).filter p = (call :: values).filter p := by
  rw [List.filter_append, List.filter_singleton, List.filter_cons]
  by_cases hcall : p call = true
  · have hnone : values.filter p = [] := by simpa using h hcall
    simp [hcall, hnone]
  · simp [hcall]

mutual

/-- Where no call has the property together with one of its values, the walk comes by what has
it in the order of the script. -/
theorem filter_valuesFirst : ∀ s : Statement, (∀ node ∈ s.preorder, node.Alone p) →
    s.valuesFirst.filter p = s.preorder.filter p
  | call id span name arguments body, h => by
      have hcall := h _ (List.mem_cons_self ..)
      have hbody := filter_valuesFirstBody body fun node hnode =>
        h node (List.mem_cons_of_mem _ (List.mem_append_right _ hnode))
      rw [valuesFirst, preorder, List.filter_append, filter_values_append hcall, hbody,
        ← List.cons_append, List.filter_append]
  | assign _ _ _ _, _ => rfl
  | error _ _ _, _ => rfl

theorem filter_valuesFirstBody : ∀ body : Body, (∀ node ∈ preorderBody body, node.Alone p) →
    (valuesFirstBody body).filter p = (preorderBody body).filter p
  | .absent, _ => rfl
  | .block _ _ statements, h => filter_valuesFirstAll statements h

theorem filter_valuesFirstAll : ∀ statements : List Statement,
    (∀ node ∈ preorderAll statements, node.Alone p) →
      (valuesFirstAll statements).filter p = (preorderAll statements).filter p
  | [], _ => rfl
  | s :: statements, h => by
      have hfirst := filter_valuesFirst s fun node hnode => h node (List.mem_append_left _ hnode)
      have hothers := filter_valuesFirstAll statements fun node hnode =>
        h node (List.mem_append_right _ hnode)
      rw [valuesFirstAll, preorderAll, List.filter_append, List.filter_append, hfirst, hothers]

end

/-! ## Where they differ -/

theorem valuesFirst_sublist_of_mem {s : Statement} : ∀ {ss : List Statement}, s ∈ ss →
    s.valuesFirst.Sublist (valuesFirstAll ss)
  | first :: others, hs => by
      rw [valuesFirstAll]
      rcases List.mem_cons.mp hs with rfl | hs
      · exact List.sublist_append_left _ _
      · exact (valuesFirst_sublist_of_mem hs).trans (List.sublist_append_right _ _)

theorem valuesFirstAll_inner_sublist (s : Statement) :
    (valuesFirstAll s.inner).Sublist s.valuesFirst := by
  cases s with
  | call id span name arguments block =>
      have hblock : valuesFirstBody block = valuesFirstAll block.statements := by
        cases block <;> rfl
      rw [valuesFirst, hblock]
      exact List.sublist_append_right _ _
  | assign id span target assigned => exact List.nil_sublist _
  | error id span message => exact List.nil_sublist _

end Statement

namespace Script

variable {script : Script}

theorem Stands.valuesFirst_sublist {calls : List Statement} {s : Statement}
    (h : script.Stands calls s) : s.valuesFirst.Sublist script.valuesFirst := by
  induction h with
  | top hs => exact Statement.valuesFirst_sublist_of_mem hs
  | inside _ hs ih =>
      exact (Statement.valuesFirst_sublist_of_mem hs).trans
        ((Statement.valuesFirstAll_inner_sublist _).trans ih)

/-- A call is in front of its values in the preorder and behind them in the order of the walk. -/
theorem call_value_sublist {id : NodeId} {span : Span} {name : Name} {arguments : List Value}
    {body : Body} (hcall : .statement (.call id span name arguments body) ∈ script.preorder)
    {v : Node} (hv : v ∈ Value.preorderAll arguments) :
    [.statement (.call id span name arguments body), v].Sublist script.preorder
      ∧ [v, .statement (.call id span name arguments body)].Sublist script.valuesFirst := by
  obtain ⟨calls, hlies⟩ := mem_preorder_iff.mp hcall
  cases hlies with
  | statement hs =>
      have hvalue := List.singleton_sublist.mpr hv
      have hown := List.Sublist.refl [Node.statement (.call id span name arguments body)]
      have hpreorder := hs.preorder_sublist
      have hvalues := hs.valuesFirst_sublist
      rw [Statement.preorder, ← List.cons_append] at hpreorder
      rw [Statement.valuesFirst] at hvalues
      exact ⟨(hown.append hvalue).trans ((List.sublist_append_left _ _).trans hpreorder),
        (hvalue.append hown).trans ((List.sublist_append_left _ _).trans hvalues)⟩

/-- Where nodes start one behind the other, the walk never goes back if no call has the property
together with one of its values, and it does go back otherwise. -/
theorem pairwise_starts_iff
    (hstarts : script.preorder.Pairwise fun a b => a.span.start < b.span.start) (p : Node → Bool) :
    ((script.valuesFirst.filter p).map (·.span.start)).Pairwise (· ≤ ·)
      ↔ ∀ node ∈ script.preorder, node.Alone p := by
  rw [List.pairwise_map]
  constructor
  · intro h node hnode
    unfold Node.Alone
    split
    · rename_i id span name arguments body
      intro hcall v hv
      by_contra hvalue
      obtain ⟨hforth, hback⟩ := call_value_sublist hnode hv
      have hlt := List.rel_of_pairwise_cons (hstarts.sublist hforth) (List.mem_singleton_self v)
      have hfiltered := hback.filter p
      rw [List.filter_cons_of_pos (by simpa using hvalue), List.filter_cons_of_pos hcall]
        at hfiltered
      have hle := List.rel_of_pairwise_cons (h.sublist hfiltered) (List.mem_cons_self ..)
      exact absurd hlt (Nat.not_lt.mpr hle)
    · trivial
  · intro h
    rw [valuesFirst, Statement.filter_valuesFirstAll _ h]
    exact (hstarts.sublist List.filter_sublist).imp Nat.le_of_lt

end Script

/-! ## The places of diagnostics -/

/-- Where the primary labels of the diagnostics start. -/
def Diagnostic.starts (ds : List Diagnostic) : List Nat :=
  ds.filterMap fun d => d.primarySpan?.map (·.start)

namespace Script

/-- The node is no failed call with a failed value among its values, at any depth. -/
def Node.FailsAlone (trace : Trace) (node : Node) : Prop := node.Alone (hasFailed trace)

/-- What it means that diagnostics come in the order of the walk, and in the order of the failures
only where no call fails together with one of its values. -/
structure Sequenced (schema : Schema) (settings : Settings) (script : Script) : Prop where
  walk : List.Forall₂ (script.AccountsFor schema settings)
    (script.valuesFirst.filter (Node.hasFailed (script.resolve schema settings)))
    ((script.resolvedDocument schema settings).diagnostics schema)
  /-- The places never go back. -/
  ascending_iff :
    (Diagnostic.starts
        ((script.resolvedDocument schema settings).diagnostics schema)).Pairwise (· ≤ ·)
      ↔ ∀ node ∈ script.preorder, node.FailsAlone (script.resolve schema settings)
  failures_iff :
    List.Forall₂ (script.AccountsFor schema settings) (script.failedNodes schema settings)
        ((script.resolvedDocument schema settings).diagnostics schema)
      ↔ ∀ node ∈ script.preorder, node.FailsAlone (script.resolve schema settings)
  failures : (script.resolvedDocument schema settings).failures.filter (·.2 != .error)
    = (script.failedNodes schema settings).map (Node.part (script.resolve schema settings))

/-- A diagnostic points to where its node starts. -/
theorem starts_eq_of_accountsFor {schema : Schema} {settings : Settings} {script : Script}
    {nodes : List Node} {ds : List Diagnostic}
    (h : List.Forall₂ (script.AccountsFor schema settings) nodes ds) :
    Diagnostic.starts ds = nodes.map (·.span.start) := by
  induction h with
  | nil => rfl
  | @cons node d nodes ds hd _ ih =>
      obtain ⟨name, -, hplace⟩ := hd.place
      rw [Diagnostic.starts, List.filterMap_cons, hplace, ← Diagnostic.starts, ih]
      rfl

theorem sequenced_of_ascending {script : Script} (hids : script.nodeIds.Nodup)
    (hstarts : script.preorder.Pairwise fun a b => a.span.start < b.span.start) (schema : Schema)
    (settings : Settings) : script.Sequenced schema settings := by
  have hwalk := accountsFor_valuesFirst hids schema settings
  have hascending := pairwise_starts_iff hstarts (Node.hasFailed (script.resolve schema settings))
  rw [← starts_eq_of_accountsFor hwalk] at hascending
  refine ⟨hwalk, hascending, ⟨fun hfailures => hascending.mp ?_, fun halone => ?_⟩,
    failures_eq_map_failedNodes schema settings script⟩
  · rw [starts_eq_of_accountsFor hfailures, List.pairwise_map]
    exact (hstarts.sublist List.filter_sublist).imp Nat.le_of_lt
  · rwa [valuesFirst, Statement.filter_valuesFirstAll _ halone] at hwalk

/-- **Diagnostics follow the walk**: they come in the order of the failures, and in that of the text,
just where no call has failed together with one of its values. -/
theorem sequenced_ofText (source text : String) (schema : Schema) (settings : Settings) :
    (ofText source text).script.Sequenced schema settings := by
  obtain ⟨lo, hi, hlaid, -⟩ := laid_ofText source text
  exact sequenced_of_ascending (nodup_nodeIds_ofTokens source _) (ascending_of_laid hlaid) schema
    settings

/-- Neither `bed` nor `plant` is known: the call comes first in the text and among the failures, and
its value comes first among the diagnostics. -/
theorem starts_bed_plant :
    let builder := (Schema.Builder.empty "Garden").declare "Garden" []
    let schema := Schema.ofClasses "Garden" builder.classes [("Garden", [])]
    let document := (ofText "garden" "bed(plant())").script.resolvedDocument schema ⟨false⟩
    builder.build = .ok schema
      ∧ document.failures.map (·.1.span.start) = [0, 4]
      ∧ Diagnostic.starts (document.diagnostics schema) = [4, 0]
      ∧ ¬(Diagnostic.starts (document.diagnostics schema)).Pairwise (· ≤ ·) := by
  decide +kernel

end Script

end Declarative
