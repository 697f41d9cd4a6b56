import Declarative.Proofs.Diagnostic.Reports

/-!
# The diagnostics, one by one

The walk that makes the diagnostics is given the receiver of the block that it is in. Going along with
the calls around each node (`Script.placed`), the receiver can be read off the trace, and so each
diagnostic is a function of the node, its place and what is recorded of it: the diagnostics of a
document are the explanations of the nodes in the order of the walk (`Script.diagnostics_eq`).
-/

namespace Declarative

open Resolver (CallSite)

/-! ## The block around a node -/

def Scope.receiver? : Scope → Option String
  | receiver name => some name
  | unresolved => none

/-- The scopes at a place inside of the blocks of the calls, as the resolver has them there. -/
def Trace.stackAround (trace : Trace) (topLevel : String) (calls : List Statement) : ScopeStack :=
  ⟨topLevel, calls.map trace.scopeOf⟩

theorem ScopeStack.eq_of_scopes_eq {stack other : ScopeStack} (h : stack.scopes = other.scopes) :
    stack = other := by
  obtain ⟨hentered, htop⟩ := List.append_inj' h rfl
  obtain ⟨topLevel, entered⟩ := stack
  obtain ⟨otherTop, otherEntered⟩ := other
  simp_all

/-- What is recorded of a node is what the resolver finds with the scopes around it. -/
theorem Script.Lies.get?_eq {script : Script} {calls : List Statement} {node : Script.Node}
    (h : script.Lies calls node) (schema : Schema) (settings : Settings)
    (hids : script.nodeIds.Nodup) :
    let trace := script.resolve schema settings
    (trace.stackAround schema.topLevel calls).Grounded
      ∧ trace.get? node.id = some
          (Resolver.nodeEntry schema settings (trace.stackAround schema.topLevel calls) node) := by
  intro trace
  obtain ⟨stack, hscopes, hground, hget⟩ := @Lies.exists_entry schema settings _ hids _ _ h
  obtain rfl : stack = trace.stackAround schema.topLevel calls := ScopeStack.eq_of_scopes_eq hscopes
  exact ⟨hground, hget⟩

/-- The block of a call has the receiver that the call resolved to. -/
theorem Resolved.blockReceiver?_elementResolution (trace : Trace) (call : Statement) :
    blockReceiver? (elementResolution (trace.get? call.id)) = (trace.scopeOf call).receiver? := by
  rw [Trace.scopeOf]
  cases trace.get? call.id with
  | none => rfl
  | some entry =>
      cases entry with
      | assignment outcome => rfl
      | value outcome => rfl
      | element outcome =>
          cases outcome with
          | resolved element => cases element <;> rfl
          | failed reasons => rfl

/-! ## The diagnostic of a node -/

/-- The diagnostic of a node that did not resolve for the reasons, in a block of the receiver. -/
def Script.Node.explained? (schema : Schema) (receiver : Option String) (reasons : ReasonSet) :
    Script.Node → Option Diagnostic
  | .statement (.call _ span name _ _) =>
    some (Resolved.elementDiagnostic schema receiver name.text span reasons)
  | .statement (.assign _ span target assigned) =>
    some (Resolved.propertyDiagnostic schema receiver target.text span assigned.span reasons)
  | .statement (.error ..) => none
  | .value (.literal ..) => none
  | .value (.factory _ span name _) =>
    some (Resolved.factoryDiagnostic schema receiver name.text span reasons)

/-- The diagnostic of a node in a block of the receiver, by what is recorded of it. -/
def Script.Node.diagnostic? (trace : Trace) (schema : Schema) (receiver : Option String)
    (node : Script.Node) : Option Diagnostic :=
  (node.part trace).2.reported?.bind fun reasons => node.explained? schema receiver reasons

/-- A node and the calls whose blocks it is in, the innermost first. -/
structure Script.Place where
  calls : List Statement
  node : Script.Node

namespace Statement

mutual

/-- The places of the statement and what is inside of it, in the order of the walk that makes the
diagnostics. -/
def placed (calls : List Statement) : Statement → List Script.Place
  | call id span name arguments body =>
    (Value.preorderAll arguments).map (⟨calls, ·⟩)
      ++ [⟨calls, .statement (call id span name arguments body)⟩]
      ++ placedBody (call id span name arguments body :: calls) body
  | assign id span target value =>
    ⟨calls, .statement (assign id span target value)⟩ :: value.preorder.map (⟨calls, ·⟩)
  | error id span message => [⟨calls, .statement (error id span message)⟩]

def placedBody (calls : List Statement) : Body → List Script.Place
  | .absent => []
  | .block _ _ statements => placedAll calls statements

def placedAll (calls : List Statement) : List Statement → List Script.Place
  | [] => []
  | statement :: statements => placed calls statement ++ placedAll calls statements

end

end Statement

/-- The nodes of a script and where they are, in the order in which their diagnostics come. -/
def Script.placed (script : Script) : List Script.Place :=
  Statement.placedAll [] script.statements

namespace Statement

mutual

theorem map_node_placed : ∀ (calls : List Statement) (s : Statement),
    (s.placed calls).map (·.node) = s.valuesFirst
  | calls, call id span name arguments body => by
      have hbody := map_node_placedBody (call id span name arguments body :: calls) body
      rw [placed, valuesFirst, List.map_append, List.map_append, List.map_map, hbody]
      exact congrArg (· ++ _ ++ _) (List.map_id _)
  | calls, assign id span target value => by
      rw [placed, valuesFirst, List.map_cons, List.map_map]
      exact congrArg (_ :: ·) (List.map_id _)
  | _, error _ _ _ => rfl

theorem map_node_placedBody : ∀ (calls : List Statement) (body : Body),
    (placedBody calls body).map (·.node) = valuesFirstBody body
  | _, .absent => rfl
  | calls, .block _ _ statements => map_node_placedAll calls statements

theorem map_node_placedAll : ∀ (calls : List Statement) (statements : List Statement),
    (placedAll calls statements).map (·.node) = valuesFirstAll statements
  | _, [] => rfl
  | calls, s :: statements => by
      rw [placedAll, valuesFirstAll, List.map_append, map_node_placed calls s,
        map_node_placedAll calls statements]

end

theorem placed_subset_of_mem {calls : List Statement} {s : Statement} : ∀ {ss : List Statement},
    s ∈ ss → s.placed calls ⊆ placedAll calls ss
  | first :: others, hs => by
      rw [placedAll]
      rcases List.mem_cons.mp hs with rfl | hs
      · exact List.subset_append_left _ _
      · exact List.Subset.trans (placed_subset_of_mem hs) (List.subset_append_right _ _)

/-- What is in the block of a call is placed inside of the call. -/
theorem placed_subset_of_inner {calls : List Statement} {call s : Statement} (hs : s ∈ call.inner) :
    s.placed (call :: calls) ⊆ call.placed calls := by
  cases call with
  | assign id span target value => cases hs
  | error id span message => cases hs
  | call id span name arguments body =>
      cases body with
      | absent => cases hs
      | block blockId blockSpan inner =>
          rw [placed]
          exact List.Subset.trans (placed_subset_of_mem hs) (List.subset_append_right _ _)

theorem self_mem_placed (calls : List Statement) (s : Statement) :
    ⟨calls, .statement s⟩ ∈ s.placed calls := by
  cases s <;> simp [placed]

theorem Holds.preorder_subset_values {s : Statement} {v : Value} (h : s.Holds v) :
    v.preorder ⊆ Value.preorderAll s.values := by
  induction h with
  | direct hv => exact Value.preorder_subset_of_mem hv
  | argument _ hv ih => exact List.Subset.trans (Value.preorder_subset_of_argument hv) ih

theorem Holds.mem_placed {s : Statement} {v : Value} (h : s.Holds v) (calls : List Statement) :
    ⟨calls, .value v⟩ ∈ s.placed calls := by
  have hmem := h.preorder_subset_values v.self_mem_preorder
  cases s with
  | call id span name arguments body =>
      rw [placed, List.append_assoc]
      exact List.mem_append_left _ (List.mem_map_of_mem hmem)
  | assign id span target value =>
      have hmem : Script.Node.value v ∈ value.preorder := by simpa [values, Value.preorderAll] using hmem
      exact List.mem_cons_of_mem _ (List.mem_map_of_mem hmem)
  | error id span message => cases hmem

end Statement

namespace Script

variable {script : Script}

theorem Stands.placed_subset {calls : List Statement} {s : Statement} (h : script.Stands calls s) :
    s.placed calls ⊆ script.placed := by
  induction h with
  | top hs => exact Statement.placed_subset_of_mem hs
  | inside _ hs ih => exact List.Subset.trans (Statement.placed_subset_of_inner hs) ih

mutual

theorem Stands.lies_of_mem {place : Place} : ∀ {s : Statement} {calls : List Statement},
    script.Stands calls s → place ∈ s.placed calls → script.Lies place.calls place.node
  | .call id span name arguments block, calls, hs, hplace => by
      rw [Statement.placed, List.mem_append, List.mem_append] at hplace
      rcases hplace with (hplace | hplace) | hplace
      · obtain ⟨node, hnode, rfl⟩ := List.mem_map.mp hplace
        have hdirect : ∀ v ∈ arguments, (Statement.call id span name arguments block).Holds v :=
          fun v hv => .direct hv
        obtain ⟨v, rfl, hv⟩ := exists_holds_of_mem_all hdirect hnode
        exact .value hs hv
      · obtain rfl := List.mem_singleton.mp hplace
        exact .statement hs
      · exact lies_of_mem_body (fun s hmem => .inside hs hmem) hplace
  | .assign id span target assigned, calls, hs, hplace => by
      rw [Statement.placed, List.mem_cons] at hplace
      rcases hplace with rfl | hplace
      · exact .statement hs
      · obtain ⟨node, hnode, rfl⟩ := List.mem_map.mp hplace
        have hdirect : (Statement.assign id span target assigned).Holds assigned :=
          .direct (List.mem_singleton_self assigned)
        obtain ⟨v, rfl, hv⟩ := exists_holds_of_mem hdirect hnode
        exact .value hs hv
  | .error id span message, calls, hs, hplace => by
      obtain rfl := List.mem_singleton.mp hplace
      exact .statement hs

theorem lies_of_mem_body {place : Place} : ∀ {block : Body} {calls : List Statement},
    (∀ s ∈ block.statements, script.Stands calls s) → place ∈ Statement.placedBody calls block →
      script.Lies place.calls place.node
  | .block _ _ _, _, hstatements, hplace => lies_of_mem_all hstatements hplace

theorem lies_of_mem_all {place : Place} : ∀ {ss : List Statement} {calls : List Statement},
    (∀ s ∈ ss, script.Stands calls s) → place ∈ Statement.placedAll calls ss →
      script.Lies place.calls place.node
  | first :: others, _, hss, hplace => by
      rw [Statement.placedAll, List.mem_append] at hplace
      rcases hplace with hplace | hplace
      · exact Stands.lies_of_mem (hss first (List.mem_cons_self ..)) hplace
      · exact lies_of_mem_all (fun s hs => hss s (List.mem_cons_of_mem _ hs)) hplace

end

/-- The walk comes to each node where it lies. -/
theorem mem_placed_iff {calls : List Statement} {node : Node} :
    ⟨calls, node⟩ ∈ script.placed ↔ script.Lies calls node := by
  constructor
  · exact fun h => lies_of_mem_all (fun s hs => .top hs) h
  · intro h
    cases h with
    | @statement s hs => exact hs.placed_subset (s.self_mem_placed calls)
    | value hs hv => exact hs.placed_subset (hv.mem_placed calls)

theorem map_node_placed (script : Script) : script.placed.map (·.node) = script.valuesFirst :=
  Statement.map_node_placedAll [] script.statements

/-- Where numbers are distinct, no node lies at two places. -/
theorem Lies.calls_eq (hids : script.nodeIds.Nodup) {calls others : List Statement} {node : Node}
    (h : script.Lies calls node) (hother : script.Lies others node) : calls = others := by
  have hnodup : (script.placed.map (·.node.id)).Nodup := by
    have hfirst := (script.valuesFirst_perm.map Node.id).nodup_iff.mpr hids
    rwa [← map_node_placed, List.map_map] at hfirst
  have hsame := List.inj_on_of_nodup_map hnodup (mem_placed_iff.mpr h) (mem_placed_iff.mpr hother) rfl
  exact congrArg Place.calls hsame

end Script

/-! ## The walk explains each node by its place -/

/-- The diagnostic of a node by the calls around it. -/
def Script.Place.diagnostic? (trace : Trace) (schema : Schema) (place : Place) : Option Diagnostic :=
  place.node.diagnostic? trace schema
    (trace.stackAround schema.topLevel place.calls).current.receiver?

namespace Resolved

variable (trace : Trace) (schema : Schema)

mutual

theorem Value.diagnostics_eq (receiver : Option String) : ∀ v : Declarative.Value,
    (Value.ofDocument trace (Document.Value.ofScript v)).diagnostics schema receiver
      = v.preorder.filterMap (·.diagnostic? trace schema receiver)
  | .literal _ _ _ => rfl
  | .factory id span name arguments => by
      rw [Document.Value.ofScript, Value.ofDocument, Value.diagnostics.eq_def,
        Declarative.Value.preorder, ← List.singleton_append, List.filterMap_append]
      refine congrArg₂ (· ++ ·) ?_ (Value.diagnosticsOfAll_eq receiver arguments)
      rw [List.filterMap_cons, List.filterMap_nil, Script.Node.diagnostic?, Script.Node.part,
        Script.Node.resolution, Script.Node.id, Declarative.Value.id]
      cases factoryResolution (trace.get? id) <;> rfl

theorem Value.diagnosticsOfAll_eq (receiver : Option String) : ∀ vs : List Declarative.Value,
    Value.diagnosticsOfAll schema receiver (Value.ofDocuments trace (Document.Value.ofScripts vs))
      = (Declarative.Value.preorderAll vs).filterMap (·.diagnostic? trace schema receiver)
  | [] => rfl
  | v :: vs => by
      rw [Document.Value.ofScripts, Value.ofDocuments, Value.diagnosticsOfAll,
        Declarative.Value.preorderAll, List.filterMap_append, Value.diagnostics_eq receiver v,
        Value.diagnosticsOfAll_eq receiver vs]

end

mutual

theorem Node.diagnostics_eq : ∀ (calls : List Statement) (s : Statement),
    (Node.ofDocument trace (Document.Node.ofStatement s)).diagnostics schema
        (trace.stackAround schema.topLevel calls).current.receiver?
      = (s.placed calls).filterMap (·.diagnostic? trace schema)
  | calls, .call id span name arguments block => by
      rw [Document.Node.ofStatement, Node.ofDocument, Node.diagnostics.eq_def, Statement.placed,
        List.filterMap_append, List.filterMap_append, List.filterMap_map]
      refine congrArg₂ (· ++ ·) (congrArg₂ (· ++ ·) ?_ ?_) ?_
      · exact Value.diagnosticsOfAll_eq trace schema _ arguments
      · rw [List.filterMap_cons, List.filterMap_nil, Script.Place.diagnostic?,
          Script.Node.diagnostic?, Script.Node.part, Script.Node.resolution, Script.Node.id,
          Statement.id]
        cases elementResolution (trace.get? id) <;> rfl
      · have hbody := Node.diagnosticsBody_eq (.call id span name arguments block :: calls) block
        exact (congrArg (Node.diagnosticsOfAll schema · _) (blockReceiver?_elementResolution trace
          (.call id span name arguments block))).trans hbody
  | calls, .assign id span target assigned => by
      rw [Document.Node.ofStatement, Node.ofDocument, Node.diagnostics.eq_def, Statement.placed,
        ← List.singleton_append, List.filterMap_append, List.filterMap_map]
      refine congrArg₂ (· ++ ·) ?_ (Value.diagnostics_eq trace schema _ assigned)
      rw [List.filterMap_cons, List.filterMap_nil, Script.Place.diagnostic?,
        Script.Node.diagnostic?, Script.Node.part, Script.Node.resolution, Script.Node.id,
        Statement.id]
      dsimp only
      rw [Value.span_origin]
      cases propertyResolution (trace.get? id) <;> rfl
  | calls, .error id span message => rfl

theorem Node.diagnosticsBody_eq : ∀ (calls : List Statement) (block : Body),
    Node.diagnosticsOfAll schema (trace.stackAround schema.topLevel calls).current.receiver?
        (Node.ofDocuments trace (Document.Node.ofBody block))
      = (Statement.placedBody calls block).filterMap (·.diagnostic? trace schema)
  | _, .absent => rfl
  | calls, .block _ _ inner => Node.diagnosticsOfAll_eq calls inner

theorem Node.diagnosticsOfAll_eq : ∀ (calls : List Statement) (ss : List Statement),
    Node.diagnosticsOfAll schema (trace.stackAround schema.topLevel calls).current.receiver?
        (Node.ofDocuments trace (Document.Node.ofStatements ss))
      = (Statement.placedAll calls ss).filterMap (·.diagnostic? trace schema)
  | _, [] => rfl
  | calls, s :: ss => by
      rw [Document.Node.ofStatements, Node.ofDocuments, Node.diagnosticsOfAll, Statement.placedAll,
        List.filterMap_append, Node.diagnostics_eq calls s, Node.diagnosticsOfAll_eq calls ss]

end

end Resolved

/-- **The diagnostics explain the nodes one by one**, each by what is recorded of the node and of the
calls around it. -/
theorem Script.diagnostics_eq (schema : Schema) (settings : Settings) (script : Script) :
    (script.resolvedDocument schema settings).diagnostics schema
      = script.placed.filterMap (·.diagnostic? (script.resolve schema settings) schema) :=
  Resolved.Node.diagnosticsOfAll_eq _ schema [] script.statements

/-! ## The help of an explanation -/

namespace Resolved

open Diagnostic

def signatures (functions : List Schema.Function) : String :=
  "available signatures: " ++ "; ".intercalate (functions.map Schema.Function.signature)

/-- The question whether another name was meant, with this name to be put in the place. -/
def suggestion (place : Span) (closest : String) : Help :=
  ⟨Suggestion.question closest, some ⟨place, closest⟩⟩

/-- The help for a call in a block of the receiver: the functions that the receiver has for it, or else
a name like it. -/
def callHelp? (schema : Schema) (site : CallSite) (name receiver : String) (place : Span) :
    Option Help :=
  match Resolver.candidates? schema site name receiver with
  | some functions => some ⟨signatures functions, none⟩
  | none => (Suggestion.closest? name (schema.functionNames receiver)).map (suggestion place)

/-- The help for an assignment in a block of the receiver: a name like it, or else the properties that
may be told of. -/
def assignmentHelp? (schema : Schema) (name receiver : String) (place : Span) : Option Help :=
  match Suggestion.closest? name ((schema.visibleProperties receiver).map (·.name)),
    (schema.visibleProperties receiver).map (·.name) with
  | some closest, _ => some (suggestion place closest)
  | none, [] => none
  | none, names => some ⟨"`" ++ receiver ++ "` has properties: " ++ ", ".intercalate names, none⟩

/-- The help looks a call up as the resolver does, if only in one receiver. -/
theorem help_functionHelp {schema : Schema} (site : CallSite) {isElement : Bool}
    (hsite : ∀ f : Schema.Function, (f.semantics.isElement == isElement) = site.admits f)
    (receiver : Option String) (name : String) (place : Span) {d : Diagnostic} (hd : d.help = none) :
    (functionHelp schema receiver isElement name place d).help
      = receiver.bind (callHelp? schema site name · place) := by
  cases receiver with
  | none => exact hd
  | some receiver =>
      simp only [functionHelp, hsite, Option.bind_some, callHelp?, Resolver.candidates?]
      cases (schema.functionsNamed receiver name).filter site.admits with
      | nil => cases Suggestion.closest? name (schema.functionNames receiver) with
        | none => exact hd
        | some closest => rfl
      | cons f functions => rfl

theorem help_propertyHelp (schema : Schema) (receiver name : String) (place : Span) {d : Diagnostic}
    (hd : d.help = none) :
    (propertyHelp schema receiver name place d).help = assignmentHelp? schema name receiver place := by
  cases hclosest : Suggestion.closest? name ((schema.visibleProperties receiver).map (·.name)) with
  | some closest =>
      simp only [propertyHelp, assignmentHelp?, hclosest]
      rfl
  | none =>
      cases hnames : (schema.visibleProperties receiver).map (·.name) with
      | nil =>
          rw [hnames] at hclosest
          simp only [propertyHelp, assignmentHelp?, hnames, hclosest, hd]
      | cons first names =>
          rw [hnames] at hclosest
          simp only [propertyHelp, assignmentHelp?, hnames, hclosest]
          rfl

theorem help_noteIf (condition : Bool) (d : Diagnostic) (note : String) :
    (if condition then d.withNote note else d).help = d.help := by
  split <;> rfl

variable (schema : Schema) (receiver : Option String) (name : String) (span : Span)
  (reasons : ReasonSet)

theorem help_factoryDiagnostic :
    (factoryDiagnostic schema receiver name span reasons).help
      = if reasons.contains .unresolvedSignature then
          receiver.bind (callHelp? schema .value name · (nameSpan span name))
        else none := by
  rw [factoryDiagnostic, apply_ite Diagnostic.help]
  rw [help_functionHelp .value (fun f => by simp [CallSite.admits]) _ _ _ rfl]
  rfl

theorem help_elementDiagnostic (hasBlock : Bool) :
    (elementDiagnostic schema receiver name span reasons).help
      = if reasons.contains .unresolvedSignature then
          receiver.bind (callHelp? schema (.statement hasBlock) name · (nameSpan span name))
        else none := by
  rw [elementDiagnostic, help_noteIf, apply_ite Diagnostic.help]
  rw [help_functionHelp (.statement hasBlock) (fun f => by simp [CallSite.admits]) _ _ _ rfl]
  rfl

theorem help_propertyDiagnostic (value : Span) :
    (propertyDiagnostic schema receiver name span value reasons).help
      = if reasons.contains .unresolvedSignature then
          receiver.bind (assignmentHelp? schema name · (nameSpan span name))
        else none := by
  unfold propertyDiagnostic
  rw [help_noteIf, help_noteIf]
  cases receiver with
  | none => simp; rfl
  | some receiver =>
      dsimp only [Option.bind_some]
      split
      · rw [help_noteIf, apply_ite Diagnostic.help, help_propertyHelp _ _ _ _ rfl]
        rfl
      · rw [apply_ite Diagnostic.help, help_propertyHelp _ _ _ _ rfl]
        rfl

end Resolved

namespace Script.Node

/-- Where a call stands; nothing else does. -/
def site? : Node → Option CallSite
  | statement (.call _ _ _ _ block) => some (.statement block.isPresent)
  | value (.factory ..) => some .value
  | _ => none

/-- The help for a node that did not resolve because nothing fits its name, in a block of the
receiver. -/
def help? (schema : Schema) (receiver : String) : Node → Option Diagnostic.Help
  | statement (.call _ span name _ block) =>
    Resolved.callHelp? schema (.statement block.isPresent) name.text receiver
      (Resolved.nameSpan span name.text)
  | statement (.assign _ span target _) =>
    Resolved.assignmentHelp? schema target.text receiver (Resolved.nameSpan span target.text)
  | statement (.error ..) => none
  | value (.literal ..) => none
  | value (.factory _ span name _) =>
    Resolved.callHelp? schema .value name.text receiver (Resolved.nameSpan span name.text)

theorem help?_of_site? {schema : Schema} {receiver : String} {node : Node} {site : CallSite}
    {name : String} (hsite : node.site? = some site) (hname : node.name? = some name) :
    node.help? schema receiver
      = Resolved.callHelp? schema site name receiver (Resolved.nameSpan node.span name) := by
  unfold site? at hsite
  split at hsite
  · cases hsite
    cases hname
    rfl
  · cases hsite
    cases hname
    rfl
  · cases hsite

variable {schema : Schema} {receiver : Option String} {reasons : ReasonSet} {node : Node}
  {d : Diagnostic}

/-- There is help where nothing fits the name, and the block around has a receiver. -/
theorem help_of_explained? (h : node.explained? schema receiver reasons = some d) :
    d.help = if reasons.contains .unresolvedSignature then receiver.bind fun r => node.help? schema r
      else none := by
  unfold explained? at h
  split at h
  · cases h
    exact Resolved.help_elementDiagnostic ..
  · cases h
    exact Resolved.help_propertyDiagnostic ..
  · cases h
  · cases h
  · cases h
    exact Resolved.help_factoryDiagnostic ..

/-- Each explanation begins with the complaint, at the name of the node. -/
theorem extends_of_explained? (h : node.explained? schema receiver reasons = some d) :
    ∃ complaint name, node.complaint? = some complaint ∧ node.name? = some name
      ∧ (Resolved.opening reasons complaint (Resolved.nameSpan node.span name)).Extends node.shown
          (Resolved.nameSpan node.span name) d := by
  unfold explained? at h
  split at h
  · cases h
    exact ⟨_, _, rfl, rfl,
      Resolved.opening_elementDiagnostic _ _ _ _ _ (nameSpan_mem_shown rfl)⟩
  · cases h
    exact ⟨_, _, rfl, rfl, Resolved.opening_propertyDiagnostic _ _ _ _ _ (nameSpan_mem_shown rfl)
      (List.mem_cons_of_mem _ (List.mem_singleton_self _))⟩
  · cases h
  · cases h
  · cases h
    exact ⟨_, _, rfl, rfl,
      Resolved.opening_factoryDiagnostic _ _ _ _ _ (nameSpan_mem_shown rfl)⟩

theorem describes_of_explained? (h : node.explained? schema receiver reasons = some d) :
    node.Describes reasons d := by
  obtain ⟨complaint, name, hcomplaint, hname, hextends⟩ := extends_of_explained? h
  exact describes_of_opening hcomplaint hname hextends

theorem needsReceiver_of_explained? (h : node.explained? schema receiver reasons = some d) :
    node.NeedsReceiver := by
  unfold explained? at h
  split at h <;> first | exact trivial | cases h

theorem exists_explained? (hneeds : node.NeedsReceiver) (schema : Schema) (receiver : Option String)
    (reasons : ReasonSet) : ∃ d, node.explained? schema receiver reasons = some d := by
  unfold NeedsReceiver at hneeds
  split at hneeds <;> first | exact ⟨_, rfl⟩ | exact hneeds.elim

end Script.Node

/-! ## Diagnostics and failures -/

namespace Script

variable {schema : Schema} {settings : Settings} {script : Script} (hids : script.nodeIds.Nodup)

include hids

/-- Where a node fails that needs a receiver, the merge says so for the same reasons. -/
theorem reported?_of_entry {node : Node} (hnode : node ∈ script.preorder) (hneeds : node.NeedsReceiver)
    {entry : Trace.Entry} (hget : (script.resolve schema settings).get? node.id = some entry)
    {reasons : ReasonSet} (hreasons : entry.reasons? = some reasons) :
    (node.part (script.resolve schema settings)).2.reported? = some reasons := by
  obtain ⟨recorded, hrecorded, hreflects⟩ := reflects_part schema settings hids hnode
  obtain rfl := Option.some.inj (hget.symm.trans hrecorded)
  generalize (node.part (script.resolve schema settings)).2 = resolution at hreflects ⊢
  cases hreflects with
  | elementFailed | notAssigned | factoryFailed => exact hreasons
  | error | literal => exact hneeds.elim
  | added | configured | assigned | factory => cases hreasons

/-- A diagnostic is the explanation of a failure that is recorded, and each such failure has one. -/
theorem mem_diagnostics_iff {d : Diagnostic} :
    d ∈ (script.resolvedDocument schema settings).diagnostics schema ↔
      ∃ calls node entry reasons, script.Lies calls node
        ∧ (script.resolve schema settings).get? node.id = some entry
        ∧ entry.reasons? = some reasons
        ∧ node.explained? schema ((script.resolve schema settings).stackAround
            schema.topLevel calls).current.receiver? reasons = some d := by
  rw [diagnostics_eq, List.mem_filterMap]
  constructor
  · rintro ⟨⟨calls, node⟩, hplace, hdiagnostic⟩
    have hlies := mem_placed_iff.mp hplace
    obtain ⟨reasons, hreported, hexplained⟩ := Option.bind_eq_some_iff.mp hdiagnostic
    obtain ⟨entry, hget, hreasons, -⟩ := exists_entry_of_reported hids hlies.mem_preorder hreported
    exact ⟨calls, node, entry, reasons, hlies, hget, hreasons, hexplained⟩
  · rintro ⟨calls, node, entry, reasons, hlies, hget, hreasons, hexplained⟩
    have hneeds := Node.needsReceiver_of_explained? hexplained
    refine ⟨⟨calls, node⟩, mem_placed_iff.mpr hlies, Option.bind_eq_some_iff.mpr ?_⟩
    exact ⟨reasons, reported?_of_entry hids hlies.mem_preorder hneeds hget hreasons, hexplained⟩

/-- An explanation accounts for its node. -/
theorem accountsFor_of_explained? {calls : List Statement} {node : Node} {entry : Trace.Entry}
    {reasons : ReasonSet} {receiver : Option String} {d : Diagnostic} (hlies : script.Lies calls node)
    (hget : (script.resolve schema settings).get? node.id = some entry)
    (hreasons : entry.reasons? = some reasons)
    (hexplained : node.explained? schema receiver reasons = some d) :
    script.AccountsFor schema settings node d := by
  have hneeds := Node.needsReceiver_of_explained? hexplained
  have hreported := reported?_of_entry hids hlies.mem_preorder hneeds hget hreasons
  exact accountsFor_of_tells hids hlies.mem_preorder
    ⟨reasons, hreported, Node.describes_of_explained? hexplained⟩

/-- What is explained at a place is a diagnostic of the document, and accounts for the node there. -/
theorem accountsFor_of_placed {place : Place} (hplace : place ∈ script.placed) {d : Diagnostic}
    (h : place.diagnostic? (script.resolve schema settings) schema = some d) :
    d ∈ (script.resolvedDocument schema settings).diagnostics schema
      ∧ script.AccountsFor schema settings place.node d := by
  refine ⟨?_, ?_⟩
  · rw [diagnostics_eq]
    exact List.mem_filterMap.mpr ⟨place, hplace, h⟩
  · have hlies := mem_placed_iff.mp hplace
    obtain ⟨reasons, hreported, hexplained⟩ := Option.bind_eq_some_iff.mp h
    obtain ⟨entry, hget, hreasons, -⟩ := exists_entry_of_reported hids hlies.mem_preorder hreported
    exact accountsFor_of_explained? hids hlies hget hreasons hexplained

end Script

end Declarative
