import Mathlib.Algebra.GroupWithZero.Nat
import Mathlib.Data.List.Forall2
import Declarative.Proofs.Entries
import Declarative.Resolved.Merge
import Declarative.Resolved.Rendering

/-!
# The trace and the resolved document go together

The walk that resolves a script, the merge of its outcomes into the document and the way
through the resolved document are three separate recursions. Where the numbers of a script
are distinct they visit the same nodes in the same order, and the merge finds for each
node what was recorded of that very node: it never falls back to a missing receiver, as it
would where the kinds of node and entry differ.
-/

namespace Declarative

/-! ## Images of entries -/

/-- The resolution says of the node just what the entry says of it. -/
inductive Reflects : Script.Node → Trace.Entry → Resolution → Prop where
  | added {id span name arguments block receiver type f} :
      Reflects (.statement (.call id span name arguments block))
        (.element (.resolved (.added receiver type f))) (.element (.added type f))
  | configured {id span name arguments block receiver type f} :
      Reflects (.statement (.call id span name arguments block))
        (.element (.resolved (.configured receiver type f))) (.element (.configured type f))
  | elementFailed {id span name arguments block reasons} :
      Reflects (.statement (.call id span name arguments block))
        (.element (.failed reasons)) (.element (.failed reasons))
  | assigned {id span name assigned receiver property} :
      Reflects (.statement (.assign id span name assigned))
        (.assignment (.resolved ⟨receiver, property⟩)) (.property (.assigned receiver property))
  | notAssigned {id span name assigned reasons} :
      Reflects (.statement (.assign id span name assigned))
        (.assignment (.failed reasons)) (.property (.failed reasons))
  | error {id span message} :
      Reflects (.statement (.error id span message))
        (.element (.failed (.single .isError))) .error
  /-- A literal is resolved to the literal that it is. -/
  | literal {id span content type} :
      Reflects (.value (.literal id span content))
        (.value (.resolved (.literal content type))) (.literal (.resolved content))
  | factory {id span name arguments f} :
      Reflects (.value (.factory id span name arguments))
        (.value (.resolved (.factory f))) (.factory (.resolved f))
  | factoryFailed {id span name arguments reasons} :
      Reflects (.value (.factory id span name arguments))
        (.value (.failed reasons)) (.factory (.failed reasons))

theorem Reflects.isFailure_eq {node : Script.Node} {entry : Trace.Entry} {resolution : Resolution}
    (h : Reflects node entry resolution) : resolution.isFailure = entry.isFailure := by
  cases h <;> rfl

namespace Script.Node

/-- What the merge makes of a node, by what is recorded of its number. -/
def resolution : Node → Option Trace.Entry → Resolution
  | statement (.call ..), entry? => .element (Resolved.elementResolution entry?)
  | statement (.assign ..), entry? => .property (Resolved.propertyResolution entry?)
  | statement (.error ..), _ => .error
  | value (.literal ..), entry? => .literal (Resolved.literalResolution entry?)
  | value (.factory ..), entry? => .factory (Resolved.factoryResolution entry?)

/-- The part of the resolved document that comes from a node. -/
def part (trace : Trace) (node : Node) : Resolved.Part :=
  (⟨node.id, node.span⟩, node.resolution (trace.get? node.id))

end Script.Node

/-! ## The resolved document in preorder -/

namespace Resolved

variable (trace : Trace)

mutual

theorem Value.flatten_ofScript : ∀ v : Declarative.Value,
    (Value.ofDocument trace (Document.Value.ofScript v)).flatten
      = v.preorder.map (Script.Node.part trace)
  | .literal _ _ _ => rfl
  | .factory _ _ _ arguments => by
      rw [Document.Value.ofScript, Value.ofDocument, Value.flatten, Declarative.Value.preorder,
        List.map_cons, Value.flattenAll_ofScripts arguments]
      rfl

theorem Value.flattenAll_ofScripts : ∀ vs : List Declarative.Value,
    Value.flattenAll (Value.ofDocuments trace (Document.Value.ofScripts vs))
      = (Declarative.Value.preorderAll vs).map (Script.Node.part trace)
  | [] => rfl
  | v :: vs => by
      rw [Document.Value.ofScripts, Value.ofDocuments, Value.flattenAll,
        Declarative.Value.preorderAll, List.map_append, Value.flatten_ofScript v,
        Value.flattenAll_ofScripts vs]

end

mutual

theorem Node.flatten_ofStatement : ∀ s : Statement,
    (Node.ofDocument trace (Document.Node.ofStatement s)).flatten
      = s.preorder.map (Script.Node.part trace)
  | .call _ _ _ arguments block => by
      rw [Document.Node.ofStatement, Node.ofDocument, Node.flatten, Statement.preorder,
        List.map_cons, List.map_append, Value.flattenAll_ofScripts trace arguments,
        Node.flattenAll_ofBody block]
      rfl
  | .assign _ _ _ assigned => by
      rw [Document.Node.ofStatement, Node.ofDocument, Node.flatten, Statement.preorder,
        List.map_cons, Value.flatten_ofScript trace assigned]
      rfl
  | .error _ _ _ => rfl

theorem Node.flattenAll_ofBody : ∀ block : Body,
    Node.flattenAll (Node.ofDocuments trace (Document.Node.ofBody block))
      = (Statement.preorderBody block).map (Script.Node.part trace)
  | .absent => rfl
  | .block _ _ inner => Node.flattenAll_ofStatements inner

theorem Node.flattenAll_ofStatements : ∀ ss : List Statement,
    Node.flattenAll (Node.ofDocuments trace (Document.Node.ofStatements ss))
      = (Statement.preorderAll ss).map (Script.Node.part trace)
  | [] => rfl
  | s :: ss => by
      rw [Document.Node.ofStatements, Node.ofDocuments, Node.flattenAll, Statement.preorderAll,
        List.map_append, Node.flatten_ofStatement s, Node.flattenAll_ofStatements ss]

end

end Resolved

theorem Script.flatten_resolvedDocument (schema : Schema) (settings : Settings) (script : Script) :
    (script.resolvedDocument schema settings).flatten
      = script.preorder.map (Script.Node.part (script.resolve schema settings)) :=
  Resolved.Node.flattenAll_ofStatements _ script.statements

/-- A resolved document is shown with one line for each node of its script. -/
theorem Script.render_resolvedDocument (schema : Schema) (settings : Settings) (script : Script) :
    (script.resolvedDocument schema settings).render
      = script.preorder.map fun node =>
          (node.resolution ((script.resolve schema settings).get? node.id)).render := by
  rw [ResolvedDocument.render, flatten_resolvedDocument, List.map_map]
  rfl

/-! ## Each entry is of its node's kind -/

/-- The entry has the node's number, and the merge takes it for what it is. -/
def Pairs (node : Script.Node) (entry : NodeId × Trace.Entry) : Prop :=
  entry.1 = node.id ∧ Reflects node entry.2 (node.resolution (some entry.2))

namespace Resolver

variable (schema : Schema) (settings : Settings)

theorem pairs_call {id : NodeId} {span : Span} {name : Name} {arguments : List Value} {block : Body}
    (outcome : Outcome ElementTarget) :
    Pairs (.statement (.call id span name arguments block)) (id, .element outcome) := by
  refine ⟨rfl, ?_⟩
  match outcome with
  | .resolved (.added _ _ _) => exact .added
  | .resolved (.configured _ _ _) => exact .configured
  | .failed _ => exact .elementFailed

theorem pairs_assign {id : NodeId} {span : Span} {name : Name} {assigned : Value}
    (outcome : Outcome AssignmentTarget) :
    Pairs (.statement (.assign id span name assigned)) (id, .assignment outcome) := by
  refine ⟨rfl, ?_⟩
  cases outcome with
  | resolved target => exact .assigned
  | failed reasons => exact .notAssigned

/-- The call of a value never resolves to a literal. -/
theorem factoryOutcome_cases (stack : ScopeStack) (name : String) (types : List (Option DataType)) :
    (∃ f, factoryOutcome schema settings stack name types = .resolved (.factory f))
      ∨ ∃ reasons, factoryOutcome schema settings stack name types = .failed reasons := by
  unfold factoryOutcome
  split
  · exact Or.inr ⟨_, rfl⟩
  · split
    · exact Or.inl ⟨_, rfl⟩
    · exact Or.inr ⟨_, rfl⟩

theorem pairs_factory (stack : ScopeStack) (id : NodeId) (span : Span) (name : Name)
    (arguments : List Value) :
    Pairs (.value (.factory id span name arguments))
      (id, .value (factoryCallOutcome schema settings stack name arguments)) := by
  refine ⟨rfl, ?_⟩
  rcases factoryOutcome_cases schema settings stack name.text
    (valueTypes schema settings stack arguments) with ⟨f, hf⟩ | ⟨reasons, hr⟩
  · rw [factoryCallOutcome, hf]
    exact .factory
  · rw [factoryCallOutcome, hr]
    exact .factoryFailed

mutual

theorem pairs_valueEntries (stack : ScopeStack) : ∀ v : Value,
    List.Forall₂ Pairs v.preorder (valueEntries schema settings stack v)
  | .literal _ _ _ => .cons ⟨rfl, .literal⟩ .nil
  | .factory id span name arguments =>
      .cons (pairs_factory schema settings stack id span name arguments)
        (pairs_valuesEntries stack arguments)

theorem pairs_valuesEntries (stack : ScopeStack) : ∀ vs : List Value,
    List.Forall₂ Pairs (Value.preorderAll vs) (valuesEntries schema settings stack vs)
  | [] => .nil
  | first :: others =>
      List.rel_append (pairs_valueEntries stack first) (pairs_valuesEntries stack others)

end

mutual

theorem pairs_statementEntries (stack : ScopeStack) : ∀ s : Statement,
    List.Forall₂ Pairs s.preorder (statementEntries schema settings stack s)
  | .call _ _ _ arguments block =>
      .cons (pairs_call _)
        (List.rel_append (pairs_valuesEntries schema settings stack arguments)
          (pairs_bodyEntries _ block))
  | .assign _ _ _ assigned =>
      .cons (pairs_assign _) (pairs_valueEntries schema settings stack assigned)
  | .error _ _ _ => .cons ⟨rfl, .error⟩ .nil

theorem pairs_bodyEntries (stack : ScopeStack) : ∀ block : Body,
    List.Forall₂ Pairs (Statement.preorderBody block) (bodyEntries schema settings stack block)
  | .absent => .nil
  | .block _ _ inner => pairs_statementsEntries stack inner

theorem pairs_statementsEntries (stack : ScopeStack) : ∀ ss : List Statement,
    List.Forall₂ Pairs (Statement.preorderAll ss) (statementsEntries schema settings stack ss)
  | [] => .nil
  | first :: others =>
      List.rel_append (pairs_statementEntries stack first) (pairs_statementsEntries stack others)

end

end Resolver

/-! ## The alignment -/

theorem exists_getElem?_of_forall₂ {α β : Type} {R : α → β → Prop} {as : List α} {bs : List β}
    (h : List.Forall₂ R as bs) : ∀ {i : Nat} {a : α}, as[i]? = some a →
      ∃ b, bs[i]? = some b ∧ R a b := by
  induction h with
  | nil => intro i a ha; simp at ha
  | cons hab _ ih =>
      intro i a ha
      cases i with
      | zero =>
          obtain rfl := Option.some.inj ha
          exact ⟨_, rfl, hab⟩
      | succ i => exact ih (by simpa using ha)

theorem countP_eq_of_forall₂ {α β : Type} {R : α → β → Prop} {as : List α} {bs : List β}
    {p : α → Bool} {q : β → Bool} (h : List.Forall₂ R as bs)
    (heq : ∀ a b, b ∈ bs → R a b → p a = q b) : as.countP p = bs.countP q := by
  induction h with
  | nil => rfl
  | cons hab _ ih =>
      rw [List.countP_cons, List.countP_cons, heq _ _ (List.mem_cons_self ..) hab,
        ih fun a b hb => heq a b (List.mem_cons_of_mem _ hb)]

theorem exists_mem_iff_of_forall₂ {α β : Type} {R : α → β → Prop} {as : List α} {bs : List β}
    {p : α → Prop} {q : β → Prop} (h : List.Forall₂ R as bs) (hiff : ∀ a b, R a b → (p a ↔ q b)) :
    (∃ a ∈ as, p a) ↔ ∃ b ∈ bs, q b := by
  induction h with
  | nil => simp
  | cons hab _ ih => rw [List.exists_mem_cons_iff, List.exists_mem_cons_iff, hiff _ _ hab, ih]

theorem Statement.nodeCountAll_eq_sum : ∀ ss : List Statement,
    Statement.nodeCountAll ss = (ss.map Statement.nodeCount).sum
  | [] => rfl
  | s :: ss => by
      rw [Statement.nodeCountAll, List.map_cons, List.sum_cons, Statement.nodeCountAll_eq_sum ss]

namespace Script

variable (schema : Schema) (settings : Settings) {script : Script}

/-- At each place of the preorder stand the node's own entry and the image of this entry. -/
theorem reflects_at (hids : script.nodeIds.Nodup) {i : Nat} {node : Script.Node}
    (hnode : script.preorder[i]? = some node) :
    ∃ entry resolution,
      (script.resolve schema settings).get? node.id = some entry
        ∧ (script.resolve schema settings).toList[i]? = some (node.id, entry)
        ∧ (script.resolvedDocument schema settings).flatten[i]?
            = some (⟨node.id, node.span⟩, resolution)
        ∧ Reflects node entry resolution := by
  have hpairs := Resolver.pairs_statementsEntries schema settings (.new schema.topLevel)
    script.statements
  obtain ⟨⟨id, entry⟩, hentry, rfl, hreflects⟩ := exists_getElem?_of_forall₂ hpairs hnode
  have hget : (script.resolve schema settings).get? node.id = some entry :=
    (get?_resolve_eq_some_iff hids).mpr (List.mem_of_getElem? hentry)
  refine ⟨entry, _, hget, ?_, ?_, hreflects⟩
  · rw [toList_resolve hids]
    exact hentry
  · rw [flatten_resolvedDocument, List.getElem?_map, hnode, Option.map_some, Script.Node.part, hget]

/-- The part that comes from a node says of it what was recorded. -/
theorem reflects_part (hids : script.nodeIds.Nodup) {node : Node} (hnode : node ∈ script.preorder) :
    ∃ entry, (script.resolve schema settings).get? node.id = some entry
      ∧ Reflects node entry (node.part (script.resolve schema settings)).2 := by
  obtain ⟨i, hi⟩ := List.mem_iff_getElem?.mp hnode
  obtain ⟨entry, resolution, hget, -, hpart, hreflects⟩ := reflects_at schema settings hids hi
  rw [flatten_resolvedDocument, List.getElem?_map, hi] at hpart
  rw [Option.some.inj hpart]
  exact ⟨entry, hget, hreflects⟩

theorem countP_isFailure_flatten (hids : script.nodeIds.Nodup) :
    (script.resolvedDocument schema settings).flatten.countP (·.2.isFailure)
      = (script.entries schema settings).countP (·.2.isFailure) := by
  rw [flatten_resolvedDocument, List.countP_map]
  refine countP_eq_of_forall₂ (Resolver.pairs_statementsEntries schema settings
    (.new schema.topLevel) script.statements) fun node entry hmem hpairs => ?_
  have hget := (@get?_resolve_eq_some_iff schema settings _ hids _ _).mpr hmem
  rw [hpairs.1] at hget
  rw [Function.comp_apply, Script.Node.part, hget]
  exact hpairs.2.isFailure_eq

/-- What it means that the trace of a script and its resolved document go together. -/
structure Aligned (schema : Schema) (settings : Settings) (script : Script) : Prop where
  /-- The trace lists the nodes in preorder. -/
  trace_ids : (script.resolve schema settings).toList.map (·.1) = script.nodeIds
  /-- So does the resolved document. -/
  origins : (script.resolvedDocument schema settings).flatten.map (·.1.node) = script.nodeIds
  /-- The resolution of each node is the image of the node's own entry. -/
  images : ∀ (i : Nat) (node : Script.Node), script.preorder[i]? = some node →
    ∃ entry resolution,
      (script.resolve schema settings).get? node.id = some entry
        ∧ (script.resolve schema settings).toList[i]? = some (node.id, entry)
        ∧ (script.resolvedDocument schema settings).flatten[i]?
            = some (⟨node.id, node.span⟩, resolution)
        ∧ Reflects node entry resolution
  trace_size : (script.resolve schema settings).size
    = (script.resolvedDocument schema settings).flatten.length
  flatten_length : (script.resolvedDocument schema settings).flatten.length
    = (script.statements.map Statement.nodeCount).sum
  failure_count : (script.resolve schema settings).failureCount
    = (script.resolvedDocument schema settings).failures.length

/-- **The two stages align**, whatever the schema and the settings are. -/
theorem aligned_of_nodup (schema : Schema) (settings : Settings) {script : Script}
    (hids : script.nodeIds.Nodup) : script.Aligned schema settings where
  trace_ids := by rw [toList_resolve hids, entries_ids]
  origins := by
    rw [flatten_resolvedDocument, List.map_map]
    rfl
  images _ _ hnode := reflects_at schema settings hids hnode
  trace_size := by
    rw [(script.resolve_lists schema settings).size_eq (entries_ids_nodup hids),
      flatten_resolvedDocument, List.length_map, ← List.length_map (·.1), entries_ids, nodeIds,
      List.length_map]
  flatten_length := by
    rw [flatten_resolvedDocument, List.length_map, preorder, Statement.length_preorderAll,
      Statement.nodeCountAll_eq_sum]
  failure_count := by
    rw [(script.resolve_lists schema settings).failureCount_eq (entries_ids_nodup hids),
      ResolvedDocument.failures, ← List.countP_eq_length_filter,
      countP_isFailure_flatten schema settings hids]

/-- An element with a block that assigns a call of no function, and a piece that is no
statement. -/
theorem aligned_of_nodup_element :
    let schema := Schema.ofClasses "Garden"
      [.ofMembers "Garden" [.adding "bed" [.int] "Bed" .allowed],
        .ofMembers "Bed" [.property "plants" .long false false]]
      [("Garden", []), ("Bed", [])]
    let name (text : String) : Name := ⟨text, ⟨0, 0⟩⟩
    let script : Script := ⟨"garden", [
      .call ⟨0⟩ ⟨0, 30⟩ (name "bed") [.literal ⟨1⟩ ⟨4, 5⟩ (.int 3)]
        (.block ⟨2⟩ ⟨7, 30⟩ [
          .assign ⟨3⟩ ⟨9, 28⟩ (name "plants") (.factory ⟨4⟩ ⟨18, 28⟩ (name "count") [])]),
      .error ⟨5⟩ ⟨31, 32⟩ "Unexpected ')'"], ⟨0, 32⟩⟩
    script.nodeIds.Nodup ∧ script.Aligned schema ⟨true⟩ :=
  ⟨by decide, aligned_of_nodup _ _ (by decide)⟩

end Script

end Declarative
