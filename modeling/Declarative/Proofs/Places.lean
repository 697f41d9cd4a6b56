import Declarative.Proofs.Judged

/-!
# Places in a script

A node can be found in two ways: in the preorder of the script, or by going from the top
into the blocks of calls and then into the values of a statement (`Script.Lies`). Both
reach the same nodes (`Script.mem_preorder_iff`), and a node lies inside the block of a
call just where it is in the preorder of that block.

What the walk over a script records of a node depends on the node and on the stack that
the walk has there (`Resolver.nodeEntry`). The scopes on that stack are the ones recorded
of the calls around (`Script.Lies.exists_entry`), so everything that can be said of the
outcome of one node follows from these two.
-/

namespace Declarative

/-! ## The preorder, from the inside outward -/

theorem Value.self_mem_preorder (v : Value) : .value v ∈ v.preorder := by
  cases v <;> simp [preorder]

theorem Statement.self_mem_preorder (s : Statement) : .statement s ∈ s.preorder := by
  cases s <;> simp [preorder]

theorem Value.preorder_subset_of_mem {v : Value} : ∀ {vs : List Value}, v ∈ vs →
    v.preorder ⊆ preorderAll vs
  | first :: others, hv => by
      rw [preorderAll]
      rcases List.mem_cons.mp hv with rfl | hv
      · exact List.subset_append_left _ _
      · exact List.Subset.trans (preorder_subset_of_mem hv) (List.subset_append_right _ _)

theorem Value.preorder_subset_of_argument {outer v : Value} (hv : v ∈ outer.arguments) :
    v.preorder ⊆ outer.preorder := by
  cases outer with
  | literal id span content => cases hv
  | factory id span name arguments =>
      rw [preorder]
      exact List.subset_cons_of_subset _ (preorder_subset_of_mem hv)

namespace Statement

theorem preorder_sublist_of_mem {s : Statement} : ∀ {ss : List Statement}, s ∈ ss →
    s.preorder.Sublist (preorderAll ss)
  | first :: others, hs => by
      rw [preorderAll]
      rcases List.mem_cons.mp hs with rfl | hs
      · exact List.sublist_append_left _ _
      · exact (preorder_sublist_of_mem hs).trans (List.sublist_append_right _ _)

theorem preorderBody_eq (block : Body) : preorderBody block = preorderAll block.statements := by
  cases block <;> rfl

theorem preorderAll_inner_sublist (s : Statement) : (preorderAll s.inner).Sublist s.preorder := by
  cases s with
  | call id span name arguments block =>
      rw [preorder, preorderBody_eq]
      exact (List.sublist_append_right _ _).cons _
  | assign id span target assigned => exact List.nil_sublist _
  | error id span message => exact List.nil_sublist _

theorem preorder_subset_of_value {s : Statement} {v : Value} (hv : v ∈ s.values) :
    v.preorder ⊆ s.preorder := by
  cases s with
  | call id span name arguments block =>
      rw [preorder]
      exact List.subset_cons_of_subset _
        (List.subset_append_of_subset_left _ (Value.preorder_subset_of_mem hv))
  | assign id span target assigned =>
      obtain rfl := List.mem_singleton.mp hv
      rw [preorder]
      exact List.subset_cons_self _ _
  | error id span message => cases hv

theorem Holds.preorder_subset {s : Statement} {v : Value} (h : s.Holds v) :
    v.preorder ⊆ s.preorder := by
  induction h with
  | direct hv => exact preorder_subset_of_value hv
  | argument _ hv ih => exact List.Subset.trans (Value.preorder_subset_of_argument hv) ih

end Statement

namespace Script

variable {script : Script} {calls : List Statement}

/-- The node is one of the script, inside of the blocks of the calls, the innermost first,
and of no other. -/
inductive Lies (script : Script) (calls : List Statement) : Node → Prop where
  | statement {s} : script.Stands calls s → Lies script calls (.statement s)
  | value {s v} : script.Stands calls s → s.Holds v → Lies script calls (.value v)

theorem Stands.preorder_sublist {s : Statement} (h : script.Stands calls s) :
    s.preorder.Sublist script.preorder := by
  induction h with
  | top hs => exact Statement.preorder_sublist_of_mem hs
  | inside _ hs ih =>
      exact (Statement.preorder_sublist_of_mem hs).trans
        ((Statement.preorderAll_inner_sublist _).trans ih)

/-- A statement is in the preorder of each block around it. -/
theorem Stands.preorder_sublist_inner {s : Statement} (h : script.Stands calls s) :
    ∀ call ∈ calls, s.preorder.Sublist (Statement.preorderAll call.inner) := by
  induction h with
  | top hs => exact nofun
  | @inside _ call s _ hs ih =>
      have hinner : s.preorder.Sublist (Statement.preorderAll call.inner) :=
        Statement.preorder_sublist_of_mem hs
      intro outer houter
      rcases List.mem_cons.mp houter with rfl | houter
      · exact hinner
      · exact hinner.trans ((Statement.preorderAll_inner_sublist _).trans (ih outer houter))

/-- Each call around a statement is itself a statement of the script, and has a block. -/
theorem Stands.exists_stands {s : Statement} (h : script.Stands calls s) :
    ∀ call ∈ calls, call.inner ≠ [] ∧ ∃ outer, script.Stands outer call := by
  induction h with
  | top hs => exact nofun
  | inside hcall hs ih =>
      intro outer houter
      rcases List.mem_cons.mp houter with rfl | houter
      · exact ⟨List.ne_nil_of_mem hs, _, hcall⟩
      · exact ih outer houter

namespace Lies

variable {node : Node}

theorem exists_stands (h : script.Lies calls node) :
    ∃ s, script.Stands calls s ∧ node ∈ s.preorder := by
  cases h with
  | @statement s hs => exact ⟨s, hs, s.self_mem_preorder⟩
  | @value s v hs hv => exact ⟨s, hs, hv.preorder_subset v.self_mem_preorder⟩

theorem mem_preorder (h : script.Lies calls node) : node ∈ script.preorder := by
  obtain ⟨s, hs, hnode⟩ := h.exists_stands
  exact hs.preorder_sublist.subset hnode

theorem mem_inner (h : script.Lies calls node) {call : Statement} (hcall : call ∈ calls) :
    .statement call ∈ script.preorder ∧ node ∈ Statement.preorderAll call.inner := by
  obtain ⟨s, hs, hnode⟩ := h.exists_stands
  obtain ⟨-, outer, houter⟩ := hs.exists_stands call hcall
  exact ⟨houter.preorder_sublist.subset call.self_mem_preorder,
    (hs.preorder_sublist_inner call hcall).subset hnode⟩

end Lies

/-! ## The preorder, from the outside inward -/

mutual

theorem exists_holds_of_mem {s : Statement} {node : Node} : ∀ {v : Value}, s.Holds v →
    node ∈ v.preorder → ∃ w, node = .value w ∧ s.Holds w
  | .literal id span content, hv, hnode => by
      rw [Value.preorder, List.mem_singleton] at hnode
      exact ⟨_, hnode, hv⟩
  | .factory id span name arguments, hv, hnode => by
      rw [Value.preorder, List.mem_cons] at hnode
      rcases hnode with rfl | hnode
      · exact ⟨_, rfl, hv⟩
      · exact exists_holds_of_mem_all (fun v hmem => hv.argument hmem) hnode

theorem exists_holds_of_mem_all {s : Statement} {node : Node} : ∀ {vs : List Value},
    (∀ v ∈ vs, s.Holds v) → node ∈ Value.preorderAll vs → ∃ w, node = .value w ∧ s.Holds w
  | first :: others, hvs, hnode => by
      rw [Value.preorderAll, List.mem_append] at hnode
      rcases hnode with hnode | hnode
      · exact exists_holds_of_mem (hvs first (List.mem_cons_self ..)) hnode
      · exact exists_holds_of_mem_all (fun v hv => hvs v (List.mem_cons_of_mem _ hv)) hnode

end

mutual

/-- A node of a statement lies there, or in blocks of the statement. -/
theorem Stands.exists_lies {node : Node} : ∀ {s : Statement} {calls : List Statement},
    script.Stands calls s → node ∈ s.preorder → ∃ inner, script.Lies (inner ++ calls) node
  | .call id span name arguments block, calls, hs, hnode => by
      rw [Statement.preorder, List.mem_cons, List.mem_append] at hnode
      rcases hnode with rfl | hnode | hnode
      · exact ⟨[], .statement hs⟩
      · have hdirect : ∀ v ∈ arguments, (Statement.call id span name arguments block).Holds v :=
          fun v hv => .direct hv
        obtain ⟨v, rfl, hv⟩ := exists_holds_of_mem_all hdirect hnode
        exact ⟨[], .value hs hv⟩
      · obtain ⟨inner, hlies⟩ := exists_lies_of_body (fun s hmem => .inside hs hmem) hnode
        exact ⟨inner ++ [_], by simpa using hlies⟩
  | .assign id span target assigned, calls, hs, hnode => by
      rw [Statement.preorder, List.mem_cons] at hnode
      rcases hnode with rfl | hnode
      · exact ⟨[], .statement hs⟩
      · have hdirect : (Statement.assign id span target assigned).Holds assigned :=
          .direct (List.mem_singleton_self assigned)
        obtain ⟨v, rfl, hv⟩ := exists_holds_of_mem hdirect hnode
        exact ⟨[], .value hs hv⟩
  | .error id span message, calls, hs, hnode => by
      rw [Statement.preorder, List.mem_singleton] at hnode
      exact ⟨[], hnode ▸ .statement hs⟩

theorem exists_lies_of_body {node : Node} : ∀ {block : Body} {calls : List Statement},
    (∀ s ∈ block.statements, script.Stands calls s) → node ∈ Statement.preorderBody block →
      ∃ inner, script.Lies (inner ++ calls) node
  | .block _ _ _, _, hstatements, hnode => exists_lies_of_all hstatements hnode

/-- A node of some statements lies where they stand, or in blocks of one of them. -/
theorem exists_lies_of_all {node : Node} : ∀ {ss : List Statement} {calls : List Statement},
    (∀ s ∈ ss, script.Stands calls s) → node ∈ Statement.preorderAll ss →
      ∃ inner, script.Lies (inner ++ calls) node
  | first :: others, _, hss, hnode => by
      rw [Statement.preorderAll, List.mem_append] at hnode
      rcases hnode with hnode | hnode
      · exact Stands.exists_lies (hss first (List.mem_cons_self ..)) hnode
      · exact exists_lies_of_all (fun s hs => hss s (List.mem_cons_of_mem _ hs)) hnode

end

/-- The nodes of the preorder are the ones that lie somewhere. -/
theorem mem_preorder_iff {node : Node} :
    node ∈ script.preorder ↔ ∃ calls, script.Lies calls node := by
  constructor
  · intro h
    obtain ⟨calls, hlies⟩ := exists_lies_of_all (fun s hs => .top hs) h
    exact ⟨_, hlies⟩
  · rintro ⟨calls, hlies⟩
    exact hlies.mem_preorder

/-- A node of the preorder of a call's block lies inside of the call. -/
theorem exists_lies_of_mem_inner {call : Statement} {node : Node}
    (hcall : .statement call ∈ script.preorder) (hnode : node ∈ Statement.preorderAll call.inner) :
    ∃ calls, script.Lies calls node ∧ call ∈ calls := by
  obtain ⟨outer, hlies⟩ := mem_preorder_iff.mp hcall
  cases hlies with
  | statement hs =>
      obtain ⟨inner, hinner⟩ := exists_lies_of_all (fun s hmem => .inside hs hmem) hnode
      exact ⟨_, hinner, by simp⟩

end Script

/-! ## What is recorded at a place -/

namespace Resolver

variable (schema : Schema) (settings : Settings)

/-- What the walk records of a node when it comes to it with the stack. -/
def nodeEntry (stack : ScopeStack) : Script.Node → Trace.Entry
  | .statement (.call _ _ name arguments block) =>
    .element (callOutcome schema settings stack name arguments block)
  | .statement (.assign _ _ target assigned) =>
    .assignment (assignOutcome schema settings stack target assigned)
  | .statement (.error ..) => .element (.failed (.single .isError))
  | .value (.literal _ _ content) => .value (.resolved (.literal content (literalType content)))
  | .value (.factory _ _ name arguments) =>
    .value (factoryCallOutcome schema settings stack name arguments)

variable {schema settings} {stack : ScopeStack}

theorem mem_statementEntries (s : Statement) :
    (s.id, nodeEntry schema settings stack (.statement s))
      ∈ statementEntries schema settings stack s := by
  cases s <;> (rw [statementEntries]; exact List.mem_cons_self ..)

theorem mem_valueEntries (v : Value) :
    (v.id, nodeEntry schema settings stack (.value v)) ∈ valueEntries schema settings stack v := by
  cases v <;> (rw [valueEntries]; exact List.mem_cons_self ..)

end Resolver

/-- What the walk records of a node is found in the trace, and the scopes that it has there
are the ones recorded of the calls around. -/
theorem Script.Lies.exists_entry {schema : Schema} {settings : Settings} {script : Script}
    (hids : script.nodeIds.Nodup) {calls : List Statement} {node : Script.Node}
    (h : script.Lies calls node) :
    ∃ stack : ScopeStack,
      stack.scopes = (script.resolve schema settings).scopesAround schema.topLevel calls
        ∧ stack.Grounded
        ∧ (script.resolve schema settings).get? node.id
            = some (Resolver.nodeEntry schema settings stack node) := by
  cases h with
  | @statement s hs =>
      obtain ⟨stack, hstack⟩ := exists_reached hids hs
      exact ⟨stack, hstack.scopes, hstack.grounded,
        (get?_resolve_eq_some_iff hids).mpr (hstack.entries (Resolver.mem_statementEntries s))⟩
  | @value s v hs hv =>
      obtain ⟨stack, hstack⟩ := exists_reached hids hs
      exact ⟨stack, hstack.scopes, hstack.grounded,
        (get?_resolve_eq_some_iff hids).mpr
          (hstack.valueEntries_subset hv (Resolver.mem_valueEntries v))⟩

/-- What is recorded of a number is recorded of a node that has it. -/
theorem Script.exists_lies_of_get? {schema : Schema} {settings : Settings} {script : Script}
    (hids : script.nodeIds.Nodup) {id : NodeId} {entry : Trace.Entry}
    (h : (script.resolve schema settings).get? id = some entry) :
    ∃ calls node, script.Lies calls node ∧ node.id = id := by
  have hid : id ∈ (script.entries schema settings).map (·.1) :=
    List.mem_map_of_mem ((get?_resolve_eq_some_iff hids).mp h)
  rw [entries_ids] at hid
  obtain ⟨node, hnode, hid⟩ := List.mem_map.mp hid
  obtain ⟨calls, hlies⟩ := mem_preorder_iff.mp hnode
  exact ⟨calls, node, hlies, hid⟩

end Declarative
