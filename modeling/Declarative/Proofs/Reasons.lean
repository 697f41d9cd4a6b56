import Declarative.Proofs.Provenance

/-!
# The reasons of a failure

What speaks against an assignment can be told without the resolver: where the property is declared, what
it is like, and what became of the value (`Assignment.Against`). In the block of a call that resolved the
reasons recorded of a failed assignment are all that speak against it, in the order of their discovery.
Calls and values fail for one reason, and nothing fails for none or for one reason twice
(`Script.reasoned_of_nodup`).
-/

namespace Declarative

open ScopeStack (AllResolved)

/-! ## What speaks against an assignment -/

namespace Assignment

/-- The property of the name that the innermost receiver has which declares one. -/
structure Means (schema : Schema) (scopes : List Scope) (name receiver : String)
    (p : Schema.Property) : Prop where
  declared : schema.DeclaresProperty receiver p
  named : p.name = name
  nearest : Nearest false scopes
    (fun other => ∃ q, schema.DeclaresProperty other q ∧ q.name = name) receiver

/-- The reason speaks against an assignment to the name inside of these scopes. The type is that of the
value, if the value resolved. -/
inductive Against (schema : Schema) (settings : Settings) (scopes : List Scope) (name : String)
    (type : Option DataType) : Reason → Prop where
  | unknown : (∀ receiver p, .receiver receiver ∈ scopes → schema.DeclaresProperty receiver p →
      p.name ≠ name) → Against schema settings scopes name type .unresolvedSignature
  | outer {receiver p} : Means schema scopes name receiver p → settings.strict = true →
      scopes.head? ≠ some (.receiver receiver) →
      Against schema settings scopes name type .crossScopeAccess
  | readOnly {receiver p} : Means schema scopes name receiver p → p.readOnly = true →
      Against schema settings scopes name type .readOnlyProperty
  | failed : type = none → Against schema settings scopes name type .isError
  | unfit {receiver p given} : Means schema scopes name receiver p → type = some given →
      ¬schema.Assignable given p.type →
      Against schema settings scopes name type .valueTypeMismatch

end Assignment

open Assignment (Means Against)

/-! ## The reasons that the resolver discovers -/

namespace Resolver

variable {schema : Schema} {settings : Settings} {stack : ScopeStack} {name : String}
  {type : Option DataType}

section

variable {b : Schema.Builder} (hb : b.build = .ok schema) (hscopes : AllResolved stack.scopes)

include hb hscopes

/-- The property that is meant is the one that is looked up. -/
theorem means_iff {receiver : String} {p : Schema.Property} :
    Means schema stack.scopes name receiver p
      ↔ ∃ isOuter, stack.lookup (schema.property? · name) = some ⟨p, receiver, isOuter⟩ := by
  have hlookup : (∃ isOuter, stack.lookup (schema.property? · name) = some ⟨p, receiver, isOuter⟩
      ∧ (isOuter && false) = false) ↔ _ := lookup_property?_iff hb hscopes
  simp only [Bool.and_false, and_true] at hlookup
  rw [hlookup]
  exact ⟨fun h => ⟨⟨h.declared, h.named⟩, h.nearest⟩, fun ⟨⟨hd, hn⟩, hnear⟩ => ⟨hd, hn, hnear⟩⟩

theorem lookup_property?_eq_none_iff :
    stack.lookup (schema.property? · name) = none
      ↔ ∀ receiver p, .receiver receiver ∈ stack.scopes → schema.DeclaresProperty receiver p →
          p.name ≠ name := by
  rw [ScopeStack.lookup_eq_none_iff hscopes]
  simp only [Option.eq_none_iff_forall_ne_some, Ne, Schema.property?_eq_some_iff hb, not_and]
  exact forall_congr' fun _ => forall_comm

/-- What the resolver finds against an assignment is what speaks against it. -/
theorem mem_reasons_iff {found : Option (Found Schema.Property)}
    (hlookup : stack.lookup (schema.property? · name) = found) {reason : Reason} :
    reason ∈ targetReasons settings found ++ valueReasons schema found type
      ↔ Against schema settings stack.scopes name type reason := by
  have hmeans : ∀ {receiver p}, Means schema stack.scopes name receiver p →
      ∃ isOuter, found = some ⟨p, receiver, isOuter⟩ := fun h => by
    obtain ⟨isOuter, h⟩ := (means_iff hb hscopes).mp h
    exact ⟨isOuter, hlookup.symm.trans h⟩
  rw [List.mem_append]
  constructor
  · rintro (h | h)
    · cases found with
      | none =>
          obtain rfl := List.mem_singleton.mp h
          exact .unknown ((lookup_property?_eq_none_iff hb hscopes).mp hlookup)
      | some found =>
          have hmeant := (means_iff hb hscopes).mpr ⟨found.isOuter, hlookup⟩
          rcases List.mem_append.mp h with h | h
          · obtain ⟨hcrossed, h⟩ := (List.mem_ite_nil_right ..).mp h
            obtain ⟨houter, hstrict⟩ := Bool.and_eq_true .. |>.mp hcrossed
            obtain rfl := List.mem_singleton.mp h
            exact .outer hmeant hstrict ((ScopeStack.isOuter_iff_of_lookup hlookup).mp houter)
          · obtain ⟨hreadOnly, h⟩ := (List.mem_ite_nil_right ..).mp h
            obtain rfl := List.mem_singleton.mp h
            exact .readOnly hmeant hreadOnly
    · cases type with
      | none =>
          obtain rfl := List.mem_singleton.mp h
          exact .failed rfl
      | some given =>
          cases found with
          | none => cases h
          | some found =>
              have hmeant := (means_iff hb hscopes).mpr ⟨found.isOuter, hlookup⟩
              obtain ⟨hunfit, h⟩ := (List.mem_ite_nil_left ..).mp h
              obtain rfl := List.mem_singleton.mp h
              exact .unfit hmeant rfl (mt (Schema.isAssignable_iff hb).mpr hunfit)
  · intro h
    cases h with
    | unknown hunknown =>
        obtain rfl := hlookup.symm.trans ((lookup_property?_eq_none_iff hb hscopes).mpr hunknown)
        exact Or.inl (List.mem_singleton_self _)
    | outer hmeant hstrict hhead =>
        obtain ⟨isOuter, rfl⟩ := hmeans hmeant
        have houter : isOuter = true := (ScopeStack.isOuter_iff_of_lookup hlookup).mpr hhead
        simp [targetReasons, houter, hstrict]
    | readOnly hmeant hreadOnly =>
        obtain ⟨isOuter, rfl⟩ := hmeans hmeant
        simp [targetReasons, hreadOnly]
    | failed htype =>
        subst htype
        exact Or.inr (List.mem_singleton_self _)
    | unfit hmeant htype hunfit =>
        obtain ⟨isOuter, rfl⟩ := hmeans hmeant
        subst htype
        rw [← Schema.isAssignable_iff hb] at hunfit
        simp [valueReasons, hunfit]

end

end Resolver

/-! ## The reasons that are recorded -/

/-- Calls and values do not resolve for one reason. -/
theorem Resolver.exists_single_of_nodeEntry {schema : Schema} {settings : Settings}
    {stack : ScopeStack} {node : Script.Node} {reasons : ReasonSet}
    (h : nodeEntry schema settings stack node = .element (.failed reasons)
      ∨ nodeEntry schema settings stack node = .value (.failed reasons)) :
    ∃ reason, reasons = .single reason := by
  unfold nodeEntry at h
  split at h
  · rcases h with h | h
    · exact exists_single_of_elementOutcome schema settings (Trace.Entry.element.inj h)
    · cases h
  · rcases h with h | h <;> cases h
  · rcases h with h | h
    · exact ⟨_, (Outcome.failed.inj (Trace.Entry.element.inj h)).symm⟩
    · cases h
  · rcases h with h | h <;> cases h
  · rcases h with h | h
    · cases h
    · exact exists_single_of_factoryOutcome schema settings (Trace.Entry.value.inj h)

/-- What refuses a part that is no property is the failure of a call or of a value. -/
theorem Trace.Entry.eq_failed_of_refusal? {axis : Axis} (haxis : axis ≠ .property) {entry : Entry}
    {reasons : ReasonSet} (h : refusal? axis entry = some reasons) :
    entry = .element (.failed reasons) ∨ entry = .value (.failed reasons) := by
  have hreasons := reasons?_of_refusal? h
  cases entry with
  | element outcome => exact Or.inl (congrArg _ (Outcome.reasons?_eq_some_iff.mp hreasons))
  | value outcome => exact Or.inr (congrArg _ (Outcome.reasons?_eq_some_iff.mp hreasons))
  | assignment outcome =>
      cases axis with
      | property => exact absurd rfl haxis
      | _ => cases h

namespace Script

/-- What it means that failures of a script are recorded with all their reasons, in the order of their
discovery. -/
structure Reasoned (schema : Schema) (settings : Settings) (script : Script) : Prop where
  /-- In the block of a receiver, an assignment fails for all that speaks against it. -/
  assignments : ∀ {calls id span target assigned},
    script.Stands calls (.assign id span target assigned) →
      let trace := script.resolve schema settings
      let scopes := trace.scopesAround schema.topLevel calls
      (∃ receiver, scopes.head? = some (.receiver receiver)) → ∀ reasons,
        trace.get? id = some (.assignment (.failed reasons)) →
          reasons.toList.Sublist Reason.discovery
            ∧ ∀ reason, reason ∈ reasons.toList
                ↔ Against schema settings scopes target.text (trace.typeOf? assigned) reason
  /-- A call or a value fails for one reason. -/
  single : ∀ id reasons,
    (script.resolve schema settings).get? id = some (.element (.failed reasons))
      ∨ (script.resolve schema settings).get? id = some (.value (.failed reasons)) →
    ∃ reason, reasons = .single reason
  proper : ∀ id entry, (script.resolve schema settings).get? id = some entry → entry.Proper
  /-- In the document of the script it is the same with the parts that do not resolve. -/
  parts : ∀ part ∈ (script.resolvedDocument schema settings).flatten, ∀ reasons,
    part.2.reasons? = some reasons →
      reasons.Proper ∧ (part.2.axis ≠ .property → ∃ reason, reasons = .single reason)

section

variable {schema : Schema} {settings : Settings} {script : Script} (hids : script.nodeIds.Nodup)

include hids

theorem exists_single_of_get? {id : NodeId} {reasons : ReasonSet}
    (hget : (script.resolve schema settings).get? id = some (.element (.failed reasons))
      ∨ (script.resolve schema settings).get? id = some (.value (.failed reasons))) :
    ∃ reason, reasons = .single reason := by
  obtain ⟨entry, hentry⟩ : ∃ entry, (script.resolve schema settings).get? id = some entry :=
    hget.elim (⟨_, ·⟩) (⟨_, ·⟩)
  obtain ⟨calls, node, hlies, rfl⟩ := exists_lies_of_get? hids hentry
  obtain ⟨stack, -, -, hnode⟩ := @Lies.exists_entry schema settings script hids calls node hlies
  rw [hnode, Option.some.injEq, Option.some.injEq] at hget
  exact Resolver.exists_single_of_nodeEntry hget

theorem exists_single_of_inherits {id : NodeId} {resolution : Resolution}
    (h : Resolved.Inherits ((script.resolve schema settings).get? id) resolution)
    {reasons : ReasonSet} (hreasons : resolution.reasons? = some reasons)
    (haxis : resolution.axis ≠ .property) : ∃ reason, reasons = .single reason := by
  rcases h.reasons_cases hreasons with rfl | ⟨entry, hget, hrefusal⟩
  · exact ⟨_, rfl⟩
  · refine @exists_single_of_get? schema settings script hids id reasons ?_
    rw [hget]
    exact (Trace.Entry.eq_failed_of_refusal? haxis hrefusal).imp (congrArg _) (congrArg _)

/-- What is recorded against an assignment in the block of a receiver is what speaks against it. -/
theorem Stands.reasons_of_get? {b : Schema.Builder} (hb : b.build = .ok schema)
    {calls : List Statement} {id : NodeId} {span : Span} {target : Name} {assigned : Value}
    (h : script.Stands calls (.assign id span target assigned)) {receiver : String}
    (hreceiver : ((script.resolve schema settings).scopesAround schema.topLevel calls).head?
      = some (.receiver receiver)) {reasons : ReasonSet}
    (hget : (script.resolve schema settings).get? id = some (.assignment (.failed reasons))) :
    reasons.toList.Sublist Reason.discovery
      ∧ ∀ reason, reason ∈ reasons.toList
          ↔ Against schema settings
              ((script.resolve schema settings).scopesAround schema.topLevel calls) target.text
              ((script.resolve schema settings).typeOf? assigned) reason := by
  obtain ⟨stack, hreached⟩ := @exists_reached schema settings script hids calls _ h
  rw [← hreached.scopes, stack.head?_scopes] at hreceiver
  have hcurrent : stack.current = .receiver receiver := Option.some.inj hreceiver
  have hentry := (get?_resolve_eq_some_iff hids).mpr
    (hreached.entries (Resolver.mem_statementEntries (.assign id span target assigned)))
  have houtcome := Trace.Entry.assignment.inj (Option.some.inj (hentry.symm.trans hget))
  have htype := typeOf?_eq hids (hreached.valueEntries_subset (.direct (List.mem_singleton_self _)))
  obtain ⟨hreasons, -⟩ := Resolver.toList_of_assignmentOutcome hcurrent rfl houtcome
  rw [hreasons, htype, ← hreached.scopes]
  exact ⟨Resolver.targetReasons_append_sublist _, fun reason =>
    Resolver.mem_reasons_iff hb (hreached.grounded ⟨receiver, hcurrent⟩) rfl⟩

/-- **The reasons of failures are complete and in the order of their discovery**, with every schema that
was built. -/
theorem reasoned_of_nodup {b : Schema.Builder} (hb : b.build = .ok schema) (settings : Settings) :
    script.Reasoned schema settings where
  assignments hstands hreceiver _ hget := by
    obtain ⟨receiver, hreceiver⟩ := hreceiver
    exact hstands.reasons_of_get? hids hb hreceiver hget
  single _ _ := exists_single_of_get? hids
  proper _ _ := proper_of_get?
  parts part hpart reasons hreasons := by
    obtain ⟨id, hinherits⟩ := Resolved.exists_inherits_of_mem hpart
    exact ⟨hinherits.proper (fun _ => proper_of_get?) hreasons,
      exists_single_of_inherits hids hinherits hreasons⟩

end

/-- The garden has an age that nobody may set. In the bed it is set to a name, and the bed's name to what
a call of nothing makes; nobody has a pond. -/
theorem reasoned_of_nodup_age :
    let builder := (Schema.Builder.empty "Garden").declare "Garden"
        [.adding "bed" [] "Bed" .required, .property "age" .int false true]
      |>.declare "Bed" [.property "name" .string false false]
    let schema := Schema.ofClasses builder.topLevel builder.classes [("Garden", []), ("Bed", [])]
    let name (text : String) : Name := ⟨text, ⟨0, 0⟩⟩
    let script : Script := ⟨"garden", [
      .call ⟨0⟩ ⟨0, 60⟩ (name "bed") [] (.block ⟨1⟩ ⟨4, 60⟩ [
        .assign ⟨2⟩ ⟨6, 18⟩ (name "age") (.literal ⟨3⟩ ⟨12, 18⟩ (.string "rose")),
        .assign ⟨4⟩ ⟨20, 38⟩ (name "name") (.factory ⟨5⟩ ⟨27, 38⟩ (name "rose") []),
        .assign ⟨6⟩ ⟨40, 58⟩ (name "pond") (.factory ⟨7⟩ ⟨47, 58⟩ (name "rose") [])])], ⟨0, 60⟩⟩
    builder.build = .ok schema ∧ script.nodeIds.Nodup ∧ script.Reasoned schema ⟨true⟩
      ∧ (script.resolve schema ⟨true⟩).toList.map (·.2.reasons?)
          = [none, some ⟨[.crossScopeAccess, .readOnlyProperty, .valueTypeMismatch]⟩, none,
              some ⟨[.isError]⟩, some ⟨[.unresolvedSignature]⟩,
              some ⟨[.unresolvedSignature, .isError]⟩, some ⟨[.unresolvedSignature]⟩] := by
  intro builder schema name script
  have hb : builder.build = .ok schema := rfl
  have hids : script.nodeIds.Nodup := by decide +revert
  exact ⟨hb, hids, reasoned_of_nodup hids hb _, by decide +revert⟩

end Script

end Declarative
