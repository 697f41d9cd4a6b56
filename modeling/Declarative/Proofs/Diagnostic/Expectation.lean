import Declarative.Proofs.Diagnostic.Signatures

/-!
# What type a property wants

An assignment whose value does not fit has been compared with the property of the innermost receiver
around that declares one of the name (`Script.Misfits`). Its diagnostic is made knowing the receiver of
the block alone. So the author is told the owner and the type of this very property where the receiver
of the block declares it (`Script.expects_ofText`), and where a receiver further out does, nothing is
told of any type (`Script.outer_type_not_told`).
-/

namespace Declarative

/-! ## The notes of a failed assignment -/

namespace Resolved

/-- The note on the type of a property. -/
def typeNote (p : Schema.Property) : String :=
  "`" ++ p.owner ++ "." ++ p.name ++ "` expects `" ++ p.type.display ++ "`"

/-- The notes of a failed assignment that do not depend on any property. -/
def accessNotes (name : String) (reasons : ReasonSet) : List String :=
  (if reasons.contains .crossScopeAccess then
      ["`" ++ name ++ "` belongs to an enclosing receiver, not the block it is assigned in"]
    else []) ++
    if reasons.contains .readOnlyProperty then ["`" ++ name ++ "` is read-only"] else []

theorem notes_noteIf (condition : Bool) (d : Diagnostic) (note : String) :
    (if condition then d.withNote note else d).notes
      = d.notes ++ if condition then [note] else [] := by
  cases condition with
  | true => rfl
  | false => exact (List.append_nil _).symm

theorem notes_propertyHelp (schema : Schema) (receiver name : String) (place : Span)
    (d : Diagnostic) : (propertyHelp schema receiver name place d).notes = d.notes := by
  unfold propertyHelp
  dsimp only
  split <;> rfl

theorem notes_propertyDiagnostic (schema : Schema) (receiver : Option String) (name : String)
    (span value : Span) (reasons : ReasonSet) :
    (propertyDiagnostic schema receiver name span value reasons).notes
      = (match receiver.bind (schema.property? · name) with
          | some p => if reasons.contains .valueTypeMismatch then [typeNote p] else []
          | none => []) ++ accessNotes name reasons := by
  unfold propertyDiagnostic
  rw [notes_noteIf, notes_noteIf, List.append_assoc]
  refine congrArg (· ++ _) ?_
  cases receiver with
  | none => rfl
  | some receiver =>
      dsimp only [Option.bind_some]
      cases schema.property? receiver name with
      | none =>
          dsimp only
          rw [apply_ite Diagnostic.notes, notes_propertyHelp, ite_self]
          rfl
      | some p =>
          dsimp only
          rw [notes_noteIf, apply_ite Diagnostic.notes, notes_propertyHelp, ite_self]
          rfl

theorem getLast?_append {front back : String} (h : back.toList ≠ []) :
    (front ++ back).toList.getLast? = back.toList.getLast? := by
  rw [String.toList_append, List.getLast?_append_of_ne_nil _ h]

/-- A note on a type ends with a quotation mark. -/
theorem typeNote_ne {p : Schema.Property} {front back : String} (hback : back.toList ≠ [])
    (hlast : back.toList.getLast? ≠ "`".toList.getLast?) : typeNote p ≠ front ++ back := by
  have htype : (typeNote p).toList.getLast? = "`".toList.getLast? := getLast?_append (by decide)
  intro heq
  rw [heq, getLast?_append hback] at htype
  exact hlast htype

theorem typeNote_notMem_accessNotes (p : Schema.Property) (name : String) (reasons : ReasonSet) :
    typeNote p ∉ accessNotes name reasons := by
  intro hmem
  rcases List.mem_append.mp hmem with hmem | hmem
  · obtain ⟨-, heq⟩ := (List.mem_ite_nil_right ..).mp hmem
    exact typeNote_ne (by decide) (by decide) (List.mem_singleton.mp heq)
  · obtain ⟨-, heq⟩ := (List.mem_ite_nil_right ..).mp hmem
    exact typeNote_ne (by decide) (by decide) (List.mem_singleton.mp heq)

end Resolved

/-! ## What the resolver compares -/

namespace Resolver

/-- Only a value of a type is compared, and only with a property that is found. -/
theorem exists_compared {schema : Schema} {settings : Settings} {stack : ScopeStack} {name : String}
    {type : Option DataType} {reasons : ReasonSet}
    (h : assignmentOutcome schema settings stack name type = .failed reasons)
    (hmem : .valueTypeMismatch ∈ reasons.toList) :
    ∃ receiver found given, stack.current = .receiver receiver
      ∧ stack.lookup (schema.property? · name) = some found ∧ type = some given
      ∧ schema.isAssignable given found.member.type = false := by
  cases hcurrent : stack.current with
  | unresolved =>
      simp only [assignmentOutcome, hcurrent] at h
      obtain rfl := Outcome.failed.inj h
      simp [ReasonSet.single] at hmem
  | receiver receiver =>
      cases hlookup : stack.lookup (schema.property? · name) with
      | none =>
          -- with no property found nothing is compared
          rw [(toList_of_assignmentOutcome hcurrent hlookup h).1] at hmem
          cases type <;> simp [targetReasons, valueReasons] at hmem
      | some found =>
          rw [(toList_of_assignmentOutcome hcurrent hlookup h).1] at hmem
          refine ⟨receiver, found, ?_⟩
          cases type <;> grind [targetReasons, valueReasons]

/-- Of assignments alone is recorded what an assignment resolves to. -/
theorem exists_assign_of_nodeEntry {schema : Schema} {settings : Settings} {stack : ScopeStack}
    {node : Script.Node} {outcome : Outcome AssignmentTarget}
    (h : nodeEntry schema settings stack node = .assignment outcome) :
    ∃ id span target assigned, node = .statement (.assign id span target assigned) := by
  unfold nodeEntry at h
  split at h
  case h_2 => exact ⟨_, _, _, _, rfl⟩
  all_goals cases h

end Resolver

namespace Script

/-- Values of the type do not fit the property that the resolver finds for the name: that of the
innermost receiver around which declares one. -/
structure Misfits (schema : Schema) (stack : ScopeStack) (name : String) (type : DataType)
    (found : Found Schema.Property) : Prop where
  lookup : stack.lookup (schema.property? · name) = some found
  declared : schema.DeclaresProperty found.receiver found.member
  named : found.member.name = name
  nearest : Nearest false stack.scopes
    (fun other => ∃ q, schema.DeclaresProperty other q ∧ q.name = name) found.receiver
  unfit : ¬schema.Assignable type found.member.type

/-- How the notes on an assignment in a block of the receiver go with the property that the resolver
has found for its name. -/
structure Expects (schema : Schema) (receiver name : String) (found : Found Schema.Property)
    (d : Diagnostic) : Prop where
  /-- Where the receiver itself declares the property, this is the one found, and the first note tells
  its owner, name and type; no other note tells a type. -/
  own : (∃ q, schema.DeclaresProperty receiver q ∧ q.name = name) →
    found.receiver = receiver
      ∧ ∃ others, d.notes = Resolved.typeNote found.member :: others
        ∧ ∀ p, Resolved.typeNote p ∉ others
  /-- Otherwise nothing is told of any type. -/
  other : (∀ q, schema.DeclaresProperty receiver q → q.name ≠ name) →
    ∀ p, Resolved.typeNote p ∉ d.notes

section

variable {b : Schema.Builder} {schema : Schema} (hb : b.build = .ok schema) {stack : ScopeStack}

include hb

theorem expects_propertyDiagnostic {receiver name : String}
    (hcurrent : stack.current = .receiver receiver) {found : Found Schema.Property}
    (hfound : stack.lookup (schema.property? · name) = some found)
    {reasons : ReasonSet} (hmem : .valueTypeMismatch ∈ reasons.toList) (span value : Span) :
    Expects schema receiver name found
      (Resolved.propertyDiagnostic schema (some receiver) name span value reasons) := by
  have hcontains : reasons.contains .valueTypeMismatch = true := decide_eq_true hmem
  constructor
  · rintro ⟨q, hq⟩
    have hfind := (Schema.property?_eq_some_iff hb).mpr hq
    obtain rfl := Option.some.inj (hfound.symm.trans (Resolver.lookup_of_current hcurrent hfind))
    refine ⟨rfl, Resolved.accessNotes name reasons, ?_, fun p =>
      Resolved.typeNote_notMem_accessNotes p name reasons⟩
    rw [Resolved.notes_propertyDiagnostic, Option.bind_some, hfind]
    dsimp only
    rw [if_pos hcontains]
    rfl
  · intro hnone p
    have hfind : schema.property? receiver name = none := by
      rw [Option.eq_none_iff_forall_ne_some]
      intro q hq
      obtain ⟨hdeclared, hname⟩ := (Schema.property?_eq_some_iff hb).mp hq
      exact hnone q hdeclared hname
    rw [Resolved.notes_propertyDiagnostic, Option.bind_some, hfind]
    exact Resolved.typeNote_notMem_accessNotes p name reasons

/-- An assignment fails because of the type of its value only where the value has a type and the resolver
finds a property that it does not fit. -/
theorem exists_misfits {settings : Settings} {script : Script} (hids : script.nodeIds.Nodup)
    {calls : List Statement} {id : NodeId} {span : Span} {target : Name} {assigned : Value}
    (hstands : script.Stands calls (.assign id span target assigned))
    {entry : Trace.Entry} (hget : (script.resolve schema settings).get? id = some entry)
    (hreason : entry.HasReason .valueTypeMismatch) :
    let stack := (script.resolve schema settings).stackAround schema.topLevel calls
    ∃ receiver type found, stack.current = .receiver receiver
      ∧ (script.resolve schema settings).typeOf? assigned = some type
      ∧ Misfits schema stack target.text type found := by
  intro stack
  obtain ⟨reached, hreached⟩ := @exists_reached schema settings script hids calls _ hstands
  obtain rfl : reached = stack := ScopeStack.eq_of_scopes_eq hreached.scopes
  have hentry := (get?_resolve_eq_some_iff hids).mpr
    (hreached.entries (Resolver.mem_statementEntries (.assign id span target assigned)))
  obtain rfl := Option.some.inj (hentry.symm.trans hget)
  obtain ⟨reasons, hreasons, hmem⟩ := hreason
  obtain ⟨receiver, found, type, hcurrent, hlookup, htype, hunfit⟩ :=
    Resolver.exists_compared (Outcome.reasons?_eq_some_iff.mp hreasons) hmem
  have hscopes := hreached.grounded ⟨receiver, hcurrent⟩
  obtain ⟨⟨hdeclared, hnamed⟩, hnearest⟩ :=
    (Resolver.lookup_property?_iff hb hscopes).mp
      ⟨found.isOuter, hlookup, Bool.and_false _⟩
  refine ⟨receiver, type, found, hcurrent, ?_, hlookup, hdeclared, hnamed, hnearest, ?_⟩
  · rw [typeOf?_eq hids (hreached.valueEntries_subset (.direct (List.mem_singleton_self _))), htype]
  · rw [← Schema.isAssignable_iff hb, hunfit]
    exact Bool.false_ne_true

end

/-- A failure that is recorded of a node of a text has its diagnostic, and no other accounts for it. -/
theorem exists_explained {source text : String} {schema : Schema} {settings : Settings}
    {calls : List Statement} {node : Node} {entry : Trace.Entry} {reasons : ReasonSet} :
    let script := (ofText source text).script
    let trace := script.resolve schema settings
    let diagnostics := (script.resolvedDocument schema settings).diagnostics schema
    script.Lies calls node → node.NeedsReceiver → trace.get? node.id = some entry →
      entry.reasons? = some reasons →
        (∃ d ∈ diagnostics, script.AccountsFor schema settings node d)
          ∧ ∀ d ∈ diagnostics, script.AccountsFor schema settings node d →
              node.explained? schema
                (trace.stackAround schema.topLevel calls).current.receiver? reasons = some d := by
  intro script trace diagnostics hlies hneeds hget hreasons
  have hids : script.nodeIds.Nodup := nodup_nodeIds_ofTokens source (tokenize text).tokens
  constructor
  · obtain ⟨d, hexplained⟩ := Node.exists_explained? hneeds schema
      (trace.stackAround schema.topLevel calls).current.receiver? reasons
    have hd := (mem_diagnostics_iff hids).mpr
      ⟨calls, node, _, reasons, hlies, hget, hreasons, hexplained⟩
    exact ⟨d, hd, accountsFor_of_explained? hids hlies hget hreasons hexplained⟩
  · intro d hd haccounts
    obtain ⟨others, other, entry, recorded, hother, hgot, hrecorded, hexplained⟩ :=
      (mem_diagnostics_iff hids).mp hd
    -- the diagnostic is that of this node, which lies at no other place
    obtain rfl := eq_of_accountsFor hlies.mem_preorder hother.mem_preorder haccounts
      (accountsFor_of_explained? hids hother hgot hrecorded hexplained)
    obtain rfl := hlies.calls_eq hids hother
    obtain rfl := Option.some.inj (hget.symm.trans hgot)
    obtain rfl := Option.some.inj (hreasons.symm.trans hrecorded)
    exact hexplained

/-- **The author is told the type that the resolver has asked for**, as far as the property is one of the
receiver of the block, whatever the text is, with every schema that was built. -/
theorem expects_ofText {b : Schema.Builder} {schema : Schema} (hb : b.build = .ok schema)
    (settings : Settings) (source text : String) :
    let script := (ofText source text).script
    let trace := script.resolve schema settings
    let diagnostics := (script.resolvedDocument schema settings).diagnostics schema
    ∀ calls id span target assigned, script.Stands calls (.assign id span target assigned) →
      (∃ entry, trace.get? id = some entry ∧ entry.HasReason .valueTypeMismatch) →
        let stack := trace.stackAround schema.topLevel calls
        ∃ receiver type found, stack.current = .receiver receiver
          ∧ trace.typeOf? assigned = some type
          ∧ Misfits schema stack target.text type found
          ∧ (∃ d ∈ diagnostics,
              script.AccountsFor schema settings (.statement (.assign id span target assigned)) d)
          ∧ ∀ d ∈ diagnostics,
              script.AccountsFor schema settings (.statement (.assign id span target assigned)) d →
                Expects schema receiver target.text found d := by
  intro script trace diagnostics calls id span target assigned hstands hfailed stack
  have hids : script.nodeIds.Nodup := nodup_nodeIds_ofTokens source (tokenize text).tokens
  obtain ⟨entry, hget, hreason⟩ := hfailed
  obtain ⟨receiver, type, found, hcurrent, htype, hmisfits⟩ :=
    exists_misfits hb hids hstands hget hreason
  obtain ⟨reasons, hreasons, hmem⟩ := hreason
  obtain ⟨hexists, hexplained⟩ := exists_explained (.statement hstands) trivial hget hreasons
  refine ⟨receiver, type, found, hcurrent, htype, hmisfits, hexists, fun d hd haccounts => ?_⟩
  have hd := hexplained d hd haccounts
  rw [hcurrent] at hd
  obtain rfl := Option.some.inj hd
  exact expects_propertyDiagnostic hb hcurrent hmisfits.lookup hmem span assigned.span

/-- Beds have numbers for names, whatever the garden around them has. -/
theorem expects_ofText_name :
    let builder := (Schema.Builder.empty "Garden").declare "Garden"
        [.adding "bed" [] "Bed" .allowed, .property "name" .string false false]
      |>.declare "Bed" [.property "name" .int false false]
    let schema := Schema.ofClasses builder.topLevel builder.classes [("Garden", []), ("Bed", [])]
    let script := (ofText "garden" "bed \x7b\n  name = \"a\"\n\x7d").script
    let trace := script.resolve schema ⟨false⟩
    let diagnostics := (script.resolvedDocument schema ⟨false⟩).diagnostics schema
    builder.build = .ok schema
      ∧ ∃ calls id span target assigned,
        script.Stands calls (.assign id span target assigned)
        ∧ trace.get? id = some (.assignment (.failed (.single .valueTypeMismatch)))
        ∧ ∃ type found, trace.typeOf? assigned = some type
          ∧ Misfits schema (trace.stackAround schema.topLevel calls) target.text type found
          ∧ ∃ d ∈ diagnostics, Expects schema "Bed" target.text found d
            ∧ d.notes = ["`Bed.name` expects `Int`"] := by
  intro builder schema script trace diagnostics
  have hb : builder.build = .ok schema := rfl
  have hids : script.nodeIds.Nodup := nodup_nodeIds_ofTokens "garden" _
  have hplaced : ∃ place ∈ script.placed,
      trace.get? place.node.id = some (.assignment (.failed (.single .valueTypeMismatch)))
      ∧ (trace.stackAround schema.topLevel place.calls).current = .receiver "Bed" := by
    decide +kernel +revert
  have hnotes : ∀ d ∈ diagnostics, d.notes = ["`Bed.name` expects `Int`"] := by
    decide +kernel +revert
  obtain ⟨⟨calls, node⟩, hplace, hget, hbed⟩ := hplaced
  have hlies := mem_placed_iff.mp hplace
  obtain ⟨-, hentry⟩ := hlies.get?_eq schema ⟨false⟩ hids
  obtain ⟨id, span, target, assigned, rfl⟩ :=
    Resolver.exists_assign_of_nodeEntry (Option.some.inj (hentry.symm.trans hget))
  obtain ⟨hstands⟩ := hlies
  obtain ⟨receiver, type, found, hcurrent, htype, hmisfits, ⟨d, hd, haccounts⟩, hexpects⟩ :=
    expects_ofText hb ⟨false⟩ "garden" "bed \x7b\n  name = \"a\"\n\x7d" calls id span target assigned
      hstands ⟨_, hget, _, rfl, List.mem_singleton_self _⟩
  obtain rfl := Scope.receiver.inj (hbed.symm.trans hcurrent)
  exact ⟨hb, calls, id, span, target, assigned, hstands, hget, type, found, htype, hmisfits, d, hd,
    hexpects d hd haccounts, hnotes d hd⟩

/-- A bed has no name of its own, and so the number is compared with the garden's property; but the
author is not told what type that one has. -/
theorem outer_type_not_told :
    let builder := (Schema.Builder.empty "Garden").declare "Garden"
        [.adding "bed" [] "Bed" .allowed, .property "name" .string false false]
      |>.declare "Bed" []
    let schema := Schema.ofClasses builder.topLevel builder.classes [("Garden", []), ("Bed", [])]
    let script := (ofText "garden" "bed \x7b\n  name = 1\n\x7d").script
    let trace := script.resolve schema ⟨false⟩
    builder.build = .ok schema
      ∧ ∃ calls node, script.Lies calls node ∧ node.name? = some "name"
        ∧ trace.get? node.id = some (.assignment (.failed (.single .valueTypeMismatch)))
        ∧ (trace.stackAround schema.topLevel calls).lookup (schema.property? · "name")
            = some ⟨⟨"Garden", "name", .string, false, false⟩, "Garden", true⟩
        ∧ ∃ d ∈ (script.resolvedDocument schema ⟨false⟩).diagnostics schema,
            script.AccountsFor schema ⟨false⟩ node d ∧ d.notes = [] := by
  intro builder schema script trace
  have hb : builder.build = .ok schema := rfl
  have hids : script.nodeIds.Nodup := nodup_nodeIds_ofTokens "garden" _
  have hplaced : ∃ place ∈ script.placed, place.node.name? = some "name"
      ∧ trace.get? place.node.id = some (.assignment (.failed (.single .valueTypeMismatch)))
      ∧ (trace.stackAround schema.topLevel place.calls).lookup (schema.property? · "name")
          = some ⟨⟨"Garden", "name", .string, false, false⟩, "Garden", true⟩
      ∧ (place.diagnostic? trace schema).map (·.notes) = some [] := by
    decide +kernel +revert
  obtain ⟨place, hplace, hname, hget, hlookup, hdiagnostic⟩ := hplaced
  obtain ⟨d, hexplained, hnotes⟩ := Option.map_eq_some_iff.mp hdiagnostic
  obtain ⟨hd, haccounts⟩ := accountsFor_of_placed hids hplace hexplained
  exact ⟨hb, place.calls, place.node, mem_placed_iff.mp hplace, hname, hget, hlookup, d, hd,
    haccounts, hnotes⟩

end Script

end Declarative
