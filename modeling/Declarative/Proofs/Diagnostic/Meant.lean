import Declarative.Proofs.Diagnostic.Signatures

/-!
# Whether a suggestion can have been meant

What is suggested for a name of a text is the name of a member that the receiver of the block declares.
For an assignment it is always another name than the one written there, and that of a property which may
be assigned and told of. For a call it is the name of some function; whether a call in this place could
bind to it is not looked at, and so even the name itself can be suggested (`Script.plant_for_plant`).
Where the receiver has a function of the name for such a call, the suggestion is another name that the
call could bind to, and only there (`Script.offers_ofText`).
-/

namespace Declarative

open Resolver (CallSite)

namespace Resolver

variable {schema : Schema} {settings : Settings} {stack : ScopeStack}

/-- That nothing fits the name of an assignment is only said where no receiver around has a property of
the name. -/
theorem lookup_eq_none_of_assignmentOutcome {current name : String} {type : Option DataType}
    {reasons : ReasonSet} (hcurrent : stack.current = .receiver current)
    (h : assignmentOutcome schema settings stack name type = .failed reasons)
    (hmem : .unresolvedSignature ∈ reasons.toList) :
    stack.lookup (schema.property? · name) = none := by
  cases hlookup : stack.lookup (schema.property? · name) with
  | none => rfl
  | some found =>
      rw [(toList_of_assignmentOutcome hcurrent hlookup h).1] at hmem
      cases type <;> grind [targetReasons, valueReasons]

theorem property?_eq_none {current name : String} {type : Option DataType}
    {reasons : ReasonSet} (hcurrent : stack.current = .receiver current)
    (h : assignmentOutcome schema settings stack name type = .failed reasons)
    (hmem : .unresolvedSignature ∈ reasons.toList) : schema.property? current name = none := by
  cases hfind : schema.property? current name with
  | none => rfl
  | some p =>
      have hfound : stack.lookup (schema.property? · name) = some ⟨p, current, false⟩ :=
        lookup_of_current hcurrent hfind
      rw [lookup_eq_none_of_assignmentOutcome hcurrent h hmem] at hfound
      cases hfound

end Resolver

namespace Script

/-- The text is another name than the node's, and that of a member of the receiver that the node could
bind to: a function for calls in such a place, or a property that is not hidden. -/
def Node.CouldMean (schema : Schema) (receiver : String) (node : Node) (text : String) : Prop :=
  node.name? ≠ some text
    ∧ match node.site? with
      | some site => ∃ f, Usable schema site text receiver f
      | none => schema.Shows receiver text

/-- What can be said of a name that is suggested for a node, in a block of the receiver. -/
structure Offers (schema : Schema) (receiver : String) (node : Node) (text : String) : Prop where
  assignment : node.site? = none → node.CouldMean schema receiver text
  /-- For a call it is the name of a function of the receiver, and the call could bind to one of these
  if any of them is for calls in such a place. -/
  call : ∀ site, node.site? = some site →
    (∃ f, schema.Declares receiver f ∧ f.name = text)
      ∧ (node.CouldMean schema receiver text ↔ ∃ f, Usable schema site text receiver f)

section

variable {b : Schema.Builder} {schema : Schema} (hb : b.build = .ok schema)

include hb

/-- A call is offered another function's name only if the receiver has none of its own name for it. -/
theorem offers_of_callHelp? {receiver name : String} {node : Node} {site : CallSite}
    (hsite : node.site? = some site) (hname : node.name? = some name) {place : Span}
    {help : Diagnostic.Help} (hhelp : Resolved.callHelp? schema site name receiver place = some help)
    {r : Diagnostic.Replacement} (hr : help.replacement = some r) :
    Offers schema receiver node r.text := by
  rw [Resolved.callHelp?] at hhelp
  split at hhelp
  · cases hhelp
    cases hr
  · rename_i hnone
    obtain ⟨closest, hclosest, rfl⟩ := Option.map_eq_some_iff.mp hhelp
    obtain rfl := Option.some.inj hr
    have hunusable : ∀ f, ¬Usable schema site name receiver f := by
      intro f hf
      have hsome := (Resolver.candidates?_isSome_iff hb).mpr ⟨f, hf⟩
      rw [hnone] at hsome
      cases hsome
    refine ⟨fun hother => ?_, fun other hother => ?_⟩
    · cases hsite.symm.trans hother
    · obtain rfl := Option.some.inj (hsite.symm.trans hother)
      refine ⟨(Schema.mem_functionNames_iff hb receiver).mp (Suggestion.mem_of_closest? hclosest), ?_⟩
      rw [Node.CouldMean, hsite, hname]
      refine ⟨And.right, ?_⟩
      rintro ⟨f, hf⟩
      refine ⟨fun hsame => ?_, f, hf⟩
      have hsame : name = closest := Option.some.inj hsame
      exact hunusable f (hsame ▸ hf)

theorem offers_of_assignmentHelp? {receiver : String} {id : NodeId} {span place : Span} {target : Name}
    {assigned : Value} (hunknown : schema.property? receiver target.text = none)
    {help : Diagnostic.Help}
    (hhelp : Resolved.assignmentHelp? schema target.text receiver place = some help)
    {r : Diagnostic.Replacement} (hr : help.replacement = some r) :
    Offers schema receiver (.statement (.assign id span target assigned)) r.text := by
  rw [Resolved.assignmentHelp?] at hhelp
  split at hhelp
  · rename_i closest hclosest
    obtain rfl := Option.some.inj hhelp
    obtain rfl := Option.some.inj hr
    obtain ⟨p, hp, hname⟩ := List.mem_map.mp (Suggestion.mem_of_closest? hclosest)
    have hshows := Schema.shows_of_mem_visibleProperties hb hp
    rw [hname] at hshows
    refine ⟨fun _ => ⟨fun hsame => ?_, hshows⟩, fun site hsite => by cases hsite⟩
    obtain ⟨q, hdeclared, hq⟩ := hshows.declared
    have hknown := (Schema.property?_eq_some_iff hb).mpr ⟨hdeclared, hq⟩
    have hsame : target.text = closest := Option.some.inj hsame
    rw [← hsame, hunknown] at hknown
    cases hknown
  · cases hhelp
  · obtain rfl := Option.some.inj hhelp
    cases hr

theorem offers_of_explained? {settings : Settings} {stack : ScopeStack} {node : Node}
    {reasons : ReasonSet} {d : Diagnostic}
    (hreasons : (Resolver.nodeEntry schema settings stack node).reasons? = some reasons)
    (hexplained : node.explained? schema stack.current.receiver? reasons = some d)
    {r : Diagnostic.Replacement} (hr : d.replacement? = some r) :
    ∃ receiver, stack.current = .receiver receiver ∧ Offers schema receiver node r.text := by
  obtain ⟨help, hhelp, hr⟩ := Option.bind_eq_some_iff.mp hr
  rw [Node.help_of_explained? hexplained] at hhelp
  split at hhelp
  · rename_i hmem
    have hmem : Reason.unresolvedSignature ∈ reasons.toList := of_decide_eq_true hmem
    cases hcurrent : stack.current with
    | unresolved =>
        rw [hcurrent] at hhelp
        cases hhelp
    | receiver receiver =>
        rw [hcurrent] at hhelp
        refine ⟨receiver, rfl, ?_⟩
        match node with
        | .statement (.call _ _ _ _ _) => exact offers_of_callHelp? hb rfl rfl hhelp hr
        | .value (.factory _ _ _ _) => exact offers_of_callHelp? hb rfl rfl hhelp hr
        | .statement (.assign _ _ _ _) =>
            have hfailed := Outcome.reasons?_eq_some_iff.mp hreasons
            exact offers_of_assignmentHelp? hb
              (Resolver.property?_eq_none hcurrent hfailed hmem) hhelp hr
  · cases hhelp

end

theorem Node.Written.slice?_eq {text : String} {node : Node} {name : Name} {front back : List Char}
    (h : node.Written text name front back) :
    Text.slice? text.toList (Resolved.nameSpan node.span name.text).start
      (Resolved.nameSpan node.span name.text).stop = some name.text.toList := by
  obtain ⟨lexeme, hslice, -, hspells⟩ :=
    ((Token.scans_scan Token.maxFaults 0 text.toList).occurs _ h.token).slice?_eq
  obtain rfl := hspells.eq_of_ident rfl
  exact hslice

/-- **A suggestion is the name of a member of the receiver**, in place of the failed node's own name,
whatever the text is, with every schema that was built. -/
theorem offers_ofText {b : Schema.Builder} {schema : Schema} (hb : b.build = .ok schema)
    (settings : Settings) (source text : String) :
    let script := (ofText source text).script
    let trace := script.resolve schema settings
    ∀ d ∈ (script.resolvedDocument schema settings).diagnostics schema,
      ∀ r, d.replacement? = some r →
        ∃ calls node name receiver, script.Lies calls node
          ∧ script.AccountsFor schema settings node d
          ∧ node.name? = some name
          ∧ Text.slice? text.toList r.span.start r.span.stop = some name.toList
          ∧ (trace.stackAround schema.topLevel calls).current = .receiver receiver
          ∧ Offers schema receiver node r.text := by
  intro script trace d hd r hr
  have hids : script.nodeIds.Nodup := nodup_nodeIds_ofTokens source (tokenize text).tokens
  obtain ⟨calls, node, entry, reasons, hlies, hget, hreasons, hexplained⟩ :=
    (mem_diagnostics_iff hids).mp hd
  obtain ⟨-, hentry⟩ := hlies.get?_eq schema settings hids
  obtain rfl := Option.some.inj (hentry.symm.trans hget)
  obtain ⟨receiver, hcurrent, hoffers⟩ := offers_of_explained? hb hreasons hexplained hr
  obtain ⟨name, hname, hspan⟩ := (Node.describes_of_explained? hexplained).replaced
  obtain ⟨written, hwritten, rfl⟩ := Node.written?_of_name? hname
  obtain ⟨front, back, hplace⟩ := exists_written hlies.mem_preorder hwritten
  refine ⟨calls, node, written.text, receiver, hlies, ?_, hname, ?_, hcurrent, hoffers⟩
  · exact accountsFor_of_explained? hids hlies hget hreasons hexplained
  · rw [hspan r hr]
    exact hplace.slice?_eq

/-- The garden has a name to be assigned. -/
theorem offers_ofText_nam :
    let builder := (Schema.Builder.empty "Garden").declare "Garden"
      [.property "name" .string false false, .property "nam0" .string true false]
    let schema := Schema.ofClasses builder.topLevel builder.classes [("Garden", [])]
    let script := (ofText "garden" "nam = 1").script
    let trace := script.resolve schema ⟨true⟩
    builder.build = .ok schema
      ∧ ∃ d ∈ (script.resolvedDocument schema ⟨true⟩).diagnostics schema,
        d.replacement? = some ⟨⟨0, 3⟩, "name"⟩
          ∧ ∃ calls node name receiver, script.Lies calls node
            ∧ script.AccountsFor schema ⟨true⟩ node d
            ∧ node.name? = some name
            ∧ Text.slice? "nam = 1".toList 0 3 = some name.toList
            ∧ (trace.stackAround schema.topLevel calls).current = .receiver receiver
            ∧ Offers schema receiver node "name" := by
  intro builder schema script trace
  have hb : builder.build = .ok schema := rfl
  have hfound : ∃ d ∈ (script.resolvedDocument schema ⟨true⟩).diagnostics schema,
      d.replacement? = some ⟨⟨0, 3⟩, "name"⟩ := by decide +kernel +revert
  obtain ⟨d, hd, hreplacement⟩ := hfound
  exact ⟨hb, d, hd, hreplacement,
    offers_ofText hb ⟨true⟩ "garden" "nam = 1" d hd _ hreplacement⟩

/-- Plants are added to the garden, not made for it. So a call that should make a value is no call of
this function, and yet it is asked whether this function was meant. -/
theorem plant_for_plant :
    let builder := (Schema.Builder.empty "Garden").declare "Garden"
      [.property "name" .string false false, .adding "plant" [] "Garden" .allowed]
    let schema := Schema.ofClasses builder.topLevel builder.classes [("Garden", [])]
    let text := "name = plant()"
    let script := (ofText "garden" text).script
    let trace := script.resolve schema ⟨true⟩
    builder.build = .ok schema
      ∧ ∃ calls node, script.Lies calls node ∧ node.site? = some .value
        ∧ (trace.stackAround schema.topLevel calls).current = .receiver "Garden"
        ∧ ∃ d ∈ (script.resolvedDocument schema ⟨true⟩).diagnostics schema,
            script.AccountsFor schema ⟨true⟩ node d
              ∧ d.replacement? = some ⟨⟨7, 12⟩, "plant"⟩
              ∧ Text.slice? text.toList 7 12 = some "plant".toList
              ∧ ∀ f, ¬Usable schema .value "plant" "Garden" f := by
  intro builder schema text script trace
  have hslice : Text.slice? text.toList 7 12 = some "plant".toList := by decide +kernel
  have hnone : Resolver.candidates? schema .value "plant" "Garden" = none := by decide +revert
  have hb : builder.build = .ok schema := rfl
  have hids : script.nodeIds.Nodup := nodup_nodeIds_ofTokens "garden" _
  have hplaced : ∃ place ∈ script.placed, place.node.site? = some .value
      ∧ (trace.stackAround schema.topLevel place.calls).current = .receiver "Garden"
      ∧ (place.diagnostic? trace schema).map (·.replacement?)
          = some (some ⟨⟨7, 12⟩, "plant"⟩) := by
    decide +kernel +revert
  obtain ⟨place, hplace, hsite, hcurrent, hdiagnostic⟩ := hplaced
  obtain ⟨d, hexplained, hreplacement⟩ := Option.map_eq_some_iff.mp hdiagnostic
  obtain ⟨hd, haccounts⟩ := accountsFor_of_placed hids hplace hexplained
  refine ⟨hb, place.calls, place.node, mem_placed_iff.mp hplace, hsite, hcurrent, d, hd, haccounts,
    hreplacement, hslice, fun f hf => ?_⟩
  have hsome := (Resolver.candidates?_isSome_iff hb).mpr ⟨f, hf⟩
  rw [hnone] at hsome
  cases hsome

end Script

end Declarative
