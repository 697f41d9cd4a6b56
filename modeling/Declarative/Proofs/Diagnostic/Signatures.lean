import Declarative.Proofs.Diagnostic.Discretion
import Declarative.Proofs.Diagnostic.Explained
import Declarative.Proofs.Diagnostic.Suggestions
import Declarative.Proofs.Schema.Indexed

/-!
# The signatures that are listed

A call that nothing fits is looked up twice: by the resolver through all scopes around, and for the help
of its diagnostic in the receiver of its block alone. Both ask a receiver for the same functions
(`Resolved.callHelp?`). So the signatures that the help lists are those that the resolver has
considered, where the block's own receiver has any (`Script.explains_ofText`); functions of a receiver
further out are considered by the resolver, but never listed (`Script.plant_not_listed`).
-/

namespace Declarative

open Resolver (CallSite)

namespace Resolver

variable {schema : Schema} {settings : Settings} {stack : ScopeStack}

/-- Only with a receiver around is a name looked up in vain. -/
theorem exists_receiver_of_hasReason {node : Script.Node} (hneeds : node.NeedsReceiver)
    (h : (nodeEntry schema settings stack node).HasReason .unresolvedSignature) :
    ∃ receiver, stack.current = .receiver receiver := by
  cases hcurrent : stack.current with
  | receiver name => exact ⟨name, rfl⟩
  | unresolved =>
      obtain ⟨reasons, hreasons, hmem⟩ := h
      obtain rfl := Option.some.inj (hreasons.symm.trans (nodeEntry_of_unresolved hcurrent hneeds))
      simp [ReasonSet.single] at hmem

/-- What the innermost receiver has is what a look-up finds. -/
theorem lookup_of_current {α : Type} {find : String → Option α} {receiver : String} {member : α}
    (hcurrent : stack.current = .receiver receiver) (hfind : find receiver = some member) :
    stack.lookup find = some ⟨member, receiver, false⟩ := by
  obtain ⟨outer, hscopes⟩ := stack.scopes_eq_current_cons
  rw [hcurrent] at hscopes
  exact ScopeStack.lookup_eq_some_iff.mpr ⟨[], outer, hscopes, hfind, by simp, rfl⟩

/-- The candidates of a receiver are functions that it declares, in the order of their
declaration. -/
theorem exists_class_of_usable {b : Schema.Builder} (hb : b.build = .ok schema) {site : CallSite}
    {name receiver : String} (h : ∃ f, Usable schema site name receiver f) :
    ∃ c ∈ schema.classes, c.name = receiver
      ∧ candidates? schema site name receiver
          = some (c.functions.filter fun f => f.name == name && site.admits f) := by
  obtain ⟨functions, hfunctions⟩ := Option.isSome_iff_exists.mp ((candidates?_isSome_iff hb).mpr h)
  obtain ⟨f, ⟨c, hc, hname, -⟩, -⟩ := h
  have hfind := (Schema.find?_key_eq_some_iff (Schema.checked_of_build hb).names).mpr ⟨hc, hname⟩
  refine ⟨c, hc, hname, ?_⟩
  rw [hfunctions, candidates?_eq_some hfunctions, Schema.functionsNamed_eq_filter hb, hfind,
    Option.map_some, Option.getD_some, List.filter_filter]
  simp only [Bool.and_comm]

theorem candidates?_eq_none {b : Schema.Builder} (hb : b.build = .ok schema) {site : CallSite}
    {name receiver : String} (h : ∀ f, ¬Usable schema site name receiver f) :
    candidates? schema site name receiver = none := by
  rw [← Option.not_isSome_iff_eq_none, candidates?_isSome_iff hb]
  exact fun ⟨f, hf⟩ => h f hf

end Resolver

namespace Script

/-- How the help for a call in a block of the receiver goes with what the resolver looks at, which has
this stack there. -/
structure Explains (schema : Schema) (stack : ScopeStack) (receiver : String) (site : CallSite)
    (name : String) (d : Diagnostic) : Prop where
  /-- Where the receiver itself has functions for the call, the help lists the signatures of just those
  that the resolver considers: the receiver's, in the order of their declaration. -/
  own : (∃ f, Usable schema site name receiver f) →
    ∃ c ∈ schema.classes, c.name = receiver
      ∧ let functions := c.functions.filter fun f => f.name == name && site.admits f
        stack.lookup (Resolver.candidates? schema site name) = some ⟨functions, receiver, false⟩
          ∧ d.help = some ⟨"available signatures: "
              ++ "; ".intercalate (functions.map Schema.Function.signature), none⟩
  /-- Otherwise no signatures are listed, whatever receivers further out have. At most the name of some
  function of the receiver is suggested, and this is the name of the call itself just where the receiver
  has functions of that name, all of which are then for calls in other places. -/
  other : (∀ f, ¬Usable schema site name receiver f) →
    ∀ help, d.help = some help → ∃ place closest,
      help = ⟨"did you mean `" ++ closest ++ "`?", some ⟨place, closest⟩⟩
        ∧ (∃ f, schema.Declares receiver f ∧ f.name = closest)
        ∧ (closest = name ↔ ∃ f, schema.Declares receiver f ∧ f.name = name)

theorem explains_of_callHelp? {b : Schema.Builder} {schema : Schema} (hb : b.build = .ok schema)
    {stack : ScopeStack} {receiver : String} (hcurrent : stack.current = .receiver receiver)
    {site : CallSite} {name : String} {place : Span} {d : Diagnostic}
    (hhelp : d.help = Resolved.callHelp? schema site name receiver place) :
    Explains schema stack receiver site name d where
  own h := by
    obtain ⟨c, hc, hname, hfunctions⟩ := Resolver.exists_class_of_usable hb h
    refine ⟨c, hc, hname, Resolver.lookup_of_current hcurrent hfunctions, ?_⟩
    rw [hhelp, Resolved.callHelp?, hfunctions]
    rfl
  other h help hsome := by
    rw [hhelp, Resolved.callHelp?, Resolver.candidates?_eq_none hb h] at hsome
    obtain ⟨closest, hclosest, rfl⟩ := Option.map_eq_some_iff.mp hsome
    refine ⟨place, closest, rfl, ?_, ?_⟩
    · exact (Schema.mem_functionNames_iff hb receiver).mp (Suggestion.mem_of_closest? hclosest)
    · exact (Suggestion.eq_name_iff_of_closest? hclosest).trans (Schema.mem_functionNames_iff hb receiver)

/-- Two nodes of a text have no diagnostic in common. -/
theorem eq_of_accountsFor {source text : String} {schema : Schema} {settings : Settings}
    {node other : Node} {d : Diagnostic}
    (hnode : node ∈ (ofText source text).script.preorder)
    (hother : other ∈ (ofText source text).script.preorder)
    (h : (ofText source text).script.AccountsFor schema settings node d)
    (h' : (ofText source text).script.AccountsFor schema settings other d) : node = other := by
  obtain ⟨name, -, hplace⟩ := h.place
  obtain ⟨name', -, hplace'⟩ := h'.place
  have hspan := Option.some.inj (hplace.symm.trans hplace')
  have hstart := congrArg Span.start hspan
  exact eq_of_start_eq hnode hother hstart

theorem Node.needsReceiver_of_site? {node : Node} {site : CallSite} (h : node.site? = some site) :
    node.NeedsReceiver := by
  unfold site? at h
  split at h
  · trivial
  · trivial
  · cases h

/-- **Signatures are listed as the resolver sees them**, as far as they are those of the receiver of
the block, whatever the text is, with every schema that was built. -/
theorem explains_ofText {b : Schema.Builder} {schema : Schema} (hb : b.build = .ok schema)
    (settings : Settings) (source text : String) :
    let script := (ofText source text).script
    let trace := script.resolve schema settings
    let diagnostics := (script.resolvedDocument schema settings).diagnostics schema
    ∀ calls node site name, script.Lies calls node → node.site? = some site →
      node.name? = some name →
      (∃ entry, trace.get? node.id = some entry ∧ entry.HasReason .unresolvedSignature) →
        let stack := trace.stackAround schema.topLevel calls
        trace.get? node.id = some (Resolver.nodeEntry schema settings stack node)
          ∧ (∃ d ∈ diagnostics, script.AccountsFor schema settings node d)
          ∧ ∃ receiver, stack.current = .receiver receiver
            ∧ ∀ d ∈ diagnostics, script.AccountsFor schema settings node d →
                Explains schema stack receiver site name d := by
  intro script trace diagnostics calls node site name hlies hsite hname hfailed stack
  have hids : script.nodeIds.Nodup := nodup_nodeIds_ofTokens source (tokenize text).tokens
  obtain ⟨-, hentry⟩ := hlies.get?_eq schema settings hids
  obtain ⟨entry, hget, hreason⟩ := hfailed
  obtain rfl := Option.some.inj (hentry.symm.trans hget)
  have hneeds := Node.needsReceiver_of_site? hsite
  obtain ⟨receiver, hcurrent⟩ := Resolver.exists_receiver_of_hasReason hneeds hreason
  obtain ⟨reasons, hreasons, hmem⟩ := hreason
  refine ⟨hentry, ?_, receiver, hcurrent, ?_⟩
  · obtain ⟨d, hexplained⟩ := Node.exists_explained? hneeds schema stack.current.receiver? reasons
    have hd := (mem_diagnostics_iff hids).mpr
      ⟨calls, node, _, reasons, hlies, hget, hreasons, hexplained⟩
    exact ⟨d, hd, accountsFor_of_explained? hids hlies hget hreasons hexplained⟩
  · intro d hd haccounts
    obtain ⟨others, other, entry, recorded, hother, hgot, hrecorded, hexplained⟩ :=
      (mem_diagnostics_iff hids).mp hd
    -- the diagnostic is that of this node, which lies at no other place
    obtain rfl := eq_of_accountsFor hlies.mem_preorder hother.mem_preorder haccounts
      (accountsFor_of_explained? hids hother hgot hrecorded hexplained)
    obtain rfl := hlies.calls_eq hids hother
    obtain rfl := Option.some.inj (hget.symm.trans hgot)
    obtain rfl := Option.some.inj (hreasons.symm.trans hrecorded)
    have hhelp : d.help = stack.current.receiver?.bind fun r => node.help? schema r :=
      (Node.help_of_explained? hexplained).trans (if_pos (decide_eq_true hmem))
    rw [hcurrent] at hhelp
    exact explains_of_callHelp? hb hcurrent (hhelp.trans (Node.help?_of_site? hsite hname))

/-- A bed takes plants by their names or not at all, and the garden by their number; only what the bed
takes as a statement is listed. -/
theorem explains_ofText_plant :
    let builder := (Schema.Builder.empty "Garden").declare "Garden"
        [.adding "bed" [] "Bed" .allowed, .adding "plant" [.int] "Bed" .allowed]
      |>.declare "Bed" [.adding "plant" [.string] "Bed" .allowed, .factory "plant" [.int] .long,
          .adding "plant" [.boolean] "Bed" .notAllowed]
    let schema := Schema.ofClasses builder.topLevel builder.classes [("Garden", []), ("Bed", [])]
    let script := (ofText "garden" "bed \x7b\n  plant(1)\n\x7d").script
    let trace := script.resolve schema ⟨false⟩
    let diagnostics := (script.resolvedDocument schema ⟨false⟩).diagnostics schema
    builder.build = .ok schema
      ∧ ∃ calls node, script.Lies calls node ∧ node.site? = some (.statement false)
        ∧ node.name? = some "plant"
        ∧ trace.get? node.id = some (.element (.failed (.single .unresolvedSignature)))
        ∧ ∃ d ∈ diagnostics, Explains schema (trace.stackAround schema.topLevel calls) "Bed"
            (.statement false) "plant" d
          ∧ d.help = some ⟨"available signatures: plant(String): Bed; plant(Boolean): Bed", none⟩ := by
  intro builder schema script trace diagnostics
  have hb : builder.build = .ok schema := rfl
  have hplaced : ∃ place ∈ script.placed, place.node.site? = some (.statement false)
      ∧ place.node.name? = some "plant"
      ∧ trace.get? place.node.id = some (.element (.failed (.single .unresolvedSignature)))
      ∧ (trace.stackAround schema.topLevel place.calls).current = .receiver "Bed" := by
    decide +kernel +revert
  have hlisted : ∀ d ∈ diagnostics, d.help
      = some ⟨"available signatures: plant(String): Bed; plant(Boolean): Bed", none⟩ := by
    decide +kernel +revert
  obtain ⟨⟨calls, node⟩, hplace, hsite, hname, hget, hbed⟩ := hplaced
  have hlies := mem_placed_iff.mp hplace
  obtain ⟨-, ⟨d, hd, haccounts⟩, receiver, hcurrent, hexplains⟩ :=
    explains_ofText hb ⟨false⟩ "garden" "bed \x7b\n  plant(1)\n\x7d" calls node _ _ hlies hsite hname
      ⟨_, hget, _, rfl, List.mem_singleton_self _⟩
  obtain rfl := Scope.receiver.inj (hbed.symm.trans hcurrent)
  exact ⟨hb, calls, node, hlies, hsite, hname, hget, d, hd, hexplains d hd haccounts, hlisted d hd⟩

/-- The garden takes plants by their names, and so this is what the resolver considers for a call in a
bed, which takes no plants; but nothing of it is listed. -/
theorem plant_not_listed :
    let builder := (Schema.Builder.empty "Garden").declare "Garden"
        [.adding "bed" [] "Bed" .allowed, .adding "plant" [.string] "Bed" .allowed]
      |>.declare "Bed" []
    let schema := Schema.ofClasses builder.topLevel builder.classes [("Garden", []), ("Bed", [])]
    let script := (ofText "garden" "bed \x7b\n  plant(1)\n\x7d").script
    let trace := script.resolve schema ⟨false⟩
    builder.build = .ok schema
      ∧ ∃ calls node, script.Lies calls node ∧ node.site? = some (.statement false)
        ∧ node.name? = some "plant"
        ∧ trace.get? node.id = some (.element (.failed (.single .unresolvedSignature)))
        ∧ (trace.stackAround schema.topLevel calls).lookup
              (Resolver.candidates? schema (.statement false) "plant")
            = some ⟨[⟨"Garden", "plant", [.string], .named "Bed", .adding "Bed" .allowed⟩],
                "Garden", true⟩
        ∧ ∃ d ∈ (script.resolvedDocument schema ⟨false⟩).diagnostics schema,
            script.AccountsFor schema ⟨false⟩ node d ∧ d.help = none := by
  intro builder schema script trace
  have hb : builder.build = .ok schema := rfl
  have hids : script.nodeIds.Nodup := nodup_nodeIds_ofTokens "garden" _
  have hplaced : ∃ place ∈ script.placed, place.node.site? = some (.statement false)
      ∧ place.node.name? = some "plant"
      ∧ trace.get? place.node.id = some (.element (.failed (.single .unresolvedSignature)))
      ∧ (trace.stackAround schema.topLevel place.calls).lookup
            (Resolver.candidates? schema (.statement false) "plant")
          = some ⟨[⟨"Garden", "plant", [.string], .named "Bed", .adding "Bed" .allowed⟩],
              "Garden", true⟩
      ∧ (place.diagnostic? trace schema).map (·.help) = some none := by
    decide +kernel +revert
  obtain ⟨place, hplace, hsite, hname, hget, hlookup, hdiagnostic⟩ := hplaced
  obtain ⟨d, hexplained, hhelp⟩ := Option.map_eq_some_iff.mp hdiagnostic
  obtain ⟨hd, haccounts⟩ := accountsFor_of_placed hids hplace hexplained
  exact ⟨hb, place.calls, place.node, mem_placed_iff.mp hplace, hsite, hname, hget, hlookup, d, hd,
    haccounts, hhelp⟩

end Script

end Declarative
