import Declarative.Proofs.Places

/-!
# Exact overloads

Among the functions that a call could bind to by widening or by subtyping, one whose parameters are just of
the arguments' types is always taken (`Script.prefersExact_of_build`). A builder accepts no second function
of the name with these parameters, whatever its kind, and each type but that of `null` can stand for
itself; so the function fits, and is the only one that fits exactly. Strict checks still refuse it if it is
found further out, and for this alone.

The outcomes are those of the walk, which has its stack at each place (`Resolver.stackInside`). Nothing is
asked of the numbers of the nodes, which matter only where outcomes are looked up: if they are distinct, the
stack is the one to be read off the trace (`Script.Stands.reached`).
-/

namespace Declarative

open Resolver (CallSite)

open ScopeStack (AllResolved)

/-! ## Functions that are exactly meant -/

/-- Inside of these scopes, the innermost receiver with any function for a call of the name in such a place
has this one, which takes exactly the types, none of them that of `null`, and whose block rule is met. -/
structure IsExact (schema : Schema) (scopes : List Scope) (site : CallSite) (name : String)
    (types : List DataType) (receiver : String) (f : Schema.Function) : Prop where
  nearest : Nearest false scopes (fun other => ∃ g, Usable schema site name other g) receiver
  usable : Usable schema site name receiver f
  parameters : f.parameters = types
  notNull : .null ∉ types
  block : MeetsBlockRule site f

/-- What becomes of a call that means the target, a member of the receiver. -/
def Outcome.ofMeant {α : Type} (settings : Settings) (scopes : List Scope) (receiver : String)
    (target : α) : Outcome α :=
  if settings.strict = true ∧ scopes.head? ≠ some (.receiver receiver) then
    .failed (.single .crossScopeAccess)
  else .resolved target

namespace IsExact

variable {b : Schema.Builder} {schema : Schema} (hb : b.build = .ok schema) {scopes : List Scope}
  {site : CallSite} {name receiver : String} {types : List DataType} {f : Schema.Function}

theorem applicable (h : IsExact schema scopes site name types receiver f) :
    Applicable schema site name receiver types f := by
  refine ⟨h.usable, ?_, h.block⟩
  rw [h.parameters, List.forall₂_same]
  exact fun type htype => .same fun hnull => h.notNull (hnull ▸ htype)

include hb

/-- No other function of the receiver takes exactly the types. -/
theorem eq_of_parameters (h : IsExact schema scopes site name types receiver f)
    {g : Schema.Function} (hg : Usable schema site name receiver g) (htypes : g.parameters = types) :
    g = f :=
  List.inj_on_of_nodup_map (Schema.nodup_parameters_functionsNamed hb receiver name)
    ((Schema.mem_functionsNamed_iff hb).mpr ⟨hg.1, hg.2.1⟩)
    ((Schema.mem_functionsNamed_iff hb).mpr ⟨h.usable.1, h.usable.2.1⟩)
    (htypes.trans h.parameters.symm)

end IsExact

/-- What statements call adds or configures an element. -/
theorem ElementTarget.exists_ofFunction? (receiver : String) {f : Schema.Function}
    (h : f.semantics ≠ .plain) : ∃ target, ofFunction? receiver f = some target := by
  unfold ofFunction?
  split
  · exact ⟨_, rfl⟩
  · exact ⟨_, rfl⟩
  · rename_i hplain
    exact absurd hplain h

namespace Resolver

section

variable {b : Schema.Builder} {schema : Schema} (hb : b.build = .ok schema) (settings : Settings)
  {stack : ScopeStack} {receiver : String} {types : List DataType} {f : Schema.Function}

include hb

/-- Whatever else fits, a function that is exactly meant is selected. -/
theorem selectFunction_of_isExact (hscopes : AllResolved stack.scopes) {site : CallSite}
    {name : String} (h : IsExact schema stack.scopes site name types receiver f) :
    selectFunction schema settings stack site name (types.map some)
      = if settings.strict = true ∧ stack.scopes.head? ≠ some (.receiver receiver) then
          .error .crossScopeAccess
        else .ok (receiver, f) := by
  obtain ⟨functions, hcandidates⟩ := Option.isSome_iff_exists.mp
    ((candidates?_isSome_iff hb).mpr ⟨f, h.usable⟩)
  obtain ⟨isOuter, hlookup, -⟩ := (lookup_candidates?_iff hb hscopes).mpr ⟨hcandidates, h.nearest⟩
  have hfitting := (mostFitting?_fitting_iff hb hcandidates).mpr ⟨h.applicable,
    Or.inr ⟨h.parameters, fun g hg => h.eq_of_parameters hb hg.1⟩⟩
  have houter := ScopeStack.isOuter_iff_of_lookup hlookup
  rw [selectFunction, hlookup, mapM_id_eq_some_iff.mpr rfl]
  simp only [hfitting, Bool.and_eq_true, houter, and_comm]

section

variable (hground : stack.Grounded) {current : String} (hcurrent : stack.current = .receiver current)

include hground hcurrent

theorem elementOutcome_of_isExact {hasBlock : Bool} {name : String}
    (h : IsExact schema stack.scopes (.statement hasBlock) name types receiver f) :
    ∃ target, ElementTarget.ofFunction? receiver f = some target
      ∧ elementOutcome schema settings stack hasBlock name (types.map some)
          = .ofMeant settings stack.scopes receiver target := by
  obtain ⟨target, htarget⟩ := ElementTarget.exists_ofFunction? receiver h.usable.2.2
  refine ⟨target, htarget, ?_⟩
  have hselect := selectFunction_of_isExact hb settings (hground ⟨current, hcurrent⟩) h
  rw [Outcome.ofMeant]
  split at hselect
  · rename_i hrefused
    simp only [elementOutcome, hcurrent, hselect, if_pos hrefused]
  · rename_i hbound
    simp only [elementOutcome, hcurrent, hselect, htarget, if_neg hbound]

theorem factoryOutcome_of_isExact {name : String}
    (h : IsExact schema stack.scopes .value name types receiver f) :
    factoryOutcome schema settings stack name (types.map some)
      = .ofMeant settings stack.scopes receiver (.factory f) := by
  have hselect := selectFunction_of_isExact hb settings (hground ⟨current, hcurrent⟩) h
  rw [Outcome.ofMeant]
  split at hselect
  · rename_i hrefused
    simp only [factoryOutcome, hcurrent, hselect, if_pos hrefused]
  · rename_i hbound
    simp only [factoryOutcome, hcurrent, hselect, if_neg hbound]

end

end

end Resolver

namespace Script

variable {schema : Schema} {settings : Settings} {script : Script}

/-- The entry is recorded of the number, and is what is found of it where numbers are distinct. -/
structure Records (schema : Schema) (settings : Settings) (script : Script) (id : NodeId)
    (entry : Trace.Entry) : Prop where
  recorded : (id, entry) ∈ (script.resolve schema settings).records
  found : script.nodeIds.Nodup → (script.resolve schema settings).get? id = some entry

theorem records_of_mem_entries {id : NodeId} {entry : Trace.Entry}
    (h : (id, entry) ∈ script.entries schema settings) :
    script.Records schema settings id entry where
  recorded := (script.resolve_lists schema settings).records.mem_iff.mpr h
  found hids := (get?_resolve_eq_some_iff hids).mpr h

/-- What it means that calls go to the functions that are exactly meant. In the block of a receiver, with
arguments of known types, such a function is what the call resolves to, if it may be used there. -/
structure PrefersExact (schema : Schema) (settings : Settings) (script : Script) : Prop where
  calls : ∀ {calls id span name arguments block},
    script.Stands calls (.call id span name arguments block) →
      let stack := Resolver.stackInside schema settings calls
      (∃ current, stack.current = .receiver current) → ∀ types receiver f,
        Resolver.valueTypes schema settings stack arguments = types.map some →
        IsExact schema stack.scopes (.statement block.isPresent) name.text types receiver f →
          ∃ target, ElementTarget.ofFunction? receiver f = some target
            ∧ script.Records schema settings id
                (.element (.ofMeant settings stack.scopes receiver target))
  factories : ∀ {calls s id span name arguments}, script.Stands calls s →
    s.Holds (.factory id span name arguments) →
      let stack := Resolver.stackInside schema settings calls
      (∃ current, stack.current = .receiver current) → ∀ types receiver f,
        Resolver.valueTypes schema settings stack arguments = types.map some →
        IsExact schema stack.scopes .value name.text types receiver f →
          script.Records schema settings id
            (.value (.ofMeant settings stack.scopes receiver (.factory f)))

/-- **Exact overloads win**, with every schema that was built. -/
theorem prefersExact_of_build {b : Schema.Builder} (hb : b.build = .ok schema) (settings : Settings)
    (script : Script) : script.PrefersExact schema settings where
  calls {calls id span name arguments block} hstands hcurrent types receiver f htypes hexact := by
    obtain ⟨current, hcurrent⟩ := hcurrent
    obtain ⟨target, htarget, houtcome⟩ := Resolver.elementOutcome_of_isExact hb settings
      (Resolver.grounded_stackInside schema settings calls) hcurrent hexact
    refine ⟨target, htarget, records_of_mem_entries ?_⟩
    rw [← houtcome, ← htypes]
    exact hstands.entries_subset (Resolver.mem_statementEntries (.call id span name arguments block))
  factories {calls s id span name arguments} hstands hholds hcurrent types receiver f htypes hexact := by
    obtain ⟨current, hcurrent⟩ := hcurrent
    refine records_of_mem_entries ?_
    rw [← Resolver.factoryOutcome_of_isExact hb settings
      (Resolver.grounded_stackInside schema settings calls) hcurrent hexact, ← htypes]
    exact hstands.entries_subset
      (Resolver.valueEntries_subset_of_holds hholds Resolver.mem_valueEntries_factory)

/-- The garden takes plants by an `Int` or a `Long`, and a literal could be either. The bed takes none, and
strict checks keep it from those of the garden. -/
theorem prefersExact_of_build_plant :
    let builder := (Schema.Builder.empty "Garden").declare "Garden"
        [.adding "plant" [.long] "Bed" .allowed, .adding "plant" [.int] "Bed" .allowed]
      |>.declare "Bed" []
    let schema := Schema.ofClasses builder.topLevel builder.classes [("Garden", []), ("Bed", [])]
    let name (text : String) : Name := ⟨text, ⟨0, 0⟩⟩
    let script : Script := ⟨"garden", [
      .call ⟨0⟩ ⟨0, 30⟩ (name "plant") [.literal ⟨1⟩ ⟨6, 7⟩ (.int 1)] (.block ⟨2⟩ ⟨9, 30⟩ [
        .call ⟨3⟩ ⟨11, 28⟩ (name "plant") [.literal ⟨4⟩ ⟨17, 18⟩ (.int 1)] .absent])], ⟨0, 30⟩⟩
    let plant : Schema.Function := ⟨"Garden", "plant", [.int], .named "Bed", .adding "Bed" .allowed⟩
    builder.build = .ok schema ∧ script.PrefersExact schema ⟨true⟩
      ∧ script.Records schema ⟨true⟩ ⟨0⟩ (.element (.resolved (.added "Garden" "Bed" plant)))
      ∧ script.Records schema ⟨true⟩ ⟨3⟩ (.element (.failed (.single .crossScopeAccess))) := by
  intro builder schema name script plant
  have hb : builder.build = .ok schema := rfl
  have hprefers := prefersExact_of_build hb ⟨true⟩ script
  have husable : ∀ hasBlock, Usable schema (.statement hasBlock) "plant" "Garden" plant := fun _ =>
    ⟨⟨_, List.mem_cons_self .., rfl, List.mem_cons_of_mem _ (List.mem_cons_self ..)⟩, rfl, by
      simp [Fits, plant]⟩
  have hbed : ¬∃ g, Usable schema (.statement false) "plant" "Bed" g :=
    (Resolver.candidates?_isSome_iff hb).not.mp
      (by simp +decide [Resolver.candidates?, schema, builder])
  have hblock : ∀ hasBlock, MeetsBlockRule (.statement hasBlock) plant := by
    rintro hasBlock _ produced rule - hrule
    obtain ⟨rfl, rfl⟩ := Schema.Semantics.adding.inj hrule
    exact ⟨by simp, by simp⟩
  have htop : script.Stands [] _ := .top (List.mem_cons_self ..)
  obtain ⟨target, htarget, houter⟩ := hprefers.calls htop ⟨_, rfl⟩ [.int] _ _ rfl
    { nearest := ⟨[], [], rfl, ⟨plant, husable _⟩, by simp, by simp⟩
      usable := husable _, parameters := rfl, notNull := by decide, block := hblock _ }
  obtain rfl := Option.some.inj htarget
  obtain ⟨target, -, hinner⟩ := hprefers.calls (.inside htop (List.mem_cons_self ..)) ⟨"Bed", rfl⟩
    [.int] _ _ rfl
    { nearest := by
        refine ⟨[.receiver "Bed"], [], rfl, ⟨plant, husable _⟩, fun other hother => ?_, by simp⟩
        obtain rfl := Scope.receiver.inj (List.mem_singleton.mp hother)
        exact hbed
      usable := husable _, parameters := rfl, notNull := by decide, block := hblock _ }
  exact ⟨hb, hprefers, houter, hinner⟩

end Script

end Declarative
