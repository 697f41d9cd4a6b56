import Declarative.Proofs.Judgement
import Declarative.Proofs.Schema.Subtype
import Declarative.Resolver

/-!
# The resolver decides the judgement

On a grounded stack the resolver binds a call (`Resolver.elementOutcome_eq_resolved_iff`,
`Resolver.factoryOutcome_eq_resolved_iff`) and assigns a value
(`Resolver.assignmentOutcome_eq_resolved_iff`) just where the judgement allows it. The
schema has to come from a builder: its checks are what makes overloads differ in their
parameters, so that at most one takes exactly the types of the arguments.

An assignment that does not resolve fails for what speaks against its property, and then for what
speaks against its value (`Resolver.toList_of_assignmentOutcome`).
-/

namespace Declarative

/-! ## The resolver decides the judgement -/

namespace Resolver

open ScopeStack (AllResolved)

theorem admits_iff {site : CallSite} {f : Schema.Function} :
    site.admits f = true ↔ Fits site f := by
  cases site <;> cases h : f.semantics <;>
    simp [CallSite.admits, Fits, Schema.Semantics.isElement, h]

theorem acceptsBlock_iff {site : CallSite} {f : Schema.Function} :
    site.acceptsBlock f = true ↔ MeetsBlockRule site f := by
  cases site with
  | value => simp [CallSite.acceptsBlock, MeetsBlockRule]
  | statement hasBlock =>
      cases h : f.semantics with
      | adding produced rule =>
          cases rule <;>
            simp [CallSite.acceptsBlock, MeetsBlockRule, Schema.BlockRule.accepts, h]
      | configuring configured => simp [CallSite.acceptsBlock, MeetsBlockRule, h]
      | plain => simp [CallSite.acceptsBlock, MeetsBlockRule, h]

/-- Of functions with distinct parameters at most one takes exactly the types. -/
theorem filter_parameters_eq_singleton_iff {types : List DataType}
    {functions : List Schema.Function} (hdistinct : (functions.map (·.parameters)).Nodup)
    {f : Schema.Function} :
    functions.filter (·.parameters == types) = [f] ↔ f ∈ functions ∧ f.parameters = types := by
  induction functions with
  | nil => simp
  | cons g rest ih =>
      rw [List.map_cons, List.nodup_cons] at hdistinct
      by_cases hg : g.parameters = types
      · have hnone : rest.filter (·.parameters == types) = [] :=
          List.filter_eq_nil_iff.mpr fun h hh heq =>
            hdistinct.1 (List.mem_map.mpr ⟨h, hh, by rw [hg]; simpa using heq⟩)
        have hrest : f ∈ rest → f.parameters ≠ types := fun hf heq =>
          hdistinct.1 (List.mem_map.mpr ⟨f, hf, by rw [hg, heq]⟩)
        rw [List.filter_cons_of_pos (by simpa using hg), hnone]
        simp only [List.cons.injEq, and_true, List.mem_cons]
        constructor
        · rintro rfl
          exact ⟨Or.inl rfl, hg⟩
        · rintro ⟨rfl | hf, heq⟩
          · rfl
          · exact absurd heq (hrest hf)
      · rw [List.filter_cons_of_neg (by simpa using hg), ih hdistinct.2, List.mem_cons]
        constructor
        · rintro ⟨hf, heq⟩
          exact ⟨Or.inr hf, heq⟩
        · rintro ⟨rfl | hf, heq⟩
          · exact absurd heq hg
          · exact ⟨hf, heq⟩

/-- Where parameters differ, the function that stands out is the only one, or the only one
that takes exactly the types. -/
theorem mostFitting?_eq_some_iff {types : List DataType} {functions : List Schema.Function}
    (hdistinct : (functions.map (·.parameters)).Nodup) {f : Schema.Function} :
    mostFitting? types functions = some f ↔
      f ∈ functions
        ∧ ((∀ g ∈ functions, g = f)
          ∨ (f.parameters = types ∧ ∀ g ∈ functions, g.parameters = types → g = f)) := by
  match functions with
  | [] => simp [mostFitting?]
  | [g] =>
      simp only [mostFitting?, Option.some.injEq, List.mem_singleton, forall_eq]
      constructor
      · rintro rfl
        exact ⟨rfl, Or.inl rfl⟩
      · rintro ⟨rfl, -⟩
        rfl
  | g₁ :: g₂ :: rest =>
      have hexact := @filter_parameters_eq_singleton_iff types _ hdistinct f
      -- two functions are never one and the same, so the exact types have to decide
      have htwo : ¬∀ g ∈ g₁ :: g₂ :: rest, g = f := fun h => by
        have h₁ : g₁ = f := h g₁ (by simp)
        have h₂ : g₂ = f := h g₂ (by simp)
        rw [h₁, h₂] at hdistinct
        simp at hdistinct
      have hfilter : mostFitting? types (g₁ :: g₂ :: rest) = some f
          ↔ (g₁ :: g₂ :: rest).filter (·.parameters == types) = [f] := by
        simp only [mostFitting?]
        split
        · rename_i h
          rw [h]
          simp
        · rename_i h
          simp only [reduceCtorEq, false_iff]
          exact h f
      rw [hfilter, hexact, or_iff_right htwo]
      constructor
      · rintro ⟨hf, heq⟩
        refine ⟨hf, heq, fun g hg hgeq => ?_⟩
        exact List.inj_on_of_nodup_map hdistinct hg hf (hgeq.trans heq.symm)
      · rintro ⟨hf, heq, -⟩
        exact ⟨hf, heq⟩

theorem candidates?_eq_some {schema : Schema} {site : CallSite} {name receiver : String}
    {functions : List Schema.Function}
    (h : candidates? schema site name receiver = some functions) :
    functions = (schema.functionsNamed receiver name).filter site.admits := by
  rw [candidates?] at h
  split at h
  · cases h
  · exact (Option.some.inj h).symm

section

variable {b : Schema.Builder} {schema : Schema} (hb : b.build = .ok schema)

include hb

theorem argumentsMatch_iff {f : Schema.Function} {types : List DataType} :
    argumentsMatch schema f types = true ↔ List.Forall₂ schema.Assignable types f.parameters := by
  have hpairwise : ∀ wanted given : List DataType,
      (wanted.length == given.length
          && (wanted.zip given).all fun pair => schema.isAssignable pair.2 pair.1) = true
        ↔ List.Forall₂ schema.Assignable given wanted := by
    intro wanted
    induction wanted with
    | nil => intro given; cases given <;> simp
    | cons w wanted ih =>
        intro given
        cases given with
        | nil => simp
        | cons g given =>
            rw [List.forall₂_cons, ← ih, ← Schema.isAssignable_iff hb]
            simp only [List.length_cons, List.zip_cons_cons, List.all_cons, Bool.and_eq_true,
              beq_iff_eq, Nat.add_right_cancel_iff]
            tauto
  exact hpairwise f.parameters types

/-- The functions that a receiver offers to a call are the usable ones. -/
theorem mem_filter_admits_iff {site : CallSite} {name receiver : String} {f : Schema.Function} :
    f ∈ (schema.functionsNamed receiver name).filter site.admits
      ↔ Usable schema site name receiver f := by
  rw [List.mem_filter, Schema.mem_functionsNamed_iff hb, admits_iff, Usable, and_assoc]

theorem candidates?_isSome_iff {site : CallSite} {name receiver : String} :
    (candidates? schema site name receiver).isSome
      ↔ ∃ f, Usable schema site name receiver f := by
  rw [candidates?]
  split
  · rename_i hnil
    simp only [Option.isSome_none, Bool.false_eq_true, false_iff, not_exists]
    intro f hf
    have hmem := (mem_filter_admits_iff hb).mpr hf
    rw [hnil] at hmem
    cases hmem
  · rename_i functions hne
    simp only [Option.isSome_some, true_iff]
    obtain ⟨f, hf⟩ := List.exists_mem_of_ne_nil _ hne
    exact ⟨f, (mem_filter_admits_iff hb).mp hf⟩

/-- Those of a receiver's candidates that fit are the applicable functions. -/
theorem mem_fitting_iff {site : CallSite} {name receiver : String} {types : List DataType}
    {functions : List Schema.Function}
    (h : candidates? schema site name receiver = some functions) {f : Schema.Function} :
    f ∈ functions.filter (fun g => site.acceptsBlock g && argumentsMatch schema g types)
      ↔ Applicable schema site name receiver types f := by
  rw [List.mem_filter, candidates?_eq_some h, mem_filter_admits_iff hb, Bool.and_eq_true,
    acceptsBlock_iff, argumentsMatch_iff hb, Applicable, and_comm (a := MeetsBlockRule site f)]

/-- The function that stands out among a receiver's candidates is the one that the judgement
chooses. -/
theorem mostFitting?_fitting_iff {site : CallSite} {name receiver : String}
    {types : List DataType} {functions : List Schema.Function}
    (h : candidates? schema site name receiver = some functions) {f : Schema.Function} :
    mostFitting? types (functions.filter fun g =>
        site.acceptsBlock g && argumentsMatch schema g types) = some f
      ↔ Applicable schema site name receiver types f
        ∧ ((∀ g, Applicable schema site name receiver types g → g = f)
          ∨ (f.parameters = types
            ∧ ∀ g, Applicable schema site name receiver types g →
                g.parameters = types → g = f)) := by
  -- overloads of one name differ in their parameters
  have hdistinct : ((functions.filter fun g =>
      site.acceptsBlock g && argumentsMatch schema g types).map (·.parameters)).Nodup := by
    refine List.Nodup.sublist (List.filter_sublist.map _) ?_
    rw [candidates?_eq_some h]
    exact List.Nodup.sublist (List.filter_sublist.map _)
      (Schema.nodup_parameters_functionsNamed hb receiver name)
  rw [mostFitting?_eq_some_iff hdistinct]
  simp only [mem_fitting_iff hb h]

section

variable {stack : ScopeStack} (hscopes : AllResolved stack.scopes) {strict : Bool}
  {receiver : String}

include hscopes

theorem lookup_candidates?_iff {site : CallSite} {name : String}
    {functions : List Schema.Function} :
    (∃ isOuter, stack.lookup (candidates? schema site name) = some ⟨functions, receiver, isOuter⟩
        ∧ (isOuter && strict) = false)
      ↔ candidates? schema site name receiver = some functions
        ∧ Nearest strict stack.scopes (fun other => ∃ g, Usable schema site name other g)
            receiver := by
  rw [ScopeStack.lookup_nearest_iff hscopes]
  exact and_congr_right fun _ => Nearest.congr fun _ => candidates?_isSome_iff hb

theorem lookup_property?_iff {name : String} {property : Schema.Property} :
    (∃ isOuter, stack.lookup (schema.property? · name) = some ⟨property, receiver, isOuter⟩
        ∧ (isOuter && strict) = false)
      ↔ (schema.DeclaresProperty receiver property ∧ property.name = name)
        ∧ Nearest strict stack.scopes
            (fun other => ∃ q, schema.DeclaresProperty other q ∧ q.name = name) receiver := by
  rw [ScopeStack.lookup_nearest_iff hscopes, Schema.property?_eq_some_iff hb]
  refine and_congr_right fun _ => Nearest.congr fun other => ?_
  simp only [Option.isSome_iff_exists, Schema.property?_eq_some_iff hb]

end

end

theorem mapM_id_eq_some_iff : ∀ {types : List (Option DataType)} {known : List DataType},
    types.mapM id = some known ↔ types = known.map some
  | [], known => by cases known <;> simp
  | none :: types, known => by cases known <;> simp
  | some type :: types, known => by
      cases known with
      | nil => simp [List.mapM_cons, Option.bind_eq_some_iff]
      | cons first rest =>
          have hrest := @mapM_id_eq_some_iff types rest
          simp [List.mapM_cons, Option.bind_eq_some_iff, hrest, and_comm]

/-- A call binds if a receiver is found, all arguments have types, and one function stands
out. -/
theorem selectFunction_eq_ok {schema : Schema} {settings : Settings} {stack : ScopeStack}
    {site : CallSite} {name : String} {types : List (Option DataType)} {receiver : String}
    {f : Schema.Function} :
    selectFunction schema settings stack site name types = .ok (receiver, f) ↔
      ∃ known functions isOuter, types = known.map some
        ∧ stack.lookup (candidates? schema site name) = some ⟨functions, receiver, isOuter⟩
        ∧ (isOuter && settings.strict) = false
        ∧ mostFitting? known (functions.filter fun g =>
            site.acceptsBlock g && argumentsMatch schema g known) = some f := by
  constructor
  · intro h
    rw [selectFunction] at h
    split at h
    · rename_i found known hlookup hknown
      dsimp only at h
      split at h
      · rename_i g hfitting
        split at h
        · cases h
        · rename_i hstrict
          obtain ⟨rfl, rfl⟩ := Prod.mk.inj (Except.ok.inj h)
          exact ⟨known, found.member, found.isOuter, mapM_id_eq_some_iff.mp hknown, hlookup,
            by simpa using hstrict, hfitting⟩
      · cases h
    · cases h
  · rintro ⟨known, functions, isOuter, htypes, hlookup, hstrict, hfitting⟩
    rw [selectFunction, hlookup, mapM_id_eq_some_iff.mpr htypes]
    simp [hfitting, hstrict]

/-- **Selection is the judgement.** Among resolved scopes the resolver binds a call to a
function of a receiver just where the judgement does. -/
theorem selectFunction_eq_ok_iff {b : Schema.Builder} {schema : Schema} (hb : b.build = .ok schema)
    {settings : Settings} {stack : ScopeStack} (hscopes : AllResolved stack.scopes)
    {site : CallSite} {name : String} {types : List (Option DataType)} {receiver : String}
    {f : Schema.Function} :
    selectFunction schema settings stack site name types = .ok (receiver, f) ↔
      ∃ known, types = known.map some
        ∧ Binds schema settings stack.scopes site name known receiver f := by
  rw [selectFunction_eq_ok]
  constructor
  · rintro ⟨known, functions, isOuter, htypes, hlookup, hstrict, hfitting⟩
    obtain ⟨hcandidates, hnear⟩ :=
      (lookup_candidates?_iff hb hscopes).mp ⟨isOuter, hlookup, hstrict⟩
    obtain ⟨happlicable, hchoice⟩ := (mostFitting?_fitting_iff hb hcandidates).mp hfitting
    obtain ⟨current, hcurrent⟩ := hscopes stack.current (List.mem_of_head? stack.head?_scopes)
    exact ⟨known, htypes, ⟨current, by rw [stack.head?_scopes, hcurrent]⟩, hnear,
      happlicable, hchoice⟩
  · rintro ⟨known, htypes, hbinds⟩
    obtain ⟨functions, hcandidates⟩ : ∃ functions,
        candidates? schema site name receiver = some functions :=
      Option.isSome_iff_exists.mp ((candidates?_isSome_iff hb).mpr ⟨f, hbinds.applicable.1⟩)
    obtain ⟨isOuter, hlookup, hstrict⟩ :=
      (lookup_candidates?_iff hb hscopes).mpr ⟨hcandidates, hbinds.nearest⟩
    exact ⟨known, functions, isOuter, htypes, hlookup, hstrict,
      (mostFitting?_fitting_iff hb hcandidates).mpr ⟨hbinds.applicable, hbinds.chosen⟩⟩

/-- The scope of the block around is the one that the stack has on top. -/
theorem exists_current_of_head? {stack : ScopeStack}
    (h : ∃ current, stack.scopes.head? = some (.receiver current)) :
    ∃ current, stack.current = .receiver current := by
  obtain ⟨current, hcurrent⟩ := h
  rw [stack.head?_scopes] at hcurrent
  exact ⟨current, Option.some.inj hcurrent⟩

/-- A call resolves to adding or configuring an element, as its function says. -/
theorem ofFunction?_cases {receiver : String} {f : Schema.Function} {target : ElementTarget}
    (h : ElementTarget.ofFunction? receiver f = some target) :
    (∃ type rule, f.semantics = .adding type rule ∧ target = .added receiver type f)
      ∨ ∃ type, f.semantics = .configuring type ∧ target = .configured receiver type f := by
  unfold ElementTarget.ofFunction? at h
  split at h
  · exact Or.inl ⟨_, _, ‹_›, (Option.some.inj h).symm⟩
  · exact Or.inr ⟨_, ‹_›, (Option.some.inj h).symm⟩
  · cases h

theorem ofFunction?_eq_some {receiver : String} {f : Schema.Function} {target : ElementTarget}
    (h : ElementTarget.ofFunction? receiver f = some target) :
    target.receiver = receiver ∧ target.function = f := by
  rcases ofFunction?_cases h with ⟨_, _, -, rfl⟩ | ⟨_, -, rfl⟩ <;> exact ⟨rfl, rfl⟩

section

variable {b : Schema.Builder} {schema : Schema} (hb : b.build = .ok schema) {settings : Settings}
  {stack : ScopeStack} (hground : stack.Grounded)

include hb hground

/-- **Calls are bound by the judgement**, and what the call of a statement resolves to
says how its function is used. -/
theorem elementOutcome_eq_resolved_iff {hasBlock : Bool} {name : String}
    {types : List (Option DataType)} {target : ElementTarget} :
    elementOutcome schema settings stack hasBlock name types = .resolved target ↔
      ∃ known, types = known.map some
        ∧ Binds schema settings stack.scopes (.statement hasBlock) name known target.receiver
            target.function
        ∧ ElementTarget.ofFunction? target.receiver target.function = some target := by
  constructor
  · intro h
    cases hcurrent : stack.current with
    | unresolved => simp [elementOutcome, hcurrent] at h
    | receiver current =>
        simp only [elementOutcome, hcurrent] at h
        split at h
        · rename_i receiver f hselect
          split at h
          · rename_i found hfound
            obtain rfl := Outcome.resolved.inj h
            obtain ⟨rfl, rfl⟩ := ofFunction?_eq_some hfound
            obtain ⟨known, htypes, hbinds⟩ :=
              (selectFunction_eq_ok_iff hb (hground ⟨current, hcurrent⟩)).mp hselect
            exact ⟨known, htypes, hbinds, hfound⟩
          · cases h
        · cases h
  · rintro ⟨known, htypes, hbinds, htarget⟩
    obtain ⟨current, hcurrent⟩ := exists_current_of_head? hbinds.resolved
    have hselect := (selectFunction_eq_ok_iff hb (hground ⟨current, hcurrent⟩)).mpr
      ⟨known, htypes, hbinds⟩
    simp [elementOutcome, hcurrent, hselect, htarget]

theorem factoryOutcome_eq_resolved_iff {name : String} {types : List (Option DataType)}
    {f : Schema.Function} :
    factoryOutcome schema settings stack name types = .resolved (.factory f) ↔
      ∃ known receiver, types = known.map some
        ∧ Binds schema settings stack.scopes .value name known receiver f := by
  constructor
  · intro h
    cases hcurrent : stack.current with
    | unresolved => simp [factoryOutcome, hcurrent] at h
    | receiver current =>
        simp only [factoryOutcome, hcurrent] at h
        split at h
        · rename_i receiver g hselect
          obtain rfl := ValueTarget.factory.inj (Outcome.resolved.inj h)
          obtain ⟨known, htypes, hbinds⟩ :=
            (selectFunction_eq_ok_iff hb (hground ⟨current, hcurrent⟩)).mp hselect
          exact ⟨known, receiver, htypes, hbinds⟩
        · cases h
  · rintro ⟨known, receiver, htypes, hbinds⟩
    obtain ⟨current, hcurrent⟩ := exists_current_of_head? hbinds.resolved
    have hselect := (selectFunction_eq_ok_iff hb (hground ⟨current, hcurrent⟩)).mpr
      ⟨known, htypes, hbinds⟩
    simp [factoryOutcome, hcurrent, hselect]

end

theorem isEmpty_ofList (reasons : List Reason) :
    (ReasonSet.ofList reasons).isEmpty = reasons.isEmpty := by
  have hgrow : ∀ (reasons : List Reason) (set : ReasonSet), set.toList ≠ [] →
      (reasons.foldl ReasonSet.insert set).toList ≠ [] := by
    intro reasons
    induction reasons with
    | nil => exact fun _ h => h
    | cons reason reasons ih =>
        intro set h
        refine ih _ ?_
        rw [ReasonSet.toList_insert]
        split
        · exact h
        · simp
  cases reasons with
  | nil => rfl
  | cons reason reasons =>
      have hne := hgrow reasons (ReasonSet.empty.insert reason) (by
        rw [ReasonSet.toList_insert]
        simp [ReasonSet.empty])
      simpa [ReasonSet.ofList, ReasonSet.isEmpty] using hne

/-- An assignment resolves if there is no reason against it. -/
theorem assignmentOutcome_eq_resolved {schema : Schema} {settings : Settings} {stack : ScopeStack}
    {name : String} {type : Option DataType} {target : AssignmentTarget} :
    assignmentOutcome schema settings stack name type = .resolved target ↔
      (∃ current, stack.current = .receiver current)
        ∧ ∃ known isOuter, type = some known
          ∧ stack.lookup (schema.property? · name)
              = some ⟨target.property, target.receiver, isOuter⟩
          ∧ (isOuter && settings.strict) = false
          ∧ target.property.readOnly = false
          ∧ schema.isAssignable known target.property.type = true := by
  constructor
  · intro h
    cases hcurrent : stack.current with
    | unresolved => simp [assignmentOutcome, hcurrent] at h
    | receiver current =>
        refine ⟨⟨current, rfl⟩, ?_⟩
        cases hlookup : stack.lookup (schema.property? · name) with
        | none => cases type <;> simp [assignmentOutcome, hcurrent, hlookup] at h
        | some found =>
            simp only [assignmentOutcome, hcurrent, hlookup] at h
            rcases ite_eq_iff.mp h with ⟨hempty, htarget⟩ | ⟨-, htarget⟩
            · obtain rfl := Outcome.resolved.inj htarget
              rw [isEmpty_ofList, List.isEmpty_iff, List.append_eq_nil_iff,
                List.append_eq_nil_iff] at hempty
              obtain ⟨⟨houter, hwritable⟩, hfault⟩ := hempty
              cases type with
              | none => cases hfault
              | some known =>
                  exact ⟨known, found.isOuter, rfl, rfl, by simpa using houter,
                    by simpa using hwritable, by simpa using hfault⟩
            · cases htarget
  · rintro ⟨⟨current, hcurrent⟩, known, isOuter, rfl, hlookup, hstrict, hwritable, hassignable⟩
    simp only [assignmentOutcome, hcurrent, hlookup]
    simp [hstrict, hwritable, hassignable, isEmpty_ofList]

/-- **Values are assigned by the judgement.** -/
theorem assignmentOutcome_eq_resolved_iff {b : Schema.Builder} {schema : Schema}
    (hb : b.build = .ok schema) {settings : Settings} {stack : ScopeStack}
    (hground : stack.Grounded) {name : String} {type : Option DataType}
    {target : AssignmentTarget} :
    assignmentOutcome schema settings stack name type = .resolved target ↔
      ∃ known, type = some known
        ∧ Assigns schema settings stack.scopes name known target.receiver target.property := by
  rw [assignmentOutcome_eq_resolved]
  constructor
  · rintro ⟨⟨current, hcurrent⟩, known, isOuter, htype, hlookup, hstrict, hwritable, hassignable⟩
    obtain ⟨hdeclared, hnear⟩ :=
      (lookup_property?_iff hb (hground ⟨current, hcurrent⟩)).mp ⟨isOuter, hlookup, hstrict⟩
    exact ⟨known, htype, ⟨current, by rw [stack.head?_scopes, hcurrent]⟩, hnear, hdeclared,
      hwritable, (Schema.isAssignable_iff hb).mp hassignable⟩
  · rintro ⟨known, htype, h⟩
    have hcurrent := exists_current_of_head? h.resolved
    obtain ⟨isOuter, hlookup, hstrict⟩ :=
      (lookup_property?_iff hb (hground hcurrent)).mpr ⟨h.declared, h.nearest⟩
    exact ⟨hcurrent, known, isOuter, htype, hlookup, hstrict, h.writable,
      (Schema.isAssignable_iff hb).mpr h.assignable⟩

end Resolver

/-! ## The reasons against an assignment -/

/-- The order in which the reasons against an assignment are discovered. -/
def Reason.discovery : List Reason :=
  [.unresolvedSignature, .crossScopeAccess, .readOnlyProperty, .isError, .valueTypeMismatch]

namespace ReasonSet

theorem toList_foldl_insert : ∀ (reasons : List Reason) (set : ReasonSet),
    (set.toList ++ reasons).Nodup → (reasons.foldl insert set).toList = set.toList ++ reasons
  | [], _, _ => (List.append_nil _).symm
  | reason :: reasons, set, h => by
      have hnew : reason ∉ set.toList := fun hmem =>
        (List.nodup_append.mp h).2.2 reason hmem reason (List.mem_cons_self ..) rfl
      have hinsert : (set.insert reason).toList = set.toList ++ [reason] := by
        rw [toList_insert, if_neg hnew]
      rw [List.append_cons, ← hinsert] at h ⊢
      exact toList_foldl_insert reasons (set.insert reason) h

/-- Reasons that are found once each stay in the order in which they are found. -/
theorem toList_ofList {reasons : List Reason} (h : reasons.Nodup) : (ofList reasons).toList = reasons :=
  toList_foldl_insert reasons empty h

end ReasonSet

namespace Resolver

variable {schema : Schema} {settings : Settings} {stack : ScopeStack} {name : String}
  {type : Option DataType}

/-- The reasons that are found against the property of an assignment, or against its name. -/
def targetReasons (settings : Settings) : Option (Found Schema.Property) → List Reason
  | none => [.unresolvedSignature]
  | some found =>
    (if found.isOuter && settings.strict then [.crossScopeAccess] else []) ++
      if found.member.readOnly then [.readOnlyProperty] else []

/-- The reasons that are found against the value of an assignment. -/
def valueReasons (schema : Schema) : Option (Found Schema.Property) → Option DataType → List Reason
  | _, none => [.isError]
  | none, some _ => []
  | some found, some type =>
    if schema.isAssignable type found.member.type then [] else [.valueTypeMismatch]

theorem targetReasons_append_sublist (found : Option (Found Schema.Property)) :
    (targetReasons settings found ++ valueReasons schema found type).Sublist Reason.discovery := by
  have htarget : (targetReasons settings found).Sublist
      [.unresolvedSignature, .crossScopeAccess, .readOnlyProperty] := by
    unfold targetReasons
    split <;> (try split) <;> (try split) <;> decide
  have hvalue : (valueReasons schema found type).Sublist [.isError, .valueTypeMismatch] := by
    unfold valueReasons
    split <;> (try split) <;> decide
  exact htarget.append hvalue

/-- An assignment fails for what is found against its property, and then against its value. -/
theorem toList_of_assignmentOutcome {current : String} (hcurrent : stack.current = .receiver current)
    {found : Option (Found Schema.Property)} (hlookup : stack.lookup (schema.property? · name) = found)
    {reasons : ReasonSet}
    (h : assignmentOutcome schema settings stack name type = .failed reasons) :
    reasons.toList = targetReasons settings found ++ valueReasons schema found type
      ∧ reasons.toList ≠ [] := by
  have hnodup : (targetReasons settings found ++ valueReasons schema found type).Nodup :=
    List.Nodup.sublist (targetReasons_append_sublist found) (by decide)
  rw [← ReasonSet.toList_ofList hnodup]
  cases found with
  | none =>
      simp only [assignmentOutcome, hcurrent, hlookup] at h
      cases type with
      | none =>
          obtain rfl := Outcome.failed.inj h
          exact ⟨rfl, by decide⟩
      | some type =>
          obtain rfl := Outcome.failed.inj h
          exact ⟨rfl, by decide⟩
  | some found =>
      simp only [assignmentOutcome, hcurrent, hlookup] at h
      rcases ite_eq_iff.mp h with ⟨-, h⟩ | ⟨hfailed, h⟩
      · cases h
      · obtain rfl := Outcome.failed.inj h
        exact ⟨by cases type <;> rfl, fun hnil => hfailed (by rw [ReasonSet.isEmpty, hnil]; rfl)⟩

end Resolver

end Declarative
