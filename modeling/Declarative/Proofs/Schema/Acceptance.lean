import Declarative.Proofs.Schema.Subtype

/-!
# Which declarations make a schema

The conditions on the declarations of a builder, each stated without the order of the checks
(`Builder.Valid`), and what each error says about them (`Builder.Breaks`). A builder is built
just where all conditions hold, and the error it is refused with is one of its violations
(`Builder.build_ok_iff_and_breaks`).
-/

namespace Declarative

namespace Schema

open Relation (TransGen)

/-! ## Conditions and violations -/

/-- The declaration of the function names this class. -/
inductive Function.Refers (f : Function) : String → Prop where
  | parameter {type : String} (h : .named type ∈ f.parameters) : Refers f type
  | result {type : String} (h : f.returns = .named type) : Refers f type
  | produced {type : String} {block : BlockRule} (h : f.semantics = .adding type block) :
      Refers f type
  | configured {type : String} (h : f.semantics = .configuring type) : Refers f type

namespace Builder

/-- A class of this name is declared. -/
def Declares (b : Builder) (name : String) : Prop := ∃ c ∈ b.classes, c.name = name

/-- The declarations contradict neither themselves nor each other. -/
structure Valid (b : Builder) : Prop where
  names : (b.classes.map (·.name)).Nodup
  topLevel : b.Declares b.topLevel
  supertypes : ∀ c ∈ b.classes, ∀ supertype ∈ c.supertypes, b.Declares supertype
  properties : ∀ c ∈ b.classes, (c.properties.map (·.name)).Nodup
  propertyTypes : ∀ c ∈ b.classes, ∀ p ∈ c.properties, ∀ type,
    p.type = .named type → b.Declares type
  references : ∀ c ∈ b.classes, ∀ f ∈ c.functions, ∀ type, f.Refers type → b.Declares type
  configuring : ∀ c ∈ b.classes, ∀ f ∈ c.functions, ∀ configured,
    f.semantics = .configuring configured → f.returns = .unit
  overloads : ∀ c ∈ b.classes, (c.functions.map fun f => (f.name, f.parameters)).Nodup
  acyclic : ∀ name, ¬TransGen (DeclaresSupertype b.classes) name name

/-- The declarations do what the error says. -/
inductive Breaks (b : Builder) : Error → Prop where
  | duplicateClass {name : String} (h : 2 ≤ (b.classes.map (·.name)).count name) :
      Breaks b (.duplicateClass name)
  | missingTopLevel (h : ¬b.Declares b.topLevel) : Breaks b (.missingTopLevel b.topLevel)
  | unknownSupertype {c : DataClass} (hc : c ∈ b.classes) {supertype : String}
      (h : supertype ∈ c.supertypes) (hunknown : ¬b.Declares supertype) :
      Breaks b (.unknownSupertype c.name supertype)
  | duplicateProperty {c : DataClass} (hc : c ∈ b.classes) {name : String}
      (h : 2 ≤ (c.properties.map (·.name)).count name) : Breaks b (.duplicateProperty c.name name)
  | unknownPropertyType {c : DataClass} (hc : c ∈ b.classes) {p : Property}
      (hp : p ∈ c.properties) {type : String} (h : p.type = .named type)
      (hunknown : ¬b.Declares type) : Breaks b (.unknownType c.name p.name type)
  | unknownReference {c : DataClass} (hc : c ∈ b.classes) {f : Function} (hf : f ∈ c.functions)
      {type : String} (h : f.Refers type) (hunknown : ¬b.Declares type) :
      Breaks b (.unknownType c.name f.name type)
  | configuringReturnsValue {c : DataClass} (hc : c ∈ b.classes) {f : Function}
      (hf : f ∈ c.functions) {configured : String} (h : f.semantics = .configuring configured)
      (hreturns : f.returns ≠ .unit) :
      Breaks b (.configuringReturnsValue c.name f.name configured)
  | duplicateOverload {c : DataClass} (hc : c ∈ b.classes) {f : Function} (hf : f ∈ c.functions)
      (h : 2 ≤ (c.functions.map fun g => (g.name, g.parameters)).count (f.name, f.parameters)) :
      Breaks b (.duplicateOverload c.name f.signature)
  /-- The class reaches itself through declared supertypes. -/
  | supertypeCycle {c : DataClass} (hc : c ∈ b.classes)
      (h : TransGen (DeclaresSupertype b.classes) c.name c.name) :
      Breaks b (.supertypeCycle c.name)

variable {b : Builder}

theorem mem_names_iff {name : String} : name ∈ b.classes.map (·.name) ↔ b.Declares name :=
  List.mem_map

theorem Breaks.not_valid {error : Error} (h : b.Breaks error) : ¬b.Valid := by
  intro hvalid
  cases h with
  | duplicateClass h =>
      have honce := List.nodup_iff_count_le_one.mp hvalid.names
      exact absurd (honce _) (Nat.not_le.mpr h)
  | missingTopLevel h => exact h hvalid.topLevel
  | unknownSupertype hc h hunknown => exact hunknown (hvalid.supertypes _ hc _ h)
  | duplicateProperty hc h =>
      have honce := List.nodup_iff_count_le_one.mp (hvalid.properties _ hc)
      exact absurd (honce _) (Nat.not_le.mpr h)
  | unknownPropertyType hc hp h hunknown => exact hunknown (hvalid.propertyTypes _ hc _ hp _ h)
  | unknownReference hc hf h hunknown => exact hunknown (hvalid.references _ hc _ hf _ h)
  | configuringReturnsValue hc hf h hreturns => exact hreturns (hvalid.configuring _ hc _ hf _ h)
  | duplicateOverload hc hf h =>
      have honce := List.nodup_iff_count_le_one.mp (hvalid.overloads _ hc)
      exact absurd (honce _) (Nat.not_le.mpr h)
  | supertypeCycle hc h => exact hvalid.acyclic _ h

end Builder

/-! ## What one check finds -/

/-- A name that was seen before is one of two. -/
theorem two_le_count_of_firstRepeated? {names : List String} {name : String} :
    ∀ {seen : List String}, firstRepeated? seen names = some name →
      2 ≤ (seen ++ names).count name := by
  induction names with
  | nil => intro seen h; cases h
  | cons first names ih =>
      intro seen h
      rw [firstRepeated?] at h
      split at h
      · rename_i hseen
        obtain rfl := Option.some.inj h
        have hbefore := List.one_le_count_iff.mpr hseen
        rw [List.count_append, List.count_cons_self]
        omega
      · rw [List.perm_middle.count_eq]
        exact ih h

namespace Function

variable {f : Function} {owner : String} {known : List String}

theorem mem_references_iff {type : String} : type ∈ f.references ↔ f.Refers type := by
  have hclass : ∀ t : DataType, t.className? = some type ↔ t = .named type := by
    intro t
    cases t <;> simp [DataType.className?]
  rw [references, List.mem_append, List.mem_filterMap, Option.mem_toList]
  constructor
  · rintro (⟨t, ht, hname⟩ | htarget)
    · rw [hclass] at hname
      subst hname
      rcases List.mem_append.mp ht with ht | ht
      · exact .parameter ht
      · exact .result (List.mem_singleton.mp ht).symm
    · cases hsemantics : f.semantics with
      | adding produced block =>
          rw [hsemantics] at htarget
          exact .produced (Option.some.inj htarget ▸ hsemantics)
      | configuring configured =>
          rw [hsemantics] at htarget
          exact .configured (Option.some.inj htarget ▸ hsemantics)
      | plain => simp [hsemantics, Semantics.target?] at htarget
  · intro h
    cases h with
    | parameter h => exact Or.inl ⟨_, List.mem_append_left _ h, rfl⟩
    | result h => exact Or.inl ⟨_, List.mem_append_right _ (List.mem_singleton.mpr h.symm), rfl⟩
    | produced h => exact Or.inr (by rw [h]; rfl)
    | configured h => exact Or.inr (by rw [h]; rfl)

/-- Nothing is wrong with a function, or it names a class that is not known, or it returns
something though it configures. -/
theorem error?_cases :
    (f.error? owner known = none ∧ (∀ type, f.Refers type → type ∈ known)
        ∧ ∀ configured, f.semantics = .configuring configured → f.returns = .unit)
      ∨ (∃ type, f.error? owner known = some (.unknownType owner f.name type)
        ∧ f.Refers type ∧ type ∉ known)
      ∨ ∃ configured, f.error? owner known
          = some (.configuringReturnsValue owner f.name configured)
        ∧ f.semantics = .configuring configured ∧ f.returns ≠ .unit := by
  rw [error?]
  cases hfind : f.references.find? (· ∉ known) with
  | some type =>
      have hrefers := mem_references_iff.mp (List.mem_of_find?_eq_some hfind)
      have hunknown : type ∉ known := by simpa using List.find?_some hfind
      exact Or.inr (Or.inl ⟨type, rfl, hrefers, hunknown⟩)
  | none =>
      have hknown : ∀ type, f.Refers type → type ∈ known := fun type h => by
        simpa using List.find?_eq_none.mp hfind type (mem_references_iff.mpr h)
      cases hsemantics : f.semantics with
      | configuring configured =>
          by_cases hreturns : f.returns = .unit
          · exact Or.inl ⟨if_pos hreturns, hknown, fun _ _ => hreturns⟩
          · exact Or.inr (Or.inr ⟨configured, if_neg hreturns, rfl, hreturns⟩)
      | adding produced block => exact Or.inl ⟨rfl, hknown, fun _ h => by cases h⟩
      | plain => exact Or.inl ⟨rfl, hknown, fun _ h => by cases h⟩

theorem right_of_error? (h : f.error? owner known = none) :
    (∀ type, f.Refers type → type ∈ known)
      ∧ ∀ configured, f.semantics = .configuring configured → f.returns = .unit := by
  rcases error?_cases (f := f) with ⟨-, hright⟩ | ⟨type, herror, -⟩ | ⟨configured, herror, -⟩
  · exact hright
  · cases h.symm.trans herror
  · cases h.symm.trans herror

end Function

namespace DataClass

variable {owner : String} {known : List String} {error : Error}

theorem of_propertyError? {properties : List Property} : ∀ {seen : List String},
    propertyError? owner known seen properties = some error →
      (∃ name, error = .duplicateProperty owner name
        ∧ 2 ≤ (seen ++ properties.map (·.name)).count name)
      ∨ ∃ p ∈ properties, ∃ type, error = .unknownType owner p.name type
        ∧ p.type = .named type ∧ type ∉ known := by
  induction properties with
  | nil => intro seen h; cases h
  | cons p properties ih =>
      intro seen h
      rw [propertyError?] at h
      split at h
      · rename_i hseen
        refine Or.inl ⟨p.name, (Option.some.inj h).symm, ?_⟩
        have hbefore := List.one_le_count_iff.mpr hseen
        rw [List.map_cons, List.count_append, List.count_cons_self]
        omega
      · split at h
        · rename_i type hfilter
          obtain ⟨htype, hunknown⟩ : p.type.className? = some type ∧ type ∉ known := by
            simpa [Option.filter_eq_some_iff] using hfilter
          have hnamed : p.type = .named type := by
            cases hp : p.type <;> simp_all [DataType.className?]
          exact Or.inr ⟨p, List.mem_cons_self .., type, (Option.some.inj h).symm, hnamed, hunknown⟩
        · rcases ih h with ⟨name, rfl, hcount⟩ | ⟨q, hq, hunknown⟩
          · exact Or.inl ⟨name, rfl, by rwa [List.map_cons, List.perm_middle.count_eq]⟩
          · exact Or.inr ⟨q, List.mem_cons_of_mem _ hq, hunknown⟩

theorem of_functionError? {functions : List Function} : ∀ {seen : List (String × List DataType)},
    functionError? owner known seen functions = some error →
      (∃ f ∈ functions, f.error? owner known = some error)
      ∨ ∃ f ∈ functions, error = .duplicateOverload owner f.signature
        ∧ 2 ≤ (seen ++ functions.map fun g => (g.name, g.parameters)).count
            (f.name, f.parameters) := by
  induction functions with
  | nil => intro seen h; cases h
  | cons f functions ih =>
      intro seen h
      rw [functionError?] at h
      split at h
      · rename_i herror
        exact Or.inl ⟨f, List.mem_cons_self .., herror.trans h⟩
      · split at h
        · rename_i hseen
          refine Or.inr ⟨f, List.mem_cons_self .., (Option.some.inj h).symm, ?_⟩
          have hbefore := List.one_le_count_iff.mpr hseen
          rw [List.map_cons, List.count_append, List.count_cons_self]
          omega
        · rcases ih h with ⟨g, hg, herror⟩ | ⟨g, hg, rfl, hcount⟩
          · exact Or.inl ⟨g, List.mem_cons_of_mem _ hg, herror⟩
          · exact Or.inr ⟨g, List.mem_cons_of_mem _ hg, rfl, by
              rwa [List.map_cons, List.perm_middle.count_eq]⟩

end DataClass

/-! ## What the checks of a builder come to -/

namespace Builder

variable {b : Builder} {error : Error}

theorem valid_of_error? (h : b.error? = none) : b.Valid := by
  have hchecked := checked_of_error? h
  obtain ⟨-, htop, hclass, -⟩ := error?_eq_none_iff.mp h
  have hfunction : ∀ c ∈ b.classes, ∀ f ∈ c.functions,
      (∀ type, f.Refers type → type ∈ b.classes.map (·.name))
        ∧ ∀ configured, f.semantics = .configuring configured → f.returns = .unit := by
    intro c hc f hf
    have hfunctions := (DataClass.error?_eq_none_iff.mp (hclass c hc)).2.2
    exact Function.right_of_error? ((DataClass.functionError?_eq_none_iff.mp hfunctions).2.2 f hf)
  refine ⟨hchecked.names, mem_names_iff.mp htop, ?_, hchecked.properties, ?_, ?_, ?_,
    hchecked.functions, hchecked.acyclic⟩
  · exact fun c hc supertype h => mem_names_iff.mp (hchecked.supertypes c hc supertype h)
  · intro c hc p hp type htype
    have htypes := (DataClass.propertyError?_eq_none_iff.mp
      (DataClass.error?_eq_none_iff.mp (hclass c hc)).2.1).2.2
    exact mem_names_iff.mp (htypes p hp type (by rw [htype]; rfl))
  · exact fun c hc f hf type h => mem_names_iff.mp ((hfunction c hc f hf).1 type h)
  · exact fun c hc f hf => (hfunction c hc f hf).2

theorem valid_of_build {s : Schema} (hb : b.build = .ok s) : b.Valid := by
  rw [build] at hb
  split at hb
  · cases hb
  · rename_i herror
    exact valid_of_error? herror

theorem breaks_of_class {c : DataClass} (hc : c ∈ b.classes)
    (h : c.error? (b.classes.map (·.name)) = some error) : b.Breaks error := by
  rw [DataClass.error?] at h
  split at h
  · rename_i supertype hfind
    obtain rfl := Option.some.inj h
    have hunknown : supertype ∉ b.classes.map (·.name) := by simpa using List.find?_some hfind
    exact .unknownSupertype hc (List.mem_of_find?_eq_some hfind) (mt mem_names_iff.mpr hunknown)
  · split at h
    · rename_i herror
      rcases DataClass.of_propertyError? (herror.trans h) with
        ⟨name, rfl, hcount⟩ | ⟨p, hp, type, rfl, htype, hunknown⟩
      · exact .duplicateProperty hc hcount
      · exact .unknownPropertyType hc hp htype (mt mem_names_iff.mpr hunknown)
    · rcases DataClass.of_functionError? h with ⟨f, hf, herror⟩ | ⟨f, hf, rfl, hcount⟩
      · rcases Function.error?_cases (f := f) with ⟨hnone, -⟩
          | ⟨type, hsome, hrefers, hunknown⟩ | ⟨configured, hsome, hconfiguring, hreturns⟩
        · cases hnone.symm.trans herror
        · obtain rfl := Option.some.inj (hsome.symm.trans herror)
          exact .unknownReference hc hf hrefers (mt mem_names_iff.mpr hunknown)
        · obtain rfl := Option.some.inj (hsome.symm.trans herror)
          exact .configuringReturnsValue hc hf hconfiguring hreturns
      · exact .duplicateOverload hc hf hcount

theorem breaks_of_error? (h : b.error? = some error) : b.Breaks error := by
  rw [error?] at h
  split at h
  · rename_i name hrepeated
    obtain rfl := Option.some.inj h
    exact .duplicateClass (two_le_count_of_firstRepeated? hrepeated)
  · rename_i hnames
    split at h
    · rename_i htop
      obtain rfl := Option.some.inj h
      exact .missingTopLevel (mt mem_names_iff.mpr htop)
    · split at h
      · rename_i found hclass
        obtain ⟨c, hc, herror⟩ := List.exists_of_findSome?_eq_some hclass
        exact breaks_of_class hc (herror.trans h)
      · obtain ⟨c, hfind, rfl⟩ := Option.map_eq_some_iff.mp h
        have hc := List.mem_of_find?_eq_some hfind
        have hnone : allSupertypes? b.classes c = none := by simpa using List.find?_some hfind
        have hnodup := (firstRepeated?_eq_none_iff.mp hnames).1
        exact .supertypeCycle hc ((allSupertypes?_eq_none_iff hnodup hc).mp hnone)

/-- **What is built is valid, and nothing valid is refused**; what is refused has the fault that
the error tells of. -/
theorem build_ok_iff_and_breaks (b : Builder) :
    ((∃ s, b.build = .ok s) ↔ b.Valid) ∧ ∀ error, b.build = .error error → b.Breaks error := by
  cases h : b.error? with
  | none =>
      have hbuild : b.build = .ok (ofClasses b.topLevel b.classes
          (b.classes.map fun c => (c.name, (allSupertypes? b.classes c).getD []))) := by
        rw [build, h]
      rw [hbuild]
      exact ⟨iff_of_true ⟨_, rfl⟩ (valid_of_error? h), fun _ herror => by cases herror⟩
  | some error =>
      have hbuild : b.build = .error error := by rw [build, h]
      have hbreaks := breaks_of_error? h
      rw [hbuild]
      refine ⟨iff_of_false (by rintro ⟨s, hs⟩; cases hs) hbreaks.not_valid, ?_⟩
      intro found hfound
      obtain rfl := Except.error.inj hfound
      exact hbreaks

/-- A bed stands below a cycle, but not below itself: the plot is what is refused. -/
example :
    ((empty "Bed").declare "Bed" [.supertype "Plot"]
      |>.declare "Plot" [.supertype "Ground"]
      |>.declare "Ground" [.supertype "Plot"]).build = .error (.supertypeCycle "Plot") := by
  decide

end Builder

end Schema

end Declarative
