import Mathlib.Data.List.Perm.Basic
import Declarative.Proofs.Schema.Acceptance

/-!
# The order of declarations

Two builders that declare the same classes with the same members, in any order
(`Builder.Reordered`), are valid together (`Builder.Reordered.valid`). The schemas that they
build answer alike (`Schema.AnswersAlike`): they have the same properties and the same
subtypes, and the same overloads of a name, which may come in another order.
-/

namespace Declarative

namespace Schema

open Relation (ReflTransGen TransGen)

/-! ## Declarations in another order -/

/-- The two classes declare the same members, those of each kind in any order. -/
structure DataClass.Reordered (c d : DataClass) : Prop where
  name : c.name = d.name
  supertypes : c.supertypes.Perm d.supertypes
  properties : c.properties.Perm d.properties
  functions : c.functions.Perm d.functions

namespace DataClass.Reordered

theorem symm {c d : DataClass} (h : c.Reordered d) : d.Reordered c :=
  ⟨h.name.symm, h.supertypes.symm, h.properties.symm, h.functions.symm⟩

theorem map_name_eq : ∀ {cs ds : List DataClass}, List.Forall₂ DataClass.Reordered cs ds →
    cs.map (·.name) = ds.map (·.name)
  | [], [], .nil => rfl
  | c :: cs, d :: ds, .cons hfirst hothers => by
      rw [List.map_cons, List.map_cons, hfirst.name, map_name_eq hothers]

theorem exists_of_mem : ∀ {cs ds : List DataClass}, List.Forall₂ DataClass.Reordered cs ds →
    ∀ c ∈ cs, ∃ d ∈ ds, c.Reordered d
  | [], [], .nil, c, hc => absurd hc List.not_mem_nil
  | first :: cs, d :: ds, .cons hfirst hothers, c, hc => by
      rcases List.mem_cons.mp hc with rfl | hc
      · exact ⟨d, List.mem_cons_self .., hfirst⟩
      · obtain ⟨e, he, hreordered⟩ := exists_of_mem hothers c hc
        exact ⟨e, List.mem_cons_of_mem _ he, hreordered⟩

end DataClass.Reordered

/-- The two builders declare the same classes in any order, and with their members in any order. -/
structure Builder.Reordered (a b : Builder) : Prop where
  topLevel : a.topLevel = b.topLevel
  classes : ∃ moved, a.classes.Perm moved ∧ List.Forall₂ DataClass.Reordered moved b.classes

namespace Builder.Reordered

variable {a b : Builder} (h : a.Reordered b)

include h

theorem symm : b.Reordered a := by
  obtain ⟨moved, hperm, hsame⟩ := h.classes
  obtain ⟨others, hothers, hback⟩ := List.perm_comp_forall₂ hperm hsame
  refine ⟨h.topLevel.symm, others, hback.symm, List.Forall₂.flip ?_⟩
  exact hothers.imp fun _ _ => DataClass.Reordered.symm

theorem names_perm : (a.classes.map (·.name)).Perm (b.classes.map (·.name)) := by
  obtain ⟨moved, hperm, hsame⟩ := h.classes
  rw [← DataClass.Reordered.map_name_eq hsame]
  exact hperm.map _

theorem exists_reordered {c : DataClass} (hc : c ∈ a.classes) :
    ∃ d ∈ b.classes, c.Reordered d := by
  obtain ⟨moved, hperm, hsame⟩ := h.classes
  exact DataClass.Reordered.exists_of_mem hsame c (hperm.subset hc)

theorem declares_iff {name : String} : a.Declares name ↔ b.Declares name := by
  rw [← mem_names_iff, ← mem_names_iff, h.names_perm.mem_iff]

theorem declaresSupertype {name supertype : String}
    (hdeclares : DeclaresSupertype a.classes name supertype) :
    DeclaresSupertype b.classes name supertype := by
  obtain ⟨c, hc, rfl, hsupertype⟩ := hdeclares
  obtain ⟨d, hd, hcd⟩ := h.exists_reordered hc
  exact ⟨d, hd, hcd.name.symm, hcd.supertypes.subset hsupertype⟩

theorem declaresSupertype_eq : DeclaresSupertype a.classes = DeclaresSupertype b.classes := by
  funext name supertype
  exact propext ⟨h.declaresSupertype, h.symm.declaresSupertype⟩

/-- No condition on declarations is about their order. -/
theorem valid (hvalid : a.Valid) : b.Valid := by
  have hback : ∀ d ∈ b.classes, ∃ c ∈ a.classes, d.Reordered c :=
    fun d hd => h.symm.exists_reordered hd
  refine ⟨h.names_perm.nodup_iff.mp hvalid.names, ?_, ?_, ?_, ?_, ?_, ?_, ?_, ?_⟩
  · rw [← h.topLevel, ← h.declares_iff]
    exact hvalid.topLevel
  · intro d hd supertype hsupertype
    obtain ⟨c, hc, hdc⟩ := hback d hd
    exact h.declares_iff.mp (hvalid.supertypes c hc _ (hdc.supertypes.subset hsupertype))
  · intro d hd
    obtain ⟨c, hc, hdc⟩ := hback d hd
    exact (hdc.properties.map _).nodup_iff.mpr (hvalid.properties c hc)
  · intro d hd p hp type htype
    obtain ⟨c, hc, hdc⟩ := hback d hd
    exact h.declares_iff.mp
      (hvalid.propertyTypes c hc p (hdc.properties.subset hp) type htype)
  · intro d hd f hf type hrefers
    obtain ⟨c, hc, hdc⟩ := hback d hd
    exact h.declares_iff.mp (hvalid.references c hc f (hdc.functions.subset hf) type hrefers)
  · intro d hd f hf
    obtain ⟨c, hc, hdc⟩ := hback d hd
    exact hvalid.configuring c hc f (hdc.functions.subset hf)
  · intro d hd
    obtain ⟨c, hc, hdc⟩ := hback d hd
    exact (hdc.functions.map _).nodup_iff.mpr (hvalid.overloads c hc)
  · rw [← h.declaresSupertype_eq]
    exact hvalid.acyclic

end Builder.Reordered

theorem Builder.exists_build_of_valid {b : Builder} (h : b.Valid) : ∃ s, b.build = .ok s := by
  cases herror : b.error? with
  | none => exact ⟨_, by rw [build, herror]⟩
  | some error => exact absurd h (breaks_of_error? herror).not_valid

/-! ## Schemas that answer alike -/

/-- To every question of the resolver the two schemas have the same answer, but for the order of
overloads. -/
structure AnswersAlike (s t : Schema) : Prop where
  topLevel : s.topLevel = t.topLevel
  functionsNamed : ∀ receiver name,
    (s.functionsNamed receiver name).Perm (t.functionsNamed receiver name)
  property? : ∀ receiver name, s.property? receiver name = t.property? receiver name
  isSubtype : ∀ a b, s.isSubtype a b = t.isSubtype a b

theorem AnswersAlike.isAssignable {s t : Schema} (h : s.AnswersAlike t) (given wanted : DataType) :
    s.isAssignable given wanted = t.isAssignable given wanted := by
  unfold Schema.isAssignable
  split
  · rfl
  · rfl
  · exact h.isSubtype _ _
  · rfl

/-- Where keys are distinct, the order of things makes no difference to what is found. -/
theorem find?_key_eq_of_perm {α : Type} {key : α → String} {things others : List α}
    (hperm : things.Perm others) (hkeys : (things.map key).Nodup) (name : String) :
    things.find? (key · == name) = others.find? (key · == name) := by
  have hothers : (others.map key).Nodup := (hperm.map key).nodup_iff.mp hkeys
  ext a
  rw [find?_key_eq_some_iff hkeys, find?_key_eq_some_iff hothers, hperm.mem_iff]

theorem classes_of_build {b : Builder} {s : Schema} (hb : b.build = .ok s) :
    s.classes = b.classes := by
  obtain ⟨-, rfl⟩ := Builder.build_eq_ok hb
  rfl

theorem topLevel_of_build {b : Builder} {s : Schema} (hb : b.build = .ok s) :
    s.topLevel = b.topLevel := by
  obtain ⟨-, rfl⟩ := Builder.build_eq_ok hb
  rfl

section

variable {a b : Builder} {s t : Schema} (h : a.Reordered b) (ha : a.build = .ok s)
  (hb : b.build = .ok t)

include h ha hb

/-- Under one name both schemas have a class with the same members, or neither has a class. -/
theorem reordered_find?_cases (receiver : String) :
    (∃ c d, s.classes.find? (·.name == receiver) = some c
        ∧ t.classes.find? (·.name == receiver) = some d ∧ c.Reordered d)
      ∨ s.classes.find? (·.name == receiver) = none
        ∧ t.classes.find? (·.name == receiver) = none := by
  have hs := (checked_of_build ha).names
  have ht := (checked_of_build hb).names
  rw [classes_of_build ha] at hs ⊢
  rw [classes_of_build hb] at ht ⊢
  cases hfind : a.classes.find? (·.name == receiver) with
  | some c =>
      obtain ⟨hc, hname⟩ := (find?_key_eq_some_iff hs).mp hfind
      obtain ⟨d, hd, hcd⟩ := h.exists_reordered hc
      have hfound := (find?_key_eq_some_iff ht).mpr ⟨hd, hcd.name.symm.trans hname⟩
      exact Or.inl ⟨c, d, rfl, hfound, hcd⟩
  | none =>
      refine Or.inr ⟨rfl, List.find?_eq_none.mpr fun d hd => ?_⟩
      obtain ⟨c, hc, hdc⟩ := h.symm.exists_reordered hd
      rw [hdc.name]
      exact List.find?_eq_none.mp hfind c hc

theorem isSubtype_eq_of_reordered (name supertype : String) :
    s.isSubtype name supertype = t.isSubtype name supertype := by
  have hdirect : s.DirectSupertype = t.DirectSupertype := by
    change DeclaresSupertype s.classes = DeclaresSupertype t.classes
    rw [classes_of_build ha, classes_of_build hb, h.declaresSupertype_eq]
  rw [Bool.eq_iff_iff, isSubtype_iff ha, isSubtype_iff hb, hdirect]

/-- **The order of declarations is not seen** in what a schema answers, except among overloads. -/
theorem answersAlike_of_reordered : s.AnswersAlike t := by
  refine ⟨?_, ?_, ?_, isSubtype_eq_of_reordered h ha hb⟩
  · rw [topLevel_of_build ha, topLevel_of_build hb, h.topLevel]
  · intro receiver name
    rw [functionsNamed_eq_filter ha, functionsNamed_eq_filter hb]
    rcases reordered_find?_cases h ha hb receiver with ⟨c, d, hc, hd, hcd⟩ | ⟨hc, hd⟩
    · rw [hc, hd]
      exact hcd.functions.filter _
    · rw [hc, hd]
  · intro receiver name
    rw [property?_eq_find? ha, property?_eq_find? hb]
    rcases reordered_find?_cases h ha hb receiver with ⟨c, d, hc, hd, hcd⟩ | ⟨hc, hd⟩
    · have hdistinct := (checked_of_build ha).properties c (List.mem_of_find?_eq_some hc)
      rw [hc, hd]
      exact find?_key_eq_of_perm hcd.properties hdistinct name
    · rw [hc, hd]

end

end Schema

end Declarative
