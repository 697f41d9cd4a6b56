import Mathlib.Data.List.Nodup
import Mathlib.Logic.Relation
import Declarative.Schema.Builder

/-!
# What a schema declares

The declarations of a schema as relations on its list of classes (`Declares`,
`DeclaresProperty`, `DirectSupertype`, `Assignable`), read off without any index, and what
`Builder.build` guarantees of them: names are unambiguous, and every supertype is a class
of the schema.
-/

namespace Declarative

namespace Schema

/-- A class of this name declares the function. -/
def Declares (s : Schema) (receiver : String) (f : Function) : Prop :=
  ∃ c ∈ s.classes, c.name = receiver ∧ f ∈ c.functions

/-- A class of this name declares the property. -/
def DeclaresProperty (s : Schema) (receiver : String) (p : Property) : Prop :=
  ∃ c ∈ s.classes, c.name = receiver ∧ p ∈ c.properties

/-- The class `a` declares `b` as a supertype of its own. -/
def DirectSupertype (s : Schema) (a b : String) : Prop :=
  ∃ c ∈ s.classes, c.name = a ∧ b ∈ c.supertypes

/-- A value of the first type can stand where the second is declared. -/
inductive Assignable (s : Schema) : DataType → DataType → Prop where
  | same {t : DataType} (h : t ≠ .null) : Assignable s t t
  /-- Whole numbers widen to long ones, never the other way. -/
  | widened : Assignable s .int .long
  /-- An element stands for its supertypes, by any number of declared steps. -/
  | inherited {a b : String} (h : Relation.ReflTransGen s.DirectSupertype a b) :
      Assignable s (.named a) (.named b)

/-! ## Checks that look for a repetition -/

theorem firstRepeated?_eq_none_iff {names : List String} : ∀ {seen : List String},
    firstRepeated? seen names = none ↔ names.Nodup ∧ ∀ name ∈ names, name ∉ seen := by
  induction names with
  | nil => simp [firstRepeated?]
  | cons name names ih =>
      intro seen
      rw [firstRepeated?]
      by_cases hseen : name ∈ seen
      · simp [hseen]
      · rw [if_neg hseen, ih]
        simp only [List.mem_cons, List.nodup_cons, not_or]
        grind

namespace DataClass

theorem propertyError?_eq_none_iff {owner : String} {known : List String}
    {properties : List Property} : ∀ {seen : List String},
    propertyError? owner known seen properties = none ↔
      (properties.map (·.name)).Nodup
        ∧ (∀ p ∈ properties, p.name ∉ seen)
        ∧ ∀ p ∈ properties, ∀ type ∈ p.type.className?, type ∈ known := by
  induction properties with
  | nil => simp [propertyError?]
  | cons p properties ih =>
      intro seen
      rw [propertyError?]
      by_cases hseen : p.name ∈ seen
      · simp [hseen]
      · rw [if_neg hseen]
        cases hfilter : p.type.className?.filter (· ∉ known) with
        | some type =>
            have hunknown : type ∈ p.type.className? ∧ type ∉ known := by
              simpa [Option.filter_eq_some_iff] using hfilter
            simp only [reduceCtorEq, false_iff]
            exact fun h => hunknown.2 (h.2.2 p (List.mem_cons_self ..) type hunknown.1)
        | none =>
            have hknown : ∀ type ∈ p.type.className?, type ∈ known := by
              simpa [Option.filter_eq_none_iff] using hfilter
            simp only [ih, List.map_cons, List.nodup_cons, List.mem_map, List.mem_cons, not_or]
            grind

theorem functionError?_eq_none_iff {owner : String} {known : List String}
    {functions : List Function} : ∀ {seen : List (String × List DataType)},
    functionError? owner known seen functions = none ↔
      (functions.map fun f => (f.name, f.parameters)).Nodup
        ∧ (∀ f ∈ functions, (f.name, f.parameters) ∉ seen)
        ∧ ∀ f ∈ functions, f.error? owner known = none := by
  induction functions with
  | nil => simp [functionError?]
  | cons f functions ih =>
      intro seen
      rw [functionError?]
      cases herror : f.error? owner known with
      | some error => simp [herror]
      | none =>
          by_cases hseen : (f.name, f.parameters) ∈ seen
          · simp [hseen]
          · simp only [if_neg hseen, ih, List.map_cons, List.nodup_cons, List.mem_map,
              List.mem_cons, not_or]
            grind

theorem error?_eq_none_iff {known : List String} {c : DataClass} :
    c.error? known = none ↔
      (∀ supertype ∈ c.supertypes, supertype ∈ known)
        ∧ propertyError? c.name known [] c.properties = none
        ∧ functionError? c.name known [] c.functions = none := by
  rw [error?]
  cases hfind : c.supertypes.find? (· ∉ known) with
  | some supertype =>
      have hmem := List.mem_of_find?_eq_some hfind
      have hunknown : supertype ∉ known := by simpa using List.find?_some hfind
      simp only [reduceCtorEq, false_iff]
      exact fun h => hunknown (h.1 supertype hmem)
  | none =>
      have hknown : ∀ supertype ∈ c.supertypes, supertype ∈ known := by
        simpa [List.find?_eq_none] using hfind
      cases propertyError? c.name known [] c.properties with
      | some error => simp
      | none => simpa using fun _ => hknown

end DataClass

/-- Every check has to pass, none makes up for another. -/
theorem Builder.error?_eq_none_iff {b : Builder} : b.error? = none ↔
    (b.classes.map (·.name)).Nodup
      ∧ b.topLevel ∈ b.classes.map (·.name)
      ∧ (∀ c ∈ b.classes, c.error? (b.classes.map (·.name)) = none)
      ∧ ∀ c ∈ b.classes, (allSupertypes? b.classes c).isSome := by
  rw [Builder.error?]
  cases hnames : firstRepeated? [] (b.classes.map (·.name)) with
  | some name =>
      have hrepeated : ¬(b.classes.map (·.name)).Nodup := fun hnodup => by
        simpa [hnames] using (@firstRepeated?_eq_none_iff _ []).mpr ⟨hnodup, by simp⟩
      simp only [reduceCtorEq, false_iff]
      exact fun h => hrepeated h.1
  | none =>
      have hnodup := (firstRepeated?_eq_none_iff.mp hnames).1
      by_cases htop : b.topLevel ∈ b.classes.map (·.name)
      · rw [if_neg (not_not_intro htop)]
        cases hclasses : b.classes.findSome? (DataClass.error? (b.classes.map (·.name))) with
        | some error =>
            obtain ⟨c, hc, herror⟩ := List.exists_of_findSome?_eq_some hclasses
            simp only [reduceCtorEq, false_iff]
            exact fun h => by simpa [herror] using h.2.2.1 c hc
        | none =>
            rw [Option.map_eq_none_iff, List.find?_eq_none]
            constructor
            · intro hanswered
              refine ⟨hnodup, htop, List.findSome?_eq_none_iff.mp hclasses, ?_⟩
              exact fun c hc => by simpa [Option.isSome_iff_ne_none] using hanswered c hc
            · rintro ⟨-, -, -, hanswered⟩ c hc
              simpa [Option.isSome_iff_ne_none] using hanswered c hc
      · rw [if_pos htop]
        simp [htop]

/-! ## What building guarantees -/

/-- What the checks of a builder leave to be relied on. -/
structure Checked (classes : List DataClass) : Prop where
  names : (classes.map (·.name)).Nodup
  supertypes : ∀ c ∈ classes, ∀ b ∈ c.supertypes, b ∈ classes.map (·.name)
  properties : ∀ c ∈ classes, (c.properties.map (·.name)).Nodup
  /-- Overloads differ in the types of their parameters. -/
  functions : ∀ c ∈ classes, (c.functions.map fun f => (f.name, f.parameters)).Nodup
  /-- No class stands below itself. -/
  answered : ∀ c ∈ classes, (allSupertypes? classes c).isSome

theorem Builder.checked_of_error? {b : Builder} (h : b.error? = none) : Checked b.classes := by
  obtain ⟨hnames, -, hclass, hanswered⟩ := Builder.error?_eq_none_iff.mp h
  refine ⟨hnames, ?_, ?_, ?_, hanswered⟩
  · exact fun c hc => (DataClass.error?_eq_none_iff.mp (hclass c hc)).1
  · exact fun c hc => (DataClass.propertyError?_eq_none_iff.mp
      (DataClass.error?_eq_none_iff.mp (hclass c hc)).2.1).1
  · exact fun c hc => (DataClass.functionError?_eq_none_iff.mp
      (DataClass.error?_eq_none_iff.mp (hclass c hc)).2.2).1

/-- A schema that was built is made of checked classes. -/
theorem Builder.build_eq_ok {b : Builder} {s : Schema} (h : b.build = .ok s) :
    Checked b.classes ∧ s = ofClasses b.topLevel b.classes
      (b.classes.map fun c => (c.name, (allSupertypes? b.classes c).getD [])) := by
  rw [Builder.build] at h
  split at h
  · cases h
  · rename_i herror
    exact ⟨Builder.checked_of_error? herror, (Except.ok.inj h).symm⟩

end Schema

end Declarative
