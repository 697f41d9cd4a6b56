import Declarative.Proofs.Schema.Calls
import Declarative.Proofs.Schema.Lookup

/-!
# Indexes answer as a scan does

A schema answers from its indexes, which are filled class by class and member by member. A second
class or property of a name would take the place of the first one there, and the members of a second
class would come among those of the first. Building has excluded that, so for each receiver the
answers are those of a scan over the declarations (`Schema.answersByScan_of_build`): it goes through
the classes up to the receiver and then through its members, in the order of their declaration.
-/

namespace Declarative

namespace Schema

/-! ## Scanning -/

def scan? (s : Schema) (name : String) : Option DataClass := s.classes.find? (·.name == name)

def scannedFunctions (s : Schema) (receiver : String) : List Function :=
  ((s.scan? receiver).map (·.functions)).getD []

def scannedProperties (s : Schema) (receiver : String) : List Property :=
  ((s.scan? receiver).map (·.properties)).getD []

/-- The list has each of `names` once, in the order in which they come first. -/
structure ListsOnce (list names : List String) : Prop where
  mem_iff : ∀ name, name ∈ list ↔ name ∈ names
  nodup : list.Nodup
  ordered : list.Pairwise fun a b => names.idxOf a < names.idxOf b

/-- What the schema answers for the receiver is what a scan finds. -/
structure AnswersByScan (s : Schema) (receiver : String) : Prop where
  dataClass? : s.dataClass? receiver = s.scan? receiver
  functionsNamed : ∀ name,
    s.functionsNamed receiver name = (s.scannedFunctions receiver).filter (·.name == name)
  /-- A scan finds one property of the name, or none. -/
  property? : ∀ name,
    (s.scannedProperties receiver).filter (·.name == name) = (s.property? receiver name).toList
  functionNames : ListsOnce (s.functionNames receiver) ((s.scannedFunctions receiver).map (·.name))
  visibleProperties :
    s.visibleProperties receiver = (s.scannedProperties receiver).filter (!·.hidden)
  receiver_eq : ∀ name, ∀ f ∈ s.functionsNamed receiver name, f.receiver = receiver
  owner_eq : ∀ name, ∀ p ∈ s.property? receiver name, p.owner = receiver
  owner_eq_of_visible : ∀ p ∈ s.visibleProperties receiver, p.owner = receiver

/-! ## Names listed once -/

namespace ListsOnce

variable {list names : List String} {name : String} (h : ListsOnce list names)

include h

theorem pairwise_append (others : List String) :
    list.Pairwise fun a b => (names ++ others).idxOf a < (names ++ others).idxOf b := by
  refine h.ordered.imp_of_mem fun ha hb hlt => ?_
  rwa [List.idxOf_append_of_mem ((h.mem_iff _).mp ha),
    List.idxOf_append_of_mem ((h.mem_iff _).mp hb)]

/-- A name that was listed before is left out. -/
theorem again (hname : name ∈ list) : ListsOnce list (names ++ [name]) where
  mem_iff other := by
    rw [List.mem_append, List.mem_singleton, h.mem_iff]
    exact ⟨Or.inl, fun hother => hother.elim id fun heq => heq ▸ (h.mem_iff name).mp hname⟩
  nodup := h.nodup
  ordered := h.pairwise_append _

theorem further (hname : name ∉ list) : ListsOnce (list ++ [name]) (names ++ [name]) where
  mem_iff other := by rw [List.mem_append, List.mem_append, h.mem_iff]
  nodup := List.nodup_append.mpr ⟨h.nodup, List.nodup_singleton name, fun a ha b hb heq =>
    hname (List.mem_singleton.mp hb ▸ heq ▸ ha)⟩
  ordered := by
    refine List.pairwise_append.mpr ⟨h.pairwise_append _, List.pairwise_singleton .., ?_⟩
    intro a ha b hb
    obtain rfl := List.mem_singleton.mp hb
    have hfirst : b ∉ names := fun hb => hname ((h.mem_iff b).mpr hb)
    rw [List.idxOf_append_of_mem ((h.mem_iff a).mp ha), List.idxOf_append_of_notMem hfirst]
    exact Nat.lt_add_right _ (List.idxOf_lt_length_of_mem ((h.mem_iff a).mp ha))

theorem addNew (others : List String) :
    ListsOnce (Schema.addNew list others) (names ++ others) := by
  induction others generalizing list names with
  | nil => simpa [Schema.addNew] using h
  | cons name others ih =>
      rw [Schema.addNew, List.foldl_cons, ← Schema.addNew, List.append_cons names]
      by_cases hname : name ∈ list
      · rw [if_pos hname]
        exact ih (h.again hname)
      · rw [if_neg hname]
        exact ih (h.further hname)

end ListsOnce

theorem listsOnce_addNew (names : List String) : ListsOnce (addNew [] names) names :=
  have hnone : ListsOnce [] [] := ⟨fun _ => Iff.rfl, List.nodup_nil, .nil⟩
  hnone.addNew names

/-! ## Answers -/

/-- Of things with distinct keys, those with one key are one or none. -/
theorem filter_key_eq_toList {α : Type} {key : α → String} {things : List α}
    (hkeys : (things.map key).Nodup) (name : String) :
    things.filter (key · == name) = (things.find? (key · == name)).toList := by
  cases hfind : things.find? (key · == name) with
  | none => simpa [List.filter_eq_nil_iff, List.find?_eq_none] using hfind
  | some a =>
      obtain ⟨ha, rfl⟩ := (find?_key_eq_some_iff hkeys).mp hfind
      have hnodup : (things.filter (key · == key a)).Nodup := hkeys.of_map.filter _
      have hsame : ∀ c, c ∈ things.filter (key · == key a) ↔ c = a := by
        intro c
        rw [List.mem_filter, beq_iff_eq]
        refine ⟨fun h => List.inj_on_of_nodup_map hkeys h.1 ha h.2, ?_⟩
        rintro rfl
        exact ⟨ha, rfl⟩
      exact List.perm_singleton.mp ((List.perm_ext_iff_of_nodup hnodup (List.nodup_singleton a)).mpr
        fun c => by rw [hsame, List.mem_singleton])

section

variable {b : Builder} {s : Schema} (hb : b.build = .ok s) (receiver : String)

include hb

theorem functionsNamed_eq_scanned (name : String) :
    s.functionsNamed receiver name = (s.scannedFunctions receiver).filter (·.name == name) := by
  rw [functionsNamed_eq_filter hb, scannedFunctions, scan?]
  cases s.classes.find? (·.name == receiver) <;> rfl

theorem mem_scannedFunctions_iff {f : Function} :
    f ∈ s.scannedFunctions receiver ↔ s.Declares receiver f :=
  mem_getD_find?_key_iff (checked_of_build hb).names

theorem functionNames_eq_addNew :
    s.functionNames receiver = addNew [] ((s.scannedFunctions receiver).map (·.name)) := by
  rw [functionNames, dataClass?_eq_find? hb, scannedFunctions, scan?]
  cases s.classes.find? (·.name == receiver) <;> rfl

/-- The names of a receiver's functions are those of the functions that it declares. -/
theorem mem_functionNames_iff {name : String} :
    name ∈ s.functionNames receiver ↔ ∃ f, s.Declares receiver f ∧ f.name = name := by
  rw [functionNames_eq_addNew hb, (listsOnce_addNew _).mem_iff, List.mem_map]
  simp only [mem_scannedFunctions_iff hb]

theorem visibleProperties_eq_scanned :
    s.visibleProperties receiver = (s.scannedProperties receiver).filter (!·.hidden) := by
  rw [visibleProperties, dataClass?_eq_find? hb, scannedProperties, scan?]
  cases s.classes.find? (·.name == receiver) <;> rfl

theorem filter_scannedProperties (name : String) :
    (s.scannedProperties receiver).filter (·.name == name) = (s.property? receiver name).toList := by
  rw [property?_eq_find? hb, scannedProperties, scan?]
  cases hfind : s.classes.find? (·.name == receiver) with
  | none => rfl
  | some c =>
      have hproperties := (checked_of_build hb).properties c (List.mem_of_find?_eq_some hfind)
      exact filter_key_eq_toList hproperties name

end

section

variable {topLevel : String} {classes : List (String × List Member)} {s : Schema}
  (hb : (Builder.ofCalls topLevel classes).build = .ok s) (receiver : String)

include hb

/-- The functions and properties of a class come from members that were declared under its name. -/
theorem exists_members_of_mem {c : DataClass} (hc : c ∈ s.classes) :
    ∃ members : List Member, c.functions = members.filterMap (Member.function? c.name)
      ∧ c.properties = members.filterMap (Member.property? c.name) := by
  rw [classes_of_build hb, Builder.ofCalls_eq] at hc
  obtain ⟨⟨name, members⟩, -, rfl⟩ := List.mem_map.mp hc
  rw [DataClass.ofMembers_eq]
  exact ⟨members, rfl, rfl⟩

theorem receiver_eq_of_scanned {f : Function} (h : f ∈ s.scannedFunctions receiver) :
    f.receiver = receiver := by
  obtain ⟨c, hc, rfl, hf⟩ := (mem_getD_find?_key_iff (checked_of_build hb).names).mp h
  obtain ⟨members, hfunctions, -⟩ := exists_members_of_mem hb hc
  rw [hfunctions] at hf
  obtain ⟨m, -, hfunction⟩ := List.mem_filterMap.mp hf
  cases m with
  | function => exact Option.some.inj hfunction ▸ rfl
  | supertype | property => cases hfunction

theorem owner_eq_of_scanned {p : Property} (h : p ∈ s.scannedProperties receiver) :
    p.owner = receiver := by
  obtain ⟨c, hc, rfl, hp⟩ := (mem_getD_find?_key_iff (checked_of_build hb).names).mp h
  obtain ⟨members, -, hproperties⟩ := exists_members_of_mem hb hc
  rw [hproperties] at hp
  obtain ⟨m, -, hproperty⟩ := List.mem_filterMap.mp hp
  cases m with
  | property => exact Option.some.inj hproperty ▸ rfl
  | supertype | function => cases hproperty

/-- **Indexes answer as a scan does**, for each receiver, whether or not it is declared. -/
theorem answersByScan_of_build : s.AnswersByScan receiver where
  dataClass? := dataClass?_eq_find? hb receiver
  functionsNamed := functionsNamed_eq_scanned hb receiver
  property? := filter_scannedProperties hb receiver
  functionNames := by
    rw [functionNames_eq_addNew hb]
    exact listsOnce_addNew _
  visibleProperties := visibleProperties_eq_scanned hb receiver
  receiver_eq name f hf := by
    rw [functionsNamed_eq_scanned hb] at hf
    exact receiver_eq_of_scanned hb receiver (List.mem_of_mem_filter hf)
  owner_eq name p hp := by
    have hfound : p ∈ (s.property? receiver name).toList := Option.mem_toList.mpr hp
    rw [← filter_scannedProperties hb] at hfound
    exact owner_eq_of_scanned hb receiver (List.mem_of_mem_filter hfound)
  owner_eq_of_visible p hp := by
    rw [visibleProperties_eq_scanned hb] at hp
    exact owner_eq_of_scanned hb receiver (List.mem_of_mem_filter hp)

end

/-- Two overloads of a name with another function between them, and a hidden property. -/
theorem answersByScan_of_build_garden :
    let classes : List (String × List Member) := [
      ("Bed", [.property "name" .string false false]),
      ("Garden", [.adding "row" [.int] "Bed" .allowed, .property "name" .string false false,
        .configuring "bed" "Bed", .property "secret" .int true false,
        .adding "row" [.string] "Bed" .allowed])]
    let b := Builder.ofCalls "Garden" classes
    let s := ofClasses "Garden" b.classes [("Bed", []), ("Garden", [])]
    b.build = .ok s ∧ s.AnswersByScan "Garden"
      ∧ (s.functionsNamed "Garden" "row").map (·.parameters) = [[.int], [.string]]
      ∧ s.functionNames "Garden" = ["row", "bed"]
      ∧ (s.visibleProperties "Garden").map (·.name) = ["name"]
      ∧ (s.property? "Garden" "secret").isSome := by
  intro classes b s
  have hb : b.build = .ok s := rfl
  exact ⟨hb, answersByScan_of_build hb "Garden", by decide, by decide, by decide, by decide⟩

end Schema

end Declarative
