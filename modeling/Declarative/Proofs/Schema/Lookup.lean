import Declarative.Proofs.Schema.Declared

/-!
# Members are found by scanning the declarations

The indexes of a built schema are filled from its classes one by one. What they give back
for a receiver and a name is what a scan of the receiver's class gives: its functions of
that name in the order of their declaration (`Schema.functionsNamed_eq_filter`), and its
one property of that name (`Schema.property?_eq_find?`). In terms of the declarations
these are `Schema.mem_functionsNamed_iff` and `Schema.property?_eq_some_iff`.
-/

namespace Declarative

namespace Schema

/-! ## Filling an index -/

namespace Index

/-- Filing things under distinct keys, what is found under a key is what the one thing with it has made of
what was there before. -/
theorem get?_foldl_alter {α β : Type} (key : α → String) (content : α → Option β → β) (name : String)
    {things : List α} (hkeys : (things.map key).Nodup) : ∀ index : Index β,
    (things.foldl (fun index a => index.alter (key a) (content a)) index).get? name
      = ((things.find? (key · == name)).map (content · (index.get? name))).or (index.get? name) := by
  induction things with
  | nil => intro index; rfl
  | cons a things ih =>
      intro index
      rw [List.map_cons, List.nodup_cons] at hkeys
      rw [List.foldl_cons, ih hkeys.2, get?_alter, List.find?_cons]
      by_cases hname : name = key a
      · subst hname
        have hnone : things.find? (key · == key a) = none :=
          List.find?_eq_none.mpr fun b hb hba =>
            hkeys.1 (List.mem_map.mpr ⟨b, hb, by simpa using hba⟩)
        simp [hnone]
      · have hkey : (key a == name) = false := by simpa using Ne.symm hname
        simp [hname, hkey]

theorem get?_foldl_insert {α β : Type} (key : α → String) (content : α → β) (name : String)
    {things : List α} (hkeys : (things.map key).Nodup) (index : Index β) :
    (things.foldl (fun index a => index.insert (key a) (content a)) index).get? name
      = ((things.find? (key · == name)).map content).or (index.get? name) :=
  get?_foldl_alter key (fun a _ => content a) name hkeys index

/-- What is found in a list of entries is the entry of the first thing with the key. -/
theorem get?_map {α β : Type} (key : α → String) (content : α → β) (name : String)
    (things : List α) : get? (things.map fun a => (key a, content a)) name
      = (things.find? (key · == name)).map content := by
  induction things with
  | nil => rfl
  | cons a things ih =>
      rw [List.map_cons, get?, List.find?_cons, ih]
      by_cases hname : key a = name
      · simp [hname]
      · have hkey : (key a == name) = false := by simpa using hname
        simp [Ne.symm hname, hkey]

end Index

namespace DataClass

/-- The functions of a name are filed in the order of their declaration, behind what was there before. -/
theorem getD_get?_fileFunctions (c : DataClass) (name : String) (index : Index (List Function)) :
    ((c.fileFunctions index).get? name).getD []
      = (index.get? name).getD [] ++ c.functions.filter (·.name == name) := by
  rw [fileFunctions]
  induction c.functions generalizing index with
  | nil => simp
  | cons f functions ih =>
      rw [List.foldl_cons, ih, Index.get?_alter]
      by_cases hname : name = f.name
      · subst hname
        simp
      · simp [hname, Ne.symm hname]

theorem get?_fileProperties {c : DataClass} (hnames : (c.properties.map (·.name)).Nodup)
    (name : String) : (c.fileProperties []).get? name = c.properties.find? (·.name == name) := by
  have hfilled := Index.get?_foldl_insert Property.name id name hnames []
  simpa [fileProperties, Index.get?] using hfilled

end DataClass

/-- The first thing with a key is the only one if keys are distinct. -/
theorem find?_key_eq_some_iff {α : Type} {key : α → String} {things : List α}
    (hkeys : (things.map key).Nodup) {name : String} {a : α} :
    things.find? (key · == name) = some a ↔ a ∈ things ∧ key a = name := by
  constructor
  · intro h
    exact ⟨List.mem_of_find?_eq_some h, by simpa using List.find?_some h⟩
  · rintro ⟨ha, rfl⟩
    cases h : things.find? (key · == key a) with
    | none => exact absurd ha (by simpa using List.find?_eq_none.mp h a)
    | some b =>
        have hb : b ∈ things := List.mem_of_find?_eq_some h
        have hkey : key b = key a := by simpa using List.find?_some h
        rw [List.inj_on_of_nodup_map hkeys hb ha hkey]

/-- What is found under a key is what the things with this key hold. -/
theorem mem_getD_find?_key_iff {α β : Type} {key : α → String} {things : List α}
    (hkeys : (things.map key).Nodup) {content : α → List β} {name : String} {b : β} :
    b ∈ ((things.find? (key · == name)).map content).getD []
      ↔ ∃ a ∈ things, key a = name ∧ b ∈ content a := by
  constructor
  · intro h
    cases hfind : things.find? (key · == name) with
    | none => simp [hfind] at h
    | some a =>
        obtain ⟨ha, hname⟩ := (find?_key_eq_some_iff hkeys).mp hfind
        rw [hfind] at h
        exact ⟨a, ha, hname, h⟩
  · rintro ⟨a, ha, hname, hb⟩
    rw [(find?_key_eq_some_iff hkeys).mpr ⟨ha, hname⟩]
    exact hb

/-! ## The members of a built schema -/

section

variable {b : Builder} {s : Schema} (hb : b.build = .ok s)

include hb

theorem checked_of_build : Checked s.classes := by
  obtain ⟨hchecked, rfl⟩ := Builder.build_eq_ok hb
  exact hchecked

theorem dataClass?_eq_find? (name : String) :
    s.dataClass? name = s.classes.find? (·.name == name) := by
  obtain ⟨hchecked, rfl⟩ := Builder.build_eq_ok hb
  have hfilled := Index.get?_foldl_insert DataClass.name id name hchecked.names []
  simpa [dataClass?, ofClasses, Index.get?] using hfilled

theorem functionsNamed_eq_filter (receiver name : String) :
    s.functionsNamed receiver name
      = ((s.classes.find? (·.name == receiver)).map
          fun c => c.functions.filter (·.name == name)).getD [] := by
  obtain ⟨hchecked, rfl⟩ := Builder.build_eq_ok hb
  rw [functionsNamed, ofClasses,
    Index.get?_foldl_alter DataClass.name (fun c known => c.fileFunctions (known.getD [])) receiver
      hchecked.names]
  cases h : b.classes.find? (·.name == receiver) with
  | none => simp [Index.get?]
  | some c => simp [Index.get?, DataClass.getD_get?_fileFunctions]

theorem property?_eq_find? (receiver name : String) :
    s.property? receiver name
      = (s.classes.find? (·.name == receiver)).bind
          fun c => c.properties.find? (·.name == name) := by
  obtain ⟨hchecked, rfl⟩ := Builder.build_eq_ok hb
  rw [property?, ofClasses,
    Index.get?_foldl_alter DataClass.name (fun c known => c.fileProperties (known.getD [])) receiver
      hchecked.names]
  cases h : b.classes.find? (·.name == receiver) with
  | none => simp [Index.get?]
  | some c =>
      have hc : c ∈ b.classes := List.mem_of_find?_eq_some h
      simp [Index.get?, DataClass.get?_fileProperties (hchecked.properties c hc)]

theorem mem_functionsNamed_iff {receiver name : String} {f : Function} :
    f ∈ s.functionsNamed receiver name ↔ s.Declares receiver f ∧ f.name = name := by
  rw [functionsNamed_eq_filter hb, mem_getD_find?_key_iff (checked_of_build hb).names, Declares]
  simp only [List.mem_filter, beq_iff_eq]
  constructor
  · rintro ⟨c, hc, hreceiver, hf, hname⟩
    exact ⟨⟨c, hc, hreceiver, hf⟩, hname⟩
  · rintro ⟨⟨c, hc, hreceiver, hf⟩, hname⟩
    exact ⟨c, hc, hreceiver, hf, hname⟩

theorem property?_eq_some_iff {receiver name : String} {p : Property} :
    s.property? receiver name = some p ↔ s.DeclaresProperty receiver p ∧ p.name = name := by
  rw [property?_eq_find? hb, Option.bind_eq_some_iff, DeclaresProperty]
  constructor
  · rintro ⟨c, hfind, hp⟩
    obtain ⟨hc, hname⟩ := (find?_key_eq_some_iff (checked_of_build hb).names).mp hfind
    obtain ⟨hmem, hpname⟩ :=
      (find?_key_eq_some_iff ((checked_of_build hb).properties c hc)).mp hp
    exact ⟨⟨c, hc, hname, hmem⟩, hpname⟩
  · rintro ⟨⟨c, hc, hname, hp⟩, hpname⟩
    exact ⟨c, (find?_key_eq_some_iff (checked_of_build hb).names).mpr ⟨hc, hname⟩,
      (find?_key_eq_some_iff ((checked_of_build hb).properties c hc)).mpr ⟨hp, hpname⟩⟩

/-- Overloads of a name differ in the types of their parameters. -/
theorem nodup_parameters_functionsNamed (receiver name : String) :
    ((s.functionsNamed receiver name).map (·.parameters)).Nodup := by
  rw [functionsNamed_eq_filter hb]
  cases hfind : s.classes.find? (·.name == receiver) with
  | none => simp
  | some c =>
      have hc : c ∈ s.classes := List.mem_of_find?_eq_some hfind
      have hfunctions := (checked_of_build hb).functions c hc
      rw [Option.map_some, Option.getD_some, List.nodup_map_iff_inj_on]
      · intro f hf g hg hparameters
        rw [List.mem_filter, beq_iff_eq] at hf hg
        exact List.inj_on_of_nodup_map hfunctions hf.1 hg.1
          (by rw [hf.2, hg.2, hparameters])
      · exact hfunctions.of_map.filter _

end

end Schema

end Declarative
