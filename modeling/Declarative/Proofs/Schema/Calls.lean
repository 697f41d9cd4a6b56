import Mathlib.Data.List.Forall2
import Declarative.Proofs.Schema.Reordering
import Declarative.Schema.Declaration

/-!
# Builders by calls

A builder is made by calls: classes are declared one after the other, each with its members
(`Builder.ofCalls`). Within a class only the order of members of the same kind counts
(`DataClass.ofMembers_eq_of_interleaved`), so the calls for supertypes, properties and functions
can be mixed in any way.

A declaration comes down to such calls (`Declaration.calls`), and building it is building with
them. For each kind of function there is a call that works out what the function returns. That
for configuring functions takes no parameters, while one that is declared may have some; it is
added as it stands then, and no calls of the three kinds add it
(`Declaration.settings_not_called`).
-/

namespace Declarative

namespace Schema

/-! ## Members by their kinds -/

namespace Member

/-- The three kinds of members. -/
inductive Group where
  | supertypes
  | properties
  | functions
  deriving DecidableEq, Repr

def group : Member → Group
  | supertype _ => .supertypes
  | property .. => .properties
  | function .. => .functions

/-- The same calls, mixed in two ways: those of each kind are the same, in the same order. -/
def Interleaved (members others : List Member) : Prop :=
  ∀ group, members.filter (·.group = group) = others.filter (·.group = group)

def supertype? : Member → Option String
  | supertype name => some name
  | _ => none

def property? (owner : String) : Member → Option Property
  | property name type hidden readOnly => some ⟨owner, name, type, hidden, readOnly⟩
  | _ => none

def function? (receiver : String) : Member → Option Function
  | function name parameters returns semantics =>
    some ⟨receiver, name, parameters, returns, semantics⟩
  | _ => none

/-- What is made of calls of one kind does not depend on the others. -/
theorem Interleaved.filterMap_eq {α : Type} {members others : List Member}
    (h : Interleaved members others) (group : Group) (f : Member → Option α)
    (hf : ∀ m, m.group ≠ group → f m = none) : members.filterMap f = others.filterMap f := by
  have honly : ∀ calls : List Member,
      (calls.filter (·.group = group)).filterMap f = calls.filterMap f := by
    intro calls
    rw [List.filterMap_filter]
    refine List.filterMap_congr fun m _ => ?_
    by_cases hgroup : m.group = group
    · simp [hgroup]
    · simp [hgroup, hf m hgroup]
  rw [← honly members, h group, honly]

end Member

namespace DataClass

theorem foldl_declare (members : List Member) : ∀ c : DataClass,
    members.foldl declare c = ⟨c.name, c.supertypes ++ members.filterMap Member.supertype?,
      c.properties ++ members.filterMap (Member.property? c.name),
      c.functions ++ members.filterMap (Member.function? c.name)⟩ := by
  induction members with
  | nil => simp
  | cons m members ih =>
      intro c
      rw [List.foldl_cons, ih]
      cases m <;>
        simp [declare, List.filterMap_cons, Member.supertype?, Member.property?, Member.function?]

theorem ofMembers_eq (name : String) (members : List Member) :
    ofMembers name members = ⟨name, members.filterMap Member.supertype?,
      members.filterMap (Member.property? name), members.filterMap (Member.function? name)⟩ := by
  rw [ofMembers, foldl_declare]
  rfl

theorem ofMembers_eq_of_interleaved {members others : List Member}
    (h : Member.Interleaved members others) (name : String) :
    ofMembers name members = ofMembers name others := by
  have hsupertypes := h.filterMap_eq .supertypes Member.supertype? (by
    intro m hm
    cases m with
    | supertype => exact absurd rfl hm
    | property | function => rfl)
  have hproperties := h.filterMap_eq .properties (Member.property? name) (by
    intro m hm
    cases m with
    | property => exact absurd rfl hm
    | supertype | function => rfl)
  have hfunctions := h.filterMap_eq .functions (Member.function? name) (by
    intro m hm
    cases m with
    | function => exact absurd rfl hm
    | supertype | property => rfl)
  rw [ofMembers_eq, ofMembers_eq, hsupertypes, hproperties, hfunctions]

end DataClass

/-! ## Builders -/

namespace Builder

/-- The builder that the calls make, class by class and member by member. -/
def ofCalls (topLevel : String) (classes : List (String × List Member)) : Builder :=
  classes.foldl (fun b c => b.declare c.1 c.2) (empty topLevel)

theorem foldl_declare (classes : List (String × List Member)) : ∀ b : Builder,
    classes.foldl (fun b c => b.declare c.1 c.2) b
      = ⟨b.topLevel, b.classes ++ classes.map fun c => DataClass.ofMembers c.1 c.2⟩ := by
  induction classes with
  | nil => simp
  | cons c classes ih =>
      intro b
      rw [List.foldl_cons, ih]
      simp [declare]

theorem ofCalls_eq (topLevel : String) (classes : List (String × List Member)) :
    ofCalls topLevel classes
      = ⟨topLevel, classes.map fun c => DataClass.ofMembers c.1 c.2⟩ := by
  rw [ofCalls, foldl_declare]
  rfl

/-- The same classes in the same order, each with the same calls mixed in two ways. -/
def Interleaved (classes others : List (String × List Member)) : Prop :=
  List.Forall₂ (fun c other => c.1 = other.1 ∧ Member.Interleaved c.2 other.2) classes others

theorem ofCalls_eq_of_interleaved {classes others : List (String × List Member)}
    (h : Interleaved classes others) (topLevel : String) :
    ofCalls topLevel classes = ofCalls topLevel others := by
  rw [ofCalls_eq, ofCalls_eq]
  congr 1
  induction h with
  | nil => rfl
  | @cons c other _ _ hfirst _ ih =>
      rw [List.map_cons, List.map_cons, ih, hfirst.1,
        DataClass.ofMembers_eq_of_interleaved hfirst.2]

end Builder

/-! ## Declarations -/

/-- The call for a function: that for its kind, unless it configures and has parameters. -/
def FunctionDeclaration.call (f : FunctionDeclaration) : Member :=
  match f.semantics with
  | .adding produces block => .adding f.name (f.parameters.map .ofText) produces block
  | .configuring configures =>
    if f.parameters = [] then .configuring f.name configures
    else .function f.name (f.parameters.map .ofText) .unit (.configuring configures)
  | .plain returns => .factory f.name (f.parameters.map .ofText) (.ofText returns)

theorem FunctionDeclaration.member_eq_call (f : FunctionDeclaration) : f.member = f.call := by
  obtain ⟨name, parameters, semantics⟩ := f
  cases semantics with
  | adding produces block => rfl
  | plain returns => rfl
  | configuring configures =>
      cases parameters with
      | nil => rfl
      | cons first others => rfl

/-- The calls for a class: supertypes, then properties, then functions. -/
def ClassDeclaration.calls (c : ClassDeclaration) : List Member :=
  c.supertypes.map .supertype
    ++ c.properties.map (fun p => .property p.name (.ofText p.type) p.hidden p.readOnly)
    ++ c.functions.map FunctionDeclaration.call

theorem ClassDeclaration.members_eq_calls (c : ClassDeclaration) : c.members = c.calls := by
  have hfunctions : c.functions.map FunctionDeclaration.member
      = c.functions.map FunctionDeclaration.call :=
    List.map_congr_left fun f _ => f.member_eq_call
  rw [members, calls, hfunctions]
  rfl

/-- Calls that name what they declare: supertypes, properties, and functions by their kind. -/
inductive Member.OfKind : Member → Prop where
  | supertype {name} : OfKind (.supertype name)
  | property {name type hidden readOnly} : OfKind (.property name type hidden readOnly)
  | adding {name parameters produced block} : OfKind (.adding name parameters produced block)
  | configuring {name configured} : OfKind (.configuring name configured)
  | factory {name parameters returns} : OfKind (.factory name parameters returns)

namespace Declaration

def calls (d : Declaration) : List (String × List Member) :=
  d.classes.map fun c => (c.name, c.calls)

theorem toBuilder_eq_ofCalls (d : Declaration) : d.toBuilder = Builder.ofCalls d.topLevel d.calls := by
  rw [toBuilder, Builder.ofCalls, calls, List.foldl_map]
  simp only [ClassDeclaration.members_eq_calls]

/-- **A declaration is another way to a builder**: what it builds is what its calls build, mixed in
any way. Neither way nor mixture makes a difference for the schema or for what is wrong. -/
theorem build_eq_of_interleaved :
    (∀ (d : Declaration) (classes : List (String × List Member)),
        Builder.Interleaved d.calls classes → d.build = (Builder.ofCalls d.topLevel classes).build)
      ∧ ∀ (topLevel : String) (classes others : List (String × List Member)),
          Builder.Interleaved classes others →
            (Builder.ofCalls topLevel classes).build = (Builder.ofCalls topLevel others).build := by
  refine ⟨fun d classes h => ?_, fun topLevel classes others h => ?_⟩
  · rw [build, toBuilder_eq_ofCalls, Builder.ofCalls_eq_of_interleaved h]
  · rw [Builder.ofCalls_eq_of_interleaved h]

/-- Three functions and two properties, declared and by calls in another mixture. -/
theorem build_eq_of_interleaved_bed :
    let d : Declaration := ⟨"Garden", [
      ⟨"Garden", ["Place"], [⟨"name", "String", false, false⟩, ⟨"size", "Int", true, true⟩],
        [⟨"bed", ["String"], .adding "Bed" .required⟩, ⟨"soil", ["Int"], .configuring "Bed"⟩,
          ⟨"plant", [], .plain "Long"⟩]⟩,
      ⟨"Bed", [], [], []⟩, ⟨"Place", [], [], []⟩]⟩
    let classes : List (String × List Member) := [
      ("Garden", [.adding "bed" [.string] "Bed" .required, .property "name" .string false false,
        .function "soil" [.int] .unit (.configuring "Bed"), .supertype "Place",
        .factory "plant" [] .long, .property "size" .int true true]),
      ("Bed", []), ("Place", [])]
    Builder.Interleaved d.calls classes ∧ d.build = (Builder.ofCalls d.topLevel classes).build
      ∧ (∃ s, d.build = .ok s) := by
  intro d classes
  have hinterleaved : Builder.Interleaved d.calls classes := by
    refine .cons ⟨rfl, ?_⟩ (.cons ⟨rfl, fun _ => rfl⟩ (.cons ⟨rfl, fun _ => rfl⟩ .nil))
    intro group
    cases group <;> rfl
  exact ⟨hinterleaved, build_eq_of_interleaved.1 d classes hinterleaved, ⟨_, rfl⟩⟩

/-- The garden has settings by name. A call for configuring functions has no place for the name, so no
such calls build this schema. -/
theorem settings_not_called :
    let d : Declaration :=
      ⟨"Garden", [⟨"Garden", [], [], [⟨"settings", ["String"], .configuring "Garden"⟩]⟩]⟩
    (∃ s, d.build = .ok s)
      ∧ ¬∃ classes : List (String × List Member), (∀ c ∈ classes, ∀ m ∈ c.2, m.OfKind)
          ∧ d.build = (Builder.ofCalls d.topLevel classes).build := by
  intro d
  have hbuild : ∃ s, d.build = .ok s := ⟨_, rfl⟩
  refine ⟨hbuild, ?_⟩
  rintro ⟨classes, hkinds, hsame⟩
  obtain ⟨s, hs⟩ := hbuild
  have hclasses : d.toBuilder.classes = classes.map fun c => DataClass.ofMembers c.1 c.2 := by
    have hcalled : (Builder.ofCalls d.topLevel classes).build = .ok s := hsame ▸ hs
    rw [Builder.ofCalls_eq] at hcalled
    exact (classes_of_build (b := d.toBuilder) hs).symm.trans (classes_of_build hcalled)
  have hgarden : DataClass.ofMembers "Garden"
      [.function "settings" [.string] .unit (.configuring "Garden")]
        ∈ classes.map fun c => DataClass.ofMembers c.1 c.2 := by
    rw [← hclasses]
    exact List.mem_singleton_self _
  obtain ⟨c, hc, hmembers⟩ := List.mem_map.mp hgarden
  rw [DataClass.ofMembers_eq, DataClass.ofMembers_eq, DataClass.mk.injEq] at hmembers
  have hsettings : (⟨"Garden", "settings", [.string], .unit, .configuring "Garden"⟩ : Function)
      ∈ c.2.filterMap (Member.function? c.1) := by
    rw [hmembers.2.2.2]
    exact List.mem_singleton_self _
  obtain ⟨m, hm, hfunction⟩ := List.mem_filterMap.mp hsettings
  cases hkinds c hc m hm <;> simp [Member.function?, Member.adding, Member.configuring,
    Member.factory] at hfunction

end Declaration

end Schema

end Declarative
