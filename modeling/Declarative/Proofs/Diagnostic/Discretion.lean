import Declarative.Proofs.Closest
import Declarative.Proofs.Diagnostic.Walk
import Declarative.Proofs.Schema.Lookup

/-!
# What help gives away

Hidden properties can be assigned, but no author is told of them. Where an assignment fails in a block
of a receiver (`Resolved.Holds`), the help of its diagnostic names properties that the receiver
declares and does not hide, and no name of a hidden one is among these, since the properties of a
class of a built schema have distinct names (`Resolved.discreet_of_mem_diagnostics`). The
diagnostics of calls are told from those of assignments by their messages.
-/

namespace Declarative

namespace Schema

/-- The receiver declares a property of the name, and hides none of that name. -/
structure Shows (s : Schema) (receiver name : String) : Prop where
  declared : ∃ p, s.DeclaresProperty receiver p ∧ p.name = name
  not_hidden : ∀ p, s.DeclaresProperty receiver p → p.name = name → p.hidden = false

/-- What may be told of a receiver is what it shows. -/
theorem shows_of_mem_visibleProperties {b : Builder} {s : Schema} (hb : b.build = .ok s)
    {receiver : String} {p : Property} (h : p ∈ s.visibleProperties receiver) :
    s.Shows receiver p.name := by
  rw [visibleProperties, dataClass?_eq_find? hb] at h
  cases hfind : s.classes.find? (·.name == receiver) with
  | none => simp [hfind] at h
  | some c =>
      obtain ⟨hc, hname⟩ := (find?_key_eq_some_iff (checked_of_build hb).names).mp hfind
      simp only [hfind, List.mem_filter, Bool.not_eq_eq_eq_not, Bool.not_true] at h
      have hdeclared : s.DeclaresProperty receiver p := ⟨c, hc, hname, h.1⟩
      refine ⟨⟨p, hdeclared, rfl⟩, fun q hq hqname => ?_⟩
      -- the receiver has one property of the name
      have hfound := (property?_eq_some_iff hb).mpr ⟨hdeclared, rfl⟩
      rw [(property?_eq_some_iff hb).mpr ⟨hq, hqname⟩] at hfound
      exact Option.some.inj hfound ▸ h.2

end Schema

/-! ## Help -/

namespace Diagnostic

/-- What help there is names no properties but those that the receiver shows. -/
inductive Discreet (s : Schema) : (receiver : Option String) → Diagnostic → Prop where
  | silent {receiver d} (h : d.help = none) : Discreet s receiver d
  | suggested {receiver d place name} (hname : s.Shows receiver name)
      (h : d.help = some ⟨Suggestion.question name, some ⟨place, name⟩⟩) :
      Discreet s (some receiver) d
  | listed {receiver d names} (hnames : ∀ name ∈ names, s.Shows receiver name)
      (h : d.help = some
        ⟨"`" ++ receiver ++ "` has properties: " ++ ", ".intercalate names, none⟩) :
      Discreet s (some receiver) d

namespace Discreet

variable {s : Schema} {receiver : Option String} {d e : Diagnostic}

theorem of_help_eq (h : Discreet s receiver d) (hhelp : e.help = d.help) :
    Discreet s receiver e := by
  cases h with
  | silent h => exact .silent (hhelp.trans h)
  | suggested hname h => exact .suggested hname (hhelp.trans h)
  | listed hnames h => exact .listed hnames (hhelp.trans h)

theorem orElse (hd : Discreet s receiver d) (condition : Bool) (he : Discreet s receiver e) :
    Discreet s receiver (if condition then d else e) := by
  split
  · exact hd
  · exact he

theorem noteIf (h : Discreet s receiver d) (condition : Bool) (note : String) :
    Discreet s receiver (if condition then d.withNote note else d) :=
  (h.of_help_eq (e := d.withNote note) rfl).orElse condition h

end Discreet

end Diagnostic

namespace Resolved

open Diagnostic

section

variable {b : Schema.Builder} {s : Schema} (hb : b.build = .ok s)

include hb

theorem discreet_propertyHelp {receiver : String} (name : String) (place : Span) {d : Diagnostic}
    (hhelp : d.help = none) :
    Discreet s (some receiver) (propertyHelp s receiver name place d) := by
  have hshows : ∀ shown ∈ (s.visibleProperties receiver).map (·.name), s.Shows receiver shown := by
    intro shown hshown
    obtain ⟨p, hp, rfl⟩ := List.mem_map.mp hshown
    exact Schema.shows_of_mem_visibleProperties hb hp
  unfold propertyHelp
  dsimp only
  split
  · rename_i closest hclosest
    exact .suggested (hshows closest (Suggestion.mem_of_closest? hclosest)) rfl
  · exact .silent hhelp
  · exact .listed hshows rfl

/-- Nothing is added to the help by the notes behind it. -/
theorem discreet_propertyDiagnostic (receiver : Option String) (name : String) (span value : Span)
    (reasons : ReasonSet) :
    Discreet s receiver (propertyDiagnostic s receiver name span value reasons) := by
  unfold propertyDiagnostic
  refine Discreet.noteIf (.noteIf ?_ _ _) _ _
  cases receiver with
  | none => exact .silent rfl
  | some receiver =>
      dsimp only [Option.bind_some]
      split
      · exact Discreet.noteIf (.orElse (discreet_propertyHelp hb name _ rfl) _ (.silent rfl)) _ _
      · exact .orElse (discreet_propertyHelp hb name _ rfl) _ (.silent rfl)

end

/-! ## The walk to failed assignments -/

/-- The node is one of these, which stand in a block of the receiver, or is inside of one of them, in a
block that has some receiver of its own, or none. -/
inductive Holds : Option String → List Node → Option String → Node → Prop where
  | here {receiver nodes node} (h : node ∈ nodes) : Holds receiver nodes receiver node
  | inside {receiver nodes name values content origin resolution inner node}
      (h : .element name values content origin resolution ∈ nodes)
      (hinner : Holds (blockReceiver? resolution) content inner node) :
      Holds receiver nodes inner node

theorem Holds.tail {receiver inner : Option String} {first node : Node} {nodes : List Node}
    (h : Holds receiver nodes inner node) : Holds receiver (first :: nodes) inner node := by
  cases h with
  | here h => exact .here (List.mem_cons_of_mem _ h)
  | inside h hinner => exact .inside (List.mem_cons_of_mem _ h) hinner

/-- The diagnostic says that some assignment has failed. -/
def OfAssignment (d : Diagnostic) : Prop :=
  ∃ name, d.message = "cannot assign property `" ++ name ++ "`"

theorem not_ofAssignment_elementDiagnostic (s : Schema) (receiver : Option String) (name : String)
    (span : Span) (reasons : ReasonSet) :
    ¬OfAssignment (elementDiagnostic s receiver name span reasons) := by
  rintro ⟨other, h⟩
  rw [(opening_elementDiagnostic s receiver name span reasons (List.mem_singleton_self _)).message]
    at h
  have hstart := congrArg (fun text : String => text.toList.take 8) h
  simp [opening, failureDiagnostic, withPrimary, withLabel, withCode, Diagnostic.new] at hstart

theorem not_ofAssignment_factoryDiagnostic (s : Schema) (receiver : Option String) (name : String)
    (span : Span) (reasons : ReasonSet) :
    ¬OfAssignment (factoryDiagnostic s receiver name span reasons) := by
  rintro ⟨other, h⟩
  rw [(opening_factoryDiagnostic s receiver name span reasons (List.mem_singleton_self _)).message]
    at h
  have hstart := congrArg (fun text : String => text.toList.take 8) h
  simp [opening, failureDiagnostic, withPrimary, withLabel, withCode, Diagnostic.new] at hstart

variable (s : Schema)

mutual

theorem Value.not_ofAssignment_of_mem (receiver : Option String) : ∀ value : Value,
    ∀ d ∈ value.diagnostics s receiver, ¬OfAssignment d
  | .literal _ _ _ => List.forall_mem_nil _
  | .factory name values origin resolution => by
      rw [Value.diagnostics.eq_def, List.forall_mem_append]
      refine ⟨?_, Value.not_ofAssignment_of_mem_all receiver values⟩
      cases resolution with
      | resolved f => exact List.forall_mem_nil _
      | failed reasons =>
          exact List.forall_mem_singleton.mpr (not_ofAssignment_factoryDiagnostic _ _ _ _ _)

theorem Value.not_ofAssignment_of_mem_all (receiver : Option String) : ∀ values : List Value,
    ∀ d ∈ Value.diagnosticsOfAll s receiver values, ¬OfAssignment d
  | [] => List.forall_mem_nil _
  | value :: values => by
      rw [Value.diagnosticsOfAll, List.forall_mem_append]
      exact ⟨Value.not_ofAssignment_of_mem receiver value,
        Value.not_ofAssignment_of_mem_all receiver values⟩

end

/-- The diagnostic is that of a failed assignment among the nodes or inside of them. -/
def Blames (s : Schema) (receiver : Option String) (nodes : List Node) (d : Diagnostic) : Prop :=
  ∃ inner name value origin reasons,
    Holds receiver nodes inner (.property name value origin (.failed reasons))
      ∧ d = propertyDiagnostic s inner name origin.span value.origin.span reasons

mutual

theorem Node.blames_of_mem : ∀ (receiver : Option String) (node : Node) (d : Diagnostic),
    d ∈ node.diagnostics s receiver → OfAssignment d → Blames s receiver [node] d
  | receiver, .element name values content origin resolution, d, hd, hassignment => by
      rw [Node.diagnostics.eq_def, List.mem_append, List.mem_append] at hd
      rcases hd with (hvalue | hown) | hinner
      · exact absurd hassignment (Value.not_ofAssignment_of_mem_all s receiver values d hvalue)
      · cases resolution with
        | failed reasons =>
            obtain rfl := List.mem_singleton.mp hown
            exact absurd hassignment (not_ofAssignment_elementDiagnostic _ _ _ _ _)
        | _ => cases hown
      · obtain ⟨inner, other, value, place, reasons, hholds, rfl⟩ :=
          Node.blames_of_mem_all _ content d hinner hassignment
        exact ⟨inner, other, value, place, reasons,
          .inside (List.mem_singleton_self _) hholds, rfl⟩
  | receiver, .property name value origin resolution, d, hd, hassignment => by
      rw [Node.diagnostics.eq_def, List.mem_append] at hd
      rcases hd with hown | hvalue
      · cases resolution with
        | failed reasons =>
            obtain rfl := List.mem_singleton.mp hown
            exact ⟨receiver, name, value, origin, reasons, .here (List.mem_singleton_self _), rfl⟩
        | assigned target p => cases hown
      · exact absurd hassignment (Value.not_ofAssignment_of_mem s receiver value d hvalue)
  | _, .error _ _, _, hd, _ => by cases hd

theorem Node.blames_of_mem_all : ∀ (receiver : Option String) (nodes : List Node) (d : Diagnostic),
    d ∈ Node.diagnosticsOfAll s receiver nodes → OfAssignment d → Blames s receiver nodes d
  | _, [], _, hd, _ => by cases hd
  | receiver, node :: nodes, d, hd, hassignment => by
      rw [Node.diagnosticsOfAll, List.mem_append] at hd
      rcases hd with hd | hd
      · obtain ⟨inner, name, value, origin, reasons, hholds, rfl⟩ :=
          Node.blames_of_mem receiver node d hd hassignment
        refine ⟨inner, name, value, origin, reasons, ?_, rfl⟩
        cases hholds with
        | here h =>
            obtain rfl := List.mem_singleton.mp h
            exact .here (List.mem_cons_self ..)
        | inside h hinner =>
            obtain rfl := List.mem_singleton.mp h
            exact .inside (List.mem_cons_self ..) hinner
      · obtain ⟨inner, name, value, origin, reasons, hholds, rfl⟩ :=
          Node.blames_of_mem_all receiver nodes d hd hassignment
        exact ⟨inner, name, value, origin, reasons, hholds.tail, rfl⟩

end

end Resolved

/-- Whatever the document is, no help for its failed assignments tells of a property that is hidden by
the receiver of their block. -/
theorem ResolvedDocument.discreet_of_mem_diagnostics {b : Schema.Builder} {s : Schema}
    (hb : b.build = .ok s) (document : ResolvedDocument) {d : Diagnostic}
    (hd : d ∈ document.diagnostics s) (hassignment : Resolved.OfAssignment d) :
    ∃ receiver name value origin reasons,
      Resolved.Holds (some s.topLevel) document.content receiver
          (.property name value origin (.failed reasons))
        ∧ d = Resolved.propertyDiagnostic s receiver name origin.span value.origin.span reasons
        ∧ Diagnostic.Discreet s receiver d := by
  obtain ⟨receiver, name, value, origin, reasons, hholds, rfl⟩ :=
    Resolved.Node.blames_of_mem_all s _ document.content d hd hassignment
  exact ⟨receiver, name, value, origin, reasons, hholds, rfl,
    Resolved.discreet_propertyDiagnostic hb ..⟩

end Declarative
