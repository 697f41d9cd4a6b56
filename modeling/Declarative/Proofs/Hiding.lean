import Declarative.Proofs.DeclarationOrder
import Declarative.Proofs.Diagnostic.Discretion

/-!
# Hiding properties

Two schemas that differ in nothing but which properties they hide are the same once nothing is
hidden (`Schema.unhidden`); if they are built, that is so just where their declarations differ in
nothing else (`Schema.Builder.unhidden_eq_iff`). They have the same functions and the same subtypes,
and where one has a property the other has that property, hidden or not. No outcome depends on the
difference: a script has the same trace with both, but for the flags of the properties that were
assigned (`Schema.resolve_unhidden_eq`), and no line that is rendered shows these. What does depend
on it is the help for assignments, and there a hidden property is never named.
-/

namespace Declarative

/-! ## Schemas without the flags -/

namespace Schema

def Property.unhidden (p : Property) : Property := { p with hidden := false }

def DataClass.unhidden (c : DataClass) : DataClass :=
  { c with properties := c.properties.map Property.unhidden }

/-- The same keys with other things filed under them. -/
def Index.mapContents {α β : Type} (f : α → β) (index : Index α) : Index β :=
  index.map fun entry => (entry.1, f entry.2)

theorem Index.get?_mapContents {α β : Type} (f : α → β) (index : Index α) (key : String) :
    (index.mapContents f).get? key = (index.get? key).map f := by
  induction index with
  | nil => rfl
  | cons entry index ih =>
      rw [mapContents, List.map_cons, get?, get?]
      split
      · rfl
      · exact ih

/-- The schema with the same declarations, in which no property is hidden. -/
def unhidden (s : Schema) : Schema :=
  { s with
    classes := s.classes.map DataClass.unhidden
    classIndex := s.classIndex.mapContents DataClass.unhidden
    propertyIndex := s.propertyIndex.mapContents (Index.mapContents Property.unhidden) }

/-! ## Declarations without the flags -/

theorem Index.mapContents_alter {α β : Type} (f : α → β) {g : Option α → α} {g' : Option β → β}
    (hg : ∀ known, f (g known) = g' (known.map f)) (index : Index α) (key : String) :
    (index.alter key g).mapContents f = (index.mapContents f).alter key g' := by
  induction index with
  | nil => exact congrArg (fun content => [(key, content)]) (hg none)
  | cons entry index ih =>
      simp only [mapContents, alter, List.map_cons] at ih ⊢
      split
      · rw [List.map_cons, hg, Option.map_some]
      · rw [List.map_cons, ih]

/-- To file and then to change what is filed is to file what has been changed. -/
theorem Index.mapContents_foldl_alter {α γ : Type} (f : α → α) (g : γ → γ) (key : γ → String)
    (content : γ → Option α → α) (hkey : ∀ c, key (g c) = key c)
    (hcontent : ∀ c known, f (content c known) = content (g c) (known.map f)) (cs : List γ) :
    ∀ index : Index α,
      (cs.foldl (fun index c => index.alter (key c) (content c)) index).mapContents f
        = (cs.map g).foldl (fun index c => index.alter (key c) (content c)) (index.mapContents f) := by
  induction cs with
  | nil => exact fun _ => rfl
  | cons c cs ih =>
      intro index
      rw [List.map_cons, List.foldl_cons, List.foldl_cons, ih,
        mapContents_alter f (hcontent c) index (key c), hkey]

theorem DataClass.mapContents_fileProperties (c : DataClass) (index : Index Property) :
    (c.fileProperties index).mapContents Property.unhidden
      = c.unhidden.fileProperties (index.mapContents Property.unhidden) :=
  Index.mapContents_foldl_alter Property.unhidden Property.unhidden Property.name (fun p _ => p)
    (fun _ => rfl) (fun _ _ => rfl) c.properties index

/-- The indexes hold what the classes do. -/
theorem unhidden_ofClasses (topLevel : String) (classes : List DataClass)
    (supertypes : Index (List String)) :
    (ofClasses topLevel classes supertypes).unhidden
      = ofClasses topLevel (classes.map DataClass.unhidden) supertypes := by
  have hclasses : (ofClasses topLevel classes supertypes).classIndex.mapContents DataClass.unhidden
      = (ofClasses topLevel (classes.map DataClass.unhidden) supertypes).classIndex :=
    Index.mapContents_foldl_alter DataClass.unhidden DataClass.unhidden DataClass.name (fun c _ => c)
      (fun _ => rfl) (fun _ _ => rfl) classes []
  have hproperties : (ofClasses topLevel classes supertypes).propertyIndex.mapContents
        (Index.mapContents Property.unhidden)
      = (ofClasses topLevel (classes.map DataClass.unhidden) supertypes).propertyIndex :=
    Index.mapContents_foldl_alter _ DataClass.unhidden DataClass.name
      (fun c known => c.fileProperties (known.getD [])) (fun _ => rfl)
      (fun c known => by cases known <;> exact c.mapContents_fileProperties _) classes []
  have hfunctions : (ofClasses topLevel classes supertypes).functionIndex
      = (ofClasses topLevel (classes.map DataClass.unhidden) supertypes).functionIndex := by
    simp only [ofClasses, List.foldl_map]
    rfl
  rw [unhidden, hclasses, hproperties, hfunctions]
  rfl

theorem directSupertypes_unhidden (classes : List DataClass) :
    directSupertypes (classes.map DataClass.unhidden) = directSupertypes classes := by
  funext name
  have hfind : (classes.map DataClass.unhidden).find? (·.name == name)
      = (classes.find? (·.name == name)).map DataClass.unhidden := List.find?_map
  rw [directSupertypes, directSupertypes, hfind]
  cases classes.find? (·.name == name) <;> rfl

theorem allSupertypes?_unhidden (classes : List DataClass) (c : DataClass) :
    allSupertypes? (classes.map DataClass.unhidden) c.unhidden = allSupertypes? classes c := by
  rw [allSupertypes?, allSupertypes?, directSupertypes_unhidden, List.flatMap_map]
  rfl

/-- What is built does not depend on the flags but for the flags themselves. -/
theorem Builder.unhidden_of_build {b : Builder} {s : Schema} (hb : b.build = .ok s) :
    s.unhidden = ofClasses b.topLevel (b.classes.map DataClass.unhidden)
      ((b.classes.map DataClass.unhidden).map fun c =>
        (c.name, (allSupertypes? (b.classes.map DataClass.unhidden) c).getD [])) := by
  obtain ⟨-, rfl⟩ := Builder.build_eq_ok hb
  rw [unhidden_ofClasses, List.map_map]
  congr 1
  refine List.map_congr_left fun c _ => ?_
  rw [Function.comp_apply, allSupertypes?_unhidden]
  rfl

/-- Built schemas are the same with nothing hidden just where their declarations are. -/
theorem Builder.unhidden_eq_iff {a b : Builder} {s t : Schema} (ha : a.build = .ok s)
    (hb : b.build = .ok t) :
    s.unhidden = t.unhidden ↔ a.topLevel = b.topLevel
      ∧ a.classes.map DataClass.unhidden = b.classes.map DataClass.unhidden := by
  rw [Builder.unhidden_of_build ha, Builder.unhidden_of_build hb]
  constructor
  · intro h
    exact ⟨congrArg Schema.topLevel h, congrArg Schema.classes h⟩
  · rintro ⟨htop, hclasses⟩
    rw [htop, hclasses]

end Schema

/-! ## Traces without the flags -/

namespace Trace

def Entry.unhidden : Entry → Entry
  | .assignment (.resolved target) =>
    .assignment (.resolved { target with property := target.property.unhidden })
  | entry => entry

/-- The trace in which the properties that were assigned are not hidden. -/
def unhidden (trace : Trace) : Trace :=
  { trace with records := trace.records.map fun record => (record.1, record.2.unhidden) }

theorem unhidden_append (a b : Trace) : (a ++ b).unhidden = a.unhidden ++ b.unhidden :=
  (Trace.mk.injEq ..).mpr ⟨rfl, List.map_append⟩

theorem get?_unhidden (trace : Trace) (id : NodeId) :
    trace.unhidden.get? id = (trace.get? id).map Entry.unhidden := by
  simp only [get?, unhidden, List.findRev?_eq_find?_reverse, ← List.map_reverse, List.find?_map,
    Option.map_map]
  rfl

end Trace

/-! ## What the schema answers -/

namespace Schema

variable (s : Schema)

theorem property?_unhidden (receiver name : String) :
    s.unhidden.property? receiver name = (s.property? receiver name).map Property.unhidden := by
  rw [property?, property?, unhidden, Index.get?_mapContents]
  cases s.propertyIndex.get? receiver with
  | none => rfl
  | some index => exact Index.get?_mapContents _ index name

theorem isAssignable_unhidden : s.unhidden.isAssignable = s.isAssignable := rfl

theorem functionNames_unhidden : s.unhidden.functionNames = s.functionNames := by
  funext receiver
  rw [functionNames, functionNames, dataClass?, dataClass?, unhidden, Index.get?_mapContents]
  cases s.classIndex.get? receiver with
  | none => rfl
  | some c => rfl

end Schema

/-! ## Outcomes and traces -/

namespace Resolver

variable (s : Schema) (settings : Settings) (stack : ScopeStack)

/-- Calls look at functions and types alone. -/
theorem elementOutcome_unhidden : elementOutcome s.unhidden = elementOutcome s := rfl

theorem lookup_unhidden (name : String) :
    Option.Rel (Found.Alike fun p q => q = p.unhidden) (stack.lookup (s.property? · name))
      (stack.lookup (s.unhidden.property? · name)) := by
  refine ScopeStack.lookup_rel (fun receiver => ?_) stack
  rw [Schema.property?_unhidden]
  cases s.property? receiver name with
  | none => exact .none
  | some p => exact .some rfl

/-- Nothing that counts for an assignment is different where properties are hidden. -/
theorem assignment_unhidden (name : String) (type : Option DataType) :
    Trace.Entry.assignment (assignmentOutcome s.unhidden settings stack name type)
      = (Trace.Entry.assignment (assignmentOutcome s settings stack name type)).unhidden := by
  have hfound := lookup_unhidden s stack name
  cases hcurrent : stack.current with
  | unresolved =>
      simp only [assignmentOutcome, hcurrent]
      rfl
  | receiver current =>
      simp only [assignmentOutcome, hcurrent]
      generalize stack.lookup (s.property? · name) = found at hfound ⊢
      generalize stack.lookup (s.unhidden.property? · name) = found' at hfound ⊢
      cases hfound with
      | none => cases type <;> rfl
      | @some found found' hsame =>
          obtain ⟨member, receiver, isOuter⟩ := found
          obtain ⟨member', receiver', isOuter'⟩ := found'
          obtain ⟨rfl, rfl, rfl⟩ := hsame
          -- the reasons against it are the same ones
          cases type with
          | none =>
              dsimp only [Schema.Property.unhidden]
              generalize ReasonSet.ofList _ = reasons
              cases reasons.isEmpty <;> rfl
          | some type =>
              dsimp only [Schema.Property.unhidden]
              rw [Schema.isAssignable_unhidden]
              generalize ReasonSet.ofList _ = reasons
              cases reasons.isEmpty <;> rfl

mutual

theorem value_unhidden : ∀ v : Value,
    value s.unhidden settings stack v
      = ((value s settings stack v).1.unhidden, (value s settings stack v).2)
  | .literal _ _ _ => rfl
  | .factory _ _ _ arguments => by
      simp only [value, values_unhidden arguments, Trace.unhidden_append]
      rfl

theorem values_unhidden : ∀ vs : List Value,
    values s.unhidden settings stack vs
      = ((values s settings stack vs).1.unhidden, (values s settings stack vs).2)
  | [] => rfl
  | first :: others => by
      simp only [values, value_unhidden first, values_unhidden others, Trace.unhidden_append]

end

mutual

theorem statement_unhidden (stack : ScopeStack) : ∀ statement : Statement,
    Resolver.statement s.unhidden settings stack statement
      = ((Resolver.statement s settings stack statement).1.unhidden,
          (Resolver.statement s settings stack statement).2)
  | .call _ _ _ _ block => by
      simp only [Resolver.statement, values_unhidden, elementOutcome_unhidden,
        body_unhidden stack _ block, Trace.unhidden_append]
      rfl
  | .assign _ _ _ _ => by
      simp only [Resolver.statement, value_unhidden, Trace.unhidden_append, assignment_unhidden]
      rfl
  | .error _ _ _ => rfl

theorem body_unhidden (stack : ScopeStack) (scope : Scope) : ∀ block : Body,
    body s.unhidden settings stack scope block
      = ((body s settings stack scope block).1.unhidden, (body s settings stack scope block).2)
  | .absent => rfl
  | .block _ _ inner => by
      simp only [body, statements_unhidden (stack.push scope) inner]

theorem statements_unhidden (stack : ScopeStack) : ∀ ss : List Statement,
    statements s.unhidden settings stack ss
      = ((statements s settings stack ss).1.unhidden, (statements s settings stack ss).2)
  | [] => rfl
  | first :: others => by
      simp only [statements, statement_unhidden stack first, statements_unhidden _ others,
        Trace.unhidden_append]

end

end Resolver

/-- To resolve with nothing hidden is to resolve, and then to forget what is hidden. -/
theorem Script.resolve_unhidden (s : Schema) (settings : Settings) (script : Script) :
    script.resolve s.unhidden settings = (script.resolve s settings).unhidden :=
  congrArg Prod.fst (Resolver.statements_unhidden s settings (.new s.topLevel) script.statements)

/-! ## The resolved document -/

def PropertyResolution.unhidden : PropertyResolution → PropertyResolution
  | assigned receiver p => assigned receiver p.unhidden
  | failed reasons => failed reasons

namespace Resolved

variable (recorded : Option Trace.Entry)

theorem elementResolution_unhidden :
    elementResolution (recorded.map Trace.Entry.unhidden) = elementResolution recorded := by
  rcases recorded with _ | (_ | (_ | _) | _) <;> rfl

theorem propertyResolution_unhidden :
    propertyResolution (recorded.map Trace.Entry.unhidden) = (propertyResolution recorded).unhidden := by
  rcases recorded with _ | (_ | (_ | _) | _) <;> rfl

theorem literalResolution_unhidden :
    literalResolution (recorded.map Trace.Entry.unhidden) = literalResolution recorded := by
  rcases recorded with _ | (_ | (_ | _) | _) <;> rfl

theorem factoryResolution_unhidden :
    factoryResolution (recorded.map Trace.Entry.unhidden) = factoryResolution recorded := by
  rcases recorded with _ | (_ | (_ | _) | _) <;> rfl

end Resolved

/-- Lines tell owner, name and type of the property that was assigned. -/
theorem Script.Node.render_resolution_unhidden (node : Node) (recorded : Option Trace.Entry) :
    (node.resolution (recorded.map Trace.Entry.unhidden)).render = (node.resolution recorded).render := by
  cases node with
  | statement s =>
      cases s with
      | call => rw [resolution, resolution, Resolved.elementResolution_unhidden]
      | assign =>
          rw [resolution, resolution, Resolved.propertyResolution_unhidden]
          cases Resolved.propertyResolution recorded <;> rfl
      | error => rfl
  | value v =>
      cases v with
      | literal => rw [resolution, resolution, Resolved.literalResolution_unhidden]
      | factory => rw [resolution, resolution, Resolved.factoryResolution_unhidden]

theorem Script.render_unhidden (s : Schema) (settings : Settings) (script : Script) :
    (script.resolvedDocument s.unhidden settings).render
      = (script.resolvedDocument s settings).render := by
  rw [render_resolvedDocument, render_resolvedDocument, resolve_unhidden]
  refine List.map_congr_left fun node _ => ?_
  rw [Trace.get?_unhidden, Node.render_resolution_unhidden]

/-! ## Diagnostics -/

namespace Diagnostic

def withoutHelp (d : Diagnostic) : Diagnostic := { d with help := none }

/-- The diagnostics are the same, or they are of a failed assignment and only the help differs. -/
def SameButHelp (d e : Diagnostic) : Prop :=
  d = e ∨ Resolved.OfAssignment d ∧ d.withoutHelp = e.withoutHelp

end Diagnostic

namespace Resolved

open Diagnostic

section

variable (s : Schema)

theorem functionHelp_unhidden : functionHelp s.unhidden = functionHelp s := by
  funext receiver isElement name place d
  simp only [functionHelp, s.functionNames_unhidden]
  rfl

theorem elementDiagnostic_unhidden : elementDiagnostic s.unhidden = elementDiagnostic s := by
  funext receiver name span reasons
  simp only [elementDiagnostic, functionHelp_unhidden]

theorem factoryDiagnostic_unhidden : factoryDiagnostic s.unhidden = factoryDiagnostic s := by
  funext receiver name span reasons
  simp only [factoryDiagnostic, functionHelp_unhidden]

theorem withoutHelp_propertyHelp (receiver name : String) (place : Span) (d : Diagnostic) :
    (propertyHelp s receiver name place d).withoutHelp = d.withoutHelp := by
  unfold propertyHelp
  dsimp only
  split <;> rfl

/-- Notes tell owner, name and type of the property of the receiver, and whether it is read-only. -/
theorem withoutHelp_propertyDiagnostic_unhidden (receiver : Option String) (name : String)
    (span value : Span) (reasons : ReasonSet) :
    (propertyDiagnostic s.unhidden receiver name span value reasons).withoutHelp
      = (propertyDiagnostic s receiver name span value reasons).withoutHelp := by
  have hnote : ∀ (d : Diagnostic) (note : String),
    (d.withNote note).withoutHelp = d.withoutHelp.withNote note := fun _ _ => rfl
  unfold propertyDiagnostic
  simp only [apply_ite withoutHelp, hnote]
  cases receiver with
  | none => rfl
  | some receiver =>
      simp only [Option.bind_some, s.property?_unhidden]
      cases s.property? receiver name with
      | none => simp only [Option.map_none, apply_ite withoutHelp, withoutHelp_propertyHelp]
      | some p =>
          simp only [Option.map_some, apply_ite withoutHelp, hnote, withoutHelp_propertyHelp]
          rfl

end

section

variable {s t : Schema} (h : s.unhidden = t.unhidden)

include h

theorem factoryDiagnostic_eq_of_unhidden : factoryDiagnostic s = factoryDiagnostic t := by
  rw [← factoryDiagnostic_unhidden s, h, factoryDiagnostic_unhidden]

theorem elementDiagnostic_eq_of_unhidden : elementDiagnostic s = elementDiagnostic t := by
  rw [← elementDiagnostic_unhidden s, h, elementDiagnostic_unhidden]

theorem sameButHelp_propertyDiagnostic (receiver : Option String) (name : String)
    (span value : Span) (reasons : ReasonSet) :
    SameButHelp (propertyDiagnostic s receiver name span value reasons)
      (propertyDiagnostic t receiver name span value reasons) := by
  refine Or.inr ⟨⟨name, ?_⟩, ?_⟩
  · have hvalue : value ∈ [nameSpan span name, value] := List.mem_cons_of_mem _ (List.mem_singleton_self _)
    exact (opening_propertyDiagnostic s receiver name span reasons (List.mem_cons_self ..) hvalue).message
  · rw [← withoutHelp_propertyDiagnostic_unhidden s, h, withoutHelp_propertyDiagnostic_unhidden]

end

mutual

theorem Value.diagnostics_eq_of_unhidden {s t : Schema} (h : s.unhidden = t.unhidden)
    (receiver : Option String) : ∀ value : Value,
    value.diagnostics s receiver = value.diagnostics t receiver
  | .literal _ _ _ => rfl
  | .factory _ values _ resolution => by
      rw [Value.diagnostics.eq_def, Value.diagnostics.eq_def]
      dsimp only
      rw [Value.diagnosticsOfAll_eq_of_unhidden h receiver values, factoryDiagnostic_eq_of_unhidden h]

theorem Value.diagnosticsOfAll_eq_of_unhidden {s t : Schema} (h : s.unhidden = t.unhidden)
    (receiver : Option String) : ∀ values : List Value,
    Value.diagnosticsOfAll s receiver values = Value.diagnosticsOfAll t receiver values
  | [] => rfl
  | value :: values => by
      rw [Value.diagnosticsOfAll, Value.diagnosticsOfAll,
        Value.diagnostics_eq_of_unhidden h receiver value,
        Value.diagnosticsOfAll_eq_of_unhidden h receiver values]

end

mutual

theorem Value.ofDocument_unhidden (trace : Trace) : ∀ value : Document.Value,
    Value.ofDocument trace.unhidden value = Value.ofDocument trace value
  | .literal _ _ => by
      rw [Value.ofDocument, Value.ofDocument, trace.get?_unhidden, literalResolution_unhidden]
  | .factory _ values _ => by
      rw [Value.ofDocument, Value.ofDocument, Value.ofDocuments_unhidden trace values,
        trace.get?_unhidden, factoryResolution_unhidden]

theorem Value.ofDocuments_unhidden (trace : Trace) : ∀ values : List Document.Value,
    Value.ofDocuments trace.unhidden values = Value.ofDocuments trace values
  | [] => rfl
  | value :: values => by
      rw [Value.ofDocuments, Value.ofDocuments, Value.ofDocument_unhidden trace value,
        Value.ofDocuments_unhidden trace values]

end

section

variable {a b : Trace} (hab : a.unhidden = b.unhidden)

include hab

theorem get?_unhidden_eq (id : NodeId) :
    (a.get? id).map Trace.Entry.unhidden = (b.get? id).map Trace.Entry.unhidden := by
  rw [← a.get?_unhidden, hab, b.get?_unhidden]

theorem Value.ofDocument_eq_of_unhidden (value : Document.Value) :
    Value.ofDocument a value = Value.ofDocument b value := by
  rw [← Value.ofDocument_unhidden a, hab, Value.ofDocument_unhidden]

theorem Value.ofDocuments_eq_of_unhidden (values : List Document.Value) :
    Value.ofDocuments a values = Value.ofDocuments b values := by
  rw [← Value.ofDocuments_unhidden a, hab, Value.ofDocuments_unhidden]

theorem elementResolution_eq_of_unhidden (id : NodeId) :
    elementResolution (a.get? id) = elementResolution (b.get? id) := by
  rw [← elementResolution_unhidden, get?_unhidden_eq hab, elementResolution_unhidden]

theorem propertyResolution_eq_of_unhidden (id : NodeId) :
    (propertyResolution (a.get? id)).unhidden = (propertyResolution (b.get? id)).unhidden := by
  rw [← propertyResolution_unhidden, get?_unhidden_eq hab, propertyResolution_unhidden]

end

theorem sameButHelp_self (ds : List Diagnostic) : List.Forall₂ SameButHelp ds ds :=
  List.forall₂_same.mpr fun _ _ => Or.inl rfl

mutual

theorem Node.sameButHelp {s t : Schema} {a b : Trace} (h : s.unhidden = t.unhidden)
    (hab : a.unhidden = b.unhidden) : ∀ (receiver : Option String) (node : Document.Node),
    List.Forall₂ SameButHelp ((Node.ofDocument a node).diagnostics s receiver)
      ((Node.ofDocument b node).diagnostics t receiver)
  | receiver, .element name values content origin => by
      rw [Node.ofDocument, Node.ofDocument, Node.diagnostics.eq_def, Node.diagnostics.eq_def]
      dsimp only
      rw [Value.ofDocuments_eq_of_unhidden hab, elementResolution_eq_of_unhidden hab,
        Value.diagnosticsOfAll_eq_of_unhidden h, elementDiagnostic_eq_of_unhidden h]
      exact List.rel_append (sameButHelp_self _) (Node.sameButHelpAll h hab _ content)
  | receiver, .property name value origin => by
      rw [Node.ofDocument, Node.ofDocument, Node.diagnostics.eq_def, Node.diagnostics.eq_def]
      dsimp only
      rw [Value.ofDocument_eq_of_unhidden hab, Value.diagnostics_eq_of_unhidden h]
      refine List.rel_append ?_ (sameButHelp_self _)
      have hsame := propertyResolution_eq_of_unhidden hab origin.node
      cases ha : propertyResolution (a.get? origin.node) with
      | assigned owner p =>
          cases hb : propertyResolution (b.get? origin.node) with
          | assigned owner' q => exact .nil
          | failed reasons => rw [ha, hb] at hsame; cases hsame
      | failed reasons =>
          cases hb : propertyResolution (b.get? origin.node) with
          | assigned owner' q => rw [ha, hb] at hsame; cases hsame
          | failed others =>
              rw [ha, hb] at hsame
              cases hsame
              exact .cons (sameButHelp_propertyDiagnostic h ..) .nil
  | _, .error _ _ => .nil

theorem Node.sameButHelpAll {s t : Schema} {a b : Trace} (h : s.unhidden = t.unhidden)
    (hab : a.unhidden = b.unhidden) : ∀ (receiver : Option String) (nodes : List Document.Node),
    List.Forall₂ SameButHelp (Node.diagnosticsOfAll s receiver (Node.ofDocuments a nodes))
      (Node.diagnosticsOfAll t receiver (Node.ofDocuments b nodes))
  | _, [] => .nil
  | receiver, node :: nodes =>
      List.rel_append (Node.sameButHelp h hab receiver node)
        (Node.sameButHelpAll h hab receiver nodes)

end

end Resolved

namespace Schema

/-- **Hiding changes suggestions only.** Where schemas differ in nothing but what they hide, every
script has the same trace, up to the flags of what was assigned, is rendered as the same lines, and has
the same diagnostics, up to the help for failed assignments. That help names nothing that the receiver
hides. -/
theorem resolve_unhidden_eq {s t : Schema} (h : s.unhidden = t.unhidden) (settings : Settings)
    (script : Script) :
    (script.resolve s settings).unhidden = (script.resolve t settings).unhidden
      ∧ (script.resolvedDocument s settings).render = (script.resolvedDocument t settings).render
      ∧ List.Forall₂ Diagnostic.SameButHelp
          ((script.resolvedDocument s settings).diagnostics s)
          ((script.resolvedDocument t settings).diagnostics t)
      ∧ ∀ b : Builder, b.build = .ok s → ∀ d ∈ (script.resolvedDocument s settings).diagnostics s,
          Resolved.OfAssignment d → ∃ receiver name value origin reasons,
            Resolved.Holds (some s.topLevel) (script.resolvedDocument s settings).content receiver
                (.property name value origin (.failed reasons))
              ∧ d = Resolved.propertyDiagnostic s receiver name origin.span value.origin.span reasons
              ∧ Diagnostic.Discreet s receiver d := by
  have htrace : (script.resolve s settings).unhidden = (script.resolve t settings).unhidden := by
    rw [← script.resolve_unhidden s, h, script.resolve_unhidden]
  refine ⟨htrace, ?_, ?_, ?_⟩
  · rw [← script.render_unhidden s, h, script.render_unhidden]
  · have htop : s.topLevel = t.topLevel :=
      (congrArg topLevel h : s.unhidden.topLevel = t.unhidden.topLevel)
    rw [ResolvedDocument.diagnostics, ResolvedDocument.diagnostics, htop]
    exact Resolved.Node.sameButHelpAll h htrace _ _
  · exact fun b hb d hd hassignment =>
      ResolvedDocument.discreet_of_mem_diagnostics hb _ hd hassignment

/-- A name that is nearly that of the secret is a question for it only where it is none. -/
theorem resolve_unhidden_eq_secret :
    let garden (hides : Bool) :=
      DataClass.ofMembers "Garden" [.property "name" .string false false,
        .property "secret" .string hides false]
    let a : Builder := ⟨"Garden", [garden true]⟩
    let s := ofClasses "Garden" a.classes [("Garden", [])]
    let t := ofClasses "Garden" [garden false] [("Garden", [])]
    let script : Script := ⟨"garden", [.assign ⟨0⟩ ⟨0, 11⟩ ⟨"secrt", ⟨0, 5⟩⟩
      (.literal ⟨1⟩ ⟨8, 11⟩ (.string "x"))], ⟨0, 11⟩⟩
    let help (schema : Schema) :=
      ((script.resolvedDocument schema ⟨true⟩).diagnostics schema).map (·.help.map (·.message))
    a.build = .ok s ∧ s.unhidden = t.unhidden
      ∧ (script.resolve s ⟨true⟩).unhidden = (script.resolve t ⟨true⟩).unhidden
      ∧ help s = [some "`Garden` has properties: name"]
      ∧ help t = [some "did you mean `secret`?"] := by
  intro garden a s t script help
  have hbuild : a.build = .ok s := rfl
  have hshown : Builder.build ⟨"Garden", [garden false]⟩ = .ok t := rfl
  have hsame : s.unhidden = t.unhidden := (Builder.unhidden_eq_iff hbuild hshown).mpr ⟨rfl, rfl⟩
  exact ⟨hbuild, hsame, (resolve_unhidden_eq hsame _ _).1, by decide +kernel, by decide +kernel⟩

end Schema

end Declarative
