import Declarative.Diagnostic.Failure
import Declarative.Proofs.Alignment

/-!
# The walk that makes diagnostics

The diagnostics of a document are found by a walk of their own, which goes into the values of an
element before it says anything of the element. In the order of that walk (`Script.valuesFirst`)
there is one diagnostic for each node that is not resolved, literals and errors of the script
excepted, and nothing else (`Script.reports_valuesFirst`). The diagnostic says what could not be done,
points to the name of the node, and takes its code and severity from the reasons
(`Script.Node.Describes`); what is added to it afterwards, notes and help, changes none of this
(`Diagnostic.Extends`).
-/

namespace Declarative

/-! ## How severe failures are -/

theorem Diagnostic.isError_iff (d : Diagnostic) : d.isError = true ↔ d.severity = .error := by
  rw [isError, beq_iff_eq]

namespace Resolved

def severityOf (reasons : ReasonSet) : Diagnostic.Severity :=
  if reasons.toList.all (· == .unresolvedBase) then .note else .error

theorem severityOf_eq_error {reasons : ReasonSet} (hne : reasons.toList ≠ [])
    (hown : .unresolvedBase ∉ reasons.toList) : severityOf reasons = .error := by
  obtain ⟨reason, hreason⟩ := List.exists_mem_of_ne_nil _ hne
  refine if_neg fun hall => hown ?_
  have heq : reason = .unresolvedBase := by simpa using List.all_eq_true.mp hall reason hreason
  exact heq ▸ hreason

end Resolved

/-! ## What is added to a diagnostic -/

namespace Diagnostic

/-- The text that is suggested, with the place where it would stand. -/
def replacement? (d : Diagnostic) : Option Replacement := d.help.bind (·.replacement)

/-- The second diagnostic is the first one with more labels behind, or with notes or help. All its
labels are at some of the spans, and what it would replace is at the place. -/
structure Extends (shown : List Span) (place : Span) (d e : Diagnostic) : Prop where
  severity : e.severity = d.severity
  code : e.code = d.code
  message : e.message = d.message
  labels : d.labels <+: e.labels
  shown : ∀ label ∈ e.labels, label.span ∈ shown
  replaced : ∀ r, e.replacement? = some r → r.span = place

namespace Extends

variable {shown : List Span} {place : Span} {d e : Diagnostic}

theorem refl (hshown : ∀ label ∈ d.labels, label.span ∈ shown) (hhelp : d.help = none) :
    d.Extends shown place d where
  severity := rfl
  code := rfl
  message := rfl
  labels := List.prefix_refl _
  shown := hshown
  replaced := by simp [replacement?, hhelp]

theorem withNote (h : d.Extends shown place e) (note : String) :
    d.Extends shown place (e.withNote note) := { h with }

theorem withHelp (h : d.Extends shown place e) (message : String) :
    d.Extends shown place (e.withHelp message) :=
  { h with replaced := by simp [replacement?, Diagnostic.withHelp] }

theorem withReplacement (h : d.Extends shown place e) (text : String) :
    d.Extends shown place (e.withReplacement place text) where
  severity := h.severity
  code := h.code
  message := h.message
  labels := h.labels
  shown := h.shown
  replaced := by
    cases hhelp : e.help with
    | none => simp [replacement?, Diagnostic.withReplacement, hhelp]
    | some help =>
        rintro r hr
        simp only [replacement?, Diagnostic.withReplacement, hhelp, Option.map_some,
          Option.bind_some, Option.some.injEq] at hr
        rw [← hr]

theorem withSecondary (h : d.Extends shown place e) {span : Span} (hspan : span ∈ shown)
    (message : String) : d.Extends shown place (e.withSecondary span message) where
  severity := h.severity
  code := h.code
  message := h.message
  labels := h.labels.trans (List.prefix_append ..)
  shown := by
    intro label hlabel
    rcases List.mem_append.mp hlabel with hlabel | hlabel
    · exact h.shown label hlabel
    · rw [List.mem_singleton.mp hlabel]
      exact hspan
  replaced := h.replaced

theorem orElse {f : Diagnostic} (he : d.Extends shown place e) (condition : Bool)
    (hf : d.Extends shown place f) : d.Extends shown place (if condition then e else f) := by
  split
  · exact he
  · exact hf

theorem noteIf (h : d.Extends shown place e) (condition : Bool) (note : String) :
    d.Extends shown place (if condition then e.withNote note else e) :=
  (h.withNote note).orElse condition h

/-- The place of a diagnostic is its first primary label, whatever follows. -/
theorem primarySpan?_eq {span : Span} {text : String}
    (hlabels : d.labels = [⟨span, .primary, some text⟩]) (h : d.Extends shown place e) :
    e.primarySpan? = some span := by
  obtain ⟨others, hothers⟩ := h.labels
  rw [primarySpan?, ← hothers, hlabels]
  rfl

end Extends

end Diagnostic

namespace Resolved

open Diagnostic

/-- The beginning of each diagnostic of a failure. -/
def opening (reasons : ReasonSet) (message : String) (place : Span) : Diagnostic :=
  (failureDiagnostic reasons message).withPrimary place (failureLabel reasons)

theorem extends_opening {shown : List Span} {place : Span} (hplace : place ∈ shown)
    (reasons : ReasonSet) (message : String) :
    (opening reasons message place).Extends shown place (opening reasons message place) := by
  refine .refl (fun label hlabel => ?_) rfl
  obtain rfl := List.mem_singleton.mp hlabel
  exact hplace

variable (schema : Schema) {shown : List Span} {place : Span} {d e : Diagnostic}

/-- Only the help depends on the schema and on the receiver. -/
theorem extends_functionHelp (h : d.Extends shown place e) (receiver : Option String)
    (isElement : Bool) (name : String) :
    d.Extends shown place (functionHelp schema receiver isElement name place e) := by
  unfold functionHelp
  split
  · exact h
  · split
    · split
      · exact (h.withHelp _).withReplacement _
      · exact h
    · exact h.withHelp _

theorem extends_propertyHelp (h : d.Extends shown place e) (receiver name : String) :
    d.Extends shown place (propertyHelp schema receiver name place e) := by
  unfold propertyHelp
  dsimp only
  split
  · exact (h.withHelp _).withReplacement _
  · exact h
  · exact h.withHelp _

variable (receiver : Option String) (name : String) (span : Span) (reasons : ReasonSet)

theorem opening_factoryDiagnostic (hplace : nameSpan span name ∈ shown) :
    (opening reasons ("cannot resolve value factory `" ++ name ++ "`") (nameSpan span name)).Extends
      shown (nameSpan span name) (factoryDiagnostic schema receiver name span reasons) :=
  (extends_functionHelp schema (extends_opening hplace ..) ..).orElse _ (extends_opening hplace ..)

theorem opening_elementDiagnostic (hplace : nameSpan span name ∈ shown) :
    (opening reasons ("cannot resolve element `" ++ name ++ "`") (nameSpan span name)).Extends
      shown (nameSpan span name) (elementDiagnostic schema receiver name span reasons) := by
  unfold elementDiagnostic
  refine Extends.noteIf (.orElse ?_ _ (extends_opening hplace ..)) _ _
  exact extends_functionHelp schema (extends_opening hplace ..) ..

theorem opening_propertyDiagnostic (hplace : nameSpan span name ∈ shown) {value : Span}
    (hvalue : value ∈ shown) :
    (opening reasons ("cannot assign property `" ++ name ++ "`") (nameSpan span name)).Extends
      shown (nameSpan span name) (propertyDiagnostic schema receiver name span value reasons) := by
  have hopened := extends_opening hplace reasons ("cannot assign property `" ++ name ++ "`")
  have hassigned := hopened.withSecondary hvalue "assigned value"
  unfold propertyDiagnostic
  -- the last two notes are there or not; help and the note on the type need a receiver
  refine Extends.noteIf (.noteIf ?_ _ _) _ _
  cases receiver with
  | none => exact hassigned
  | some receiver =>
      have hhelped := (extends_propertyHelp schema hassigned receiver name).orElse
        (reasons.contains .unresolvedSignature) hassigned
      dsimp only [Option.bind_some]
      split
      · exact hhelped.noteIf ..
      · exact hhelped

end Resolved

/-! ## What a diagnostic tells of a node -/

/-- The reasons of a failure that has a diagnostic: nothing is said of literals, nor of errors of the
script. -/
def Resolution.reported? : Resolution → Option ReasonSet
  | element (.failed reasons) => some reasons
  | property (.failed reasons) => some reasons
  | factory (.failed reasons) => some reasons
  | _ => none

theorem Resolution.isFailure_of_reported? {resolution : Resolution} {reasons : ReasonSet}
    (h : resolution.reported? = some reasons) : resolution.isFailure = true := by
  unfold reported? at h
  split at h
  · rfl
  · rfl
  · rfl
  · cases h

namespace Script.Node

def name? : Node → Option String
  | statement (.call _ _ name _ _) => some name.text
  | statement (.assign _ _ target _) => some target.text
  | statement (.error ..) => none
  | value (.literal ..) => none
  | value (.factory _ _ name _) => some name.text

/-- What could not be done where a node does not resolve. -/
def complaint? : Node → Option String
  | statement (.call _ _ name _ _) => some ("cannot resolve element `" ++ name.text ++ "`")
  | statement (.assign _ _ target _) => some ("cannot assign property `" ++ target.text ++ "`")
  | statement (.error ..) => none
  | value (.literal ..) => none
  | value (.factory _ _ name _) => some ("cannot resolve value factory `" ++ name.text ++ "`")

/-- What the labels of the node's diagnostic stand at: its name, and the value that it assigns. -/
def shown : Node → List Span
  | statement (.call _ span name _ _) => [Resolved.nameSpan span name.text]
  | statement (.assign _ span target assigned) =>
    [Resolved.nameSpan span target.text, assigned.span]
  | statement (.error ..) => []
  | value (.literal ..) => []
  | value (.factory _ span name _) => [Resolved.nameSpan span name.text]

theorem nameSpan_mem_shown {node : Node} {name : String} (h : node.name? = some name) :
    Resolved.nameSpan node.span name ∈ node.shown := by
  unfold name? at h
  split at h
  · cases h
    exact List.mem_singleton_self _
  · cases h
    exact List.mem_cons_self ..
  · cases h
  · cases h
  · cases h
    exact List.mem_singleton_self _

/-- The diagnostic says that the node did not resolve for the reasons, and points to its name. Only
the name is ever to be replaced. -/
structure Describes (node : Node) (reasons : ReasonSet) (d : Diagnostic) : Prop where
  message : node.complaint? = some d.message
  place : ∃ name, node.name? = some name
    ∧ d.primarySpan? = some (Resolved.nameSpan node.span name)
  code : d.code = some (Diagnostic.reasonCode (reasons.toList.headD .unresolvedBase))
  severity : d.severity = Resolved.severityOf reasons
  shown : ∀ label ∈ d.labels, label.span ∈ node.shown
  replaced : ∃ name, node.name? = some name
    ∧ ∀ r, d.replacement? = some r → r.span = Resolved.nameSpan node.span name

/-- What begins as the diagnostic of a failure describes it to the end. -/
theorem describes_of_opening {node : Node} {reasons : ReasonSet} {d : Diagnostic}
    {complaint name : String} (hcomplaint : node.complaint? = some complaint)
    (hname : node.name? = some name)
    (h : (Resolved.opening reasons complaint (Resolved.nameSpan node.span name)).Extends node.shown
      (Resolved.nameSpan node.span name) d) : node.Describes reasons d where
  message := by
    rw [hcomplaint, h.message]
    rfl
  place := ⟨name, hname, Diagnostic.Extends.primarySpan?_eq rfl h⟩
  code := h.code
  severity := h.severity
  shown := h.shown
  replaced := ⟨name, hname, h.replaced⟩

/-- What the trace has recorded of the node is a failure, and the diagnostic is about it. -/
def Tells (trace : Trace) (node : Node) (d : Diagnostic) : Prop :=
  ∃ reasons, (node.part trace).2.reported? = some reasons ∧ node.Describes reasons d

theorem Tells.isError_iff {trace : Trace} {node : Node} {d : Diagnostic} (h : node.Tells trace d) :
    (∃ reasons, (node.part trace).2.reported? = some reasons
        ∧ Resolved.severityOf reasons = .error) ↔ d.isError = true := by
  obtain ⟨reasons, hreported, hdescribes⟩ := h
  rw [Diagnostic.isError_iff, hdescribes.severity]
  constructor
  · rintro ⟨others, hothers, hown⟩
    obtain rfl := Option.some.inj (hreported.symm.trans hothers)
    exact hown
  · exact fun hown => ⟨reasons, hreported, hown⟩

def isReported (trace : Trace) (node : Node) : Bool := (node.part trace).2.reported?.isSome

end Script.Node

/-- The diagnostics are about those of the nodes that have one, in their order. -/
def Trace.Reports (trace : Trace) (nodes : List Script.Node) (ds : List Diagnostic) : Prop :=
  List.Forall₂ (Script.Node.Tells trace) (nodes.filter (Script.Node.isReported trace)) ds

namespace Trace.Reports

variable {trace : Trace} {node : Script.Node}

theorem nil : trace.Reports [] [] := List.Forall₂.nil

theorem append {nodes others : List Script.Node} {ds es : List Diagnostic}
    (h : trace.Reports nodes ds) (hothers : trace.Reports others es) :
    trace.Reports (nodes ++ others) (ds ++ es) := by
  rw [Reports, List.filter_append]
  exact List.rel_append h hothers

theorem silent (h : (node.part trace).2.reported? = none) : trace.Reports [node] [] := by
  rw [Reports, List.filter_singleton, Script.Node.isReported, h]
  exact .nil

theorem told {d : Diagnostic} (h : node.Tells trace d) : trace.Reports [node] [d] := by
  obtain ⟨reasons, hreasons, hdescribes⟩ := h
  rw [Reports, List.filter_singleton, Script.Node.isReported, hreasons]
  exact .cons ⟨reasons, hreasons, hdescribes⟩ .nil

/-- Each diagnostic is that of one of the nodes. -/
theorem exists_tells {nodes : List Script.Node} {ds : List Diagnostic} (h : trace.Reports nodes ds)
    {d : Diagnostic} (hd : d ∈ ds) : ∃ node ∈ nodes, node.Tells trace d := by
  obtain ⟨i, hi, rfl⟩ := List.mem_iff_getElem.mp hd
  have hlength := h.length_eq
  exact ⟨_, List.mem_of_mem_filter (List.getElem_mem (hlength ▸ hi)), h.get (hlength ▸ hi) hi⟩

end Trace.Reports

/-! ## The order of the walk -/

namespace Statement

mutual

/-- The statement and what is inside of it, as the walk that makes the diagnostics comes by: a call
after its values and before its block. -/
def valuesFirst : Statement → List Script.Node
  | call id span name arguments body =>
    Value.preorderAll arguments ++ [.statement (call id span name arguments body)] ++
      valuesFirstBody body
  | assign id span target value => .statement (assign id span target value) :: value.preorder
  | error id span message => [.statement (error id span message)]

def valuesFirstBody : Body → List Script.Node
  | .absent => []
  | .block _ _ statements => valuesFirstAll statements

def valuesFirstAll : List Statement → List Script.Node
  | [] => []
  | statement :: statements => valuesFirst statement ++ valuesFirstAll statements

end

mutual

theorem valuesFirst_perm : ∀ s : Statement, s.valuesFirst.Perm s.preorder
  | call _ _ _ arguments body => by
      rw [valuesFirst, preorder, ← List.cons_append]
      exact (List.perm_append_singleton _ _).append (valuesFirstBody_perm body)
  | assign _ _ _ _ => .refl _
  | error _ _ _ => .refl _

theorem valuesFirstBody_perm : ∀ body : Body, (valuesFirstBody body).Perm (preorderBody body)
  | .absent => .nil
  | .block _ _ statements => valuesFirstAll_perm statements

theorem valuesFirstAll_perm : ∀ statements : List Statement,
    (valuesFirstAll statements).Perm (preorderAll statements)
  | [] => .nil
  | s :: statements => (valuesFirst_perm s).append (valuesFirstAll_perm statements)

end

end Statement

/-- The statements and values of a script in the order in which their diagnostics come. -/
def Script.valuesFirst (script : Script) : List Script.Node :=
  Statement.valuesFirstAll script.statements

/-! ## The walk reports what failed -/

namespace Resolved

variable (trace : Trace) (schema : Schema)

theorem Value.span_origin (v : Declarative.Value) :
    (Value.ofDocument trace (Document.Value.ofScript v)).origin.span = v.span := by
  cases v <;> rfl

mutual

theorem Value.reports (receiver : Option String) : ∀ v : Declarative.Value,
    trace.Reports v.preorder
      ((Value.ofDocument trace (Document.Value.ofScript v)).diagnostics schema receiver)
  | .literal _ _ _ => .silent rfl
  | .factory id span name arguments => by
      rw [Document.Value.ofScript, Value.ofDocument, Value.diagnostics.eq_def,
        Declarative.Value.preorder, ← List.singleton_append]
      refine Trace.Reports.append ?_ (Value.reportsAll receiver arguments)
      -- what is said of the node itself depends on nothing but its own resolution
      cases hresolution : factoryResolution (trace.get? id) with
      | resolved f =>
          exact .silent (congrArg (fun r => (Resolution.factory r).reported?) hresolution)
      | failed reasons =>
          exact .told ⟨reasons, congrArg (fun r => (Resolution.factory r).reported?) hresolution,
            Script.Node.describes_of_opening rfl rfl
              (opening_factoryDiagnostic _ _ _ _ _ (Script.Node.nameSpan_mem_shown rfl))⟩

theorem Value.reportsAll (receiver : Option String) : ∀ vs : List Declarative.Value,
    trace.Reports (Declarative.Value.preorderAll vs)
      (Value.diagnosticsOfAll schema receiver (Value.ofDocuments trace (Document.Value.ofScripts vs)))
  | [] => .nil
  | v :: vs => (Value.reports receiver v).append (Value.reportsAll receiver vs)

end

mutual

theorem Node.reports : ∀ (receiver : Option String) (s : Statement),
    trace.Reports s.valuesFirst
      ((Node.ofDocument trace (Document.Node.ofStatement s)).diagnostics schema receiver)
  | receiver, .call id span name arguments block => by
      rw [Document.Node.ofStatement, Node.ofDocument, Node.diagnostics.eq_def, Statement.valuesFirst]
      refine ((Value.reportsAll trace schema receiver arguments).append ?_).append
        (Node.reportsBody _ block)
      cases hresolution : elementResolution (trace.get? id) with
      | added type f =>
          exact .silent (congrArg (fun r => (Resolution.element r).reported?) hresolution)
      | configured type f =>
          exact .silent (congrArg (fun r => (Resolution.element r).reported?) hresolution)
      | failed reasons =>
          exact .told ⟨reasons, congrArg (fun r => (Resolution.element r).reported?) hresolution,
            Script.Node.describes_of_opening rfl rfl
              (opening_elementDiagnostic _ _ _ _ _ (Script.Node.nameSpan_mem_shown rfl))⟩
  | receiver, .assign id span target assigned => by
      rw [Document.Node.ofStatement, Node.ofDocument, Node.diagnostics.eq_def,
        Statement.valuesFirst, ← List.singleton_append]
      refine Trace.Reports.append ?_ (Value.reports trace schema receiver assigned)
      cases hresolution : propertyResolution (trace.get? id) with
      | assigned owner property =>
          exact .silent (congrArg (fun r => (Resolution.property r).reported?) hresolution)
      | failed reasons =>
          have hvalue : (Value.ofDocument trace (Document.Value.ofScript assigned)).origin.span
              ∈ (Script.Node.statement (.assign id span target assigned)).shown := by
            rw [Value.span_origin]
            exact List.mem_cons_of_mem _ (List.mem_singleton_self _)
          exact .told ⟨reasons, congrArg (fun r => (Resolution.property r).reported?) hresolution,
            Script.Node.describes_of_opening rfl rfl
              (opening_propertyDiagnostic _ _ _ _ _ (Script.Node.nameSpan_mem_shown rfl) hvalue)⟩
  | _, .error _ _ _ => .silent rfl

theorem Node.reportsBody : ∀ (receiver : Option String) (block : Body),
    trace.Reports (Statement.valuesFirstBody block)
      (Node.diagnosticsOfAll schema receiver (Node.ofDocuments trace (Document.Node.ofBody block)))
  | _, .absent => .nil
  | receiver, .block _ _ inner => Node.reportsAll receiver inner

theorem Node.reportsAll : ∀ (receiver : Option String) (ss : List Statement),
    trace.Reports (Statement.valuesFirstAll ss)
      (Node.diagnosticsOfAll schema receiver (Node.ofDocuments trace (Document.Node.ofStatements ss)))
  | _, [] => .nil
  | receiver, s :: ss => (Node.reports receiver s).append (Node.reportsAll receiver ss)

end

end Resolved

namespace Script

variable (schema : Schema) (settings : Settings) (script : Script)

/-- The diagnostics of a resolved document, one by one: each is about a node that did not resolve. -/
theorem reports_valuesFirst : (script.resolve schema settings).Reports script.valuesFirst
    ((script.resolvedDocument schema settings).diagnostics schema) :=
  Resolved.Node.reportsAll _ schema _ script.statements

theorem valuesFirst_perm : script.valuesFirst.Perm script.preorder :=
  Statement.valuesFirstAll_perm script.statements

/-- Some diagnostic is an error just if a node that has one failed for a reason of its own. -/
theorem exists_isError_iff :
    (∃ d ∈ (script.resolvedDocument schema settings).diagnostics schema, d.isError = true)
      ↔ ∃ node ∈ script.preorder, ∃ reasons,
          (node.part (script.resolve schema settings)).2.reported? = some reasons
            ∧ Resolved.severityOf reasons = .error := by
  have hreports := exists_mem_iff_of_forall₂ (script.reports_valuesFirst schema settings)
    (fun node d h => Node.Tells.isError_iff h)
  rw [← hreports]
  constructor
  · rintro ⟨node, hnode, hfailed⟩
    exact ⟨node, script.valuesFirst_perm.subset (List.mem_of_mem_filter hnode), hfailed⟩
  · rintro ⟨node, hnode, reasons, hreported, hown⟩
    have hmem := script.valuesFirst_perm.symm.subset hnode
    have hreports : node.isReported (script.resolve schema settings) = true :=
      Option.isSome_iff_exists.mpr ⟨reasons, hreported⟩
    exact ⟨node, List.mem_filter.mpr ⟨hmem, hreports⟩, reasons, hreported, hown⟩

end Script

end Declarative
