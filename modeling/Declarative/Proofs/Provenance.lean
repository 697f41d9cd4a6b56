import Declarative.Proofs.Alignment
import Declarative.Proofs.Cascade

/-!
# Where resolutions come from

Merging asks nothing of a trace but what is recorded of the numbers of a document: a part takes it,
whatever node it was recorded of. It is a success only where the entry is the same success of a part
of its kind; where such a part can fail as the entry does, it fails for the entry's reasons; and
anything else makes it miss a receiver (`Resolved.Inherits`).

Of each failure the resolver records some reasons, and none of them twice
(`Script.proper_of_get?`), so that no other failures come out of a merge with one of its traces.
-/

namespace Declarative

/-! ## Kinds of parts -/

/-- What kind of thing a part of a document is. -/
inductive Axis where
  | element
  | property
  | literal
  | factory
  | error
  deriving DecidableEq, Repr

def Resolution.axis : Resolution → Axis
  | element _ => .element
  | property _ => .property
  | literal _ => .literal
  | factory _ => .factory
  | error => .error

namespace Document

mutual

/-- The value and what is inside of it, with their kinds: a factory before its arguments. -/
def Value.parts : Value → List (Origin × Axis)
  | .literal _ origin => [(origin, .literal)]
  | .factory _ values origin => (origin, .factory) :: Value.partsOfAll values

def Value.partsOfAll : List Value → List (Origin × Axis)
  | [] => []
  | value :: values => Value.parts value ++ Value.partsOfAll values

end

mutual

/-- The node and what is inside of it, with their kinds: a node before its values, these before its
content. -/
def Node.parts : Node → List (Origin × Axis)
  | .element _ values content origin =>
    (origin, .element) :: (Value.partsOfAll values ++ Node.partsOfAll content)
  | .property _ value origin => (origin, .property) :: value.parts
  | .error _ origin => [(origin, .error)]

def Node.partsOfAll : List Node → List (Origin × Axis)
  | [] => []
  | node :: nodes => Node.parts node ++ Node.partsOfAll nodes

end

def parts (document : Document) : List (Origin × Axis) := Node.partsOfAll document.content

end Document

/-! ## What entries say of parts -/

namespace Trace.Entry

/-- The entry is a success, and the resolution is the same one. -/
inductive Grants : Entry → Resolution → Prop where
  | added {receiver type f} :
      Grants (.element (.resolved (.added receiver type f))) (.element (.added type f))
  | configured {receiver type f} :
      Grants (.element (.resolved (.configured receiver type f))) (.element (.configured type f))
  | assigned {receiver p} :
      Grants (.assignment (.resolved ⟨receiver, p⟩)) (.property (.assigned receiver p))
  | literal {content type} :
      Grants (.value (.resolved (.literal content type))) (.literal (.resolved content))
  | factory {f} : Grants (.value (.resolved (.factory f))) (.factory (.resolved f))

/-- The reasons of the entry, if it is a failure that a part of this kind can have. Entries of values
do not tell literals from factories where they fail. -/
def refusal? : Axis → Entry → Option ReasonSet
  | .element, .element outcome => outcome.reasons?
  | .property, .assignment outcome => outcome.reasons?
  | .literal, .value outcome => outcome.reasons?
  | .factory, .value outcome => outcome.reasons?
  | _, _ => none

variable {entry : Entry} {resolution other : Resolution}

theorem Grants.unique (h : Grants entry resolution) (hother : Grants entry other) :
    resolution = other := by
  cases h <;> cases hother <;> rfl

theorem Grants.refusal?_eq_none (h : Grants entry resolution) (axis : Axis) :
    refusal? axis entry = none := by
  cases h <;> cases axis <;> rfl

theorem Grants.reasons?_eq_none (h : Grants entry resolution) : resolution.reasons? = none := by
  cases h <;> rfl

/-- Entries that refuse a part are failures, for the same reasons. -/
theorem reasons?_of_refusal? {axis : Axis} {reasons : ReasonSet}
    (h : refusal? axis entry = some reasons) : entry.reasons? = some reasons := by
  cases axis <;> cases entry <;> first | exact h | cases h

/-- What refuses a part grants nothing, of whatever kind. -/
theorem not_grants_of_refusal? {axis : Axis} {reasons : ReasonSet}
    (h : refusal? axis entry = some reasons) : ¬Grants entry resolution := fun hgrants => by
  rw [hgrants.refusal?_eq_none] at h
  cases h

end Trace.Entry

theorem Resolution.isFailure_of_reasons? {resolution : Resolution} {reasons : ReasonSet}
    (h : resolution.reasons? = some reasons) : resolution.isFailure = true := by
  rw [isFailure, h, Option.isSome_some, Bool.or_true]

open Trace.Entry (Grants refusal?)

namespace Resolved

/-- The entry says nothing of parts of this kind. -/
def Foreign (axis : Axis) (entry : Trace.Entry) : Prop :=
  refusal? axis entry = none ∧ ∀ resolution, Grants entry resolution → resolution.axis ≠ axis

/-- What becomes of a part, by what is recorded of its number. -/
structure Inherits (recorded : Option Trace.Entry) (resolution : Resolution) : Prop where
  /-- There is no success that is not recorded. -/
  granted : resolution.isFailure = false → ∃ entry, recorded = some entry ∧ Grants entry resolution
  /-- And no success that is recorded of a part of this kind is lost. -/
  kept : ∀ entry other, recorded = some entry → Grants entry other → other.axis = resolution.axis →
    resolution = other
  refused : ∀ entry reasons, recorded = some entry →
    refusal? resolution.axis entry = some reasons → resolution.reasons? = some reasons
  /-- Nothing else that may be recorded is taken for the part's own. -/
  missing : resolution.axis ≠ .error → (∀ entry, recorded = some entry → Foreign resolution.axis entry) →
    resolution.reasons? = some (.single .unresolvedBase)

namespace Inherits

variable {entry : Trace.Entry} {recorded : Option Trace.Entry} {resolution : Resolution}

theorem of_grants (h : Grants entry resolution) : Inherits (some entry) resolution where
  granted _ := ⟨entry, rfl, h⟩
  kept _ _ hentry hother _ := by
    obtain rfl := Option.some.inj hentry
    exact h.unique hother
  refused _ _ hentry hrefusal := by
    obtain rfl := Option.some.inj hentry
    exact absurd h (Trace.Entry.not_grants_of_refusal? hrefusal)
  missing _ hforeign := absurd rfl ((hforeign entry rfl).2 resolution h)

theorem of_refusal {reasons : ReasonSet} (h : refusal? resolution.axis entry = some reasons)
    (hreasons : resolution.reasons? = some reasons) : Inherits (some entry) resolution where
  granted hsuccess := by
    rw [Resolution.isFailure_of_reasons? hreasons] at hsuccess
    cases hsuccess
  kept _ _ hentry hother _ := by
    obtain rfl := Option.some.inj hentry
    exact absurd hother (Trace.Entry.not_grants_of_refusal? h)
  refused _ _ hentry hrefusal := by
    obtain rfl := Option.some.inj hentry
    rw [hreasons, ← h, hrefusal]
  missing _ hforeign := by
    rw [(hforeign entry rfl).1] at h
    cases h

theorem of_foreign (h : ∀ entry, recorded = some entry → Foreign resolution.axis entry)
    (hreasons : resolution.reasons? = some (.single .unresolvedBase)) :
    Inherits recorded resolution where
  granted hsuccess := by
    rw [Resolution.isFailure_of_reasons? hreasons] at hsuccess
    cases hsuccess
  kept entry other hentry hother haxis := absurd haxis ((h entry hentry).2 other hother)
  refused entry _ hentry hrefusal := by
    rw [(h entry hentry).1] at hrefusal
    cases hrefusal
  missing _ _ := hreasons

end Inherits

theorem inherits_element (recorded : Option Trace.Entry) :
    Inherits recorded (.element (elementResolution recorded)) := by
  unfold elementResolution
  split
  · exact .of_grants .added
  · exact .of_grants .configured
  · exact .of_refusal rfl rfl
  · rename_i hadded hconfigured hfailed
    refine .of_foreign (fun entry hentry => ⟨?_, fun other hother haxis => ?_⟩) rfl
    · cases entry with
      | element outcome =>
          cases outcome with
          | resolved target => rfl
          | failed reasons => exact (hfailed _ hentry).elim
      | assignment outcome => rfl
      | value outcome => rfl
    · cases hother with
      | added => exact hadded _ _ _ hentry
      | configured => exact hconfigured _ _ _ hentry
      | _ => cases haxis

theorem inherits_property (recorded : Option Trace.Entry) :
    Inherits recorded (.property (propertyResolution recorded)) := by
  unfold propertyResolution
  split
  · exact .of_grants .assigned
  · exact .of_refusal rfl rfl
  · rename_i hassigned hfailed
    refine .of_foreign (fun entry hentry => ⟨?_, fun other hother haxis => ?_⟩) rfl
    · cases entry with
      | assignment outcome =>
          cases outcome with
          | resolved target => rfl
          | failed reasons => exact (hfailed _ hentry).elim
      | element outcome => rfl
      | value outcome => rfl
    · cases hother with
      | assigned => exact hassigned _ hentry
      | _ => cases haxis

theorem inherits_literal (recorded : Option Trace.Entry) :
    Inherits recorded (.literal (literalResolution recorded)) := by
  unfold literalResolution
  split
  · exact .of_grants .literal
  · exact .of_refusal rfl rfl
  · rename_i hliteral hfailed
    refine .of_foreign (fun entry hentry => ⟨?_, fun other hother haxis => ?_⟩) rfl
    · cases entry with
      | value outcome =>
          cases outcome with
          | resolved target => rfl
          | failed reasons => exact (hfailed _ hentry).elim
      | element outcome => rfl
      | assignment outcome => rfl
    · cases hother with
      | literal => exact hliteral _ _ hentry
      | _ => cases haxis

theorem inherits_factory (recorded : Option Trace.Entry) :
    Inherits recorded (.factory (factoryResolution recorded)) := by
  unfold factoryResolution
  split
  · exact .of_grants .factory
  · exact .of_refusal rfl rfl
  · rename_i hfactory hfailed
    refine .of_foreign (fun entry hentry => ⟨?_, fun other hother haxis => ?_⟩) rfl
    · cases entry with
      | value outcome =>
          cases outcome with
          | resolved target => rfl
          | failed reasons => exact (hfailed _ hentry).elim
      | element outcome => rfl
      | assignment outcome => rfl
    · cases hother with
      | factory => exact hfactory _ hentry
      | _ => cases haxis

/-- Errors are no successes, whatever is recorded of their numbers, and have no reasons. -/
theorem inherits_error (recorded : Option Trace.Entry) : Inherits recorded .error where
  granted hsuccess := by cases hsuccess
  kept _ _ _ hother haxis := by cases hother <;> cases haxis
  refused _ _ _ hrefusal := by cases hrefusal
  missing haxis := absurd rfl haxis

/-! ## The parts of a merged document -/

/-- The part of the merge is this part of the document, and takes what is recorded of its number. -/
def Takes (trace : Trace) (part : Document.Origin × Axis) (merged : Part) : Prop :=
  merged.1 = part.1 ∧ merged.2.axis = part.2 ∧ Inherits (trace.get? part.1.node) merged.2

variable (trace : Trace)

mutual

theorem Value.takes_ofDocument : ∀ value : Document.Value,
    List.Forall₂ (Takes trace) value.parts (Value.ofDocument trace value).flatten
  | .literal _ _ => .cons ⟨rfl, rfl, inherits_literal _⟩ .nil
  | .factory _ values _ =>
      .cons ⟨rfl, rfl, inherits_factory _⟩ (Value.takes_ofDocuments values)

theorem Value.takes_ofDocuments : ∀ values : List Document.Value,
    List.Forall₂ (Takes trace) (Document.Value.partsOfAll values)
      (Value.flattenAll (Value.ofDocuments trace values))
  | [] => .nil
  | value :: values =>
      List.rel_append (Value.takes_ofDocument value) (Value.takes_ofDocuments values)

end

mutual

theorem Node.takes_ofDocument : ∀ node : Document.Node,
    List.Forall₂ (Takes trace) node.parts (Node.ofDocument trace node).flatten
  | .element _ values content _ =>
      .cons ⟨rfl, rfl, inherits_element _⟩
        (List.rel_append (Value.takes_ofDocuments trace values) (Node.takes_ofDocuments content))
  | .property _ value _ =>
      .cons ⟨rfl, rfl, inherits_property _⟩ (Value.takes_ofDocument trace value)
  | .error _ _ => .cons ⟨rfl, rfl, inherits_error _⟩ .nil

theorem Node.takes_ofDocuments : ∀ nodes : List Document.Node,
    List.Forall₂ (Takes trace) (Document.Node.partsOfAll nodes)
      (Node.flattenAll (Node.ofDocuments trace nodes))
  | [] => .nil
  | node :: nodes =>
      List.rel_append (Node.takes_ofDocument node) (Node.takes_ofDocuments nodes)

end

end Resolved

/-! ## The reasons that are recorded -/

namespace ReasonSet

/-- There are some reasons, and each is there once. -/
def Proper (reasons : ReasonSet) : Prop := reasons.toList ≠ [] ∧ reasons.toList.Nodup

theorem proper_single (reason : Reason) : (single reason).Proper :=
  ⟨List.cons_ne_nil _ _, List.nodup_singleton _⟩

end ReasonSet

/-- If the entry is a failure, it has reasons, and each of them once. -/
def Trace.Entry.Proper (entry : Entry) : Prop :=
  ∀ reasons, entry.reasons? = some reasons → reasons.Proper

namespace Resolver

variable (schema : Schema) (settings : Settings)

/-- A call statement does not resolve for one reason. -/
theorem exists_single_of_elementOutcome {stack : ScopeStack} {hasBlock : Bool} {name : String}
    {types : List (Option DataType)} {reasons : ReasonSet}
    (h : elementOutcome schema settings stack hasBlock name types = .failed reasons) :
    ∃ reason, reasons = .single reason := by
  rw [elementOutcome] at h
  split at h
  · exact ⟨_, (Outcome.failed.inj h).symm⟩
  · split at h
    · split at h
      · cases h
      · exact ⟨_, (Outcome.failed.inj h).symm⟩
    · exact ⟨_, (Outcome.failed.inj h).symm⟩

/-- The call of a value does not resolve for one reason. -/
theorem exists_single_of_factoryOutcome {stack : ScopeStack} {name : String}
    {types : List (Option DataType)} {reasons : ReasonSet}
    (h : factoryOutcome schema settings stack name types = .failed reasons) :
    ∃ reason, reasons = .single reason := by
  rw [factoryOutcome] at h
  split at h
  · exact ⟨_, (Outcome.failed.inj h).symm⟩
  · split at h
    · cases h
    · exact ⟨_, (Outcome.failed.inj h).symm⟩

theorem proper_elementOutcome (stack : ScopeStack) (hasBlock : Bool) (name : String)
    (types : List (Option DataType)) :
    (Trace.Entry.element (elementOutcome schema settings stack hasBlock name types)).Proper := by
  intro reasons h
  obtain ⟨reason, rfl⟩ :=
    exists_single_of_elementOutcome schema settings (Outcome.reasons?_eq_some_iff.mp h)
  exact ReasonSet.proper_single reason

theorem proper_factoryOutcome (stack : ScopeStack) (name : String)
    (types : List (Option DataType)) :
    (Trace.Entry.value (factoryOutcome schema settings stack name types)).Proper := by
  intro reasons h
  obtain ⟨reason, rfl⟩ :=
    exists_single_of_factoryOutcome schema settings (Outcome.reasons?_eq_some_iff.mp h)
  exact ReasonSet.proper_single reason

theorem proper_assignmentOutcome (stack : ScopeStack) (name : String) (type : Option DataType) :
    (Trace.Entry.assignment (assignmentOutcome schema settings stack name type)).Proper := by
  intro reasons h
  rw [Trace.Entry.reasons?, Outcome.reasons?_eq_some_iff] at h
  cases hcurrent : stack.current with
  | unresolved =>
      simp only [assignmentOutcome, hcurrent] at h
      obtain rfl := Outcome.failed.inj h
      exact ReasonSet.proper_single _
  | receiver current =>
      obtain ⟨hreasons, hne⟩ := toList_of_assignmentOutcome hcurrent rfl h
      refine ⟨hne, ?_⟩
      rw [hreasons]
      exact List.Nodup.sublist (targetReasons_append_sublist _) (by decide)

mutual

theorem proper_valueEntries (stack : ScopeStack) : ∀ v : Value,
    ∀ entry ∈ valueEntries schema settings stack v, entry.2.Proper
  | .literal _ _ _ => by
      simp [valueEntries, Trace.Entry.Proper, Trace.Entry.reasons?, Outcome.reasons?]
  | .factory _ _ _ arguments =>
      List.forall_mem_cons.mpr
        ⟨proper_factoryOutcome schema settings stack _ _, proper_valuesEntries stack arguments⟩

theorem proper_valuesEntries (stack : ScopeStack) : ∀ vs : List Value,
    ∀ entry ∈ valuesEntries schema settings stack vs, entry.2.Proper
  | [] => List.forall_mem_nil _
  | first :: others =>
      List.forall_mem_append.mpr
        ⟨proper_valueEntries stack first, proper_valuesEntries stack others⟩

end

mutual

theorem proper_statementEntries (stack : ScopeStack) : ∀ s : Statement,
    ∀ entry ∈ statementEntries schema settings stack s, entry.2.Proper
  | .call _ _ _ arguments block =>
      List.forall_mem_cons.mpr
        ⟨proper_elementOutcome schema settings stack _ _ _,
          List.forall_mem_append.mpr
            ⟨proper_valuesEntries schema settings stack arguments, proper_bodyEntries _ block⟩⟩
  | .assign _ _ _ assigned =>
      List.forall_mem_cons.mpr
        ⟨proper_assignmentOutcome schema settings stack _ _,
          proper_valueEntries schema settings stack assigned⟩
  | .error _ _ _ => fun entry hentry reasons hreasons => by
      obtain rfl := List.mem_singleton.mp hentry
      obtain rfl := Option.some.inj hreasons
      exact ReasonSet.proper_single _

theorem proper_bodyEntries (stack : ScopeStack) : ∀ block : Body,
    ∀ entry ∈ bodyEntries schema settings stack block, entry.2.Proper
  | .absent => List.forall_mem_nil _
  | .block _ _ inner => proper_statementsEntries stack inner

theorem proper_statementsEntries (stack : ScopeStack) : ∀ ss : List Statement,
    ∀ entry ∈ statementsEntries schema settings stack ss, entry.2.Proper
  | [] => List.forall_mem_nil _
  | first :: others =>
      List.forall_mem_append.mpr
        ⟨proper_statementEntries stack first, proper_statementsEntries stack others⟩

end

end Resolver

/-- Whatever a look-up finds has been recorded of the number. -/
theorem Trace.mem_records_of_get? {trace : Trace} {id : NodeId} {entry : Entry}
    (h : trace.get? id = some entry) : (id, entry) ∈ trace.records := by
  obtain ⟨record, hfind, rfl⟩ := Option.map_eq_some_iff.mp h
  rw [List.findRev?_eq_find?_reverse] at hfind
  obtain rfl : record.1 = id := by simpa using List.find?_some hfind
  exact List.mem_reverse.mp (List.mem_of_find?_eq_some hfind)

/-- Whatever the resolver has recorded of a number, the reasons of a failure are proper ones. -/
theorem Script.proper_of_get? {schema : Schema} {settings : Settings} {script : Script}
    {id : NodeId} {entry : Trace.Entry}
    (h : (script.resolve schema settings).get? id = some entry) : entry.Proper := by
  have hrecord := Trace.mem_records_of_get? h
  exact Resolver.proper_statementsEntries schema settings _ script.statements _
    ((script.resolve_lists schema settings).records.mem_iff.mp hrecord)

/-! ## Merging with any trace -/

/-- Parts fail for a missing receiver, or for what is recorded of their numbers. -/
theorem Resolved.Inherits.reasons_cases {recorded : Option Trace.Entry} {resolution : Resolution}
    (h : Inherits recorded resolution) {reasons : ReasonSet}
    (hreasons : resolution.reasons? = some reasons) :
    reasons = .single .unresolvedBase
      ∨ ∃ entry, recorded = some entry ∧ refusal? resolution.axis entry = some reasons := by
  by_cases hforeign : ∀ entry, recorded = some entry → Foreign resolution.axis entry
  · have haxis : resolution.axis ≠ .error := by
      rintro herror
      cases resolution with
      | error => cases hreasons
      | _ => cases herror
    exact Or.inl (Option.some.inj (hreasons.symm.trans (h.missing haxis hforeign)))
  · push Not at hforeign
    obtain ⟨entry, hsome, hown⟩ := hforeign
    cases hrefusal : refusal? resolution.axis entry with
    | some recorded =>
        obtain rfl := Option.some.inj ((h.refused entry recorded hsome hrefusal).symm.trans hreasons)
        exact Or.inr ⟨entry, hsome, hrefusal⟩
    | none =>
        -- then the entry is the success of such a part, and the part is no failure
        rw [Foreign, not_and] at hown
        have hgrants := hown hrefusal
        push Not at hgrants
        obtain ⟨other, hother, haxis⟩ := hgrants
        rw [h.kept entry other hsome hother haxis, hother.reasons?_eq_none] at hreasons
        cases hreasons

theorem Resolved.Inherits.proper {recorded : Option Trace.Entry} {resolution : Resolution}
    (h : Inherits recorded resolution) (hentry : ∀ entry, recorded = some entry → entry.Proper)
    {reasons : ReasonSet} (hreasons : resolution.reasons? = some reasons) : reasons.Proper := by
  rcases h.reasons_cases hreasons with rfl | ⟨entry, hsome, hrefusal⟩
  · exact ReasonSet.proper_single _
  · exact hentry entry hsome _ (Trace.Entry.reasons?_of_refusal? hrefusal)

/-- Each part of a merge takes what is recorded of some number. -/
theorem Resolved.exists_inherits_of_mem {trace : Trace} {document : Document} {part : Part}
    (h : part ∈ (document.resolveWith trace).flatten) :
    ∃ id, Inherits (trace.get? id) part.2 := by
  obtain ⟨i, hi⟩ := List.mem_iff_getElem?.mp h
  obtain ⟨source, -, -, -, hinherits⟩ :=
    exists_getElem?_of_forall₂ (Node.takes_ofDocuments trace document.content).flip hi
  exact ⟨source.1.node, hinherits⟩

/-- **Merging invents no successes.** The merge of a document with a trace has the parts of the
document, and each of them takes what is recorded of its number. If the trace is the resolver's,
whatever script it is of, all that fails does so for some reasons, none of them named twice. -/
theorem Document.inherits_resolveWith (document : Document) (schema : Schema) (settings : Settings)
    (script : Script) :
    List.Forall₂ (Resolved.Takes (script.resolve schema settings)) document.parts
        (document.resolveWith (script.resolve schema settings)).flatten
      ∧ ∀ merged ∈ (document.resolveWith (script.resolve schema settings)).flatten,
        merged.2.isFailure = true → merged.2 ≠ .error →
          ∃ reasons, merged.2.reasons? = some reasons ∧ reasons.Proper := by
  refine ⟨Resolved.Node.takes_ofDocuments _ document.content, fun merged hmerged hfailure herror => ?_⟩
  obtain ⟨id, hinherits⟩ := Resolved.exists_inherits_of_mem hmerged
  have hsome : merged.2.reasons?.isSome = true := by
    simpa [Resolution.isFailure, herror] using hfailure
  obtain ⟨reasons, hreasons⟩ := Option.isSome_iff_exists.mp hsome
  exact ⟨reasons, hreasons, hinherits.proper (fun entry => Script.proper_of_get?) hreasons⟩

/-- In the other script the numbers are those of a call that fails and of its argument. What is
recorded of a call says nothing of a property, and what is recorded of one literal is taken for
another. -/
example :
    let schema := Schema.ofClasses "Garden" [.ofMembers "Garden" []] [("Garden", [])]
    let script : Script := ⟨"garden", [
      .call ⟨0⟩ ⟨0, 7⟩ ⟨"pond", ⟨0, 4⟩⟩ [.literal ⟨1⟩ ⟨5, 6⟩ (.int 3)] .absent], ⟨0, 7⟩⟩
    let document : Document := ⟨"orchard", [
      .property "plants" (.literal (.bool true) ⟨⟨1⟩, ⟨9, 13⟩⟩) ⟨⟨0⟩, ⟨0, 13⟩⟩]⟩
    (document.resolveWith (script.resolve schema ⟨true⟩)).flatten.map (·.2)
      = [.property (.failed (.single .unresolvedBase)), .literal (.resolved (.int 3))] := by
  decide

end Declarative
