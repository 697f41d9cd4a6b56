import Declarative.CommandLine.Run
import Declarative.Proofs.Alignment
import Declarative.Proofs.Cascade
import Declarative.Proofs.Diagnostic.Walk
import Declarative.Proofs.Grammar.Acceptance
import Declarative.Proofs.Parser.Numbers

/-!
# The verdict on a script

Resolving a script fails just if something is wrong with its words, with its statements,
or with a part of its document (`Script.verdict`). Not every failed part is an error: what
is inside of a failed element is a note, and nothing is said of errors of the script.

That no failure goes unnoticed has two reasons. A script that was read without fault holds
no error statement, because its statements are derived by the grammar
(`error_notMem_preorder`). And around a failure for want of a receiver stands, outermost, a
call that failed for a reason of its own (`exists_ownFailure`).
-/

namespace Declarative

/-! ## Scripts without faults hold no errors -/

theorem Statement.plain_mem {s : Statement} : ∀ {ss : List Statement}, s ∈ ss →
    s.plain ∈ Statement.plainAll ss
  | first :: others, hs => by
      rw [Statement.plainAll]
      rcases List.mem_cons.mp hs with rfl | hs
      · exact List.mem_cons_self ..
      · exact List.mem_cons_of_mem _ (Statement.plain_mem hs)

namespace Grammar

theorem Statements.derived : ∀ {trees : List Plain.Statement} {tokens : List Token.Kind},
    Statements trees tokens → ∀ tree ∈ trees, ∃ inner, Statement tree inner
  | _, _, .none, _, htree => by cases htree
  | _, _, .separator _ hrest, tree, htree => hrest.derived tree htree
  | _, _, .last hfirst, tree, htree => by
      obtain rfl := List.mem_singleton.mp htree
      exact ⟨_, hfirst⟩
  | _, _, .more hfirst _ hrest, tree, htree => by
      rcases List.mem_cons.mp htree with rfl | htree
      · exact ⟨_, hfirst⟩
      · exact hrest.derived tree htree

/-- The statements of a block are derived if the call is. -/
theorem Statement.derived_inner {call s : Declarative.Statement} {tokens : List Token.Kind}
    (h : Statement call.plain tokens) (hs : s ∈ call.inner) : ∃ inner, Statement s.plain inner := by
  cases call with
  | assign id span target assigned => cases hs
  | error id span message => cases hs
  | call id span name arguments body =>
      cases body with
      | absent => cases hs
      | block blockId blockSpan statements =>
          have hmem := Declarative.Statement.plain_mem hs
          rw [Declarative.Statement.plain, Body.plain] at h
          generalize Value.plainAll arguments = values at h
          cases h with
          | callBlock _ hblock | block hblock =>
              cases hblock with
              | braced hstatements => exact hstatements.derived _ hmem

end Grammar

namespace Script

theorem Stands.derived {script : Script}
    (hall : ∀ s ∈ script.statements, ∃ tokens, Grammar.Statement s.plain tokens)
    {calls : List Statement} {s : Statement} (h : script.Stands calls s) :
    ∃ tokens, Grammar.Statement s.plain tokens := by
  induction h with
  | top hs => exact hall _ hs
  | inside _ hs ih =>
      obtain ⟨tokens, hcall⟩ := ih
      exact hcall.derived_inner hs

theorem derived_of_faults_eq_nil {source : String} {tokens : List Token}
    (h : (ofTokens source tokens).faults = []) :
    ∀ s ∈ (ofTokens source tokens).script.statements, ∃ kinds, Grammar.Statement s.plain kinds := by
  obtain ⟨⟨kinds, -, hderives, -⟩, -⟩ :=
    Parser.topStatements_sound Parser.topStatement_sound rfl h
  exact fun s hs => hderives.derived _ (Statement.plain_mem hs)

/-- What is read without fault holds no error statement, at any depth. -/
theorem error_notMem_preorder {source : String} {tokens : List Token}
    (h : (ofTokens source tokens).faults = []) (id : NodeId) (span : Span) (message : String) :
    .statement (.error id span message) ∉ (ofTokens source tokens).script.preorder := by
  intro hmem
  obtain ⟨calls, hlies⟩ := mem_preorder_iff.mp hmem
  cases hlies with
  | statement hs =>
      obtain ⟨kinds, hderives⟩ := hs.derived (derived_of_faults_eq_nil h)
      cases hderives

/-! ## A failure of its own -/

section

variable {schema : Schema} {settings : Settings} {script : Script}

/-- Around what stands in failed blocks, the outermost failed call. -/
theorem Stands.exists_outermost {trace : Trace} {calls : List Statement} {s : Statement}
    (h : script.Stands calls s) (hfails : ∃ call ∈ calls, trace.Fails call) :
    ∃ outer call, script.Stands outer call ∧ trace.Fails call ∧ ∀ c ∈ outer, ¬trace.Fails c := by
  induction h with
  | top _ =>
      obtain ⟨call, hcall, -⟩ := hfails
      cases hcall
  | @inside calls call s hcall _ ih =>
      by_cases houter : ∃ c ∈ calls, trace.Fails c
      · exact ih houter
      · obtain ⟨c, hc, hfail⟩ := hfails
        rcases List.mem_cons.mp hc with rfl | hc
        · exact ⟨calls, _, hcall, hfail, fun c hc hfail => houter ⟨c, hc, hfail⟩⟩
        · exact absurd ⟨c, hc, hfail⟩ houter

variable (hids : script.nodeIds.Nodup)

include hids

/-- If anything fails, something fails for a reason of its own. -/
theorem exists_ownFailure {node : Node} (hnode : node ∈ script.preorder) {entry : Trace.Entry}
    (hentry : (script.resolve schema settings).get? node.id = some entry)
    (hfailure : entry.isFailure = true) :
    ∃ other ∈ script.preorder, ∃ entry reasons,
      (script.resolve schema settings).get? other.id = some entry
        ∧ entry.reasons? = some reasons ∧ Resolver.OwnFailure reasons := by
  obtain ⟨calls, hlies⟩ := mem_preorder_iff.mp hnode
  by_cases hcalls : ∃ call ∈ calls, (script.resolve schema settings).Fails call
  · obtain ⟨s, hs, -⟩ := hlies.exists_stands
    obtain ⟨outer, call, hcall, ⟨reasons, hget⟩, houter⟩ := hs.exists_outermost hcalls
    have hlies := Lies.statement hcall
    exact ⟨_, hlies.mem_preorder, _, reasons, hget, rfl, hlies.ownFailure hids houter hget rfl⟩
  · obtain ⟨reasons, hreasons⟩ := Option.isSome_iff_exists.mp hfailure
    have hown := hlies.ownFailure hids (fun call hcall hfails => hcalls ⟨call, hcall, hfails⟩)
      hentry hreasons
    exact ⟨node, hnode, entry, reasons, hentry, hreasons, hown⟩

end

end Script

theorem Reflects.reported?_eq {node : Script.Node} {entry : Trace.Entry} {resolution : Resolution}
    (h : Reflects node entry resolution)
    (hnode : ∀ id span message, node ≠ .statement (.error id span message)) {reasons : ReasonSet}
    (hreasons : entry.reasons? = some reasons) : resolution.reported? = some reasons := by
  cases h with
  | elementFailed | notAssigned | factoryFailed => exact hreasons
  | error => exact absurd rfl (hnode _ _ _)
  | added | configured | assigned | literal | factory => cases hreasons

/-- Without error statements a document with failures has one that is an error. -/
theorem Script.exists_reported_error {schema : Schema} {settings : Settings} {script : Script}
    (hids : script.nodeIds.Nodup)
    (herrors : ∀ id span message, .statement (.error id span message) ∉ script.preorder)
    (hfailures : (script.resolvedDocument schema settings).hasFailures = true) :
    ∃ node ∈ script.preorder, ∃ reasons,
      (node.part (script.resolve schema settings)).2.reported? = some reasons
        ∧ Resolved.severityOf reasons = .error := by
  obtain ⟨part, hpart, hfailure⟩ := List.any_eq_true.mp hfailures
  rw [flatten_resolvedDocument] at hpart
  obtain ⟨node, hnode, rfl⟩ := List.mem_map.mp hpart
  obtain ⟨entry, hget, hreflects⟩ := reflects_part schema settings hids hnode
  rw [hreflects.isFailure_eq] at hfailure
  obtain ⟨other, hother, entry', reasons, hget', hreasons, hown⟩ :=
    exists_ownFailure hids hnode hget hfailure
  obtain ⟨entry'', hget'', hreflects'⟩ := reflects_part schema settings hids hother
  obtain rfl := Option.some.inj (hget'.symm.trans hget'')
  have hreported := hreflects'.reported?_eq
    (fun id span message heq => herrors id span message (heq ▸ hother)) hreasons
  exact ⟨other, hother, reasons, hreported, Resolved.severityOf_eq_error hown.1 hown.2⟩

/-! ## The verdict -/

namespace Script

theorem isError_ofFault (code message : String) (span : Span) (label : String)
    (hint : Option String) : (Diagnostic.ofFault code message span label hint).isError = true := by
  cases hint <;> rfl

theorem exists_isError_map_iff {α : Type} {f : α → Diagnostic} (hf : ∀ a, (f a).isError = true)
    {l : List α} : (∃ d ∈ l.map f, d.isError = true) ↔ l ≠ [] := by
  constructor
  · rintro ⟨d, hd, -⟩ rfl
    cases hd
  · intro h
    obtain ⟨a, ha⟩ := List.exists_mem_of_ne_nil _ h
    exact ⟨f a, List.mem_map_of_mem ha, hf a⟩

theorem Reading.exists_isError_iff (reading : Reading) :
    (∃ d ∈ reading.diagnostics, d.isError = true)
      ↔ reading.lexical ≠ [] ∨ reading.structural ≠ [] := by
  have hlexical : ∀ fault : Token.Fault, fault.diagnostic.isError = true := fun _ =>
    isError_ofFault ..
  have hstructural : ∀ fault : Fault, fault.diagnostic.isError = true := fun _ =>
    isError_ofFault ..
  rw [← exists_isError_map_iff hlexical, ← exists_isError_map_iff hstructural, Reading.diagnostics]
  simp only [List.mem_append, or_and_right, exists_or]

end Script

namespace CommandLine

/-- The diagnostics that resolving a script has collected in the end. -/
def resolveDiagnostics (file source : String) (schema : Schema) (settings : Settings) :
    List Diagnostic :=
  let reading := Script.ofText file source
  reading.diagnostics ++ (reading.script.resolvedDocument schema settings).diagnostics schema

/-- Something is wrong with the words of a script, with its statements, or with a part of
its document. -/
def IsFaulty (file source : String) (schema : Schema) (settings : Settings) : Prop :=
  let reading := Script.ofText file source
  reading.lexical ≠ [] ∨ reading.structural ≠ []
    ∨ (reading.script.resolvedDocument schema settings).hasFailures = true

variable (file source : String) (schema : Schema) (settings : Settings)

theorem exists_isError_iff_isFaulty :
    (∃ d ∈ resolveDiagnostics file source schema settings, d.isError = true)
      ↔ IsFaulty file source schema settings := by
  have hreading := (Script.ofText file source).exists_isError_iff
  have hdocument := (Script.ofText file source).script.exists_isError_iff schema settings
  simp only [resolveDiagnostics, List.mem_append, or_and_right, exists_or, hreading, hdocument]
  constructor
  · rintro ((hlexical | hstructural) | ⟨node, hnode, reasons, hreported, -⟩)
    · exact Or.inl hlexical
    · exact Or.inr (Or.inl hstructural)
    · have hfailure := Resolution.isFailure_of_reported? hreported
      refine Or.inr (Or.inr (List.any_eq_true.mpr ⟨_, ?_, hfailure⟩))
      rw [Script.flatten_resolvedDocument]
      exact List.mem_map_of_mem hnode
  · rintro (hlexical | hstructural | hfailures)
    · exact Or.inl (Or.inl hlexical)
    · exact Or.inl (Or.inr hstructural)
    · -- a fault of the statements is an error already, and without one there are no error statements
      by_cases hclean : (Script.ofText file source).structural = []
      · have hids := Script.nodup_nodeIds_ofTokens file (tokenize source).tokens
        have herrors := @Script.error_notMem_preorder file _ hclean
        exact Or.inr (Script.exists_reported_error hids herrors hfailures)
      · exact Or.inl (Or.inr hclean)

theorem code_resolveOutput (hasColor : Bool) (format : Format) :
    (resolveOutput hasColor file source schema settings format).code
      = exitCode (resolveDiagnostics file source schema settings) := by
  cases format with
  | json => rfl
  | text =>
      rw [resolveOutput, summary]
      split <;> rfl

/-- What it means that a script is found faulty just if it is. -/
structure Verdict : Prop where
  diagnostics : (∃ d ∈ resolveDiagnostics file source schema settings, d.isError = true)
    ↔ IsFaulty file source schema settings
  failure : ∀ hasColor format, (resolveOutput hasColor file source schema settings format).code = 1
    ↔ IsFaulty file source schema settings
  success : ∀ hasColor format, (resolveOutput hasColor file source schema settings format).code = 0
    ↔ ¬IsFaulty file source schema settings
  /-- So does the report for tools, which is the whole output in that format. -/
  report : ∀ hasColor, ∃ members success,
    (resolveOutput hasColor file source schema settings .json).stdout
        = (Json.object members).render ++ "\n"
      ∧ members.lookup "success" = some (.bool success)
      ∧ (success = false ↔ IsFaulty file source schema settings)

theorem exitCode_eq_one_iff {ds : List Diagnostic} :
    exitCode ds = 1 ↔ ∃ d ∈ ds, d.isError = true := by
  rw [exitCode, ← List.any_eq_true]
  split <;> simp_all

theorem exitCode_eq_zero_iff {ds : List Diagnostic} :
    exitCode ds = 0 ↔ ¬∃ d ∈ ds, d.isError = true := by
  rw [exitCode, ← List.any_eq_true]
  split <;> simp_all

theorem countP_isError_eq_zero_iff {ds : List Diagnostic} :
    ds.countP Diagnostic.isError = 0 ↔ ¬∃ d ∈ ds, d.isError = true := by
  rw [List.countP_eq_zero]
  simp

/-- **No faulty script passes and no other one fails.** -/
theorem verdict : Verdict file source schema settings where
  diagnostics := exists_isError_iff_isFaulty file source schema settings
  failure hasColor format := by
    rw [code_resolveOutput, exitCode_eq_one_iff, exists_isError_iff_isFaulty]
  success hasColor format := by
    rw [code_resolveOutput, exitCode_eq_zero_iff, exists_isError_iff_isFaulty]
  report hasColor := by
    let errors := (resolveDiagnostics file source schema settings).countP Diagnostic.isError
    refine ⟨_, errors == 0, rfl, rfl, ?_⟩
    rw [beq_eq_false_iff_ne, ne_eq, countP_isError_eq_zero_iff, not_not, exists_isError_iff_isFaulty]

end CommandLine

end Declarative
