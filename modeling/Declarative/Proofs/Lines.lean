import Declarative.CommandLine.Run
import Declarative.Proofs.Alignment
import Declarative.Proofs.Document.ReadBack
import Declarative.Proofs.Parser.Numbers
import Declarative.Proofs.Parser.Spans
import Declarative.Proofs.Places
import Declarative.Proofs.Schema.Acceptance

/-!
# Resolutions line by line

A resolved document is shown with one entry for each node of the script, in the order of the text. An
entry goes on to a new line just as often as the node itself does, and of all nodes only a string can,
whose content is shown as it is (`Script.lined_ofText`). So the output has one line for each node just
where no string of the script has a line break in it.

This is so for schemas whose names stay on one line (`Schema.Unbroken`). In a built schema types are
declared classes, so that nothing else can bring line breaks into the entry of a call or an assignment
(`Resolver.lineBreaks_render`).
-/

namespace Declarative

/-! ## Line breaks -/

namespace Text

/-- The characters behind which a text goes on at the start of a line. -/
def isLineBreak (c : Char) : Bool := c == '\n' || c == '\r'

def lineBreaks (text : String) : Nat := text.toList.countP isLineBreak

@[simp] theorem lineBreaks_append (a b : String) :
    lineBreaks (a ++ b) = lineBreaks a + lineBreaks b := by
  rw [lineBreaks, String.toList_append, List.countP_append, lineBreaks, lineBreaks]

theorem lineBreaks_join_eq_zero_iff {texts : List String} :
    lineBreaks (String.join texts) = 0 ↔ ∀ text ∈ texts, lineBreaks text = 0 := by
  induction texts with
  | nil => simp [lineBreaks]
  | cons text texts ih =>
      rw [String.join_cons, lineBreaks_append, Nat.add_eq_zero_iff, ih, List.forall_mem_cons]

theorem lineBreaks_intercalate {separator : String} (hseparator : lineBreaks separator = 0) :
    ∀ {texts : List String}, (∀ text ∈ texts, lineBreaks text = 0) →
      lineBreaks (separator.intercalate texts) = 0
  | [], _ => by simp [lineBreaks]
  | [text], h => by simpa using h text (List.mem_singleton_self text)
  | text :: next :: texts, h => by
      obtain ⟨hfirst, hothers⟩ := List.forall_mem_cons.mp h
      rw [String.intercalate_cons_cons, lineBreaks_append, lineBreaks_append, hfirst, hseparator,
        lineBreaks_intercalate hseparator hothers]

/-- Entries that are written one below the other have a line break each besides their own. -/
theorem lineBreaks_join_lines (entries : List String) :
    lineBreaks (String.join (entries.map (· ++ "\n")))
      = entries.length + lineBreaks (String.join entries) := by
  induction entries with
  | nil => simp
  | cons entry entries ih =>
      have hend : lineBreaks "\n" = 1 := by decide
      rw [List.map_cons, String.join_cons, String.join_cons, lineBreaks_append, lineBreaks_append,
        lineBreaks_append, ih, hend, List.length_cons]
      omega

theorem lineBreaks_toString (i : Int) : lineBreaks (toString i) = 0 := by
  have hdigits : ∀ n, (Nat.toDigits 10 n).countP isLineBreak = 0 := fun n =>
    List.countP_eq_zero.mpr fun c hc hbreak => by
      have hdigit := isDigit_of_mem hc
      rcases Bool.or_eq_true_iff.mp hbreak with h | h <;> simp_all
  rcases toList_toString_cases i with ⟨-, htext⟩ | ⟨-, htext⟩
  · rw [lineBreaks, htext, hdigits]
  · rw [lineBreaks, htext, List.countP_cons_of_neg (by decide), hdigits]

end Text

open Text (lineBreaks)

/-! ## Names of a schema -/

theorem ReasonSet.lineBreaks_display (reasons : ReasonSet) : lineBreaks reasons.display = 0 := by
  refine Text.lineBreaks_intercalate (by decide) fun text htext => ?_
  obtain ⟨reason, -, rfl⟩ := List.mem_map.mp htext
  cases reason <;> decide +kernel

theorem DataType.lineBreaks_display {t : DataType}
    (h : ∀ name, t = .named name → lineBreaks name = 0) : lineBreaks t.display = 0 := by
  cases t with
  | named name => exact h name rfl
  | string | int | long | boolean | unit | null => decide

namespace Schema

theorem Semantics.lineBreaks_label (semantics : Semantics) : lineBreaks semantics.label = 0 := by
  cases semantics <;> (rw [label]; decide)

/-- The names that a schema declares stay on one line. -/
structure Unbroken (s : Schema) : Prop where
  classes : ∀ c ∈ s.classes, lineBreaks c.name = 0
  properties : ∀ c ∈ s.classes, ∀ p ∈ c.properties, lineBreaks p.name = 0
  functions : ∀ c ∈ s.classes, ∀ f ∈ c.functions, lineBreaks f.name = 0

namespace Unbroken

variable {b : Builder} {s : Schema} (hs : s.Unbroken) (hb : b.build = .ok s) {receiver : String}

include hs hb

/-- Functions refer to classes that are declared, whose names stay on one line. -/
theorem lineBreaks_of_refers {f : Function} (hf : s.Declares receiver f) {type : String}
    (h : f.Refers type) : lineBreaks type = 0 := by
  obtain ⟨-, rfl⟩ := Builder.build_eq_ok hb
  obtain ⟨c, hc, -, hmem⟩ := hf
  obtain ⟨d, hd, rfl⟩ := (Builder.valid_of_build hb).references c hc f hmem type h
  exact hs.classes d hd

theorem lineBreaks_signature {f : Function} (hf : s.Declares receiver f) :
    lineBreaks f.signature = 0 := by
  have hparameters : lineBreaks (", ".intercalate (f.parameters.map DataType.display)) = 0 := by
    refine Text.lineBreaks_intercalate (by decide) fun text htext => ?_
    obtain ⟨t, ht, rfl⟩ := List.mem_map.mp htext
    exact DataType.lineBreaks_display fun name hname =>
      hs.lineBreaks_of_refers hb hf (.parameter (hname ▸ ht))
  have hreturns : lineBreaks f.returns.display = 0 :=
    DataType.lineBreaks_display fun name hname => hs.lineBreaks_of_refers hb hf (.result hname)
  obtain ⟨c, hc, -, hmem⟩ := hf
  have hopen : lineBreaks "(" = 0 := by decide
  have hclose : lineBreaks "): " = 0 := by decide
  simp only [Function.signature, Text.lineBreaks_append, hs.functions c hc f hmem, hparameters,
    hreturns, hopen, hclose]

theorem lineBreaks_called {f : Function} (hf : s.Declares receiver f) :
    lineBreaks (f.semantics.label ++ " " ++ f.signature) = 0 := by
  have hspace : lineBreaks " " = 0 := by decide
  simp only [Text.lineBreaks_append, f.semantics.lineBreaks_label, hs.lineBreaks_signature hb hf,
    hspace]

theorem lineBreaks_configured {f : Function} (hf : s.Declares receiver f) {type : String}
    (htype : f.semantics = .configuring type) :
    lineBreaks (f.semantics.label ++ " " ++ f.name ++ ": " ++ type) = 0 := by
  have htarget := hs.lineBreaks_of_refers hb hf (.configured htype)
  obtain ⟨c, hc, -, hmem⟩ := hf
  have hspace : lineBreaks " " = 0 := by decide
  have hcolon : lineBreaks ": " = 0 := by decide
  simp only [Text.lineBreaks_append, f.semantics.lineBreaks_label, hs.functions c hc f hmem, htarget,
    hspace, hcolon]

theorem lineBreaks_property {p : Property} (hp : s.DeclaresProperty receiver p) :
    lineBreaks (receiver ++ "." ++ p.name ++ ": " ++ p.type.display) = 0 := by
  have htype : lineBreaks p.type.display = 0 := by
    refine DataType.lineBreaks_display fun name hname => ?_
    obtain ⟨-, rfl⟩ := Builder.build_eq_ok hb
    obtain ⟨c, hc, -, hmem⟩ := hp
    obtain ⟨d, hd, rfl⟩ := (Builder.valid_of_build hb).propertyTypes c hc p hmem name hname
    exact hs.classes d hd
  obtain ⟨c, hc, rfl, hmem⟩ := hp
  have hdot : lineBreaks "." = 0 := by decide
  have hcolon : lineBreaks ": " = 0 := by decide
  simp only [Text.lineBreaks_append, hs.classes c hc, hs.properties c hc p hmem, htype, hdot, hcolon]

end Unbroken

end Schema

/-! ## The entries of nodes -/

/-- How many line breaks the content of a node has: only a string can have any. -/
def Script.Node.lineBreaks : Script.Node → Nat
  | .value (.literal _ _ (.string text)) => Text.lineBreaks text
  | _ => 0

theorem Resolution.lineBreaks_name (resolution : Resolution) : lineBreaks resolution.name = 0 := by
  cases resolution with
  | element resolution => cases resolution <;> (rw [name]; decide +kernel)
  | property resolution => cases resolution <;> (rw [name]; decide +kernel)
  | literal resolution => cases resolution <;> (rw [name]; decide +kernel)
  | factory resolution => cases resolution <;> (rw [name]; decide +kernel)
  | error => decide

theorem Resolution.lineBreaks_render_failure {resolution : Resolution} {reasons : ReasonSet}
    (h : resolution.reasons? = some reasons) : lineBreaks resolution.render = 0 := by
  have hopen : lineBreaks "(" = 0 := by decide
  have hclose : lineBreaks ")" = 0 := by decide
  simp only [render, h, Text.lineBreaks_append, resolution.lineBreaks_name,
    reasons.lineBreaks_display, hopen, hclose]

theorem Resolution.lineBreaks_render_success {resolution : Resolution} {summary : String}
    (h : resolution.reasons? = none) (hsummary : resolution.summary? = some summary) :
    lineBreaks resolution.render = lineBreaks summary := by
  have harrow : lineBreaks " -> " = 0 := by decide
  simp only [render, h, hsummary, Text.lineBreaks_append, resolution.lineBreaks_name, harrow,
    Nat.zero_add]

theorem Literal.lineBreaks_display (content : Literal) (id : NodeId) (span : Span) :
    lineBreaks content.display = Script.Node.lineBreaks (.value (.literal id span content)) := by
  have hmark : lineBreaks "L" = 0 := by decide
  cases content with
  | string text => rfl
  | int n => exact Text.lineBreaks_toString _
  | long n => rw [display, Text.lineBreaks_append, Text.lineBreaks_toString, hmark]; rfl
  | bool value => cases value <;> rfl
  | null => rfl

namespace Resolver

theorem configuring_of_ofFunction? {receiver owner type : String} {f g : Schema.Function}
    (h : ElementTarget.ofFunction? receiver f = some (.configured owner type g)) :
    f.semantics = .configuring type := by
  rcases ofFunction?_cases h with ⟨_, _, -, htarget⟩ | ⟨_, hsemantics, htarget⟩
  · cases htarget
  · obtain ⟨-, rfl, -⟩ := ElementTarget.configured.inj htarget
    exact hsemantics

variable {b : Schema.Builder} {schema : Schema} (hb : b.build = .ok schema) (hs : schema.Unbroken)
  {settings : Settings} {stack : ScopeStack} (hground : stack.Grounded)

include hb hs hground

/-- What is recorded of a node is shown with the line breaks of the node itself. -/
theorem lineBreaks_render {node : Script.Node} {resolution : Resolution}
    (h : Reflects node (nodeEntry schema settings stack node) resolution) :
    lineBreaks resolution.render = node.lineBreaks := by
  generalize hentry : nodeEntry schema settings stack node = entry at h
  -- what has resolved is declared by the schema, so that its names are unbroken
  cases h with
  | added =>
      obtain ⟨known, -, hbinds, -⟩ :=
        (elementOutcome_eq_resolved_iff hb hground).mp (Trace.Entry.element.inj hentry)
      rw [Resolution.lineBreaks_render_success rfl rfl]
      exact hs.lineBreaks_called hb hbinds.applicable.1.1
  | configured =>
      obtain ⟨known, -, hbinds, htarget⟩ :=
        (elementOutcome_eq_resolved_iff hb hground).mp (Trace.Entry.element.inj hentry)
      rw [Resolution.lineBreaks_render_success rfl rfl]
      exact hs.lineBreaks_configured hb hbinds.applicable.1.1 (configuring_of_ofFunction? htarget)
  | factory =>
      obtain ⟨known, receiver, -, hbinds⟩ :=
        (factoryOutcome_eq_resolved_iff hb hground).mp (Trace.Entry.value.inj hentry)
      rw [Resolution.lineBreaks_render_success rfl rfl]
      exact hs.lineBreaks_called hb hbinds.applicable.1.1
  | assigned =>
      obtain ⟨known, -, hassigns⟩ :=
        (assignmentOutcome_eq_resolved_iff hb hground).mp (Trace.Entry.assignment.inj hentry)
      rw [Resolution.lineBreaks_render_success rfl rfl]
      exact hs.lineBreaks_property hb hassigns.declared.1
  | @literal id span content type =>
      rw [Resolution.lineBreaks_render_success rfl rfl, content.lineBreaks_display id span]
  | elementFailed | notAssigned | factoryFailed =>
      exact Resolution.lineBreaks_render_failure rfl
  | error =>
      change lineBreaks Resolution.error.render = 0
      decide

end Resolver

/-! ## The output -/

def ResolvedDocument.listing (document : ResolvedDocument) : String :=
  String.join (document.render.map (· ++ "\n"))

namespace Script

/-- A node is shown with what is recorded of it, and with the line breaks that it has itself. -/
structure ShownAs (schema : Schema) (settings : Settings) (script : Script) (node : Node)
    (entry : String) : Prop where
  recorded : ∃ record resolution, (script.resolve schema settings).get? node.id = some record
    ∧ Reflects node record resolution ∧ entry = resolution.render
  lineBreaks_eq : lineBreaks entry = node.lineBreaks

section

variable {b : Schema.Builder} {schema : Schema} (hb : b.build = .ok schema) (hs : schema.Unbroken)
  (settings : Settings) {script : Script} (hids : script.nodeIds.Nodup)

include hb hs hids

theorem shownAs_render : List.Forall₂ (script.ShownAs schema settings) script.preorder
    (script.resolvedDocument schema settings).render := by
  rw [render_resolvedDocument, List.forall₂_map_right_iff, List.forall₂_same]
  intro node hnode
  obtain ⟨calls, hlies⟩ := mem_preorder_iff.mp hnode
  obtain ⟨stack, -, hground, hget⟩ := hlies.exists_entry hids
  obtain ⟨record, hrecord, hreflects⟩ := reflects_part schema settings hids hnode
  obtain rfl := Option.some.inj (hget.symm.trans hrecord)
  exact ⟨⟨_, _, hget, hreflects, rfl⟩, Resolver.lineBreaks_render hb hs hground hreflects⟩

end

theorem lineBreaks_render_eq_zero_iff {schema : Schema} {settings : Settings} {script : Script}
    {nodes : List Node} {entries : List String}
    (h : List.Forall₂ (script.ShownAs schema settings) nodes entries) :
    (∀ entry ∈ entries, lineBreaks entry = 0) ↔ ∀ node ∈ nodes, node.lineBreaks = 0 := by
  induction h with
  | nil => simp
  | cons hentry _ ih =>
      rw [List.forall_mem_cons, List.forall_mem_cons, ih, hentry.lineBreaks_eq]

/-- The output of the command: a title, the entries below each other, and the result. -/
theorem exists_stdout_eq (hasColor : Bool) (file text : String) (schema : Schema)
    (settings : Settings) : ∃ title result, lineBreaks title = 0 ∧ lineBreaks result ≤ 1
      ∧ (CommandLine.resolveOutput hasColor file text schema settings .text).stdout
          = title ++ "\n"
            ++ ((ofText file text).script.resolvedDocument schema settings).listing ++ result := by
  have htitle : lineBreaks (CommandLine.banner hasColor .boldText "Resolutions") = 0 := by
    cases hasColor <;> decide +kernel
  have hresult : lineBreaks (CommandLine.banner hasColor (.boldColor .green) "Resolve OK" ++ ""
      ++ "\n") ≤ 1 := by
    cases hasColor <;> decide +kernel
  rw [CommandLine.resolveOutput, List.map_cons, String.join_cons, CommandLine.summary]
  split
  · exact ⟨_, _, htitle, hresult, by simp only [String.append_assoc]; rfl⟩
  · exact ⟨_, "", htitle, Nat.zero_le _, by rw [String.append_empty]; rfl⟩

/-- What it means that the resolutions of a text are shown line by line. -/
structure Lined (schema : Schema) (settings : Settings) (file text : String) : Prop where
  /-- There is one entry for each node. -/
  entries : List.Forall₂ ((ofText file text).script.ShownAs schema settings)
    (ofText file text).script.preorder
    ((ofText file text).script.resolvedDocument schema settings).render
  ascending : (ofText file text).script.preorder.Pairwise fun a b => a.span.start < b.span.start
  unbroken_iff :
    (∀ entry ∈ ((ofText file text).script.resolvedDocument schema settings).render,
        lineBreaks entry = 0)
      ↔ ∀ node ∈ (ofText file text).script.preorder, node.lineBreaks = 0
  output : ∀ hasColor, ∃ title result, lineBreaks title = 0 ∧ lineBreaks result ≤ 1
    ∧ (CommandLine.resolveOutput hasColor file text schema settings .text).stdout
        = title ++ "\n"
          ++ ((ofText file text).script.resolvedDocument schema settings).listing ++ result
  /-- The entries take up one line for each node, or more. -/
  length_le : (ofText file text).script.preorder.length
    ≤ lineBreaks ((ofText file text).script.resolvedDocument schema settings).listing
  length_eq_iff :
    lineBreaks ((ofText file text).script.resolvedDocument schema settings).listing
        = (ofText file text).script.preorder.length
      ↔ ∀ node ∈ (ofText file text).script.preorder, node.lineBreaks = 0

/-- **Resolutions are shown line by line**, whatever the text is, where the names of the schema stay
on one line. -/
theorem lined_ofText {b : Schema.Builder} {schema : Schema} (hb : b.build = .ok schema)
    (hs : schema.Unbroken) (settings : Settings) (file text : String) :
    Lined schema settings file text := by
  have hids : (ofText file text).script.nodeIds.Nodup := nodup_nodeIds_ofTokens file _
  have hentries := shownAs_render hb hs settings hids
  have hunbroken := lineBreaks_render_eq_zero_iff hentries
  obtain ⟨lo, hi, hlaid, -⟩ := laid_ofText file text
  have hcount : lineBreaks ((ofText file text).script.resolvedDocument schema settings).listing = _ :=
    Text.lineBreaks_join_lines _
  rw [← hentries.length_eq] at hcount
  refine ⟨hentries, ascending_of_laid hlaid, hunbroken,
    fun hasColor => exists_stdout_eq hasColor file text schema settings, ?_, ?_⟩
  · exact hcount ▸ Nat.le_add_right _ _
  · rw [← hunbroken, ← Text.lineBreaks_join_eq_zero_iff]
    omega

theorem lined_ofText_bed :
    let builder := (Schema.Builder.empty "Garden")
      |>.declare "Garden" [.adding "bed" [.int] "Bed" .allowed]
      |>.declare "Bed" [.property "name" .string false false]
    let schema := Schema.ofClasses "Garden" builder.classes [("Garden", []), ("Bed", [])]
    let text := "bed(3) \x7b name = \"rose\" \x7d"
    builder.build = .ok schema ∧ schema.Unbroken
      ∧ Lined schema ⟨true⟩ "garden" text
      ∧ ((ofText "garden" text).script.resolvedDocument schema ⟨true⟩).render
          = ["ContainerElementResolved -> element bed(Int): Bed", "LiteralValueResolved -> 3",
              "PropertyAssignmentResolved -> Bed.name: String", "LiteralValueResolved -> rose"] := by
  intro builder schema text
  have hb : builder.build = .ok schema := by decide
  have hs : schema.Unbroken := by
    constructor <;> decide
  exact ⟨hb, hs, lined_ofText hb hs _ _ _, by decide +kernel⟩

/-- An escaped line break in a string is shown as it is: two nodes make three lines. -/
theorem listing_broken_string :
    let builder := (Schema.Builder.empty "Garden").declare "Garden"
      [.property "name" .string false false]
    let schema := Schema.ofClasses "Garden" builder.classes [("Garden", [])]
    let script := (ofText "garden" "name = \"rose\\nbed\"").script
    let document := script.resolvedDocument schema ⟨true⟩
    builder.build = .ok schema
      ∧ script.preorder.length = 2
      ∧ document.render = ["PropertyAssignmentResolved -> Garden.name: String",
          "LiteralValueResolved -> rose\nbed"]
      ∧ (∃ entry ∈ document.render, '\n' ∈ entry.toList)
      ∧ document.listing.toList.count '\n' = 3 := by
  decide +kernel

end Script

end Declarative
