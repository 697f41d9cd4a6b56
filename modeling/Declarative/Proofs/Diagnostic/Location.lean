import Declarative.Diagnostic.Report
import Declarative.Diagnostic.Terminal
import Declarative.Proofs.Diagnostic.Explained
import Declarative.Proofs.Diagnostic.InRange
import Declarative.Proofs.Document.Determined
import Declarative.Proofs.Parser.Numbers
import Mathlib.Data.List.Sort

/-!
# Where the outputs say that a diagnostic is

The report says where the primary span of a diagnostic starts. The terminal says it in one row, of which
the line is the first one shown and the column is that of the first label
(`Diagnostic.Terminal.shownAt_of_labels`). So the two name the same position just where no label starts
on a line further up, and where the first label has the column of the primary span
(`Diagnostic.locatedAlike_iff`). The diagnostics that are made of a text begin with their primary label
and have no other in front of it, and so they are located alike (`Script.locatedAlike_ofText`).
-/

namespace Declarative

/-- The member of an object under the key. -/
def Json.member? (key : String) : Json → Option Json
  | object members => members.lookup key
  | _ => none

namespace Diagnostic

/-! ## What the report says -/

section

variable {key other : String}

theorem lookup_cons_ne (h : key ≠ other) (value : Json) (members : List (String × Json)) :
    ((other, value) :: members).lookup key = members.lookup key := by
  rw [List.lookup_cons, beq_false_of_ne h]

theorem lookup_optionalMember_self (key : String) (value : Option Json) :
    (optionalMember key value).lookup key = value := by
  cases value with
  | none => rfl
  | some value => exact List.lookup_cons_self

theorem lookup_optionalMember_ne (h : key ≠ other) (value : Option Json) :
    (optionalMember other value).lookup key = none := by
  cases value with
  | none => rfl
  | some value => exact lookup_cons_ne h value []

theorem lookup_textsMember_ne (h : key ≠ other) (texts : List String) :
    (textsMember other texts).lookup key = none := by
  cases texts with
  | nil => rfl
  | cons text texts => exact lookup_cons_ne h _ []

end

namespace Report

variable (lines : LineMap) (d : Diagnostic)

theorem member?_location :
    (diagnostic lines d).member? "location" = d.primarySpan?.map (location lines) := by
  simp [diagnostic, Json.member?, lookup_cons_ne, lookup_optionalMember_self,
    lookup_optionalMember_ne, lookup_textsMember_ne, List.lookup_append]

theorem member?_suggestion :
    (diagnostic lines d).member? "suggestion"
      = (d.help.bind (·.replacement)).map (replacement lines) := by
  simp [diagnostic, Json.member?, lookup_cons_ne, lookup_optionalMember_self,
    lookup_optionalMember_ne, lookup_textsMember_ne, List.lookup_append]

/-- The report says that the diagnostic is at the position. -/
def LocatedAt (p : Position) : Prop :=
  ∃ location, (diagnostic lines d).member? "location" = some location
    ∧ location.member? "line" = some (.natural p.line)
    ∧ location.member? "column" = some (.natural p.column)

variable {lines d}

theorem LocatedAt.unique {p q : Position} (hp : LocatedAt lines d p) (hq : LocatedAt lines d q) :
    p = q := by
  obtain ⟨location, hlocation, hline, hcolumn⟩ := hp
  obtain ⟨location', hlocation', hline', hcolumn'⟩ := hq
  obtain rfl := Option.some.inj (hlocation.symm.trans hlocation')
  have hlines := Json.natural.inj (Option.some.inj (hline.symm.trans hline'))
  have hcolumns := Json.natural.inj (Option.some.inj (hcolumn.symm.trans hcolumn'))
  exact (Position.mk.injEq ..).mpr ⟨hlines, hcolumns⟩

theorem locatedAt_of_primarySpan? {span : Span} (h : d.primarySpan? = some span) :
    LocatedAt lines d (lines.locate span.start) := by
  refine ⟨location lines span, ?_, rfl, rfl⟩
  rw [member?_location, h, Option.map_some]

end Report

/-! ## What the terminal says -/

namespace Terminal

open Text (blanks)

variable (t : Terminal) (d : Diagnostic)

/-- The row that names a position. -/
def locationRow (p : Position) : String :=
  blanks 2 ++ t.paint (.ofColor .blue) "-->" ++ " " ++ t.file.getD "<source>" ++ ":" ++
    toString p.line ++ ":" ++ toString p.column ++ "\n"

/-- The terminal says that the diagnostic is at the position, in the row below the message. -/
def ShownAt (p : Position) : Prop :=
  ∃ below, t.format d = t.header d ++ (t.locationRow p ++ below)

variable {t d}

theorem ShownAt.unique {p q : Position} (hp : t.ShownAt d p) (hq : t.ShownAt d q) : p = q := by
  obtain ⟨below, hbelow⟩ := hp
  obtain ⟨below', hbelow'⟩ := hq
  have hrows := (String.append_right_inj _).mp (hbelow.symm.trans hbelow')
  have hchars := congrArg String.toList hrows
  simp only [locationRow, String.toList_append, List.append_assoc, List.append_cancel_left_eq] at hchars
  have hcolon : ∀ n : Nat, ':' ∉ (toString n).toList := Text.notMem_toString (by decide)
  have hend : ∀ n : Nat, '\n' ∉ (toString n).toList := Text.notMem_toString (by decide)
  obtain ⟨hline, hbehind⟩ := Text.append_cons_inj (hcolon p.line) (hcolon q.line) hchars
  obtain ⟨hcolumn, -⟩ := Text.append_cons_inj (hend p.column) (hend q.column) hbehind
  have hlines := Text.toString_injective (String.toList_inj.mp hline)
  have hcolumns := Text.toString_injective (String.toList_inj.mp hcolumn)
  exact (Position.mk.injEq ..).mpr ⟨hlines, hcolumns⟩

theorem exists_least_mergeSort {numbers : List Nat} (h : numbers ≠ []) :
    ∃ least others, numbers.mergeSort (· ≤ ·) = least :: others ∧ least ∈ numbers
      ∧ ∀ n ∈ numbers, least ≤ n := by
  have hperm := List.mergeSort_perm numbers (· ≤ ·)
  have hsorted := List.pairwise_mergeSort' (· ≤ ·) numbers
  obtain ⟨least, others, hsort⟩ := List.exists_cons_of_ne_nil
    (mt (fun hnil => (List.Perm.nil_eq (hnil ▸ hperm)).symm) h)
  rw [hsort] at hperm hsorted
  refine ⟨least, others, hsort, hperm.mem_iff.mp (List.mem_cons_self ..), fun n hn => ?_⟩
  rcases List.mem_cons.mp (hperm.mem_iff.mpr hn) with rfl | hbehind
  · exact Nat.le_refl _
  · exact List.rel_of_pairwise_cons hsorted hbehind

def startLines (t : Terminal) (d : Diagnostic) : List Nat :=
  d.labels.map fun label => (t.lines.locate label.span.start).line

/-- The first line shown is the first one on which a label starts. -/
theorem exists_first_annotatedLine (h : d.labels ≠ []) :
    ∃ first others, t.annotatedLines d = first :: others ∧ first.number ∈ t.startLines d
      ∧ ∀ n ∈ t.startLines d, first.number ≤ n := by
  have hnumbers : (d.labels.map t.annotation).map (·.1) = t.startLines d := by
    rw [List.map_map]
    rfl
  have hne : t.startLines d ≠ [] := mt List.map_eq_nil_iff.mp h
  obtain ⟨least, others, hsort, hmem, hleast⟩ := exists_least_mergeSort hne
  rw [annotatedLines, hnumbers, hsort, List.eraseDups_cons, List.map_cons]
  exact ⟨_, _, rfl, hmem, hleast⟩

/-- The terminal takes the line from the label furthest up and the column from the first label. -/
theorem shownAt_of_labels {label : Label} {others : List Label} (h : d.labels = label :: others) :
    ∃ top ∈ t.startLines d, (∀ n ∈ t.startLines d, top ≤ n)
      ∧ t.ShownAt d ⟨top, (t.lines.locate label.span.start).column⟩ := by
  obtain ⟨first, below, hlines, hmem, hleast⟩ :=
    exists_first_annotatedLine (t := t) (d := d) (by simp [h])
  refine ⟨first.number, hmem, hleast, ?_⟩
  have hsnippet : t.format d = String.join (t.header d :: t.location first label ::
      (t.lineRows (marginOf (first :: below)) none (first :: below) ++ t.footer d)) := by
    rw [format, hlines, h]
    rfl
  rw [ShownAt, hsnippet, String.join_cons, String.join_cons]
  exact ⟨_, rfl⟩

end Terminal

/-! ## Where they agree -/

theorem exists_primarySpan?_of_labels {d : Diagnostic} (h : d.labels ≠ []) :
    ∃ primary ∈ d.labels, d.primarySpan? = some primary.span := by
  obtain ⟨label, others, hlabels⟩ := List.exists_cons_of_ne_nil h
  cases hfind : d.labels.find? (·.style == .primary) with
  | none => exact ⟨label, by simp [hlabels], by rw [primarySpan?, hfind, hlabels]; rfl⟩
  | some primary => exact ⟨primary, List.mem_of_find?_eq_some hfind, by rw [primarySpan?, hfind]; rfl⟩

/-- Both outputs say that the diagnostic is at one and the same position. -/
def LocatedAlike (t : Terminal) (d : Diagnostic) : Prop :=
  ∃ p, t.ShownAt d p ∧ Report.LocatedAt t.lines d p

section

variable {t : Terminal} {d : Diagnostic} {p q : Position}

theorem locatedAlike_iff_eq (hp : t.ShownAt d p) (hq : Report.LocatedAt t.lines d q) :
    LocatedAlike t d ↔ p = q := by
  constructor
  · rintro ⟨r, hshown, hlocated⟩
    exact (hp.unique hshown).trans (hlocated.unique hq)
  · rintro rfl
    exact ⟨p, hp, hq⟩

/-- They agree just where no label starts above the line of the primary span and the first label has its
column. -/
theorem locatedAlike_iff {label primary : Label} {others : List Label}
    (h : d.labels = label :: others) (hprimary : primary ∈ d.labels)
    (hspan : d.primarySpan? = some primary.span) :
    LocatedAlike t d ↔ (∀ n ∈ t.startLines d, (t.lines.locate primary.span.start).line ≤ n)
      ∧ (t.lines.locate label.span.start).column
        = (t.lines.locate primary.span.start).column := by
  obtain ⟨top, htop, hleast, hshown⟩ := Terminal.shownAt_of_labels (t := t) h
  have hline : (t.lines.locate primary.span.start).line ∈ t.startLines d :=
    List.mem_map_of_mem (f := fun label => (t.lines.locate label.span.start).line) hprimary
  rw [locatedAlike_iff_eq hshown (Report.locatedAt_of_primarySpan? hspan)]
  constructor
  · intro hsame
    have hlines : top = (t.lines.locate primary.span.start).line := congrArg Position.line hsame
    have hcolumns := congrArg Position.column hsame
    exact ⟨hlines ▸ hleast, hcolumns⟩
  · rintro ⟨habove, hcolumn⟩
    have hlines : top = (t.lines.locate primary.span.start).line :=
      Nat.le_antisymm (hleast _ hline) (habove top htop)
    exact (Position.mk.injEq ..).mpr ⟨hlines, hcolumn⟩

end

/-- **Where the two outputs say that a diagnostic with labels is**: for the report it is at the start of
the primary span, for the terminal on the first line on which a label starts, at the column of the first
label. They agree just where no label starts above the line of the primary span and the first label has
its column. -/
theorem located_of_labels (hasColor : Bool) (file : Option String) (source : String) {d : Diagnostic}
    {label : Label} {others : List Label} (h : d.labels = label :: others) :
    let t : Terminal := ⟨hasColor, file, .ofSource source⟩
    ∃ primary ∈ d.labels, d.primarySpan? = some primary.span
      ∧ Report.LocatedAt t.lines d (t.lines.locate primary.span.start)
      ∧ (∃ top ∈ t.startLines d, (∀ n ∈ t.startLines d, top ≤ n)
        ∧ t.ShownAt d ⟨top, (t.lines.locate label.span.start).column⟩)
      ∧ (LocatedAlike t d ↔ (∀ n ∈ t.startLines d, (t.lines.locate primary.span.start).line ≤ n)
        ∧ (t.lines.locate label.span.start).column
          = (t.lines.locate primary.span.start).column) := by
  intro t
  obtain ⟨primary, hprimary, hspan⟩ := exists_primarySpan?_of_labels (d := d) (by simp [h])
  exact ⟨primary, hprimary, hspan, Report.locatedAt_of_primarySpan? hspan,
    Terminal.shownAt_of_labels h, locatedAlike_iff h hprimary hspan⟩

theorem located_of_labels_below :
    let d := ((new .error "no such name").withPrimary ⟨0, 2⟩ "here").withSecondary ⟨5, 7⟩ "there"
    d.labels = [⟨⟨0, 2⟩, .primary, some "here"⟩, ⟨⟨5, 7⟩, .secondary, some "there"⟩]
      ∧ LocatedAlike ⟨false, none, .ofSource "ab\n  cd"⟩ d := by
  intro d
  have hlabels : d.labels
      = [⟨⟨0, 2⟩, .primary, some "here"⟩, ⟨⟨5, 7⟩, .secondary, some "there"⟩] := by decide
  refine ⟨hlabels, ?_⟩
  obtain ⟨primary, -, hspan, -, -, hiff⟩ := located_of_labels false none "ab\n  cd" hlabels
  have hprimary : primary.span = ⟨0, 2⟩ := Option.some.inj (hspan.symm.trans (by decide))
  rw [hiff, hprimary]
  decide +kernel

/-- A related place further up takes the line away from the primary one, and keeps its own column: the
terminal names a position at which no label starts. -/
theorem located_where_no_label_starts :
    let t : Terminal := ⟨false, none, .ofSource "ab\n  cd"⟩
    let d := ((new .error "no such name").withPrimary ⟨5, 7⟩ "here").withSecondary ⟨0, 1⟩ "there"
    t.ShownAt d ⟨1, 3⟩ ∧ Report.LocatedAt t.lines d ⟨2, 3⟩ ∧ ¬LocatedAlike t d
      ∧ ∀ label ∈ d.labels, t.lines.locate label.span.start ≠ ⟨1, 3⟩ := by
  intro t d
  have hlabels : d.labels
      = [⟨⟨5, 7⟩, .primary, some "here"⟩, ⟨⟨0, 1⟩, .secondary, some "there"⟩] := by decide
  obtain ⟨top, htop, hleast, hshown⟩ := Terminal.shownAt_of_labels (t := t) hlabels
  have hlines : t.startLines d = [2, 1] := by decide +kernel
  obtain rfl : top = 1 := by
    have hle : top ≤ 1 := hleast 1 (by simp [hlines])
    simp only [hlines, List.mem_cons, List.not_mem_nil, or_false] at htop
    omega
  have hspan : d.primarySpan? = some ⟨5, 7⟩ := by decide
  have hlocated : Report.LocatedAt t.lines d ⟨2, 3⟩ := Report.locatedAt_of_primarySpan? hspan
  refine ⟨hshown, hlocated, ?_, by decide +kernel⟩
  rw [locatedAlike_iff_eq hshown hlocated]
  decide +kernel

/-! ## Diagnostics of a text -/

theorem labels_ofFault (code message : String) (span : Span) (label : String)
    (hint : Option String) :
    (ofFault code message span label hint).labels = [⟨span, .primary, some label⟩] := by
  cases hint <;> rfl

/-- Where the first label is primary, and no label starts in front of it, both outputs say that the
diagnostic is there. -/
theorem locatedAlike_of_first {t : Terminal} {d : Diagnostic} {label : Label} {others : List Label}
    (h : d.labels = label :: others) (hstyle : label.style = .primary)
    (hbehind : ∀ other ∈ d.labels, label.span.start ≤ other.span.start) : LocatedAlike t d := by
  have hspan : d.primarySpan? = some label.span := by
    rw [primarySpan?, h, List.find?_cons_of_pos (by simp [hstyle])]
    rfl
  refine (locatedAlike_iff h (h ▸ List.mem_cons_self ..) hspan).mpr ⟨fun n hn => ?_, rfl⟩
  obtain ⟨other, hother, rfl⟩ := List.mem_map.mp hn
  exact LineMap.line_locateIn_mono _ _ (hbehind other hother)

end Diagnostic

namespace Script

open Diagnostic

variable {source text : String} {schema : Schema} {settings : Settings}

/-- The labels of a node of a text stand at its name or behind. -/
theorem start_le_of_mem_shown {node : Node} (hnode : node ∈ (ofText source text).script.preorder) :
    ∀ span ∈ node.shown, node.span.start ≤ span.start := by
  intro span hspan
  unfold Node.shown at hspan
  split at hspan
  · exact Nat.le_of_eq (congrArg Span.start (List.mem_singleton.mp hspan)).symm
  · rename_i id outer target assigned
    rcases List.mem_pair.mp hspan with rfl | rfl
    · exact Nat.le_refl _
    · -- what is assigned stands behind the name
      obtain ⟨lo, hi, hlaid, -⟩ := laid_ofText source text
      obtain ⟨calls, hlies⟩ := mem_preorder_iff.mp hnode
      obtain ⟨hstands⟩ := hlies
      have hstarts := (ascending_of_laid hlaid).sublist hstands.preorder_sublist
      exact Nat.le_of_lt (List.rel_of_pairwise_cons hstarts assigned.self_mem_preorder)
  · cases hspan
  · cases hspan
  · exact Nat.le_of_eq (congrArg Span.start (List.mem_singleton.mp hspan)).symm

/-- **The diagnostics of a text are located alike**, whatever the text, the schema and the settings are:
of none of them do the terminal and the report name two places. -/
theorem locatedAlike_ofText (hasColor : Bool) (file : Option String) (source text : String)
    (schema : Schema) (settings : Settings) :
    let reading := ofText source text
    ∀ d ∈ reading.diagnostics ++ (reading.script.resolvedDocument schema settings).diagnostics schema,
      LocatedAlike ⟨hasColor, file, .ofSource text⟩ d := by
  intro reading d hd
  have hids : reading.script.nodeIds.Nodup := nodup_nodeIds_ofTokens source (tokenize text).tokens
  rcases List.mem_append.mp hd with hfault | hfailure
  · -- a fault has but one label
    have hlabels : ∃ span text, d.labels = [⟨span, .primary, some text⟩] := by
      rcases List.mem_append.mp hfault with hfault | hfault
      · obtain ⟨fault, -, rfl⟩ := List.mem_map.mp hfault
        exact ⟨_, _, labels_ofFault ..⟩
      · obtain ⟨fault, -, rfl⟩ := List.mem_map.mp hfault
        exact ⟨_, _, labels_ofFault ..⟩
    obtain ⟨span, text, hlabels⟩ := hlabels
    refine locatedAlike_of_first hlabels rfl fun other hother => ?_
    rw [hlabels] at hother
    rw [List.mem_singleton.mp hother]
  · obtain ⟨calls, node, entry, reasons, hlies, -, -, hexplained⟩ :=
      (mem_diagnostics_iff hids).mp hfailure
    obtain ⟨complaint, name, -, hname, hextends⟩ := Node.extends_of_explained? hexplained
    obtain ⟨others, hothers⟩ := hextends.labels
    refine locatedAlike_of_first hothers.symm rfl fun other hother => ?_
    exact start_le_of_mem_shown hlies.mem_preorder _ (hextends.shown other hother)

end Script

end Declarative
