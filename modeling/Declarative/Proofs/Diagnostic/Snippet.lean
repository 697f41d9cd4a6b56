import Mathlib.Data.List.SplitBy
import Mathlib.Data.String.Defs
import Declarative.Proofs.Diagnostic.Location
import Declarative.Proofs.Diagnostic.Underline

/-!
# The lines that the terminal shows

A diagnostic is shown with the lines on which its labels start, from the top downward and each once. Below
each line its labels are underlined, and what they remark stands there: a lone remark behind the marks,
several in rows of their own, each at the column of its label. Nothing that the diagnostic says gets lost
on the way (`Diagnostic.shows_of_within`).
-/

namespace Declarative

namespace Text

/-! ## Texts inside of texts -/

/-- The text is written somewhere in the other. -/
def Appears (part whole : String) : Prop := part.toList <:+: whole.toList

theorem Appears.trans {part middle whole : String} (h : Appears part middle)
    (hmiddle : Appears middle whole) : Appears part whole :=
  List.IsInfix.trans h hmiddle

theorem appears_append (front part back : String) : Appears part (front ++ part ++ back) := by
  rw [Appears, String.toList_append, String.toList_append]
  exact List.infix_append ..

theorem appears_append_left (part back : String) : Appears part (part ++ back) := by
  simpa using appears_append "" part back

theorem appears_append_right (front part : String) : Appears part (front ++ part) := by
  simpa using appears_append front part ""

theorem appears_join {part : String} : ∀ {parts : List String}, part ∈ parts →
    Appears part (String.join parts)
  | first :: others, h => by
      rw [String.join_cons]
      rcases List.mem_cons.mp h with rfl | h
      · exact appears_append_left ..
      · exact (appears_join h).trans (appears_append_right ..)

theorem join_ofList : ∀ runs : List (List Char),
    String.join (runs.map String.ofList) = String.ofList runs.flatten
  | [] => rfl
  | run :: runs => by
      rw [List.map_cons, String.join_cons, join_ofList runs, List.flatten_cons, String.ofList_append]

end Text

namespace Diagnostic

namespace Terminal

open Text (Appears)

/-! ## Rows without colours -/

def headline (d : Diagnostic) : String :=
  d.severity.name ++ d.code.elim "" (fun code => "[" ++ code ++ "]") ++ ": " ++ d.message ++ "\n"

/-- The rows of the notes and of the help, with the line that a replacement makes below. -/
def closing (t : Terminal) (d : Diagnostic) : String :=
  String.join (d.notes.map fun note => "    = note: " ++ note ++ "\n")
    ++ d.help.elim "" fun help =>
      "    = help: " ++ help.message ++ "\n" ++ String.join (help.replacement.elim [] t.replacementRows)

section

variable {t : Terminal} (hplain : t.hasColor = false)

include hplain

theorem paint_of_plain (style : Text.Style) (text : String) : t.paint style text = text := by
  rw [paint, hplain]
  rfl

theorem paintUnderline_of_plain (marks : List Char) :
    t.paintUnderline marks = String.ofList marks := by
  have hrun : t.paintRun = String.ofList := by
    funext run
    unfold paintRun
    split
    · exact paint_of_plain hplain ..
    · exact paint_of_plain hplain ..
    · rfl
  rw [paintUnderline, hrun, Text.join_ofList, List.flatten_splitBy]

theorem row_of_plain (margin : Nat) (content : String) :
    t.row margin content = String.replicate margin ' ' ++ " | " ++ content ++ "\n" := by
  simp only [row, bar, paint_of_plain hplain, String.append_assoc]
  rfl

theorem sourceRow_of_plain (margin number : Nat) (content : String) :
    t.sourceRow margin number content
      = String.leftpad margin ' ' (toString number) ++ " | " ++ content ++ "\n" := by
  have hnumber : Text.padLeft margin (toString number) = String.leftpad margin ' ' (toString number) := by
    rw [Text.padLeft, ← String.length_toList]
    rfl
  simp only [sourceRow, bar, paint_of_plain hplain, hnumber, String.append_assoc]
  rfl

/-- In front of a line stands an empty row, or dots for the lines left out, or nothing. -/
theorem gap_of_plain (margin : Nat) (before : Option Nat) (number : Nat) :
    t.gap margin before number = ""
      ∨ t.gap margin before number = String.replicate margin ' ' ++ " |\n"
      ∨ t.gap margin before number = String.replicate (margin - 1) ' ' ++ " ...\n" := by
  simp only [gap, bar, paint_of_plain hplain, String.append_assoc]
  split
  · exact Or.inr (Or.inl rfl)
  · split
    · exact Or.inr (Or.inr rfl)
    · exact Or.inl rfl

theorem header_of_plain (d : Diagnostic) : t.header d = headline d := by
  simp only [header, paint_of_plain hplain]
  rfl

theorem remark_of_plain (kind text : String) :
    t.remark kind text = "    = " ++ kind ++ ": " ++ text ++ "\n" := by
  simp only [remark, paint_of_plain hplain]
  rfl

theorem join_footer_of_plain (d : Diagnostic) : String.join (t.footer d) = t.closing d := by
  rw [footer, closing, String.join_append]
  congr 1
  · rw [funext fun note => remark_of_plain hplain "note" note]
    rfl
  · cases d.help with
    | none => rfl
    | some help => rw [String.join_cons, remark_of_plain hplain]; rfl

end

/-! ## The labels of a line -/

variable (t : Terminal) (d : Diagnostic)

def labelsOn (number : Nat) : List Label :=
  d.labels.filter fun label => (t.lines.locate label.span.start).line == number

/-- The remarks of labels, each with the column where the label starts. -/
def remarksOf (labels : List Label) : List (Nat × String) :=
  labels.filterMap fun label =>
    label.message.map ((t.lines.locate label.span.start).column, ·)

/-- A remark with a bar at the column to which it belongs. -/
def remarkRow (margin : Nat) (remark : Nat × String) : String :=
  String.replicate margin ' ' ++ " | " ++ String.replicate (remark.1 - 1) ' ' ++ "| " ++ remark.2 ++ "\n"

/-- The row of marks below a line, and the remarks on it: a lone one behind the marks, several below
them. -/
def rowsBelow (margin : Nat) (marks : List Char) : List (Nat × String) → String
  | [] => String.replicate margin ' ' ++ " | " ++ String.ofList marks ++ "\n"
  | [(_, message)] =>
    String.replicate margin ' ' ++ " | " ++ String.ofList marks ++ " " ++ message ++ "\n"
  | remarks =>
    String.replicate margin ' ' ++ " | " ++ String.ofList marks ++ "\n"
      ++ String.join (remarks.map (remarkRow margin))

/-- The text shows the line behind its number, and below it just what its labels cover is underlined and
all that they remark is written. -/
inductive ShowsLine (margin number : Nat) : String → Prop where
  | intro {gap text : String} {marks : List Char} {remarks : List (Nat × String)} :
    gap = "" ∨ gap = String.replicate margin ' ' ++ " |\n"
      ∨ gap = String.replicate (margin - 1) ' ' ++ " ...\n" →
    t.lines.text? number = some text →
    Underlines t.lines (t.labelsOn d number) marks →
    remarks.Perm (t.remarksOf (t.labelsOn d number)) →
    ShowsLine margin number
      (gap ++ (String.leftpad margin ' ' (toString number) ++ " | " ++ text ++ "\n")
        ++ rowsBelow margin marks remarks)

def annotatedLine (number : Nat) : AnnotatedLine :=
  ⟨number, t.lineText number, (t.labelsOn d number).map t.laid⟩

def shownLines : List Nat := ((t.startLines d).mergeSort (· ≤ ·)).eraseDups

theorem annotatedLines_eq : t.annotatedLines d = (t.shownLines d).map (t.annotatedLine d) := by
  have hnumbers : (d.labels.map t.annotation).map (·.1) = t.startLines d := by
    rw [List.map_map]
    rfl
  rw [annotatedLines, hnumbers, shownLines]
  refine List.map_congr_left fun number _ => ?_
  rw [annotatedLine, labelsOn, List.filter_map, List.map_map]
  rfl

theorem pairwise_eraseDups : ∀ {numbers : List Nat}, numbers.Pairwise (· ≤ ·) →
    numbers.eraseDups.Pairwise (· < ·)
  | [], _ => .nil
  | first :: others, h => by
      obtain ⟨hfirst, hothers⟩ := List.pairwise_cons.mp h
      rw [List.eraseDups_cons, List.pairwise_cons]
      refine ⟨fun n hn => ?_, pairwise_eraseDups (hothers.filter _)⟩
      obtain ⟨hmem, hne⟩ := List.mem_filter.mp (List.mem_eraseDups.mp hn)
      exact Nat.lt_of_le_of_ne (hfirst n hmem) (Ne.symm (by simpa using hne))
termination_by numbers => numbers.length
decreasing_by exact Nat.lt_succ_of_le (List.length_filter_le ..)

theorem pairwise_shownLines : (t.shownLines d).Pairwise (· < ·) :=
  pairwise_eraseDups (List.pairwise_mergeSort' (· ≤ ·) (t.startLines d))

theorem mem_shownLines {number : Nat} : number ∈ t.shownLines d ↔ number ∈ t.startLines d := by
  rw [shownLines, List.mem_eraseDups, List.mem_mergeSort]

/-! ## The rows of a line -/

section

variable {t} {d} {source : String} (hplain : t.hasColor = false)

include hplain

omit hplain in
theorem rowsBelow_of_several {margin : Nat} {marks : List Char} {remarks : List (Nat × String)}
    (h : 2 ≤ remarks.length) :
    rowsBelow margin marks remarks
      = String.replicate margin ' ' ++ " | " ++ String.ofList marks ++ "\n"
        ++ String.join (remarks.map (remarkRow margin)) := by
  match remarks with
  | _ :: _ :: _ => rfl

theorem row_of_remark (margin start : Nat) (message : String) :
    t.row margin (Text.blanks (start - 1) ++ "|" ++ " " ++ message)
      = remarkRow margin (start, message) := by
  simp only [row_of_plain hplain, remarkRow, String.append_assoc]
  rfl

/-- Without colours the rows below a line are its marks and its remarks. -/
theorem join_annotationRows (margin : Nat) {line : AnnotatedLine}
    (hmarks : underline line (line.annotations.mergeSort precedes) ≠ []) :
    String.join (t.annotationRows margin line)
      = rowsBelow margin (underline line (line.annotations.mergeSort precedes))
          (((line.annotations.mergeSort precedes).filterMap fun a =>
            a.message.map (a.start, ·)).reverse) := by
  have hremarks : ((line.annotations.mergeSort precedes).filterMap fun a => a.message.map (a.start, ·))
      = ((line.annotations.mergeSort precedes).filterMap fun a => a.message.map (a, ·)).map
          fun remark => (remark.1.start, remark.2) := by
    rw [List.map_filterMap]
    simp only [Option.map_map]
    rfl
  obtain ⟨mark, marks, hcons⟩ := List.exists_cons_of_ne_nil hmarks
  simp only [hremarks, annotationRows, hcons]
  generalize (line.annotations.mergeSort precedes).filterMap _ = remarks
  rcases remarks with _ | ⟨first, _ | ⟨second, others⟩⟩
  · simp [rowsBelow, row_of_plain hplain, paintUnderline_of_plain hplain]
  · simp [rowsBelow, row_of_plain hplain, paintUnderline_of_plain hplain, paint_of_plain hplain,
      String.append_assoc]
  · have hseveral : 2 ≤ ((first :: second :: others).map fun remark =>
        (remark.1.start, remark.2)).reverse.length := by simp
    rw [rowsBelow_of_several hseveral, ← List.map_reverse, List.map_map]
    simp only [String.join_cons, paintUnderline_of_plain hplain, paint_of_plain hplain,
      row_of_remark hplain, row_of_plain hplain]
    rfl

variable (ht : t.lines = .ofSource source) (hlabels : ∀ label ∈ d.labels, label.Within source)

omit hplain in
theorem mem_labelsOn {number : Nat} {label : Label} : label ∈ t.labelsOn d number
    ↔ label ∈ d.labels ∧ (t.lines.locate label.span.start).line = number := by
  rw [labelsOn, List.mem_filter, beq_iff_eq]

include ht hlabels

omit hplain in
/-- Whatever order the annotations of a line are in, they bring the remarks of its labels. -/
theorem perm_remarksOf (number : Nat) {annotations : List Annotation}
    (h : annotations.Perm (t.annotatedLine d number).annotations) :
    (annotations.filterMap fun a => a.message.map (a.start, ·)).Perm
      (t.remarksOf (t.labelsOn d number)) := by
  refine (h.filterMap _).trans (List.Perm.of_eq ?_)
  rw [annotatedLine, List.filterMap_map, remarksOf]
  refine List.filterMap_congr fun label hlabel => ?_
  rw [← start_laid ht (hlabels label (mem_labelsOn.mp hlabel).1)]
  rfl

theorem showsLine_of_mem (margin : Nat) (before : Option Nat) {number : Nat}
    (hnumber : number ∈ t.startLines d) :
    t.ShowsLine d margin number (t.gap margin before number
      ++ t.sourceRow margin number (t.lineText number)
      ++ String.join (t.annotationRows margin (t.annotatedLine d number))) := by
  obtain ⟨first, hfirst, rfl⟩ := List.mem_map.mp hnumber
  obtain ⟨text, htext, -⟩ := (places_start ht (hlabels first hfirst)).line
  have hline : t.lines.text? (t.lines.locate first.span.start).line
      = some (t.lineText (t.lines.locate first.span.start).line) := by
    rw [lineText, htext, Option.getD_some]
  have hperm := List.mergeSort_perm
    (t.annotatedLine d (t.lines.locate first.span.start).line).annotations precedes
  have hunderlines : Underlines t.lines (t.labelsOn d (t.lines.locate first.span.start).line)
      (underline (t.annotatedLine d (t.lines.locate first.span.start).line) _) :=
    underlines_of_annotations ht (fun label hlabel => hlabels label (mem_labelsOn.mp hlabel).1)
      (fun label hlabel => (mem_labelsOn.mp hlabel).2 ▸ hline)
      (fun a => hperm.mem_iff.trans List.mem_map)
  have hmarks : underline (t.annotatedLine d (t.lines.locate first.span.start).line)
      ((t.annotatedLine d (t.lines.locate first.span.start).line).annotations.mergeSort precedes)
        ≠ [] := by
    -- the label covers at least the column where it starts
    have hcolumn := (places_start ht (hlabels first hfirst)).column
    have hcovers : first.Covers t.lines ((t.lines.locate first.span.start).column - 1 + 1) :=
      Or.inl (Nat.sub_add_cancel hcolumn)
    obtain ⟨mark, hmark, -⟩ :=
      (hunderlines.columns _).mpr ⟨first, mem_labelsOn.mpr ⟨hfirst, rfl⟩, hcovers⟩
    exact List.ne_nil_of_mem (List.mem_of_getElem? hmark)
  rw [join_annotationRows hplain margin hmarks, sourceRow_of_plain hplain]
  exact .intro (gap_of_plain hplain margin before _) hline hunderlines
    ((List.reverse_perm _).trans (perm_remarksOf ht hlabels _ hperm))

/-- The rows of the lines that are shown fall into the rows of each of them. -/
theorem exists_blocks (margin : Nat) : ∀ {numbers : List Nat} (before : Option Nat),
    (∀ number ∈ numbers, number ∈ t.startLines d) →
      ∃ blocks, String.join (t.lineRows margin before (numbers.map (t.annotatedLine d)))
          = String.join blocks
        ∧ List.Forall₂ (t.ShowsLine d margin) numbers blocks
  | [], _, _ => ⟨[], rfl, .nil⟩
  | number :: numbers, before, h => by
      obtain ⟨hnumber, hnumbers⟩ := List.forall_mem_cons.mp h
      obtain ⟨blocks, hblocks, hshows⟩ := exists_blocks margin (some number) hnumbers
      refine ⟨_ :: blocks, ?_, .cons (showsLine_of_mem hplain ht hlabels margin before hnumber) hshows⟩
      rw [List.map_cons, lineRows, String.join_cons, String.join_cons, String.join_append,
        String.join_cons, ← hblocks]
      simp only [String.append_assoc]
      rfl

end

/-! ## Everything is shown -/

section

variable {t} {d}

theorem appears_remarkRow (margin : Nat) (remark : Nat × String) :
    Appears remark.2 (remarkRow margin remark) :=
  Text.appears_append _ remark.2 _

theorem appears_rowsBelow {margin : Nat} {marks : List Char} {remarks : List (Nat × String)}
    {remark : Nat × String} (h : remark ∈ remarks) :
    Appears remark.2 (rowsBelow margin marks remarks) := by
  match remarks with
  | [(_, _)] =>
      obtain rfl := List.mem_singleton.mp h
      exact Text.appears_append _ _ _
  | first :: second :: others =>
      have hrow := Text.appears_join (List.mem_map_of_mem (f := remarkRow margin) h)
      rw [rowsBelow_of_several (by simp)]
      exact ((appears_remarkRow ..).trans hrow).trans (Text.appears_append_right ..)

/-- What a label remarks is written below its line. -/
theorem ShowsLine.appears {margin number : Nat} {block : String}
    (h : t.ShowsLine d margin number block) {label : Label} (hlabel : label ∈ t.labelsOn d number)
    {message : String} (hmessage : label.message = some message) : Appears message block := by
  obtain ⟨-, -, -, hremarks⟩ := h
  have hmem : ((t.lines.locate label.span.start).column, message) ∈ t.remarksOf (t.labelsOn d number) :=
    List.mem_filterMap.mpr ⟨label, hlabel, by rw [hmessage, Option.map_some]⟩
  exact (appears_rowsBelow (hremarks.mem_iff.mpr hmem)).trans (Text.appears_append_right ..)

/-- The remarks on the labels are among those below the lines where they start. -/
theorem appears_of_shown {margin : Nat} {numbers : List Nat} {blocks : List String}
    (h : List.Forall₂ (t.ShowsLine d margin) numbers blocks) {label : Label} (hlabel : label ∈ d.labels)
    (hnumber : (t.lines.locate label.span.start).line ∈ numbers) {message : String}
    (hmessage : label.message = some message) : Appears message (String.join blocks) := by
  obtain ⟨i, hi⟩ := List.mem_iff_getElem?.mp hnumber
  obtain ⟨block, hblock, hshows⟩ := exists_getElem?_of_forall₂ h hi
  exact (hshows.appears (mem_labelsOn.mpr ⟨hlabel, rfl⟩) hmessage).trans
    (Text.appears_join (List.mem_of_getElem? hblock))

theorem appears_note {note : String} (h : note ∈ d.notes) : Appears note (t.closing d) := by
  have hrow : Appears note ("    = note: " ++ note ++ "\n") := Text.appears_append _ note _
  have hnotes := Text.appears_join
    (List.mem_map_of_mem (f := fun note => "    = note: " ++ note ++ "\n") h)
  exact (hrow.trans hnotes).trans (Text.appears_append_left ..)

theorem appears_help {help : Help} (h : d.help = some help) : Appears help.message (t.closing d) := by
  have hrow : Appears help.message ("    = help: " ++ help.message ++ "\n") :=
    Text.appears_append _ help.message _
  rw [closing, h]
  exact (hrow.trans (Text.appears_append_left ..)).trans (Text.appears_append_right ..)

end

/-- The room for the numbers of the lines: one column more than the last number needs, and three at
least. -/
def marginFor (numbers : List Nat) : Nat := max (toString (numbers.getLast?.getD 1)).length 2 + 1

/-- What it means that the terminal shows all that a diagnostic says. -/
structure Shows : Prop where
  /-- Between the message and the notes, and behind a row that says where, stand the lines on which labels
  start, from the top downward and each once. The margin has room for the number of the last one. -/
  lines : ∃ opening numbers blocks,
    t.format d = headline d ++ opening ++ String.join blocks ++ t.closing d
      ∧ (opening = "" ∨ ∃ p : Position, opening
          = "  --> " ++ t.file.getD "<source>" ++ ":" ++ toString p.line ++ ":" ++ toString p.column ++ "\n")
      ∧ numbers.Pairwise (· < ·) ∧ (∀ number, number ∈ numbers ↔ number ∈ t.startLines d)
      ∧ List.Forall₂ (t.ShowsLine d (marginFor numbers)) numbers blocks
  remarks : ∀ label ∈ d.labels, ∀ message, label.message = some message →
    Appears message (t.format d)
  notes : ∀ note ∈ d.notes, Appears note (t.format d)
  help : ∀ help, d.help = some help → Appears help.message (t.format d)

theorem marginOf_annotatedLines :
    marginOf (t.annotatedLines d) = marginFor (t.shownLines d) := by
  rw [annotatedLines_eq, marginOf, marginFor, List.getLast?_map, Option.map_map]
  cases (t.shownLines d).getLast? <;> rfl

/-- Between the message and the notes stands nothing but the rows of the lines, and where they are. -/
theorem exists_opening {t : Terminal} (hplain : t.hasColor = false) (d : Diagnostic) : ∃ opening,
    t.format d = headline d ++ opening
        ++ String.join (t.lineRows (marginFor (t.shownLines d)) none
          ((t.shownLines d).map (t.annotatedLine d)))
        ++ t.closing d
      ∧ (opening = "" ∨ ∃ p : Position, opening
          = "  --> " ++ t.file.getD "<source>" ++ ":" ++ toString p.line ++ ":" ++ toString p.column
            ++ "\n") := by
  rw [← marginOf_annotatedLines, ← annotatedLines_eq, format, String.join_cons, String.join_append,
    header_of_plain hplain, join_footer_of_plain hplain]
  cases hlabels : d.labels with
  | nil =>
      have hlines : t.annotatedLines d = [] := by simp [annotatedLines, hlabels]
      refine ⟨"", ?_, Or.inl rfl⟩
      simp [hlines, lineRows]
  | cons label others =>
      obtain ⟨first, below, hlines, -⟩ :=
        exists_first_annotatedLine (t := t) (d := d) (by simp [hlabels])
      refine ⟨t.location first label, ?_,
        Or.inr ⟨⟨first.number, (t.lines.locate label.span.start).column⟩, ?_⟩⟩
      · simp [hlines, String.append_assoc]
      · rw [location, paint_of_plain hplain]
        rfl

end Terminal

/-- **The terminal shows all that a diagnostic says**, whatever its labels are, if they lie in the
source. -/
theorem shows_of_within (file : Option String) (source : String) {d : Diagnostic}
    (hlabels : ∀ label ∈ d.labels, label.Within source) :
    let t : Terminal := ⟨false, file, .ofSource source⟩
    t.Shows d := by
  intro t
  obtain ⟨opening, hformat, hopening⟩ := Terminal.exists_opening (t := t) rfl d
  obtain ⟨blocks, hblocks, hshows⟩ := Terminal.exists_blocks (t := t) (d := d) rfl rfl hlabels
    (Terminal.marginFor (t.shownLines d)) none fun _ hnumber => (t.mem_shownLines d).mp hnumber
  rw [hblocks] at hformat
  refine ⟨⟨opening, _, blocks, hformat, hopening, t.pairwise_shownLines d,
    fun _ => t.mem_shownLines d, hshows⟩, ?_, ?_, ?_⟩
  · intro label hlabel message hmessage
    have hnumber := (t.mem_shownLines d).mpr (List.mem_map_of_mem hlabel)
    rw [hformat]
    exact (Terminal.appears_of_shown hshows hlabel hnumber hmessage).trans (Text.appears_append ..)
  · intro note hnote
    rw [hformat]
    exact (Terminal.appears_note hnote).trans (Text.appears_append_right ..)
  · intro help hhelp
    rw [hformat]
    exact (Terminal.appears_help hhelp).trans (Text.appears_append_right ..)

/-- One label runs on to the next line, and one is empty and lies on its mark; the last one is where the
text ends. -/
theorem shows_of_within_end :
    let source := "ab\n  cd"
    let d := (((((new .error "no such name").withPrimary ⟨0, 4⟩ "here").withSecondary ⟨1, 1⟩ "there")
      |>.withSecondary ⟨7, 7⟩ "missing").withNote "names have letters").withHelp "add one"
    let t : Terminal := ⟨false, none, .ofSource source⟩
    (∀ label ∈ d.labels, label.Within source) ∧ t.Shows d := by
  intro source d t
  have hlabels : ∀ label ∈ d.labels, label.Within source := by decide +revert
  exact ⟨hlabels, shows_of_within none source hlabels⟩

end Diagnostic

end Declarative
