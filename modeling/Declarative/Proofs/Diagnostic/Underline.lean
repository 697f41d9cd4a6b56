import Mathlib.Data.List.DropRight
import Declarative.Diagnostic.Terminal
import Declarative.Proofs.Source.Offset

/-!
# What is underlined

A label covers the columns of its first line that lie in its span, and at any rate the column where it
starts (`Diagnostic.Label.Covers`). The columns that the terminal takes for a label are just these
(`Diagnostic.Terminal.covers_iff`), and below a line those are underlined that some label of the line
covers, no others (`Diagnostic.Terminal.underlines_of_annotations`).

Labels are painted over each other, and the room for them ends some columns behind the line; no label of
a place in the text needs more than one of these.
-/

namespace Declarative

namespace Diagnostic

/-- The label covers the column of the line on which it starts: its first column always, and else the
columns of the line that lie in its span. -/
def Label.Covers (lines : LineMap) (label : Label) (column : Nat) : Prop :=
  let start := lines.locate label.span.start
  column = start.column
    ∨ ∃ text, lines.text? start.line = some text ∧ 1 ≤ column ∧ column ≤ Text.width text.toList
      ∧ label.span.start ≤ lines.lineStart start.line + (column - 1)
      ∧ lines.lineStart start.line + (column - 1) < label.span.stop

/-- The label lies in the source. -/
def Label.Within (source : String) (label : Label) : Prop :=
  label.span.start ≤ label.span.stop ∧ label.span.stop ≤ Text.width source.toList

instance (source : String) (label : Label) : Decidable (label.Within source) :=
  inferInstanceAs (Decidable (_ ∧ _))

namespace Terminal

/-! ## The columns of a label -/

/-- How a label lies on its first line. -/
def laid (t : Terminal) (label : Label) : Annotation := Prod.snd <| t.annotation label

section

variable {source : String} {t : Terminal} (ht : t.lines = .ofSource source) {label : Label}
  (hlabel : label.Within source)

include ht hlabel

theorem places_start :
    t.lines.Places label.span.start (t.lines.locate label.span.start) := by
  rw [ht]
  exact LineMap.places_locate (Nat.le_trans hlabel.1 hlabel.2)

theorem places_stop : t.lines.Places label.span.stop (t.lines.locate label.span.stop) := by
  rw [ht]
  exact LineMap.places_locate hlabel.2

/-- A label is underlined from its column on. -/
theorem start_laid : (t.laid label).start = (t.lines.locate label.span.start).column := by
  have hcolumn := (places_start ht hlabel).column
  rw [laid, annotation, Position.preceding, if_neg (by omega)]
  exact Nat.sub_add_cancel hcolumn

/-- It is underlined up to its end or to the end of its first line, but at least one column. -/
theorem stop_laid {text : String}
    (htext : t.lines.text? (t.lines.locate label.span.start).line = some text) :
    (t.laid label).stop
      = max (if (t.lines.locate label.span.stop).line = (t.lines.locate label.span.start).line then
          (t.lines.locate label.span.stop).column else Text.width text.toList + 1)
        ((t.lines.locate label.span.start).column + 1) := by
  have hlineText : t.lineText (t.lines.locate label.span.start).line = text := by
    rw [lineText, htext, Option.getD_some]
  rw [← start_laid ht hlabel, ← hlineText]
  rfl

/-- The columns of an annotation are those that its label covers. -/
theorem covers_iff {column : Nat} :
    (t.laid label).start ≤ column ∧ column < (t.laid label).stop
      ↔ label.Covers t.lines column := by
  have hstart := places_start ht hlabel
  have hstop := places_stop ht hlabel
  obtain ⟨text, htext, -, hwidth⟩ := hstart.line
  have hle := hlabel.1
  have hoffset := hstart.offset
  have hcolumn := hstart.column
  rw [start_laid ht hlabel, stop_laid ht hlabel htext]
  simp only [Label.Covers, htext, Option.some.injEq, exists_eq_left']
  by_cases hsame : (t.lines.locate label.span.stop).line = (t.lines.locate label.span.start).line
  · obtain ⟨text', htext', -, hwidth'⟩ := hstop.line
    have hoffset' := hstop.offset
    have hcolumn' := hstop.column
    rw [hsame] at htext' hoffset'
    obtain rfl := Option.some.inj (htext.symm.trans htext')
    rw [if_pos hsame]
    omega
  · -- the whole line stands in front of the end of the label
    have hbelow : (t.lines.locate label.span.start).line < (t.lines.locate label.span.stop).line :=
      Nat.lt_of_le_of_ne (LineMap.line_locateIn_mono _ _ hle) (Ne.symm hsame)
    have hbehind := LineMap.lineStart_add_width_lt htext hbelow
    have hoffset' := hstop.offset
    rw [if_neg hsame]
    omega

/-- What is covered lies on the line, or one behind its end. -/
theorem column_le_of_covers {column : Nat} (h : label.Covers t.lines column) {text : String}
    (htext : t.lines.text? (t.lines.locate label.span.start).line = some text) :
    1 ≤ column ∧ column ≤ Text.width text.toList + 1 := by
  have hstart := places_start ht hlabel
  obtain ⟨found, hfound, -, hwidth⟩ := hstart.line
  obtain rfl := Option.some.inj (htext.symm.trans hfound)
  have hcolumn := hstart.column
  rcases h with rfl | ⟨other, hother, hfirst, hlast, -⟩
  · omega
  · obtain rfl := Option.some.inj (htext.symm.trans hother)
    omega

end

/-! ## The row of marks -/

/-- The marks stand at the columns that the labels cover, and at no others. -/
structure Underlines (lines : LineMap) (labels : List Label) (marks : List Char) : Prop where
  columns : ∀ column, (∃ mark, marks[column]? = some mark ∧ mark ≠ ' ')
    ↔ ∃ label ∈ labels, label.Covers lines (column + 1)
  /-- Each is the mark of a label that covers it. -/
  styles : ∀ column mark, marks[column]? = some mark → mark ≠ ' ' →
    ∃ label ∈ labels, label.Covers lines (column + 1) ∧ mark = underlineMark label.style

theorem underlineMark_ne_blank (style : LabelStyle) : underlineMark style ≠ ' ' := by
  cases style <;> decide

theorem exists_of_columnMark {annotations : List Annotation} {column : Nat}
    (h : columnMark annotations column ≠ ' ') :
    ∃ a ∈ annotations, (a.start ≤ column ∧ column < a.stop)
      ∧ columnMark annotations column = underlineMark a.style := by
  rw [columnMark] at h ⊢
  split at h
  · rename_i a hlast
    have ha := List.mem_filter.mp (List.mem_of_getLast? hlast)
    exact ⟨a, ha.1, by simpa using ha.2, rfl⟩
  · exact absurd rfl h

/-- A column is marked just where an annotation has it. -/
theorem columnMark_ne_blank_iff {annotations : List Annotation} {column : Nat} :
    columnMark annotations column ≠ ' ' ↔ ∃ a ∈ annotations, a.start ≤ column ∧ column < a.stop := by
  constructor
  · intro h
    obtain ⟨a, ha, hcolumn, -⟩ := exists_of_columnMark h
    exact ⟨a, ha, hcolumn⟩
  · rintro ⟨a, ha, hcolumn⟩
    rw [columnMark]
    split
    · exact underlineMark_ne_blank _
    · rename_i hlast
      rw [List.getLast?_eq_none_iff, List.filter_eq_nil_iff] at hlast
      exact absurd (by simpa using hcolumn) (hlast a ha)

/-- What is not blank stays where blanks are taken from the end. -/
theorem getElem?_rdropWhile_iff {α : Type} {p : α → Bool} {xs : List α} {i : Nat} {x : α}
    (hp : p x = false) : (xs.rdropWhile p)[i]? = some x ↔ xs[i]? = some x := by
  rw [← List.rdropWhile_append_rtakeWhile (p := p) (l := xs), List.getElem?_append,
    List.rdropWhile_append_rtakeWhile]
  split
  · rfl
  · rename_i hbehind
    rw [List.getElem?_eq_none (Nat.le_of_not_lt hbehind)]
    refine iff_of_false (by simp) fun h => ?_
    have hdropped := List.mem_rtakeWhile_imp (List.mem_of_getElem? h)
    rw [hp] at hdropped
    cases hdropped

/-- A column has a mark in the underline if it has one at all and is not too far behind the line. -/
theorem getElem?_underline_iff {line : AnnotatedLine} {annotations : List Annotation} {column : Nat}
    {mark : Char} (hmark : mark ≠ ' ') :
    (underline line annotations)[column]? = some mark
      ↔ column < Text.width line.text.toList + overhang ∧ columnMark annotations (column + 1) = mark := by
  have htrim : underline line annotations
      = ((List.range (Text.width line.text.toList + overhang)).map fun i =>
          columnMark annotations (i + 1)).rdropWhile (· == ' ') := rfl
  rw [htrim, getElem?_rdropWhile_iff (by simpa using hmark)]
  simp only [List.getElem?_map, Option.map_eq_some_iff, List.getElem?_eq_some_iff,
    List.getElem_range, List.length_range]
  constructor
  · rintro ⟨_, ⟨hlt, rfl⟩, h⟩
    exact ⟨hlt, h⟩
  · rintro ⟨hlt, h⟩
    exact ⟨column, ⟨hlt, rfl⟩, h⟩

/-- **Just what labels cover is underlined**, where the annotations are those of labels on this line. -/
theorem underlines_of_annotations {source : String} {t : Terminal} (ht : t.lines = .ofSource source)
    {labels : List Label} (hlabels : ∀ label ∈ labels, label.Within source) {line : AnnotatedLine}
    (hline : ∀ label ∈ labels,
      t.lines.text? (t.lines.locate label.span.start).line = some line.text)
    {annotations : List Annotation}
    (hannotations : ∀ a, a ∈ annotations ↔ ∃ label ∈ labels, t.laid label = a) :
    Underlines t.lines labels (underline line annotations) := by
  have hcovered : ∀ column, (∃ a ∈ annotations, a.start ≤ column ∧ column < a.stop)
      ↔ ∃ label ∈ labels, label.Covers t.lines column := by
    intro column
    constructor
    · rintro ⟨a, ha, hcolumn⟩
      obtain ⟨label, hlabel, rfl⟩ := (hannotations a).mp ha
      exact ⟨label, hlabel, (covers_iff ht (hlabels label hlabel)).mp hcolumn⟩
    · rintro ⟨label, hlabel, hcovers⟩
      exact ⟨_, (hannotations _).mpr ⟨label, hlabel, rfl⟩,
        (covers_iff ht (hlabels label hlabel)).mpr hcovers⟩
  constructor
  · intro column
    rw [← hcovered, ← columnMark_ne_blank_iff]
    constructor
    · rintro ⟨mark, hmark, hne⟩
      rw [((getElem?_underline_iff hne).mp hmark).2]
      exact hne
    · intro hne
      obtain ⟨label, hlabel, hcovers⟩ := (hcovered _).mp (columnMark_ne_blank_iff.mp hne)
      have hbound := column_le_of_covers ht (hlabels label hlabel) hcovers (hline label hlabel)
      have hroom : column < Text.width line.text.toList + overhang := by
        rw [overhang]
        omega
      exact ⟨_, (getElem?_underline_iff hne).mpr ⟨hroom, rfl⟩, hne⟩
  · intro column mark hmark hne
    obtain ⟨-, rfl⟩ := (getElem?_underline_iff hne).mp hmark
    obtain ⟨a, ha, hcolumn, hstyle⟩ := exists_of_columnMark hne
    obtain ⟨label, hlabel, rfl⟩ := (hannotations a).mp ha
    exact ⟨label, hlabel, (covers_iff ht (hlabels label hlabel)).mp hcolumn, hstyle⟩

/-- The first label runs on to the next line and is underlined up to the end of its own. The other one
starts at the line feed, which is one column behind. -/
example :
    let t : Terminal := ⟨false, none, .ofSource "rose\nbed"⟩
    let labels : List Label := [⟨⟨1, 7⟩, .primary, none⟩, ⟨⟨4, 7⟩, .secondary, none⟩]
    underline ⟨1, "rose", []⟩ (labels.map t.laid)
      = [' ', '^', '^', '^', '-'] := by
  decide +kernel

end Terminal

end Diagnostic

end Declarative
