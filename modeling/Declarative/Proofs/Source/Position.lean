import Declarative.Diagnostic
import Declarative.Source.LineMap

/-!
# Offsets on lines

A span fits a text if it is a piece of it (`Span.Fits`). Where an offset lies between two characters
of a text, the line map finds it on a line that is there, behind whole characters of that line
(`LineMap.Finds`); so the start of the line can be taken from the offset, and one from the column.
The line can be cut at the column, and where a piece of the text is to be replaced it can be cut
behind the piece as well, or else the piece goes on behind the line (`LineMap.sliced_of_fits`).
-/

namespace Declarative

namespace Text

/-! ## Pieces of a text -/

theorem eq_nil_of_width {cs : List Char} (h : width cs = 0) : cs = [] := by
  have hlength := length_le_width cs
  exact List.length_eq_zero_iff.mp (by omega)

theorem slice?_append (front piece back : List Char) :
    slice? (front ++ (piece ++ back)) (width front) (width front + width piece) = some piece := by
  rw [slice?, if_pos (Nat.le_add_right ..), Nat.add_sub_cancel_left, splitAt?_width]
  simp [splitAt?_width]

/-- Of two cuts of a text, the one that lies in front leaves a piece up to the other. -/
theorem exists_eq_append {front rest start stop : List Char} (h : front ++ rest = start ++ stop)
    (hle : width front ≤ width start) : ∃ piece, start = front ++ piece ∧ rest = piece ++ stop := by
  rcases List.append_eq_append_iff.mp h with ⟨piece, hstart, hrest⟩ | ⟨piece, hfront, hstop⟩
  · exact ⟨piece, hstart, hrest⟩
  · have hwidth := congrArg width hfront
    rw [width_append] at hwidth
    obtain rfl := eq_nil_of_width (show width piece = 0 by omega)
    rw [List.append_nil] at hfront
    exact ⟨[], by rw [hfront, List.append_nil], hstop.symm⟩

theorem takeBytes_of_width_le {cs : List Char} {n : Nat} (h : width cs ≤ n) :
    takeBytes n cs = cs := by
  induction cs generalizing n with
  | nil => rfl
  | cons c r ih =>
      rw [width_cons] at h
      rw [takeBytes, if_pos (by omega), ih (by omega)]

/-- The text can be sliced at the offset, or at its end if it ends in front of the offset, and what
is taken and dropped there are the slices. -/
def Sliced (cs : List Char) (n : Nat) : Prop :=
  slice? cs 0 (min n (width cs)) = some (takeBytes n cs)
    ∧ slice? cs (min n (width cs)) (width cs) = some (dropBytes n cs)

theorem sliced_width (front back : List Char) : Sliced (front ++ back) (width front) := by
  have hfront := slice?_append [] front back
  have hback := slice?_append front back []
  rw [width_nil, Nat.zero_add, List.nil_append] at hfront
  rw [List.append_nil] at hback
  rw [Sliced, width_append, Nat.min_eq_left (Nat.le_add_right ..), dropBytes, takeBytes_width,
    List.drop_left]
  exact ⟨hfront, hback⟩

theorem sliced_of_width_le {cs : List Char} {n : Nat} (h : width cs ≤ n) : Sliced cs n := by
  have hall := sliced_width cs []
  rw [List.append_nil] at hall
  rw [Sliced, dropBytes, takeBytes_of_width_le h, Nat.min_eq_right h]
  rwa [Sliced, dropBytes, takeBytes_of_width_le (Nat.le_refl _), Nat.min_self] at hall

end Text

/-- The span is a piece of the text: its ends are in order, and each lies between two characters or
at an end of the text. -/
def Span.Fits (text : List Char) (span : Span) : Prop :=
  span.start ≤ span.stop ∧ span.stop ≤ Text.width text
    ∧ (Text.splitAt? span.start text).isSome ∧ (Text.splitAt? span.stop text).isSome

instance (text : List Char) (span : Span) : Decidable (span.Fits text) :=
  inferInstanceAs (Decidable (_ ∧ _ ∧ _ ∧ _))

namespace Span

theorem fits_of_append (front piece back : List Char) :
    Fits (front ++ (piece ++ back)) ⟨Text.width front, Text.width front + Text.width piece⟩ := by
  have hstop := Text.splitAt?_width (front ++ piece) back
  rw [Text.width_append, List.append_assoc] at hstop
  refine ⟨Nat.le_add_right .., ?_, ?_, ?_⟩
  · simp
  · simp [Text.splitAt?_width]
  · simp [hstop]

theorem Fits.exists_append {text : List Char} {span : Span} (h : span.Fits text) :
    ∃ front piece back, text = front ++ (piece ++ back) ∧ Text.width front = span.start
      ∧ Text.width piece = span.length := by
  obtain ⟨hle, -, hstart, hstop⟩ := h
  obtain ⟨⟨front, rest⟩, hfront⟩ := Option.isSome_iff_exists.mp hstart
  obtain ⟨⟨start, back⟩, hback⟩ := Option.isSome_iff_exists.mp hstop
  obtain ⟨rfl, hwidth⟩ := Text.splitAt?_eq_some hfront
  obtain ⟨htext, hwidth'⟩ := Text.splitAt?_eq_some hback
  obtain ⟨piece, rfl, rfl⟩ := Text.exists_eq_append htext.symm (by omega)
  rw [Text.width_append] at hwidth'
  refine ⟨front, piece, back, rfl, hwidth, ?_⟩
  rw [length]
  omega

/-- At its end a text has an empty piece. -/
theorem fits_point (text : List Char) : Fits text (.point (Text.width text)) := by
  have hend := fits_of_append text [] []
  simpa [point] using hend

end Span

namespace LineMap

/-! ## Lines -/

theorem exists_split (cs : List Char) :
    ∃ others, split cs = cs.takeWhile (· != '\n') :: others := by
  induction cs with
  | nil => exact ⟨[], rfl⟩
  | cons c r ih =>
      obtain ⟨others, hsplit⟩ := ih
      by_cases hc : c = '\n'
      · exact ⟨split r, by simp [split, hc]⟩
      · exact ⟨others, by simp [split, hc, hsplit]⟩

theorem split_newline (cs : List Char) : split ('\n' :: cs) = [] :: split cs := if_pos rfl

theorem split_append {head : List Char} (hhead : '\n' ∉ head) {rest first : List Char}
    {others : List (List Char)} (h : split rest = first :: others) :
    split (head ++ rest) = (head ++ first) :: others := by
  induction head with
  | nil => exact h
  | cons c head ih =>
      obtain ⟨hc, hhead⟩ := not_or.mp (mt List.mem_cons.mpr hhead)
      rw [List.cons_append, split, if_neg (Ne.symm hc), ih hhead]
      rfl

theorem takeWhile_append {head : List Char} (hhead : '\n' ∉ head) (rest : List Char) :
    (head ++ rest).takeWhile (· != '\n') = head ++ rest.takeWhile (· != '\n') := by
  refine List.takeWhile_append_of_pos fun c hc => ?_
  simpa using ne_of_mem_of_not_mem hc hhead

/-- An offset that is not behind the first line is on it. -/
theorem locateIn_of_le {line : List Char} {n : Nat} (h : n ≤ Text.width line)
    (lines : List (List Char)) (number : Nat) :
    locateIn (line :: lines) number n = ⟨number, n + 1⟩ := by
  cases lines with
  | nil => rw [locateIn, lastColumn, if_pos h]
  | cons next lines => rw [locateIn, if_pos h]

theorem locateIn_behind (line : List Char) {lines : List (List Char)} (hlines : lines ≠ [])
    (number n : Nat) :
    locateIn (line :: lines) number (Text.width line + 1 + n) = locateIn lines (number + 1) n := by
  obtain ⟨next, lines, rfl⟩ := List.exists_cons_of_ne_nil hlines
  rw [locateIn, if_neg (by omega), Nat.add_sub_cancel_left]

theorem le_line_locateIn : ∀ (lines : List (List Char)) (number n : Nat),
    number ≤ (locateIn lines number n).line
  | [], _, _ => Nat.le_refl _
  | [_], _, _ => Nat.le_refl _
  | line :: next :: lines, number, n => by
      rw [locateIn]
      split
      · exact Nat.le_refl _
      · exact Nat.le_of_succ_le (le_line_locateIn (next :: lines) (number + 1) _)

/-- What stands behind is on no line further up. -/
theorem line_locateIn_mono : ∀ (lines : List (List Char)) (number : Nat) {n m : Nat}, n ≤ m →
    (locateIn lines number n).line ≤ (locateIn lines number m).line
  | [], _, _, _, _ => Nat.le_refl _
  | [_], _, _, _, _ => Nat.le_refl _
  | line :: next :: lines, number, n, m, h => by
      rw [locateIn, locateIn]
      split
      · split
        · exact Nat.le_refl _
        · exact Nat.le_of_succ_le (le_line_locateIn (next :: lines) (number + 1) _)
      · rw [if_neg (by omega)]
        exact line_locateIn_mono (next :: lines) (number + 1) (Nat.sub_le_sub_right h _)

/-- How many bytes stand in front of a line, line feeds included. -/
def lineStart (m : LineMap) (line : Nat) : Nat :=
  Text.width ((m.lines.take (line - 1)).flatMap (· ++ ['\n']))

/-- The offset is found on a line that is there, between these two parts of it. -/
structure Finds (m : LineMap) (offset : Nat) (front back : List Char) : Prop where
  line : m.text? (m.locate offset).line = some (String.ofList (front ++ back))
  start : m.lineStart (m.locate offset).line + Text.width front = offset
  column : (m.locate offset).column = Text.width front + 1

/-- Lines are walked past until what is left of the text in front of the offset holds no line
feed. -/
theorem exists_locateIn_split (back : List Char) (front : List Char) (number : Nat) :
    ∃ count before rest, front = before ++ rest
      ∧ locateIn (split (front ++ back)) number (Text.width front)
          = ⟨number + count, Text.width rest + 1⟩
      ∧ (split (front ++ back))[count]? = some (rest ++ back.takeWhile (· != '\n'))
      ∧ ((split (front ++ back)).take count).flatMap (· ++ ['\n']) = before := by
  by_cases hline : '\n' ∈ front
  · obtain ⟨head, tail, rfl, hhead⟩ := List.eq_append_cons_of_mem hline
    obtain ⟨count, before, rest, rfl, hlocate, hfound, hstart⟩ :=
      exists_locateIn_split back tail (number + 1)
    have hsplit := split_append hhead (split_newline ((before ++ rest) ++ back))
    rw [List.append_nil] at hsplit
    have hwidth : Text.width (head ++ '\n' :: (before ++ rest))
        = Text.width head + 1 + Text.width (before ++ rest) := by
      rw [Text.width_append, Text.width_cons, Nat.add_assoc]
      rfl
    refine ⟨count + 1, head ++ '\n' :: before, rest, by simp, ?_, ?_, ?_⟩
    all_goals rw [List.append_assoc, List.cons_append, hsplit]
    · rw [hwidth, locateIn_behind _ (split_ne_nil _), hlocate, Nat.add_assoc, Nat.add_comm 1]
    · exact hfound
    · rw [List.take_succ_cons, List.flatMap_cons, hstart, List.append_assoc]
      rfl
  · obtain ⟨others, hothers⟩ := exists_split back
    have hsplit := split_append hline hothers
    refine ⟨0, [], front, rfl, ?_, ?_, ?_⟩
    · rw [hsplit, locateIn_of_le (by simp)]
      rfl
    · rw [hsplit]
      rfl
    · simp
termination_by front.length
decreasing_by simp_all; omega

/-- The end of some text is found on the line that it is on. -/
theorem exists_finds {source : String} {front back : List Char}
    (h : source.toList = front ++ back) :
    ∃ before rest, front = before ++ rest
      ∧ (ofSource source).Finds (Text.width front) rest (back.takeWhile (· != '\n')) := by
  obtain ⟨count, before, rest, hfront, hlocate, hfound, hstart⟩ :=
    exists_locateIn_split back front 1
  rw [← h] at hlocate hfound hstart
  have hplace : (ofSource source).locate (Text.width front) = ⟨1 + count, Text.width rest + 1⟩ :=
    hlocate
  refine ⟨before, rest, hfront, ?_, ?_, ?_⟩
  · rw [hplace, Nat.add_comm]
    exact congrArg (Option.map String.ofList) hfound
  · rw [hplace, lineStart, Nat.add_sub_cancel_left]
    show Text.width (((split source.toList).take count).flatMap _) + _ = _
    rw [hstart, ← Text.width_append, ← hfront]
  · rw [hplace]

theorem Finds.preceding {m : LineMap} {offset : Nat} {front back : List Char}
    (h : m.Finds offset front back) : (m.locate offset).preceding = Text.width front := by
  rw [Position.preceding, h.column, if_neg (Nat.succ_ne_zero _), Nat.add_sub_cancel]

/-- The line on which a piece of the text starts can be cut in front of the piece, and behind it,
unless the piece goes on behind the line. -/
theorem sliced_of_fits {source : String} {span : Span} (h : span.Fits source.toList) :
    ∃ front back, (ofSource source).Finds span.start front back
      ∧ Text.Sliced (front ++ back) (Text.width front)
      ∧ Text.Sliced (front ++ back) (Text.width front + span.length) := by
  obtain ⟨start, piece, stop, htext, hstart, hpiece⟩ := h.exists_append
  obtain ⟨before, front, -, hfinds⟩ := exists_finds htext
  rw [hstart] at hfinds
  refine ⟨_, _, hfinds, Text.sliced_width .., ?_⟩
  rw [← hpiece]
  by_cases hline : '\n' ∈ piece
  · -- the line ends inside of the piece
    obtain ⟨head, tail, rfl, hhead⟩ := List.eq_append_cons_of_mem hline
    have hwidth : Text.width (((head ++ '\n' :: tail) ++ stop).takeWhile (· != '\n'))
        ≤ Text.width (head ++ '\n' :: tail) := by
      rw [List.append_assoc, takeWhile_append hhead]
      simp
    refine Text.sliced_of_width_le ?_
    rw [Text.width_append]
    exact Nat.add_le_add_left hwidth _
  · rw [takeWhile_append hline, ← Text.width_append, ← List.append_assoc]
    exact Text.sliced_width ..

end LineMap

end Declarative
