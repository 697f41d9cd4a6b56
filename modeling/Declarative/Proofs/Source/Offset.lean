import Declarative.Proofs.Source.Position

/-!
# Offsets and positions

Each offset into a text has a position: a line of the text, and a column that lies on the line or one
behind its end. The offset is what stands in front of the line and of the column, so it can be taken from
the position again, and positions are in the order of their offsets (`LineMap.corresponds_ofSource`).

An offset need not lie between two characters for this. Where it does, `LineMap.Finds` says more.
-/

namespace Declarative

/-- The other position is further down, or further right on the same line. -/
def Position.Precedes (p q : Position) : Prop :=
  p.line < q.line ∨ p.line = q.line ∧ p.column < q.column

namespace LineMap

/-! ## The position of an offset -/

/-- The position is on a line that is there, no further right than one behind its end, and the offset is
what stands in front of it. -/
structure Places (m : LineMap) (offset : Nat) (p : Position) : Prop where
  first : 1 ≤ p.line
  last : p.line ≤ m.count
  column : 1 ≤ p.column
  line : ∃ text, m.text? p.line = some text ∧ '\n' ∉ text.toList
    ∧ p.column - 1 ≤ Text.width text.toList
  offset : m.lineStart p.line + (p.column - 1) = offset

/-- Lines are walked past until the offset is not behind the line; then it lies on it. -/
theorem exists_locateIn : ∀ {lines : List (List Char)} (number : Nat) {offset : Nat}, lines ≠ [] →
    offset ≤ Text.width (join lines) →
      ∃ above line below n, lines = above ++ line :: below ∧ n ≤ Text.width line
        ∧ Text.width (above.flatMap (· ++ ['\n'])) + n = offset
        ∧ locateIn lines number offset = ⟨number + above.length, n + 1⟩
  | [line], number, offset, _, h =>
      ⟨[], line, [], offset, rfl, h, Nat.zero_add _, locateIn_of_le h [] number⟩
  | line :: next :: lines, number, offset, _, h => by
      by_cases hle : offset ≤ Text.width line
      · exact ⟨[], line, next :: lines, offset, rfl, hle, Nat.zero_add _, locateIn_of_le hle _ number⟩
      · obtain ⟨k, rfl⟩ := Nat.exists_eq_add_of_le (Nat.lt_of_not_le hle)
        have hnewline : Char.utf8Size '\n' = 1 := rfl
        rw [join, Text.width_append, Text.width_cons, hnewline] at h
        obtain ⟨above, found, below, n, hlines, hn, hoffset, hlocate⟩ :=
          exists_locateIn (number + 1) (List.cons_ne_nil next lines) (show k ≤ _ by omega)
        refine ⟨line :: above, found, below, n, by rw [hlines, List.cons_append], hn, ?_, ?_⟩
        · rw [← hoffset, List.flatMap_cons, Text.width_append, Text.width_append, Nat.add_assoc]
          rfl
        · rw [locateIn_behind line (List.cons_ne_nil next lines), hlocate, List.length_cons,
            Nat.add_right_comm, Nat.add_assoc]

theorem places_locate {source : String} {offset : Nat} (h : offset ≤ Text.width source.toList) :
    (ofSource source).Places offset ((ofSource source).locate offset) := by
  rw [← join_split source.toList] at h
  obtain ⟨above, line, below, n, hlines, hn, hoffset, hlocate⟩ :=
    exists_locateIn 1 (split_ne_nil source.toList) h
  have hplace : (ofSource source).locate offset = ⟨above.length + 1, n + 1⟩ :=
    hlocate.trans (by rw [Nat.add_comm])
  have hmem : line ∈ split source.toList := by simp [hlines]
  have hline : (ofSource source).text? (above.length + 1) = some (String.ofList line) := by
    simp [text?, ofSource, hlines]
  rw [hplace]
  refine ⟨Nat.le_add_left .., ?_, Nat.le_add_left .., ⟨_, hline, ?_, ?_⟩, ?_⟩
  · simp [count, ofSource, hlines]
  · rw [String.toList_ofList]
    exact newline_not_mem_of_mem_split hmem
  · rwa [String.toList_ofList]
  · simpa [lineStart, ofSource, hlines] using hoffset

/-- Positions are in the order of their offsets. -/
theorem precedes_locate {source : String} {a b : Nat} (hab : a < b)
    (hb : b ≤ Text.width source.toList) :
    ((ofSource source).locate a).Precedes ((ofSource source).locate b) := by
  have ha := places_locate (Nat.le_trans (Nat.le_of_lt hab) hb)
  have hb := places_locate hb
  rcases Nat.lt_or_eq_of_le (line_locateIn_mono (ofSource source).lines 1 (Nat.le_of_lt hab)) with
    hline | hline
  · exact Or.inl hline
  · -- on one line what stands in front of it is the same for both
    have hsame : ((ofSource source).locate a).line = ((ofSource source).locate b).line := hline
    refine Or.inr ⟨hsame, ?_⟩
    have haoffset := ha.offset
    have hboffset := hb.offset
    have hcolumn := hb.column
    rw [hsame] at haoffset
    omega

/-! ## The lines of a text -/

/-- A line starts behind the end of each line further up. -/
theorem lineStart_add_width_lt {m : LineMap} {line other : Nat} {text : String}
    (hline : m.text? line = some text) (h : line < other) :
    m.lineStart line + Text.width text.toList < m.lineStart other := by
  cases line with
  | zero => cases hline
  | succ n =>
      obtain ⟨chars, hchars, rfl⟩ := Option.map_eq_some_iff.mp hline
      have hprefix : m.lines.take (n + 1) <+: m.lines.take (other - 1) :=
        List.take_prefix_take_left (by omega)
      rw [List.take_add_one, hchars] at hprefix
      obtain ⟨between, hbetween⟩ := hprefix
      rw [lineStart, lineStart, ← hbetween, String.toList_ofList, Nat.add_sub_cancel]
      simp only [Option.toList_some, List.flatMap_append, List.flatMap_singleton, Text.width_append,
        Text.width_cons, Text.width_nil]
      have hnewline : Char.utf8Size '\n' = 1 := rfl
      omega

theorem text?_eq_none_iff {m : LineMap} {line : Nat} : m.text? line = none ↔ line = 0 ∨ m.count < line := by
  cases line with
  | zero => simp [text?]
  | succ n =>
      simp only [text?, count, Option.map_eq_none_iff, List.getElem?_eq_none_iff]
      omega

theorem intercalate_lines : ∀ lines : List (List Char),
    "\n".intercalate (lines.map String.ofList) = String.ofList (join lines)
  | [] => rfl
  | [line] => by simp [join]
  | line :: next :: lines => by
      have hrest := intercalate_lines (next :: lines)
      rw [List.map_cons] at hrest
      rw [List.map_cons, List.map_cons, String.intercalate_cons_cons, hrest, join]
      simp [← String.toList_inj]

/-! ## Offsets and positions correspond -/

/-- What it means that offsets into a text and positions on its lines correspond. -/
structure Corresponds (m : LineMap) (source : String) : Prop where
  places : ∀ offset ≤ Text.width source.toList, m.Places offset (m.locate offset)
  ascends : ∀ a b, a < b → b ≤ Text.width source.toList → (m.locate a).Precedes (m.locate b)
  missing : ∀ line, m.text? line = none ↔ line = 0 ∨ m.count < line
  /-- The lines are all of the text but for the line feeds between them. -/
  joined : ∃ texts, (List.range m.count).map (fun i => m.text? (i + 1)) = texts.map some
    ∧ "\n".intercalate texts = source

/-- **Offsets correspond to positions**, whatever the text is. -/
theorem corresponds_ofSource (source : String) : (ofSource source).Corresponds source where
  places _ := places_locate
  ascends _ _ := precedes_locate
  missing _ := text?_eq_none_iff
  joined := by
    refine ⟨(split source.toList).map String.ofList, ?_, ?_⟩
    · refine List.ext_getElem (by simp [count, ofSource]) fun i hi _ => ?_
      have hline : i < (split source.toList).length := by simpa [count, ofSource] using hi
      simp [text?, ofSource, hline]
    · rw [intercalate_lines, join_split, String.ofList_toList]

/-- The line feed stands in the last column of its line, and the end of the text at the start of an empty
line. -/
example :
    let m := ofSource "ä\n\nb\n"
    (List.range 7).map m.locate = [⟨1, 1⟩, ⟨1, 2⟩, ⟨1, 3⟩, ⟨2, 1⟩, ⟨3, 1⟩, ⟨3, 2⟩, ⟨4, 1⟩] := by
  decide +kernel

end LineMap

end Declarative
