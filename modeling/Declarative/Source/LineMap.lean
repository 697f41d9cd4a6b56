import Declarative.Text.Utf8

/-!
# Lines of a source text

A text is cut into lines at each line feed. Every text has at least one line, and a line feed at the
end opens an empty last line. Joining the lines with line feeds gives the text back.
-/

namespace Declarative

/-- A line and a column in it, both counted from one; the column counts bytes. Past the end of a text, columns
go up to the greatest number of 64 bits, and behind it comes column zero. -/
structure Position where
  line : Nat
  column : Nat
  deriving DecidableEq, Repr, Inhabited

namespace Position

/-- The greatest column past the end of a text. -/
def maxColumn : Nat := Nat.pow 2 64 - 1

/-- How many columns lie in front of a position. All others lie in front of column zero. -/
def preceding (p : Position) : Nat := if p.column = 0 then maxColumn else p.column - 1

end Position

/-- The lines of a text in order, without their line feeds. -/
structure LineMap where
  lines : List (List Char)
  deriving DecidableEq, Repr

namespace LineMap

/-- Cuts a text at its line feeds. -/
def split : List Char → List (List Char)
  | [] => [[]]
  | c :: r =>
    if c = '\n' then
      [] :: split r
    else
      match split r with
      | [] => [[c]]
      | line :: lines => (c :: line) :: lines

/-- Puts lines together again, with a line feed between two of them. -/
def join : List (List Char) → List Char
  | [] => []
  | [line] => line
  | line :: next :: lines => line ++ '\n' :: join (next :: lines)

def ofSource (source : String) : LineMap := ⟨split source.toList⟩

def count (m : LineMap) : Nat := m.lines.length

def text? (m : LineMap) (line : Nat) : Option String :=
  match line with
  | 0 => none
  | n + 1 => m.lines[n]?.map String.ofList

/-- The column at an offset into the last line, which may be past its end. -/
def lastColumn (line : List Char) (offset : Nat) : Nat :=
  if offset ≤ Text.width line then offset + 1 else (offset + 1) % (Position.maxColumn + 1)

/-- Walks past whole lines: an offset is in a line if it is at most the line's width, for the offset
of the line feed itself is the line's last column. Offsets past the end are in the last line. -/
def locateIn : List (List Char) → Nat → Nat → Position
  | [], number, offset => ⟨number, lastColumn [] offset⟩
  | [line], number, offset => ⟨number, lastColumn line offset⟩
  | line :: next :: lines, number, offset =>
    if offset ≤ Text.width line then
      ⟨number, offset + 1⟩
    else
      locateIn (next :: lines) (number + 1) (offset - (Text.width line + 1))

def locate (m : LineMap) (offset : Nat) : Position := locateIn m.lines 1 offset

theorem split_ne_nil (cs : List Char) : split cs ≠ [] := by
  cases cs with
  | nil => simp [split]
  | cons c r =>
    simp only [split]
    split
    · simp
    · split <;> simp

/-- No text is lost in the lines. -/
theorem join_split (cs : List Char) : join (split cs) = cs := by
  induction cs with
  | nil => rfl
  | cons c r ih =>
    cases hs : split r with
    | nil => exact absurd hs (split_ne_nil r)
    | cons line lines =>
      rw [hs] at ih
      by_cases hc : c = '\n'
      · simp [split, hc, hs, join, ih]
      · cases lines with
        | nil => simp_all [split, join]
        | cons next rest => simp_all [split, join]

/-- No line holds a line feed. -/
theorem newline_not_mem_of_mem_split {cs line : List Char} (h : line ∈ split cs) :
    '\n' ∉ line := by
  induction cs generalizing line with
  | nil => simp_all [split]
  | cons c r ih =>
    cases hs : split r with
    | nil => exact absurd hs (split_ne_nil r)
    | cons first lines =>
      rw [hs] at ih
      by_cases hc : c = '\n'
      · simp only [split, hc, if_true, hs, List.mem_cons] at h
        rcases h with rfl | h
        · simp
        · exact ih (by simpa using h)
      · simp only [split, hc, if_false, hs, List.mem_cons] at h
        rcases h with rfl | h
        · simp only [List.mem_cons, not_or]
          exact ⟨fun e => hc e.symm, ih (by simp)⟩
        · exact ih (by simp [h])

end LineMap

end Declarative
