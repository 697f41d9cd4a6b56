/-!
# Places in a source text

A span is a range of byte offsets into the UTF-8 form of a text. Its ends are kept as they were
given: a span may be reversed, and then it counts as empty.
-/

namespace Declarative

/-- A range of byte offsets: `start` belongs to it, `stop` does not. -/
structure Span where
  start : Nat
  stop : Nat
  deriving DecidableEq, Repr, Inhabited

namespace Span

def point (offset : Nat) : Span := ⟨offset, offset⟩

/-- The least span that covers both. -/
def cover (a b : Span) : Span := ⟨min a.start b.start, max a.stop b.stop⟩

/-- How many bytes lie in the span; a reversed span holds none. -/
def length (s : Span) : Nat := s.stop - s.start

def isEmpty (s : Span) : Bool := s.length == 0

/-- The written form `start..stop`. -/
def display (s : Span) : String := toString s.start ++ ".." ++ toString s.stop

theorem cover_comm (a b : Span) : a.cover b = b.cover a := by
  simp [cover, Nat.min_comm, Nat.max_comm]

theorem cover_assoc (a b c : Span) : (a.cover b).cover c = a.cover (b.cover c) := by
  simp [cover, Nat.min_assoc, Nat.max_assoc]

theorem isEmpty_iff {s : Span} : s.isEmpty = true ↔ s.stop ≤ s.start := by
  simp [isEmpty, length]; omega

end Span

end Declarative
