/-!
# Bytes of a text

Offsets and columns count the bytes of a text's UTF-8 form. This module measures texts in bytes and
cuts them at byte offsets; a cut that would fall inside a character, or past the end, is no cut.
-/

namespace Declarative.Text

/-- The number of bytes of the UTF-8 form. -/
def width : List Char → Nat
  | [] => 0
  | c :: r => c.utf8Size + width r

@[simp] theorem width_nil : width [] = 0 := rfl

@[simp] theorem width_cons (c : Char) (r : List Char) : width (c :: r) = c.utf8Size + width r := rfl

@[simp] theorem width_append (a b : List Char) : width (a ++ b) = width a + width b := by
  induction a with
  | nil => simp
  | cons c r ih => simp [ih, Nat.add_assoc]

theorem length_le_width (cs : List Char) : cs.length ≤ width cs := by
  induction cs with
  | nil => simp
  | cons c r ih =>
    have := Char.utf8Size_pos c
    simp
    omega

/-- The text in front of a byte offset and the text from it on. -/
def splitAt? : Nat → List Char → Option (List Char × List Char)
  | 0, cs => some ([], cs)
  | _ + 1, [] => none
  | n + 1, c :: r =>
    if c.utf8Size ≤ n + 1 then
      (splitAt? (n + 1 - c.utf8Size) r).map fun (front, back) => (c :: front, back)
    else
      none

/-- A cut neither loses nor adds text, and it lies where it was asked for. -/
theorem splitAt?_eq_some {n : Nat} {cs front back : List Char}
    (h : splitAt? n cs = some (front, back)) : front ++ back = cs ∧ width front = n := by
  induction cs generalizing n front with
  | nil =>
    cases n with
    | zero => simp_all [splitAt?]
    | succ n => simp [splitAt?] at h
  | cons c r ih =>
    cases n with
    | zero => simp_all [splitAt?]
    | succ n =>
      simp only [splitAt?] at h
      split at h
      · obtain ⟨⟨f, b⟩, hs, he⟩ := Option.map_eq_some_iff.1 h
        obtain ⟨rfl, rfl⟩ := Prod.mk.inj he
        obtain ⟨h1, h2⟩ := ih hs
        subst h1
        refine ⟨rfl, ?_⟩
        simp [h2]
        omega
      · simp at h

/-- Every join of two texts can be cut again where they meet. -/
theorem splitAt?_width (front back : List Char) :
    splitAt? (width front) (front ++ back) = some (front, back) := by
  induction front with
  | nil => simp [splitAt?]
  | cons c r ih =>
    have hc := Char.utf8Size_pos c
    obtain ⟨k, hk⟩ : ∃ k, width (c :: r) = k + 1 := ⟨width (c :: r) - 1, by simp; omega⟩
    have hw : k + 1 - c.utf8Size = width r := by simp at hk; omega
    have hle : c.utf8Size ≤ k + 1 := by simp at hk; omega
    rw [hk]
    simp [splitAt?, hle, hw, ih]

/-- The text between two byte offsets, where both are cuts in this order. -/
def slice? (cs : List Char) (start stop : Nat) : Option (List Char) :=
  if start ≤ stop then
    (splitAt? start cs).bind fun (_, back) => (splitAt? (stop - start) back).map (·.1)
  else
    none

/-- The characters at the head that fit into a number of bytes. -/
def takeBytes : Nat → List Char → List Char
  | _, [] => []
  | n, c :: r => if c.utf8Size ≤ n then c :: takeBytes (n - c.utf8Size) r else []

/-- What is behind the characters that fit into a number of bytes. -/
def dropBytes (n : Nat) (cs : List Char) : List Char := cs.drop (takeBytes n cs).length

/-- Where a text can be cut, the bytes in front of the cut are what is taken. -/
theorem takeBytes_width (front back : List Char) : takeBytes (width front) (front ++ back) = front := by
  induction front with
  | nil =>
    cases back with
    | nil => rfl
    | cons c r => simp [takeBytes, Nat.ne_of_gt (Char.utf8Size_pos c)]
  | cons c r ih => simp [takeBytes, ih]

end Declarative.Text
