import Mathlib.Order.Bounds.Defs
import Mathlib.Order.MinMax
import Declarative.Text.Distance
import Declarative.Text.Utf8

/-!
# Rows and edits

The distance of two texts is computed row by row. It is the least number of edits that make one text of
the other, where an edit inserts, leaves out or replaces one character anywhere
(`Text.isLeast_distance`). Along the rows there are as many edits as they count; and no edits are fewer,
since an edit changes the distance to any other text by at most one.
-/

namespace Declarative.Text

/-! ## Edits -/

/-- One character is inserted, left out or replaced. -/
inductive Edit : List Char → List Char → Prop where
  | insert (front : List Char) (c : Char) (back : List Char) : Edit (front ++ back) (front ++ c :: back)
  | leaveOut (front : List Char) (c : Char) (back : List Char) :
    Edit (front ++ c :: back) (front ++ back)
  | replace (front : List Char) (c d : Char) (back : List Char) :
    Edit (front ++ c :: back) (front ++ d :: back)

/-- So many edits, one after the other, make the second text of the first. -/
inductive Edits : Nat → List Char → List Char → Prop where
  | none (cs : List Char) : Edits 0 cs cs
  | next {n : Nat} {xs ys zs : List Char} (h : Edit xs ys) (rest : Edits n ys zs) : Edits (n + 1) xs zs

/-- An edit behind a character. -/
theorem Edit.cons (c : Char) {xs ys : List Char} (h : Edit xs ys) : Edit (c :: xs) (c :: ys) := by
  cases h with
  | insert front d back => exact .insert (c :: front) d back
  | leaveOut front d back => exact .leaveOut (c :: front) d back
  | replace front d e back => exact .replace (c :: front) d e back

theorem Edits.cons (c : Char) {n : Nat} {xs ys : List Char} (h : Edits n xs ys) :
    Edits n (c :: xs) (c :: ys) := by
  induction h with
  | none => exact .none _
  | next h _ ih => exact .next (h.cons c) ih

/-- An edit makes a text longer or shorter by at most one character. -/
theorem Edit.length_le {xs ys : List Char} (h : Edit xs ys) :
    xs.length ≤ ys.length + 1 ∧ ys.length ≤ xs.length + 1 := by
  cases h <;> simp only [List.length_append, List.length_cons] <;> omega

theorem Edits.length_le {n : Nat} {xs ys : List Char} (h : Edits n xs ys) :
    xs.length ≤ ys.length + n ∧ ys.length ≤ xs.length + n := by
  induction h with
  | none => exact ⟨Nat.le_refl _, Nat.le_refl _⟩
  | next h _ ih =>
      have hone := h.length_le
      omega

/-! ## Rows -/

/-- The distance of two texts, at the head of the row. -/
def rowDistance (xs ys : List Char) : Nat := (distanceRow xs ys).headD 0

/-- Behind the distance of a text its row goes on with the row of the text without its head. -/
theorem distanceRow_cons (x : Char) (xs : List Char) : ∀ ys : List Char,
    distanceRow (x :: xs) ys = rowDistance (x :: xs) ys :: distanceRow xs ys
  | [] => rfl
  | y :: ys => by
      rw [rowDistance, distanceRow, distanceRow_cons x xs ys, nextRow]
      rfl

@[simp] theorem rowDistance_nil_left : ∀ ys : List Char, rowDistance [] ys = ys.length
  | [] => rfl
  | _ :: ys => congrArg (· + 1) (rowDistance_nil_left ys)

@[simp] theorem rowDistance_nil_right (xs : List Char) : rowDistance xs [] = xs.length := by
  cases xs <;> rfl

theorem rowDistance_cons_cons (x y : Char) (xs ys : List Char) :
    rowDistance (x :: xs) (y :: ys) = min (rowDistance xs (y :: ys) + 1)
      (min (rowDistance (x :: xs) ys + 1) (rowDistance xs ys + if x = y then 0 else 1)) := by
  rw [rowDistance, distanceRow, distanceRow_cons x xs ys, nextRow]
  rfl

/-! ## One edit -/

theorem rowDistance_cons_right_le (xs : List Char) (y : Char) (ys : List Char) :
    rowDistance xs (y :: ys) ≤ rowDistance xs ys + 1 := by
  cases xs with
  | nil => simp
  | cons x xs =>
      rw [rowDistance_cons_cons]
      omega

theorem rowDistance_cons_left_le (x : Char) (xs ys : List Char) :
    rowDistance (x :: xs) ys ≤ rowDistance xs ys + 1 := by
  cases ys with
  | nil => simp
  | cons y ys =>
      rw [rowDistance_cons_cons]
      omega

theorem le_rowDistance_cons_left (x : Char) (xs : List Char) : ∀ ys : List Char,
    rowDistance xs ys ≤ rowDistance (x :: xs) ys + 1
  | [] => by simp; omega
  | y :: ys => by
      have hbehind := le_rowDistance_cons_left x xs ys
      have hright := rowDistance_cons_right_le xs y ys
      rw [rowDistance_cons_cons]
      omega

theorem rowDistance_replace_le (c d : Char) (xs : List Char) : ∀ ys : List Char,
    rowDistance (c :: xs) ys ≤ rowDistance (d :: xs) ys + 1
  | [] => by simp
  | y :: ys => by
      have hbehind := rowDistance_replace_le c d xs ys
      rw [rowDistance_cons_cons, rowDistance_cons_cons]
      split <;> omega

/-- A character in front of both texts does not add to what separates them from a third one. -/
theorem rowDistance_cons_le (c : Char) {xs ys : List Char}
    (h : ∀ zs, rowDistance xs zs ≤ rowDistance ys zs + 1) : ∀ zs : List Char,
    rowDistance (c :: xs) zs ≤ rowDistance (c :: ys) zs + 1
  | [] => by simpa using h []
  | z :: zs => by
      have hbehind := rowDistance_cons_le c h zs
      have hleft := h (z :: zs)
      have hboth := h zs
      rw [rowDistance_cons_cons, rowDistance_cons_cons]
      omega

/-- An edit changes the distance to any text by at most one. -/
theorem Edit.rowDistance_le {xs ys : List Char} (h : Edit xs ys) (zs : List Char) :
    rowDistance xs zs ≤ rowDistance ys zs + 1 := by
  have happend : ∀ {a b : List Char}, (∀ zs, rowDistance a zs ≤ rowDistance b zs + 1) →
      ∀ front zs, rowDistance (front ++ a) zs ≤ rowDistance (front ++ b) zs + 1 := by
    intro a b hab front
    induction front with
    | nil => exact hab
    | cons c front ih => exact rowDistance_cons_le c ih
  cases h with
  | insert front c back => exact happend (le_rowDistance_cons_left c back) front zs
  | leaveOut front c back => exact happend (rowDistance_cons_left_le c back) front zs
  | replace front c d back => exact happend (rowDistance_replace_le c d back) front zs

/-! ## The least number of edits -/

theorem rowDistance_self : ∀ cs : List Char, rowDistance cs cs = 0
  | [] => rfl
  | c :: cs => by
      rw [rowDistance_cons_cons, rowDistance_self cs, if_pos rfl]
      omega

theorem Edits.rowDistance_le {n : Nat} {xs ys : List Char} (h : Edits n xs ys) :
    rowDistance xs ys ≤ n := by
  induction h with
  | none cs => rw [rowDistance_self]
  | next h _ ih => exact (h.rowDistance_le _).trans (Nat.add_le_add_right ih 1)

theorem edits_of_leavingOut : ∀ xs : List Char, Edits xs.length xs []
  | [] => .none []
  | x :: xs => .next (.leaveOut [] x xs) (edits_of_leavingOut xs)

theorem edits_of_inserting : ∀ ys : List Char, Edits ys.length [] ys
  | [] => .none []
  | y :: ys => .next (.insert [] y []) ((edits_of_inserting ys).cons y)

/-- As many edits as the rows count. -/
theorem edits_rowDistance : ∀ xs ys : List Char, Edits (rowDistance xs ys) xs ys
  | [], ys => by
      rw [rowDistance_nil_left]
      exact edits_of_inserting ys
  | x :: xs, [] => by
      rw [rowDistance_nil_right]
      exact edits_of_leavingOut (x :: xs)
  | x :: xs, y :: ys => by
      have hleft : Edits (rowDistance xs (y :: ys) + 1) (x :: xs) (y :: ys) :=
        .next (.leaveOut [] x xs) (edits_rowDistance xs (y :: ys))
      have hinserted : Edits (rowDistance (x :: xs) ys + 1) (x :: xs) (y :: ys) :=
        .next (.insert [] y (x :: xs)) ((edits_rowDistance (x :: xs) ys).cons y)
      have hreplaced : Edits (rowDistance xs ys + if x = y then 0 else 1) (x :: xs) (y :: ys) := by
        split
        · rename_i hsame
          exact hsame ▸ (edits_rowDistance xs ys).cons x
        · exact .next (.replace [] x y xs) ((edits_rowDistance xs ys).cons y)
      rw [rowDistance_cons_cons]
      exact min_rec' (fun n => Edits n (x :: xs) (y :: ys)) hleft
        (min_rec' (fun n => Edits n (x :: xs) (y :: ys)) hinserted hreplaced)
termination_by xs ys => xs.length + ys.length

/-- **The distance is the least number of edits.** -/
theorem isLeast_distance (a b : String) :
    IsLeast {n | Edits n a.toList b.toList} (distance a b) :=
  ⟨edits_rowDistance a.toList b.toList, fun _ h => h.rowDistance_le⟩

theorem distance_self (a : String) : distance a a = 0 := rowDistance_self a.toList

theorem eq_of_distance_eq_zero {a b : String} (h : distance a b = 0) : a = b := by
  have hedits : Edits (distance a b) a.toList b.toList := (isLeast_distance a b).1
  rw [h] at hedits
  generalize hxs : a.toList = xs, hys : b.toList = ys at hedits
  cases hedits with
  | none => exact String.toList_inj.mp (hxs.trans hys.symm)

/-! ## Widths -/

/-- Whether each character of the text is one byte wide. -/
def IsNarrow (text : String) : Prop := ∀ c ∈ text.toList, c.utf8Size = 1

instance (text : String) : Decidable (IsNarrow text) :=
  List.decidableBAll (fun c : Char => c.utf8Size = 1) text.toList

theorem width_eq_length {cs : List Char} (h : ∀ c ∈ cs, c.utf8Size = 1) : width cs = cs.length := by
  induction cs with
  | nil => rfl
  | cons c cs ih =>
      rw [width_cons, h c (List.mem_cons_self ..), ih fun d hd => h d (List.mem_cons_of_mem _ hd),
        List.length_cons, Nat.add_comm]

/-- Where characters are one byte wide, the widths of texts differ by no more than their distance. -/
theorem IsNarrow.width_le {a b : String} (ha : IsNarrow a) (hb : IsNarrow b) :
    width a.toList ≤ width b.toList + distance a b
      ∧ width b.toList ≤ width a.toList + distance a b := by
  rw [width_eq_length ha, width_eq_length hb]
  exact (isLeast_distance a b).1.length_le

end Declarative.Text
