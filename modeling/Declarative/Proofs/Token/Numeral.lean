import Mathlib.Algebra.Group.Int.Defs
import Mathlib.Data.List.Induction
import Mathlib.Data.Nat.Digits.Defs
import Declarative.Proofs.Token.Lossless

/-!
# Numerals

A numeral is an optional sign, a digit, digits and underscores, and for a long number the mark behind
them. Its value is what its digits denote by their places; underscores and zeros in front count for
nothing. A text that is a numeral is read as one token with this value, or, where 64 bits with a sign do
not hold it, as one fault (`tokenize_numeral`).
-/

namespace Declarative.Token

open Shape

/-! ## Numerals and their values -/

/-- The spelling of a number. -/
structure Numeral where
  isNegative : Bool
  first : Char
  /-- What stands behind the first digit. -/
  others : List Char
  isLong : Bool
  isDigit_first : first.isDigit
  mem_others : ∀ c ∈ others, c.isDigit ∨ c = '_'

namespace Numeral

variable (numeral : Numeral)

/-- The digits without the underscores between them. -/
def digits : List Char := (numeral.first :: numeral.others).filter (· != '_')

/-- What the digits denote by their places, the last one being that of the ones. -/
def magnitude : Nat := Nat.ofDigits 10 (numeral.digits.map fun c => c.toNat - '0'.toNat).reverse

def value : Int := if numeral.isNegative then -numeral.magnitude else numeral.magnitude

/-- 64 bits with a sign hold the value. -/
def Fits : Prop := -2 ^ 63 ≤ numeral.value ∧ numeral.value ≤ 2 ^ 63 - 1

instance : Decidable numeral.Fits := inferInstanceAs (Decidable (_ ∧ _))

/-- The spelling without the mark of a long number. -/
def unmarked : List Char :=
  (if numeral.isNegative then ['-'] else []) ++ numeral.first :: numeral.others

def text : List Char := numeral.unmarked ++ if numeral.isLong then ['L'] else []

/-- The kind of the token that the numeral is where its value is `n`. -/
def kind (n : Int64) : Kind := if numeral.isLong then .long n else .int n

end Numeral

/-! ## Reading the value -/

/-- Reading digits from left to right comes to what they denote by their places. -/
theorem magnitude_eq_ofDigits (cs : List Char) :
    Text.magnitude cs
      = Nat.ofDigits 10 ((cs.filter (· != '_')).map fun c => c.toNat - '0'.toNat).reverse := by
  rw [Text.magnitude]
  generalize cs.filter (· != '_') = digits
  induction digits using List.reverseRecOn with
  | nil => rfl
  | append_singleton digits d ih =>
      rw [List.foldl_append, ih, List.map_append, List.reverse_append]
      exact (Nat.add_comm ..).trans Nat.ofDigits_cons.symm

theorem exists_int64? {n : Int} (hlow : -2 ^ 63 ≤ n) (hhigh : n ≤ 2 ^ 63 - 1) :
    ∃ m : Int64, int64? n = some m ∧ m.toInt = n :=
  ⟨.ofInt n, if_pos ⟨hlow, hhigh⟩, Int64.toInt_ofInt_of_le hlow (Int.lt_of_le_sub_one hhigh)⟩

namespace Numeral

variable (numeral : Numeral)

theorem integer?_unmarked : integer? numeral.unmarked = int64? numeral.value := by
  have hmagnitude : Text.magnitude (numeral.first :: numeral.others) = numeral.magnitude :=
    magnitude_eq_ofDigits _
  unfold unmarked value
  cases numeral.isNegative with
  | true => exact congrArg (fun n : Nat => int64? (-n)) hmagnitude
  | false =>
      have hfirst : numeral.first ≠ '-' := by
        intro hsign
        have hdigit := numeral.isDigit_first
        rw [hsign] at hdigit
        cases hdigit
      refine Eq.trans ?_ (congrArg (fun n : Nat => int64? n) hmagnitude)
      exact integer?.eq_2 _ fun digits h => hfirst (List.cons.inj h).1

/-! ## A numeral as a lexeme -/

/-- A numeral starts as a number does, and its other characters go on with it. -/
theorem exists_unmarked_cons :
    ∃ c part, numeral.unmarked = c :: part ∧ StartsNumber c part ∧ ∀ d ∈ part, isNumberPart d := by
  have hfirst := numeral.isDigit_first
  have hothers : ∀ d ∈ numeral.others, isNumberPart d := by
    intro d hd
    simpa [isNumberPart] using numeral.mem_others d hd
  unfold unmarked
  cases numeral.isNegative with
  | false => exact ⟨numeral.first, numeral.others, rfl, Or.inl hfirst, hothers⟩
  | true =>
      refine ⟨'-', numeral.first :: numeral.others, rfl, Or.inr ⟨rfl, _, _, rfl, hfirst⟩, ?_⟩
      exact List.forall_mem_cons.mpr ⟨by simp [isNumberPart, hfirst], hothers⟩

/-- The lexer takes a numeral as a whole, and its value decides what comes of it. -/
theorem exists_lexeme :
    ∃ c r shape, numeral.text = c :: r ∧ Shape.measure c r = (shape, r.length)
      ∧ (∀ n, int64? numeral.value = some n →
          ∀ span, Reading.of shape (c :: r) span = .token (numeral.kind n))
      ∧ (int64? numeral.value = none →
          ∀ span, Reading.of shape (c :: r) span = .fault ⟨span, .badNumber⟩) := by
  have hvalue := numeral.integer?_unmarked
  obtain ⟨c, part, hunmarked, hstarts, hpart⟩ := numeral.exists_unmarked_cons
  unfold text kind
  rw [hunmarked] at hvalue ⊢
  cases numeral.isLong with
  | false =>
      refine ⟨c, part, .int, List.append_nil _, ?_, fun n hn span => ?_, fun hnone span => ?_⟩
      · exact (measure_number hstarts).trans (measureNumber_int hpart)
      · simp [Reading.of, hvalue, hn]
      · simp [Reading.of, hvalue, hnone]
  | true =>
      refine ⟨c, part ++ ['L'], .long, rfl, ?_, fun n hn span => ?_, fun hnone span => ?_⟩
      · rw [List.length_append]
        exact (measure_number (hstarts.append _)).trans (measureNumber_long hpart [])
      -- the mark is no part of what is read as the value
      all_goals rw [← List.cons_append]
      · simp only [Reading.of, List.dropLast_concat, hvalue, hn, if_true]
      · simp only [Reading.of, List.dropLast_concat, hvalue, hnone]

end Numeral

/-- A text that is one lexeme and at fault has no tokens but its end. -/
theorem tokenize_of_fault {c : Char} {r : List Char} {shape : Shape} {fault : Fault}
    (hmeasure : Shape.measure c r = (shape, r.length))
    (hread : Reading.of shape (c :: r) ⟨0, Text.width (c :: r)⟩ = .fault fault) :
    tokenize (String.ofList (c :: r)) = ⟨[⟨.eof, .point (Text.width (c :: r))⟩], [fault]⟩ := by
  have hscan : scan maxFaults 0 (c :: r) = ⟨[], [fault]⟩ := by
    rw [maxFaults, scan]
    simp only [hmeasure, List.take_length, List.drop_length, Nat.zero_add, hread]
    simp [scan]
  unfold tokenize
  rw [String.toList_ofList, hscan]
  rfl

/-- **A numeral is read exactly**: as one token with the value that its digits denote, or, where 64 bits do
not hold that, as one fault that spans all of it. -/
theorem tokenize_numeral (numeral : Numeral) :
    let width := Text.width numeral.text
    (numeral.Fits → ∃ n : Int64, n.toInt = numeral.value
      ∧ tokenize (String.ofList numeral.text)
          = ⟨[⟨numeral.kind n, ⟨0, width⟩⟩, ⟨.eof, .point width⟩], []⟩)
    ∧ (¬numeral.Fits → tokenize (String.ofList numeral.text)
          = ⟨[⟨.eof, .point width⟩], [⟨⟨0, width⟩, .badNumber⟩]⟩) := by
  intro width
  obtain ⟨c, r, shape, htext, hmeasure, htoken, hfault⟩ := numeral.exists_lexeme
  simp only [width, htext]
  constructor
  · rintro ⟨hlow, hhigh⟩
    obtain ⟨n, hn, hvalue⟩ := exists_int64? hlow hhigh
    exact ⟨n, hvalue, (Spells.intro hmeasure (htoken n hn)).tokenize_eq⟩
  · intro hunfit
    exact tokenize_of_fault hmeasure (hfault (if_neg hunfit) _)

/-- A long number with a sign and an underscore, and twenty nines, which are too many. -/
theorem tokenize_numeral_minus_twelve :
    let numeral : Numeral := ⟨true, '1', ['_', '2'], true, rfl, by simp⟩
    let great : Numeral := ⟨false, '9', List.replicate 19 '9', false, rfl, by simp⟩
    (numeral.Fits ∧ tokenize "-1_2L" = ⟨[⟨.long (-12), ⟨0, 5⟩⟩, ⟨.eof, .point 5⟩], []⟩)
      ∧ ¬great.Fits
      ∧ tokenize "99999999999999999999" = ⟨[⟨.eof, .point 20⟩], [⟨⟨0, 20⟩, .badNumber⟩]⟩ := by
  intro numeral great
  have hfits : numeral.Fits := by decide +kernel
  have hgreat : ¬great.Fits := by decide +kernel
  obtain ⟨n, hn, hread⟩ := (tokenize_numeral numeral).1 hfits
  have hvalue : numeral.value = (-12 : Int64).toInt := by decide +kernel
  obtain rfl : n = -12 := Int64.toInt_inj.mp (hn.trans hvalue)
  have htext : String.ofList numeral.text = "-1_2L" := by decide +kernel
  have hwidth : Text.width numeral.text = 5 := by decide +kernel
  have hfault := (tokenize_numeral great).2 hgreat
  have hgreatText : String.ofList great.text = "99999999999999999999" := by decide +kernel
  have hgreatWidth : Text.width great.text = 20 := by decide +kernel
  rw [htext, hwidth] at hread
  rw [hgreatText, hgreatWidth] at hfault
  exact ⟨⟨hfits, hread⟩, hgreat, hfault⟩

-- both ends of the range, and the first numbers past them
example :
    (tokenize "-9_223_372_036_854_775_808L 00_9223372036854775807").isClean = true
      ∧ (tokenize "9223372036854775808").faults = [⟨⟨0, 19⟩, .badNumber⟩]
      ∧ (tokenize "-9223372036854775809_L").faults = [⟨⟨0, 22⟩, .badNumber⟩] := by
  decide +kernel

end Declarative.Token
