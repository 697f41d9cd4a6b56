import Mathlib.Algebra.Group.Nat.Defs
import Declarative.Document.Printer
import Declarative.Proofs.Grammar
import Declarative.Proofs.Token.Lossless

/-!
# Printed literals are read back

A literal that is printed with a document is the spelling of a token, and that token has the value of
the literal. For texts that holds character by character: what a character is written as in quotes
is resolved to this character, whatever follows (`unescape?_escape_append`).
-/

namespace Declarative

namespace Text

/-! ## Hexadecimal digits -/

theorem hexDigit?_hexDigit : ∀ n < 16, hexDigit? (hexDigit n) = some n := by decide

theorem mem_hexDigits {n : Nat} {c : Char} (h : c ∈ hexDigits n) : ∃ k < 16, c = hexDigit k := by
  fun_induction hexDigits n with
  | case1 n hn => exact ⟨n, hn, List.mem_singleton.mp h⟩
  | case2 n hn ih =>
      rcases List.mem_append.mp h with h | h
      · exact ih h
      · exact ⟨n % 16, Nat.mod_lt _ (by decide), List.mem_singleton.mp h⟩

theorem hexadecimal?_hexDigits (n : Nat) : hexadecimal? (hexDigits n) = some n := by
  fun_induction hexDigits n with
  | case1 n hn => simp [hexadecimal?, hexDigit?_hexDigit n hn]
  | case2 n hn ih =>
      have hlast := hexDigit?_hexDigit (n % 16) (Nat.mod_lt _ (by decide))
      unfold hexadecimal? at *
      obtain ⟨values, hvalues, hfold⟩ := Option.bind_eq_some_iff.mp ih
      simp [List.mapM_append, hvalues, hlast] at *
      omega

theorem hexDigit_plain : ∀ k < 16, hexDigit k ≠ '"' ∧ hexDigit k ≠ '\\' ∧ hexDigit k ≠ '\n' := by
  decide

theorem length_hexDigits_pos (n : Nat) : 0 < (hexDigits n).length := by
  unfold hexDigits
  split <;> simp

theorem length_hexDigits_le {n : Nat} : ∀ {k : Nat}, n < 16 ^ (k + 1) →
    (hexDigits n).length ≤ k + 1 := by
  fun_induction hexDigits n with
  | case1 n hn => simp
  | case2 n hn ih =>
      intro k hk
      cases k with
      | zero => exact absurd hk hn
      | succ k =>
          rw [List.length_append, List.length_singleton]
          exact Nat.succ_le_succ (ih (Nat.div_lt_of_lt_mul (by rwa [Nat.pow_succ'] at hk)))

theorem toNat_lt_pow (c : Char) : c.toNat < 16 ^ 6 := by
  have hvalid : c.toNat.isValidChar := c.valid
  rcases hvalid with h | ⟨-, h⟩ <;> omega

theorem charOfNumber?_toNat (c : Char) : charOfNumber? c.toNat = some c := by
  have hvalid : c.toNat.isValidChar := c.valid
  rw [charOfNumber?, if_pos hvalid, Char.ofNat_toNat]

/-! ## Decimal digits -/

theorem isDigit_of_mem {n : Nat} {c : Char} (h : c ∈ Nat.toDigits 10 n) : c.isDigit :=
  Nat.isDigit_of_mem_toDigits (by decide) (by decide) h

theorem magnitude_toDigits (n : Nat) : magnitude (Nat.toDigits 10 n) = n := by
  have hfilter : (Nat.toDigits 10 n).filter (· != '_') = Nat.toDigits 10 n := by
    rw [List.filter_eq_self]
    intro c hc
    rw [bne_iff_ne]
    rintro rfl
    exact Nat.underscore_not_in_toDigits hc
  rw [magnitude, hfilter, ← Nat.ofDigitChars_eq_foldl, Nat.ofDigitChars_ten_toDigits]

/-- A number is written in digits, behind a sign if it is negative. -/
theorem toList_toString_cases (i : Int) :
    (0 ≤ i ∧ (toString i).toList = Nat.toDigits 10 i.toNat)
      ∨ (i < 0 ∧ (toString i).toList = '-' :: Nat.toDigits 10 (-i).toNat) := by
  rw [Int.toString_eq_repr, Int.repr_eq_if]
  by_cases hi : 0 ≤ i
  · rw [if_pos hi, Nat.toList_repr]
    exact Or.inl ⟨hi, rfl⟩
  · rw [if_neg hi, String.toList_append, Nat.toList_repr]
    exact Or.inr ⟨by omega, rfl⟩

end Text

namespace Token

open Text

/-! ## Characters in quotes -/

theorem numbered?_hexDigits (c : Char) : numbered? (hexDigits c.toNat) = some c := by
  have hpos := length_hexDigits_pos c.toNat
  have hle := length_hexDigits_le (toNat_lt_pow c)
  simp [numbered?, hexadecimal?_hexDigits, charOfNumber?_toNat]
  omega

theorem unescape?_digits {digits : List Char} (h : ∀ d ∈ digits, (hexDigit? d).isSome)
    (rest : List Char) :
    unescape? ('\\' :: 'u' :: '\x7b' :: (digits ++ '\x7d' :: rest))
      = (numbered? digits).bind fun c => (unescape? rest).map (c :: ·) := by
  have htake : (digits ++ '\x7d' :: rest).takeWhile (fun c => (hexDigit? c).isSome) = digits := by
    rw [List.takeWhile_append_of_pos h, List.takeWhile_cons_of_neg (by decide), List.append_nil]
  rw [unescape?]
  split
  · rename_i behind hbehind
    rw [htake, List.drop_left] at hbehind
    cases hbehind
    rw [htake]
    cases numbered? digits <;> cases unescape? rest <;> rfl
  · rename_i hbehind
    rw [htake, List.drop_left] at hbehind
    exact absurd rfl (hbehind rest)

theorem unescape?_letter {e c : Char} (hu : e ≠ 'u') (h : escaped? e = some c)
    (rest : List Char) : unescape? ('\\' :: e :: rest) = (unescape? rest).map (c :: ·) := by
  rw [unescape?]
  · rw [h]
    cases unescape? rest <;> rfl
  · exact fun _ he _ => hu he

theorem unescape?_plain {c : Char} (h : c ≠ '\\') (rest : List Char) :
    unescape? (c :: rest) = (unescape? rest).map (c :: ·) := by
  rw [unescape?]
  · cases unescape? rest <;> rfl
  all_goals
    intros
    exact h ‹_›

/-- A character as it is written in quotes is read as this character. -/
theorem unescape?_escape_append (c : Char) (rest : List Char) :
    unescape? (escape c ++ rest) = (unescape? rest).map (c :: ·) := by
  unfold escape
  split
  case h_7 =>
    rename_i hescape hquote
    split
    · have hdigits : ∀ d ∈ hexDigits c.toNat, (hexDigit? d).isSome := by
        intro d hd
        obtain ⟨k, hk, rfl⟩ := mem_hexDigits hd
        rw [hexDigit?_hexDigit k hk]
        rfl
      have happend : escapeByNumber c ++ rest
          = '\\' :: 'u' :: '\x7b' :: (hexDigits c.toNat ++ '\x7d' :: rest) := by
        simp [escapeByNumber]
      rw [happend, unescape?_digits hdigits, numbered?_hexDigits]
      rfl
    · exact unescape?_plain hescape rest
  all_goals exact unescape?_letter (by decide) rfl rest

theorem unescape?_flatMap_escape (text : List Char) : unescape? (text.flatMap escape) = some text := by
  induction text with
  | nil => simp [unescape?]
  | cons c text ih => rw [List.flatMap_cons, unescape?_escape_append, ih, Option.map_some]

theorem quotable_hexDigits_append (n : Nat) {rest : List Char} (h : Quotable rest) :
    Quotable (hexDigits n ++ rest) := by
  have hplain : ∀ c ∈ hexDigits n, c ≠ '"' ∧ c ≠ '\\' ∧ c ≠ '\n' := by
    intro c hc
    obtain ⟨k, hk, rfl⟩ := mem_hexDigits hc
    exact hexDigit_plain k hk
  generalize hexDigits n = digits at hplain
  induction digits with
  | nil => exact h
  | cons c digits ih =>
      obtain ⟨⟨hquote, hescape, hline⟩, hdigits⟩ := List.forall_mem_cons.mp hplain
      exact .plain hquote hescape hline (ih hdigits)

theorem quotable_escape_append (c : Char) {rest : List Char} (h : Quotable rest) :
    Quotable (escape c ++ rest) := by
  unfold escape
  split
  case h_7 =>
    rename_i hline hescape hquote
    split
    · have hclosed : Quotable ('\x7d' :: rest) := .plain (by decide) (by decide) (by decide) h
      have hdigits := quotable_hexDigits_append c.toNat hclosed
      rw [escapeByNumber, List.append_assoc, List.append_assoc]
      exact .escape (by decide) (.plain (by decide) (by decide) (by decide) hdigits)
    · exact .plain hquote hescape hline h
  all_goals exact .escape (by decide) h

theorem quotable_flatMap_escape (text : List Char) : Quotable (text.flatMap escape) := by
  induction text with
  | nil => exact .nil
  | cons c text ih => exact quotable_escape_append c ih

/-! ## Numbers -/

theorem integer?_toDigits (n : Nat) : integer? (Nat.toDigits 10 n) = int64? n := by
  unfold integer?
  split
  · rename_i digits hdigits
    have hsign : '-' ∈ Nat.toDigits 10 n := hdigits ▸ List.mem_cons_self ..
    exact absurd (isDigit_of_mem hsign) (by decide)
  · rw [magnitude_toDigits]

theorem int64?_toInt (n : Int64) : int64? n.toInt = some n := by
  rw [int64?, if_pos ⟨n.minValue_le_toInt, n.toInt_le⟩, Int64.ofInt_toInt]

theorem integer?_toString (n : Int64) : integer? (toString n.toInt).toList = some n := by
  rcases toList_toString_cases n.toInt with ⟨hn, htext⟩ | ⟨hn, htext⟩
  · rw [htext, integer?_toDigits, Int.toNat_of_nonneg hn, int64?_toInt]
  · rw [htext, integer?, magnitude_toDigits, Int.toNat_of_nonneg (by omega), Int.neg_neg,
      int64?_toInt]

theorem exists_toDigits_cons (n : Nat) : ∃ d t, Nat.toDigits 10 n = d :: t ∧ d.isDigit := by
  obtain ⟨d, t, hdigits⟩ := List.exists_cons_of_ne_nil (Nat.toDigits_ne_nil (n := n) (b := 10))
  exact ⟨d, t, hdigits, isDigit_of_mem (hdigits ▸ List.mem_cons_self ..)⟩

/-- What follows the first character of a number are digits. -/
theorem exists_toString_cons (i : Int) :
    ∃ c r, (toString i).toList = c :: r ∧ StartsNumber c r ∧ ∀ d ∈ r, Shape.isNumberPart d := by
  have hpart : ∀ n, ∀ d ∈ Nat.toDigits 10 n, Shape.isNumberPart d := by
    intro n d hd
    simp [Shape.isNumberPart, isDigit_of_mem hd]
  rcases toList_toString_cases i with ⟨-, htext⟩ | ⟨-, htext⟩
  · obtain ⟨d, t, hdigits, hd⟩ := exists_toDigits_cons i.toNat
    have hall := hpart i.toNat
    rw [hdigits] at htext hall
    exact ⟨d, t, htext, Or.inl hd, (List.forall_mem_cons.mp hall).2⟩
  · obtain ⟨d, t, hdigits, hd⟩ := exists_toDigits_cons (-i).toNat
    exact ⟨'-', _, htext, Or.inr ⟨rfl, d, t, hdigits, hd⟩, hpart _⟩

/-! ## Spellings of literals -/

theorem spells_int (n : Int64) : Spells (toString n.toInt).toList (.int n) := by
  have hvalue := integer?_toString n
  obtain ⟨c, r, htext, hc, hr⟩ := exists_toString_cons n.toInt
  rw [htext] at hvalue ⊢
  refine .intro ((measure_number hc).trans (measureNumber_int hr)) (fun span => ?_)
  simp [Reading.of, hvalue]

theorem spells_long (n : Int64) : Spells ((toString n.toInt).toList ++ ['L']) (.long n) := by
  have hvalue := integer?_toString n
  obtain ⟨c, r, htext, hc, hr⟩ := exists_toString_cons n.toInt
  rw [htext] at hvalue ⊢
  have hmeasure := (measure_number (hc.append ['L'])).trans (measureNumber_long hr [])
  have hlength : (r ++ ['L']).length = r.length + 1 := List.length_append
  rw [← hlength] at hmeasure
  rw [List.cons_append]
  refine .intro hmeasure (fun span => ?_)
  rw [← List.cons_append]
  simp only [Reading.of, List.dropLast_concat, hvalue]

theorem spells_quoted (text : String) : Spells (quoted text).toList (.string text) := by
  have hmeasure := (quotable_flatMap_escape text.toList).measureQuoted_append []
  have hlength : (text.toList.flatMap escape ++ ['"']).length
      = (text.toList.flatMap escape).length + 1 := List.length_append
  rw [← hlength] at hmeasure
  rw [quoted, String.toList_ofList]
  refine .intro hmeasure (fun span => ?_)
  simp only [Reading.of, List.drop_one, List.tail_cons, List.dropLast_concat,
    unescape?_flatMap_escape, String.ofList_toList]

theorem spells_literalText (content : Literal) :
    Spells (Document.literalText content).toList content.kind := by
  cases content with
  | string value => exact spells_quoted value
  | int value => exact spells_int value
  | long value =>
      have h := spells_long value
      have htext : (toString value.toInt ++ "L").toList = (toString value.toInt).toList ++ ['L'] :=
        String.toList_append
      rwa [← htext] at h
  | bool value =>
      cases value with
      | false => exact .intro (measure_word (by decide) _) (fun _ => rfl)
      | true => exact .intro (measure_word (by decide) _) (fun _ => rfl)
  | null => exact .intro (measure_word (by decide) _) (fun _ => rfl)

end Token

end Declarative
