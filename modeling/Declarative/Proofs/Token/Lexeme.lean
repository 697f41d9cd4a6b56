import Mathlib.Data.List.TakeWhile
import Declarative.Token.Lexer

/-!
# Lexemes in a text and on their own

What a lexeme is, said from its own characters: a comment opens and closes others inside of it
(`Nests`), a quoted text is made of characters and escapes (`Quotable`). How the lexer measures a
lexeme at the head of a text is told once, by `Measured`; from it follow the two facts that later
modules use. A lexeme that is skipped is part of the text between tokens (`Skipped`), and one that
is a token is measured alike where nothing stands behind it (`measure_take`).
-/

namespace Declarative.Token

open Shape

/-! ## Comments in comments -/

/-- Between slash-star and the end of the piece the number of open comments goes from one value to the
other, marks being read from left to right; it is zero at the end of the piece at the earliest. -/
inductive Nests : Nat → List Char → Nat → Prop where
  | stop {depth} : Nests depth [] depth
  | opens {depth r last} : Nests (depth + 2) r last → Nests (depth + 1) ('/' :: '*' :: r) last
  | closes {depth r last} : Nests depth r last → Nests (depth + 1) ('*' :: '/' :: r) last
  | other {depth c r last} (hopens : c = '/' → r.head? ≠ some '*')
      (hcloses : c = '*' → r.head? ≠ some '/') :
      Nests (depth + 1) r last → Nests (depth + 1) (c :: r) last

theorem head?_take_ne {r : List Char} {x : Char} (h : ∀ t, r = x :: t → False) (n : Nat) :
    (r.take n).head? ≠ some x := by
  intro hhead
  obtain ⟨t, ht⟩ := List.head?_eq_some_iff.mp hhead
  have hr := List.take_append_drop n r
  rw [ht, List.cons_append] at hr
  exact h _ hr.symm

/-- A comment is measured up to where the last of the open ones is closed, or to the end. -/
theorem exists_nests_take (depth : Nat) (r : List Char) :
    ∃ last, Nests depth (r.take (commentLength depth r)) last
      ∧ (last = 0 ∨ r.drop (commentLength depth r) = []) := by
  fun_induction commentLength depth r with
  | case1 r => exact ⟨0, .stop, Or.inl rfl⟩
  | case2 depth => exact ⟨depth + 1, .stop, Or.inr rfl⟩
  | case3 depth r ih =>
      obtain ⟨last, hnests, hend⟩ := ih
      rw [Nat.add_comm]
      exact ⟨last, .opens hnests, hend⟩
  | case4 depth r ih =>
      obtain ⟨last, hnests, hend⟩ := ih
      rw [Nat.add_comm]
      exact ⟨last, .closes hnests, hend⟩
  | case5 depth c r hopens hcloses ih =>
      -- the cut behind the comment hides no mark that was not there before
      obtain ⟨last, hnests, hend⟩ := ih
      rw [Nat.add_comm]
      refine ⟨last, .other (fun hc => ?_) (fun hc => ?_) hnests, hend⟩
      · exact head?_take_ne (fun t => hopens t hc) _
      · exact head?_take_ne (fun t => hcloses t hc) _

/-! ## Text between tokens -/

/-- The piece holds no token, where `rest` stands behind it: blanks and comments. A comment of a line
reaches to the end of the line, one that is left open to the end of the text. -/
inductive Skipped : List Char → List Char → Prop where
  | nil {rest} : Skipped [] rest
  | blank {c piece rest} (hblank : c = ' ' ∨ c = '\t' ∨ c = '\r') :
      Skipped piece rest → Skipped (c :: piece) rest
  | line {body rest} (hbody : '\n' ∉ body) (hrest : rest = [] ∨ rest.head? = some '\n') :
      Skipped ('/' :: '/' :: body) rest
  | comment {body piece rest} (hbody : Nests 1 body 0) :
      Skipped piece rest → Skipped ('/' :: '*' :: (body ++ piece)) rest
  | unclosed {body depth} (hbody : Nests 1 body (depth + 1)) : Skipped ('/' :: '*' :: body) []

/-! ## Quoted texts -/

/-- What can stand between quotes on one line: a backslash takes the next character along. -/
inductive Quotable : List Char → Prop where
  | nil : Quotable []
  | plain {c r} (hquote : c ≠ '"') (hescape : c ≠ '\\') (hline : c ≠ '\n') :
      Quotable r → Quotable (c :: r)
  | escape {c r} (hline : c ≠ '\n') : Quotable r → Quotable ('\\' :: c :: r)

theorem Quotable.quotedLength_append {body : List Char} (h : Quotable body) (rest : List Char) :
    quotedLength (body ++ '"' :: rest) = body.length := by
  induction h with
  | nil => simp [quotedLength]
  | plain hquote hescape hline _ ih =>
      rw [List.cons_append, quotedLength, ih]
      · simp [hquote, hline, Nat.add_comm]
      · exact fun h => absurd h hescape
      · exact fun _ _ h => absurd h hescape
  | escape hline _ ih =>
      rw [List.cons_append, List.cons_append, quotedLength, if_neg hline, ih]
      simp only [List.length_cons]
      omega

theorem quotable_take (r : List Char) : Quotable (r.take (quotedLength r)) := by
  fun_induction quotedLength r with
  | case1 => exact .nil
  | case2 => exact .nil
  | case3 r => exact .nil
  | case4 c r hline ih =>
      rw [Nat.add_comm]
      exact .escape hline ih
  | case5 => exact .nil
  | case6 c r hescape₁ hescape₂ hc ih =>
      have hescape : c ≠ '\\' := by
        intro hc
        cases r with
        | nil => exact hescape₁ hc rfl
        | cons d t => exact hescape₂ d t hc rfl
      rw [Nat.add_comm]
      exact .plain (fun h => hc (Or.inl h)) hescape (fun h => hc (Or.inr h)) ih

theorem Quotable.measureQuoted_append {body : List Char} (h : Quotable body) (rest : List Char) :
    measureQuoted (body ++ '"' :: rest) = (.quoted, body.length + 1) := by
  simp [measureQuoted, h.quotedLength_append rest]

/-- A text is measured with its closing quote, if there is one. -/
theorem measureQuoted_cases {r : List Char} {shape : Shape} {n : Nat}
    (h : measureQuoted r = (shape, n)) :
    (∃ body rest, Quotable body ∧ r = body ++ '"' :: rest ∧ shape = .quoted ∧ n = body.length + 1)
      ∨ shape = .unclosed := by
  have hbody := quotable_take r
  have hr := List.take_append_drop (quotedLength r) r
  unfold measureQuoted at h
  dsimp only at h
  split at h
  · rename_i rest hrest
    obtain ⟨rfl, rfl⟩ := Prod.mk.inj h
    have hlength := congrArg List.length hrest
    rw [List.length_drop, List.length_cons] at hlength
    rw [hrest] at hr
    refine Or.inl ⟨_, rest, hbody, hr.symm, rfl, ?_⟩
    rw [List.length_take]
    omega
  · obtain ⟨rfl, rfl⟩ := Prod.mk.inj h
    exact Or.inr rfl
  · obtain ⟨rfl, rfl⟩ := Prod.mk.inj h
    exact Or.inr rfl

/-! ## Numbers -/

theorem measureNumber_int {digits : List Char} (h : ∀ d ∈ digits, isNumberPart d) :
    measureNumber digits = (.int, digits.length) := by
  have htake : digits.takeWhile isNumberPart = digits := List.takeWhile_eq_self_iff.mpr h
  simp [measureNumber, htake]

theorem measureNumber_long {digits : List Char} (h : ∀ d ∈ digits, isNumberPart d)
    (rest : List Char) :
    measureNumber (digits ++ 'L' :: rest) = (.long, digits.length + 1) := by
  have htake : (digits ++ 'L' :: rest).takeWhile isNumberPart = digits := by
    rw [List.takeWhile_append_of_pos h, List.takeWhile_cons_of_neg (by decide), List.append_nil]
  simp [measureNumber, htake]

/-- A number is measured with the mark of a long one behind its digits, if there is one. -/
theorem measureNumber_cases {r : List Char} {shape : Shape} {n : Nat}
    (h : measureNumber r = (shape, n)) :
    (∃ rest, r = r.takeWhile isNumberPart ++ 'L' :: rest ∧ shape = .long
        ∧ n = (r.takeWhile isNumberPart).length + 1)
      ∨ (shape = .int ∧ n = (r.takeWhile isNumberPart).length) := by
  have htake := List.prefix_iff_eq_take.mp (r.takeWhile_prefix isNumberPart)
  have hr := List.take_append_drop (r.takeWhile isNumberPart).length r
  rw [← htake] at hr
  unfold measureNumber at h
  dsimp only at h
  split at h
  · rename_i rest hrest
    obtain ⟨rfl, rfl⟩ := Prod.mk.inj h
    rw [hrest] at hr
    exact Or.inl ⟨rest, hr.symm, rfl, rfl⟩
  · obtain ⟨rfl, rfl⟩ := Prod.mk.inj h
    exact Or.inr ⟨rfl, rfl⟩

theorem measureNumber_pos {d : Char} {r : List Char} {shape : Shape} {n : Nat} (hd : d.isDigit)
    (h : measureNumber (d :: r) = (shape, n)) : 0 < n := by
  rcases measureNumber_cases h with ⟨rest, -, -, rfl⟩ | ⟨-, rfl⟩
  · exact Nat.succ_pos _
  · rw [List.takeWhile_cons_of_pos (by simp [isNumberPart, hd])]
    exact Nat.succ_pos _

/-- A number is measured alike where the text ends with it. -/
theorem measureNumber_take {r : List Char} {shape : Shape} {n : Nat}
    (h : measureNumber r = (shape, n)) :
    measureNumber (r.take n) = (shape, n) ∧ n = (r.take n).length := by
  have hdigits : ∀ d ∈ r.takeWhile isNumberPart, isNumberPart d := fun d hd =>
    List.mem_takeWhile_imp hd
  have htake := List.prefix_iff_eq_take.mp (r.takeWhile_prefix isNumberPart)
  rcases measureNumber_cases h with ⟨rest, hr, rfl, rfl⟩ | ⟨rfl, rfl⟩
  · generalize r.takeWhile isNumberPart = digits at *
    have hlong : r.take (digits.length + 1) = digits ++ ['L'] := by
      rw [hr, List.take_length_add_append]
      rfl
    rw [hlong]
    exact ⟨measureNumber_long hdigits [], by simp⟩
  · rw [← htake]
    exact ⟨measureNumber_int hdigits, rfl⟩

/-- A digit starts a number, and so does a sign in front of one. -/
def StartsNumber (c : Char) (r : List Char) : Prop :=
  c.isDigit ∨ c = '-' ∧ ∃ d t, r = d :: t ∧ d.isDigit

theorem StartsNumber.append {c : Char} {r : List Char} (h : StartsNumber c r) (rest : List Char) :
    StartsNumber c (r ++ rest) := by
  rcases h with hc | ⟨hc, d, t, rfl, hd⟩
  · exact Or.inl hc
  · exact Or.inr ⟨hc, d, t ++ rest, rfl, hd⟩

/-! ## Lexemes -/

/-- How a lexeme is measured from its first character and what follows, shape by shape. -/
inductive Measured : Char → List Char → Shape → Nat → Prop where
  | blank {c r} (hc : isBlank c) : Measured c r .blank (r.takeWhile isBlank).length
  | line {r} : Measured '/' ('/' :: r) .lineComment (1 + (r.takeWhile (· != '\n')).length)
  | comment {r} : Measured '/' ('*' :: r) .blockComment (1 + commentLength 1 r)
  | mark {c r kind} (hc : markOf? c = some kind) : Measured c r (.mark kind) 0
  | word {c r} (hc : isWordStart c) : Measured c r .word (r.takeWhile isWordPart).length
  | number {c r shape n} (hc : StartsNumber c r) (hn : measureNumber r = (shape, n)) :
      Measured c r shape n
  | quoted {r shape n} (hn : measureQuoted r = (shape, n)) : Measured '"' r shape n
  | stray {c r} : Measured c r .stray 0

theorem measured_of_eq {c : Char} {r : List Char} {shape : Shape} {n : Nat}
    (h : Shape.measure c r = (shape, n)) : Measured c r shape n := by
  unfold Shape.measure at h
  by_cases hblank : isBlank c
  · rw [if_pos hblank] at h
    obtain ⟨rfl, rfl⟩ := Prod.mk.inj h
    exact .blank hblank
  rw [if_neg hblank] at h
  cases hmark : markOf? c with
  | some kind =>
      rw [hmark] at h
      obtain ⟨rfl, rfl⟩ := Prod.mk.inj h
      exact .mark hmark
  | none =>
      rw [hmark] at h
      dsimp only at h
      by_cases hword : isWordStart c
      · rw [if_pos hword] at h
        obtain ⟨rfl, rfl⟩ := Prod.mk.inj h
        exact .word hword
      rw [if_neg hword] at h
      by_cases hdigit : c.isDigit
      · rw [if_pos hdigit] at h
        exact .number (Or.inl hdigit) h
      rw [if_neg hdigit] at h
      by_cases hquote : c = '"'
      · rw [if_pos hquote] at h
        subst hquote
        exact .quoted h
      rw [if_neg hquote] at h
      split at h
      · obtain ⟨rfl, rfl⟩ := Prod.mk.inj h
        exact .line
      · obtain ⟨rfl, rfl⟩ := Prod.mk.inj h
        exact .comment
      · rename_i d t
        by_cases hd : d.isDigit
        · rw [if_pos hd] at h
          exact .number (Or.inr ⟨rfl, d, t, rfl, hd⟩) h
        · rw [if_neg hd] at h
          obtain ⟨rfl, rfl⟩ := Prod.mk.inj h
          exact .stray
      · obtain ⟨rfl, rfl⟩ := Prod.mk.inj h
        exact .stray

/-! ## First characters -/

theorem isBlank_iff {c : Char} : isBlank c ↔ c = ' ' ∨ c = '\t' ∨ c = '\r' := by
  simp [isBlank, or_assoc]

theorem isWordPart_of_isWordStart {c : Char} (h : isWordStart c) : isWordPart c := by
  simp only [isWordStart, isWordPart, Char.isAlphanum, Bool.or_eq_true] at h ⊢
  rcases h with h | h
  · exact Or.inl (Or.inl h)
  · exact Or.inr h

theorem isWordPart_of_isDigit {c : Char} (h : c.isDigit) : isWordPart c := by
  simp [isWordPart, Char.isAlphanum, h]

theorem not_isWordStart_of_isDigit {c : Char} (h : c.isDigit) : isWordStart c = false := by
  have hle : c.toNat ≤ 57 :=
    UInt32.le_iff_toNat_le.mp (of_decide_eq_true (Bool.and_eq_true_iff.mp h).2)
  have hall : ∀ n < 58, (Char.ofNat n).isDigit → isWordStart (Char.ofNat n) = false := by decide
  have hc := hall c.toNat (Nat.lt_succ_of_le hle)
  rw [Char.ofNat_toNat] at hc
  exact hc h

theorem not_isBlank_of_isWordPart {c : Char} (h : isWordPart c) : isBlank c = false := by
  rw [Bool.eq_false_iff]
  intro hblank
  rcases isBlank_iff.mp hblank with rfl | rfl | rfl <;> exact absurd h (by decide)

theorem markOf?_of_isWordPart {c : Char} (h : isWordPart c) : markOf? c = none := by
  unfold markOf?
  split
  all_goals try exact absurd h (by decide)
  rfl

theorem not_isBlank_of_markOf? {c : Char} {kind : Kind} (h : markOf? c = some kind) :
    isBlank c = false := by
  unfold markOf? at h
  split at h
  all_goals try rfl
  cases h

theorem ne_eof_of_markOf? {c : Char} {kind : Kind} (h : markOf? c = some kind) : kind ≠ .eof := by
  unfold markOf? at h
  split at h <;> cases h <;> simp

theorem ne_ident_of_markOf? {c : Char} {kind : Kind} (h : markOf? c = some kind) (name : String) :
    kind ≠ .ident name := by
  unfold markOf? at h
  split at h <;> cases h <;> simp

theorem measure_mark {c : Char} {kind : Kind} (h : markOf? c = some kind) (r : List Char) :
    Shape.measure c r = (.mark kind, 0) := by
  simp [Shape.measure, not_isBlank_of_markOf? h, h]

theorem measure_word {c : Char} (h : isWordStart c) (r : List Char) :
    Shape.measure c r = (.word, (r.takeWhile isWordPart).length) := by
  have hpart := isWordPart_of_isWordStart h
  simp [Shape.measure, not_isBlank_of_isWordPart hpart, markOf?_of_isWordPart hpart, h]

theorem measure_number {c : Char} {r : List Char} (h : StartsNumber c r) :
    Shape.measure c r = measureNumber r := by
  rcases h with hc | ⟨rfl, d, t, rfl, hd⟩
  · have hpart := isWordPart_of_isDigit hc
    simp [Shape.measure, not_isBlank_of_isWordPart hpart, markOf?_of_isWordPart hpart,
      not_isWordStart_of_isDigit hc, hc]
  · exact if_pos hd

theorem measure_quote (r : List Char) : Shape.measure '"' r = measureQuoted r := rfl

/-! ## Lexemes on their own -/

/-- A lexeme that is a token is measured alike where the text ends with it. -/
theorem measure_take {c : Char} {r : List Char} {shape : Shape} {n : Nat} {span : Span} {kind : Kind}
    (h : Shape.measure c r = (shape, n)) (hread : Reading.of shape (c :: r.take n) span = .token kind) :
    Shape.measure c (r.take n) = (shape, n) ∧ n = (r.take n).length := by
  cases measured_of_eq h with
  | blank => cases hread
  | line => cases hread
  | comment => cases hread
  | stray => cases hread
  | mark hc => exact ⟨measure_mark hc _, by simp⟩
  | word hc =>
      have htake := List.prefix_iff_eq_take.mp (r.takeWhile_prefix isWordPart)
      rw [measure_word hc, ← htake, List.takeWhile_idem]
      exact ⟨rfl, rfl⟩
  | number hc hn =>
      obtain ⟨halone, hlength⟩ := measureNumber_take hn
      refine ⟨(measure_number ?_).trans halone, hlength⟩
      rcases hc with hc | ⟨hc, d, t, rfl, hd⟩
      · exact Or.inl hc
      · obtain ⟨m, rfl⟩ := Nat.exists_eq_succ_of_ne_zero (measureNumber_pos hd hn).ne'
        exact Or.inr ⟨hc, d, _, rfl, hd⟩
  | quoted hn =>
      rcases measureQuoted_cases hn with ⟨body, rest, hbody, rfl, rfl, rfl⟩ | rfl
      · rw [measure_quote, List.take_length_add_append]
        exact ⟨hbody.measureQuoted_append [], by simp⟩
      · cases hread

/-! ## Skipped lexemes -/

theorem Skipped.blanks {blanks piece rest : List Char} (h : ∀ c ∈ blanks, isBlank c)
    (hpiece : Skipped piece rest) : Skipped (blanks ++ piece) rest := by
  induction blanks with
  | nil => exact hpiece
  | cons c blanks ih =>
      obtain ⟨hc, hblanks⟩ := List.forall_mem_cons.mp h
      exact .blank (isBlank_iff.mp hc) (ih hblanks)

/-- No line ends inside of what is skipped, unless in a comment. -/
theorem Skipped.eq_nil {piece rest text : List Char} (h : Skipped piece rest)
    (htext : piece ++ rest = text) (hline : text = [] ∨ text.head? = some '\n') : piece = [] := by
  subst htext
  cases h with
  | nil => rfl
  | blank hblank => rcases hblank with rfl | rfl | rfl <;> simp at hline
  | line => simp at hline
  | comment => simp at hline
  | unclosed => simp at hline

theorem drop_length_takeWhile {p : Char → Bool} (t : List Char) :
    t.drop (t.takeWhile p).length = t.dropWhile p := by
  have h : (t.takeWhile p ++ t.dropWhile p).drop (t.takeWhile p).length = t.dropWhile p :=
    List.drop_left
  rwa [List.takeWhile_append_dropWhile] at h

theorem head?_dropWhile_newline (t : List Char) :
    t.dropWhile (· != '\n') = [] ∨ (t.dropWhile (· != '\n')).head? = some '\n' := by
  induction t with
  | nil => exact Or.inl rfl
  | cons c t ih =>
      by_cases hc : c = '\n'
      · subst hc
        exact Or.inr rfl
      · rwa [List.dropWhile_cons_of_pos (by simpa using hc)]

theorem shape_of_skipped {shape : Shape} {lexeme : List Char} {span : Span}
    (h : Reading.of shape lexeme span = .skipped) :
    shape = .blank ∨ shape = .lineComment ∨ shape = .blockComment := by
  unfold Reading.of at h
  split at h
  case h_1 | h_2 | h_3 => simp
  case h_4 | h_5 | h_9 | h_10 => cases h
  case h_6 | h_7 | h_8 => split at h <;> cases h

/-- A lexeme that is no token belongs to the text between tokens, with the part of it that
follows. -/
theorem skipped_lexeme {c : Char} {r gap rest : List Char} {shape : Shape} {n : Nat} {span : Span}
    (h : Shape.measure c r = (shape, n)) (hread : Reading.of shape (c :: r.take n) span = .skipped)
    (hgap : Skipped gap rest) (hrest : r.drop n = gap ++ rest) :
    Skipped (c :: (r.take n ++ gap)) rest := by
  cases measured_of_eq h with
  | blank hc =>
      have htake := List.prefix_iff_eq_take.mp (r.takeWhile_prefix isBlank)
      rw [← htake]
      exact .blank (isBlank_iff.mp hc) (.blanks (fun d hd => List.mem_takeWhile_imp hd) hgap)
  | line =>
      -- behind the comment the line or the text ends, so nothing more is skipped at once
      rename_i t
      have hend := head?_dropWhile_newline t
      rw [Nat.add_comm, List.take_succ_cons]
      rw [Nat.add_comm, List.drop_succ_cons] at hrest
      rw [drop_length_takeWhile] at hrest
      have htake := List.prefix_iff_eq_take.mp (t.takeWhile_prefix (· != '\n'))
      have hnil := hgap.eq_nil hrest.symm hend
      subst hnil
      rw [← htake, List.append_nil]
      rw [hrest, List.nil_append] at hend
      refine .line (fun hmem => ?_) hend
      exact absurd (List.mem_takeWhile_imp hmem) (by simp)
  | comment =>
      rename_i t
      obtain ⟨last, hnests, hend⟩ := exists_nests_take 1 t
      rw [Nat.add_comm, List.take_succ_cons]
      rw [Nat.add_comm, List.drop_succ_cons] at hrest
      cases last with
      | zero => exact .comment hnests hgap
      | succ depth =>
          -- a comment that is left open leaves no text behind it
          have hnil := hend.resolve_left (Nat.succ_ne_zero depth)
          rw [hnil] at hrest
          obtain ⟨rfl, rfl⟩ := List.append_eq_nil_iff.mp hrest.symm
          rw [List.append_nil]
          exact .unclosed hnests
  | mark => cases hread
  | word => cases hread
  | stray => cases hread
  | number hc hn =>
      have hshape := shape_of_skipped hread
      rcases measureNumber_cases hn with ⟨-, -, rfl, -⟩ | ⟨rfl, -⟩ <;> simp at hshape
  | quoted hn =>
      have hshape := shape_of_skipped hread
      rcases measureQuoted_cases hn with ⟨-, -, -, -, rfl, -⟩ | rfl <;> simp at hshape

end Declarative.Token
