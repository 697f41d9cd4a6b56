import Declarative.Proofs.Token.Renaming

/-!
# Texts on lines of their own

No token reaches over the end of a line. Where a text without faults is followed by a line feed and by
another text, the tokens of the first one stay what they are, and what comes behind the line feed is
read as if nothing stood in front of it (`tokenize_joined`). Only a block comment that is still open
would take the line feed and what follows into it.
-/

namespace Declarative

def Span.shift (distance : Nat) (s : Span) : Span := ⟨s.start + distance, s.stop + distance⟩

def Token.shift (distance : Nat) (t : Token) : Token := { t with span := t.span.shift distance }

namespace Token

open Shape

/-! ## Other places -/

def Fault.shift (distance : Nat) (fault : Fault) : Fault :=
  { fault with span := fault.span.shift distance }

def Lexed.shift (distance : Nat) (lexed : Lexed) : Lexed :=
  ⟨lexed.tokens.map (Token.shift distance), lexed.faults.map (Fault.shift distance)⟩

def Reading.shift (distance : Nat) : Reading → Reading
  | .skipped => .skipped
  | .token kind => .token kind
  | .fault flaw => .fault (flaw.shift distance)

theorem Reading.of_shift (shape : Shape) (lexeme : List Char) (span : Span) (distance : Nat) :
    Reading.of shape lexeme (span.shift distance) = (Reading.of shape lexeme span).shift distance := by
  cases shape with
  | int => cases hn : integer? lexeme <;> simp [Reading.of, Reading.shift, hn, Fault.shift]
  | long => cases hn : integer? lexeme.dropLast <;> simp [Reading.of, Reading.shift, hn, Fault.shift]
  | quoted =>
      cases htext : unescape? (lexeme.drop 1).dropLast
      all_goals simp only [Reading.of, Reading.shift, htext]
      rw [Fault.shift, Span.shift, Span.shift, Nat.add_right_comm]
  | stray => simp [Reading.of, Reading.shift, Fault.shift, Span.shift, Nat.add_right_comm]
  | _ => rfl

theorem Reading.of_further {shape : Shape} {lexeme : List Char} {offset : Nat} {reading : Reading}
    (distance : Nat)
    (hread : Reading.of shape lexeme ⟨offset, offset + Text.width lexeme⟩ = reading) :
    Reading.of shape lexeme ⟨offset + distance, offset + distance + Text.width lexeme⟩
      = reading.shift distance := by
  rw [Nat.add_right_comm, ← hread, ← Reading.of_shift]
  rfl

/-- What a text is made of does not depend on what stands in front of it. -/
theorem scan_shift (room offset distance : Nat) (cs : List Char) :
    scan room (offset + distance) cs = (scan room offset cs).shift distance := by
  fun_induction scan room offset cs with
  | case1 => simp [scan, Lexed.shift]
  | case2 => simp [scan, Lexed.shift]
  | case3 offset room c r shape n hmeasure lexeme span hread ih =>
      have hagain := @Reading.of_further shape (c :: r.take n) offset _ distance hread
      rw [scan]
      simp only [hmeasure, hagain, Reading.shift]
      rw [Nat.add_right_comm offset distance]
      exact ih
  | case4 offset room c r shape n hmeasure lexeme span kind hread later ih =>
      have hagain := @Reading.of_further shape (c :: r.take n) offset _ distance hread
      rw [scan]
      simp only [hmeasure, hagain, Reading.shift]
      rw [Nat.add_right_comm offset distance, ih]
      rfl
  | case5 offset room c r shape n hmeasure lexeme span fault hread later ih =>
      have hagain := @Reading.of_further shape (c :: r.take n) offset _ distance hread
      rw [scan]
      simp only [hmeasure, hagain, Reading.shift]
      rw [Nat.add_right_comm offset distance, ih]
      rfl

/-! ## Open comments -/

/-- How many comments are open behind a piece of text in front of which `depth` were; where none is
open any more, the comment is over and what follows does not count. -/
def openComments : Nat → List Char → Nat
  | 0, _ => 0
  | depth + 1, [] => depth + 1
  | depth + 1, '/' :: '*' :: r => openComments (depth + 2) r
  | depth + 1, '*' :: '/' :: r => openComments depth r
  | depth + 1, _ :: r => openComments (depth + 1) r

/-- The last lexeme of the text is a block comment that is not closed. -/
def endsInComment : List Char → Bool
  | [] => false
  | c :: r =>
    let (shape, n) := Shape.measure c r
    (shape = .blockComment ∧ openComments 1 (r.drop 1) ≠ 0) || endsInComment (r.drop n)
termination_by cs => cs.length
decreasing_by simp only [List.length_drop, List.length_cons]; omega

theorem Nests.openComments_eq {depth last : Nat} {body : List Char} (h : Nests depth body last) :
    openComments depth body = last := by
  induction h with
  | @stop depth => cases depth <;> rfl
  | opens _ ih => exact ih
  | closes _ ih => exact ih
  | @other depth c r last hopens hcloses _ ih =>
      rw [openComments]
      · exact ih
      · rintro t rfl rfl
        exact hopens rfl rfl
      · rintro t rfl rfl
        exact hcloses rfl rfl

theorem commentLength_le (depth : Nat) (r : List Char) : commentLength depth r ≤ r.length := by
  fun_induction commentLength depth r with
  | case1 | case2 => exact Nat.zero_le _
  | case3 | case4 | case5 =>
      simp only [List.length_cons]
      omega

/-- A comment that is closed where the text ends goes no further with another text behind it. -/
theorem commentLength_append {depth : Nat} {body : List Char} (hopen : openComments depth body = 0)
    (hlength : commentLength depth body = body.length) (other : List Char) :
    commentLength depth (body ++ other) = body.length := by
  obtain ⟨last, hnests, -⟩ := exists_nests_take depth body
  rw [hlength, List.take_length] at hnests
  exact hnests.commentLength_append (hnests.openComments_eq.symm.trans hopen) other

/-! ## A line feed behind a text -/

/-- A run of characters that reaches to the end of the text ends in front of a line feed as well. -/
theorem length_takeWhile_newline {p : Char → Bool} {piece : List Char} (hline : p '\n' = false)
    (h : (piece.takeWhile p).length = piece.length) (rest : List Char) :
    ((piece ++ '\n' :: rest).takeWhile p).length = piece.length := by
  have hpiece : ∀ c ∈ piece, p c = true :=
    List.takeWhile_eq_self_iff.mp ((List.takeWhile_prefix p).eq_of_length h)
  exact length_takeWhile_append.mpr ⟨hpiece, by simp [hline]⟩

/-- The last lexeme of a text is measured alike where a line feed stands behind it. -/
theorem measure_newline {c : Char} {shape : Shape} {piece : List Char} (hunclosed : shape ≠ .unclosed)
    (hstray : shape ≠ .stray) (hcomment : shape = .blockComment → openComments 1 (piece.drop 1) = 0)
    (hmeasure : Shape.measure c piece = (shape, piece.length)) (rest : List Char) :
    Shape.measure c (piece ++ '\n' :: rest) = (shape, piece.length) := by
  have hmeasured := measured_of_eq hmeasure
  generalize hcount : piece.length = count at hmeasured
  cases hmeasured with
  | blank hc => rw [measure_blank hc, length_takeWhile_newline rfl hcount.symm, hcount]
  | @line r =>
      have hlength : (r.takeWhile (· != '\n')).length = r.length := by
        rw [List.length_cons] at hcount
        omega
      rw [List.cons_append, measure_line, length_takeWhile_newline rfl hlength, hlength]
  | @comment r =>
      have hlength : commentLength 1 r = r.length := by
        rw [List.length_cons] at hcount
        omega
      have hopen : openComments 1 r = 0 := hcomment rfl
      rw [List.cons_append, measure_comment, commentLength_append hopen hlength, hlength]
  | mark hc => exact measure_mark hc _
  | word hc => rw [measure_word hc, length_takeWhile_newline rfl hcount.symm, hcount]
  | number hc hn =>
      rw [measure_number (hc.append _), ← hcount]
      rcases measureNumber_cases hn with ⟨after, hsplit, rfl, hlength⟩ | ⟨rfl, hlength⟩
      · have hdigits : ∀ d ∈ piece.takeWhile isNumberPart, isNumberPart d := fun d hd =>
          List.mem_takeWhile_imp hd
        generalize piece.takeWhile isNumberPart = digits at *
        subst hsplit
        obtain rfl : after = [] := by
          rw [hlength, List.length_append, List.length_cons] at hcount
          exact List.eq_nil_of_length_eq_zero (by omega)
        rw [List.append_assoc]
        simpa using measureNumber_long hdigits ('\n' :: rest)
      · rw [measureNumber_append (length_takeWhile_newline rfl (hlength.symm.trans hcount.symm) rest)]
        rfl
  | quoted hn =>
      have hmeasured : measureQuoted (piece ++ []) = (shape, piece.length) := by
        rw [List.append_nil, hcount, hn]
      rw [measure_quote, ← hcount]
      exact measureQuoted_congr _ hunclosed hmeasured
  | stray => exact absurd rfl hstray

theorem length_le_of_measure {c : Char} {r : List Char} {shape : Shape} {n : Nat}
    (hunclosed : shape ≠ .unclosed) (hmeasure : Shape.measure c r = (shape, n)) : n ≤ r.length := by
  cases measured_of_eq hmeasure with
  | blank => exact (List.takeWhile_prefix _).length_le
  | word => exact (List.takeWhile_prefix _).length_le
  | @line r =>
      have hle := (List.takeWhile_prefix (l := r) (· != '\n')).length_le
      rw [List.length_cons]
      omega
  | @comment r =>
      have hle := commentLength_le 1 r
      rw [List.length_cons]
      omega
  | mark => exact Nat.zero_le _
  | stray => exact Nat.zero_le _
  | number hc hn =>
      obtain ⟨-, hlength⟩ := measureNumber_take hn
      rw [hlength, List.length_take]
      exact Nat.min_le_right ..
  | quoted hn =>
      rcases measureQuoted_cases hn with ⟨body, after, -, rfl, -, rfl⟩ | rfl
      · simp
      · exact absurd rfl hunclosed

/-- Each lexeme of a text is measured alike where a line feed stands behind the text. -/
theorem measure_before_newline {c : Char} {r : List Char} {shape : Shape} {n : Nat}
    (hunclosed : shape ≠ .unclosed) (hstray : shape ≠ .stray)
    (hcomment : shape = .blockComment → openComments 1 (r.drop 1) = 0)
    (hmeasure : Shape.measure c r = (shape, n)) (rest : List Char) :
    Shape.measure c (r ++ '\n' :: rest) = (shape, n)
      ∧ (r ++ '\n' :: rest).take n = r.take n
      ∧ (r ++ '\n' :: rest).drop n = r.drop n ++ '\n' :: rest := by
  have hle := length_le_of_measure hunclosed hmeasure
  refine ⟨?_, List.take_append_of_le_length hle, List.drop_append_of_le_length hle⟩
  have hlength : (r.take n).length = n := List.length_take_of_le hle
  cases hdrop : r.drop n with
  | nil =>
      obtain rfl : n = r.length := le_antisymm hle (List.drop_eq_nil_iff.mp hdrop)
      exact measure_newline hunclosed hstray hcomment hmeasure rest
  | cons d after =>
      have hends : EndsAlike shape (r.drop n) (r.drop n ++ '\n' :: rest) := by
        rw [hdrop]
        exact Or.inl rfl
      have hcongr := @measure_congr c shape (r.take n) _ _ hends hunclosed hstray
      rw [← List.append_assoc, List.take_append_drop, hlength] at hcongr
      exact hcongr hmeasure

theorem endsInComment_cons {c : Char} {r : List Char} {shape : Shape} {n : Nat}
    (hmeasure : Shape.measure c r = (shape, n)) (hclosed : endsInComment (c :: r) = false) :
    (shape = .blockComment → openComments 1 (r.drop 1) = 0) ∧ endsInComment (r.drop n) = false := by
  rw [endsInComment] at hclosed
  simp only [hmeasure, Bool.or_eq_false_iff, decide_eq_false_iff_not, not_and, not_not] at hclosed
  exact hclosed

theorem width_behind (offset n : Nat) (c : Char) (r : List Char) :
    offset + Text.width (c :: r.take n) + Text.width (r.drop n) = offset + Text.width (c :: r) := by
  rw [Nat.add_assoc, ← Text.width_append, take_append_drop_cons]

/-- The tokens of a text without faults are those of the text with a line feed behind it, as far as
they stand in front of the line feed. -/
theorem Lexes.scan_joined {offset : Nat} {cs : List Char} {tokens : List Token}
    (h : Lexes offset cs tokens) (hclosed : endsInComment cs = false) {room : Nat}
    (hroom : 0 < room) (rest : List Char) :
    let stop := offset + Text.width cs
    let behind := scan room (stop + 1) rest
    scan room offset (cs ++ '\n' :: rest) =
      ⟨tokens ++ ⟨.newline, ⟨stop, stop + 1⟩⟩ :: behind.tokens, behind.faults⟩ := by
  obtain ⟨room, rfl⟩ := Nat.exists_eq_succ_of_ne_zero hroom.ne'
  induction h with
  | done =>
      rw [List.nil_append, scan]
      rfl
  | @skipped offset c r shape n tokens hmeasure hread hrest ih =>
      obtain ⟨hcomment, hclosed⟩ := endsInComment_cons hmeasure hclosed
      obtain ⟨hunclosed, hstray⟩ : shape ≠ .unclosed ∧ shape ≠ .stray := by
        rcases shape_of_skipped (hread default) with rfl | rfl | rfl <;> simp
      obtain ⟨hagain, htake, hdrop⟩ :=
        measure_before_newline hunclosed hstray hcomment hmeasure rest
      rw [List.cons_append, scan]
      simp only [hagain, htake, hdrop, hread]
      rw [ih hclosed, width_behind]
  | @token offset c r shape n kind tokens hmeasure hread hrest ih =>
      obtain ⟨hcomment, hclosed⟩ := endsInComment_cons hmeasure hclosed
      obtain ⟨hunclosed, hstray, -⟩ := shape_of_token (hread default)
      obtain ⟨hagain, htake, hdrop⟩ :=
        measure_before_newline hunclosed hstray hcomment hmeasure rest
      rw [List.cons_append, scan]
      simp only [hagain, htake, hdrop, hread]
      rw [ih hclosed, width_behind]
      rfl

/-- **A line is read on its own**: behind a text without faults, and a line feed, another text has the
tokens and the faults that it has by itself, each that much further on. -/
theorem tokenize_joined (a b : String) (hclean : (tokenize a).faults = [])
    (hclosed : endsInComment a.toList = false) :
    let width := Text.width a.toList
    ∃ words, (tokenize a).tokens = words ++ [⟨.eof, .point width⟩]
      ∧ tokenize (a ++ "\n" ++ b) =
          ⟨words ++ ⟨.newline, ⟨width, width + 1⟩⟩ :: (tokenize b).tokens.map (Token.shift (width + 1)),
            (tokenize b).faults.map (Fault.shift (width + 1))⟩ := by
  intro width
  have hlexes : Lexes 0 a.toList (scan maxFaults 0 a.toList).tokens := lexes_scan (by decide) hclean
  have hscan := hlexes.scan_joined hclosed (by decide : 0 < maxFaults) b.toList
  have hbehind := scan_shift maxFaults 0 (width + 1) b.toList
  rw [Nat.zero_add] at hscan hbehind
  have htext : (a ++ "\n" ++ b).toList = a.toList ++ '\n' :: b.toList := by simp
  have hwidth : Text.width (a.toList ++ '\n' :: b.toList) = Text.width b.toList + (width + 1) := by
    rw [Text.width_append, Text.width_cons, show '\n'.utf8Size = 1 from rfl]
    omega
  refine ⟨_, rfl, ?_⟩
  rw [tokenize, htext, hscan, hbehind, hwidth]
  simp [tokenize, Lexed.shift, Token.shift, Span.shift, Span.point, width]

theorem tokenize_joined_bed :
    (tokenize "bed(\"Rose\") // first").faults = []
      ∧ endsInComment "bed(\"Rose\") // first".toList = false
      ∧ ∃ words, (tokenize "bed(\"Rose\") // first").tokens = words ++ [⟨.eof, .point 20⟩]
        ∧ tokenize ("bed(\"Rose\") // first" ++ "\n" ++ "name = $") =
            ⟨words ++ ⟨.newline, ⟨20, 21⟩⟩ :: (tokenize "name = $").tokens.map (Token.shift 21),
              (tokenize "name = $").faults.map (Fault.shift 21)⟩ :=
  have hclean : (tokenize "bed(\"Rose\") // first").faults = [] := by decide +kernel
  have hclosed : endsInComment "bed(\"Rose\") // first".toList = false := by decide +kernel
  ⟨hclean, hclosed, tokenize_joined _ _ hclean hclosed⟩

-- an open comment takes the other line along
example : (tokenize ("/* a" ++ "\n" ++ "b")).tokens = [⟨.eof, .point 6⟩] := by decide +kernel

end Token

end Declarative
