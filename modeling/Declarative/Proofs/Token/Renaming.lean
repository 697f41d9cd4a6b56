import Declarative.Proofs.Parser.Renaming
import Declarative.Proofs.Source.Position
import Declarative.Proofs.Token.Lossless

/-!
# Another name in a text

Where an identifier of a text is replaced by another one, the tokens stay what they are, but for this
name (`Token.Lexes.rename`). Behind the name the text is scanned as before, at other offsets. In front
of it each lexeme is measured by its own characters and at most the one behind it
(`Token.measure_congr`), and a letter or an underscore behind a lexeme is as good as another one:
only digits could go on with an underscore or be closed by a capital L, so the name must not stand
directly behind a number.
-/

namespace Declarative.Token

open Shape

/-! ## Measuring with something else behind -/

theorem length_takeWhile_append {p : Char → Bool} {piece rest : List Char} :
    ((piece ++ rest).takeWhile p).length = piece.length
      ↔ (∀ c ∈ piece, p c = true) ∧ ∀ c ∈ rest.head?, p c = false := by
  induction piece with
  | nil =>
      cases rest with
      | nil => simp
      | cons c r => by_cases hc : p c = true <;> simp [hc]
  | cons c piece ih =>
      by_cases hc : p c = true
      · simpa [hc] using ih
      · simp [hc]

/-- The text starts with what a word can start with. -/
def StartsWord (cs : List Char) : Prop := ∃ c ∈ cs.head?, isWordStart c = true

/-- A lexeme of the shape ends in front of both texts or of none: they start alike, or each starts a
word, which nothing but digits would go on with. -/
def EndsAlike (shape : Shape) (rest other : List Char) : Prop :=
  rest.head? = other.head? ∨ (shape ≠ .int ∧ StartsWord rest ∧ StartsWord other)

theorem EndsAlike.takeWhile {p : Char → Bool} {shape : Shape} {piece rest other : List Char}
    (h : EndsAlike shape rest other) (hp : ∀ c, isWordStart c = true → p c = false)
    (hlength : ((piece ++ rest).takeWhile p).length = piece.length) :
    ((piece ++ other).takeWhile p).length = piece.length := by
  obtain ⟨hpiece, hrest⟩ := length_takeWhile_append.mp hlength
  refine length_takeWhile_append.mpr ⟨hpiece, ?_⟩
  rcases h with hhead | ⟨-, -, c, hc, hword⟩
  · rwa [← hhead]
  · intro d hd
    obtain rfl := Option.mem_unique hc hd
    exact hp c hword

/-- Where a run of characters ends in front of what starts no word, the texts start alike. -/
theorem EndsAlike.head? {shape : Shape} {rest other : List Char} (h : EndsAlike shape rest other)
    (hrest : ∀ c ∈ rest.head?, isWordStart c = false) : rest.head? = other.head? := by
  rcases h with hhead | ⟨-, ⟨c, hc, hword⟩, -⟩
  · exact hhead
  · rw [hrest c hc] at hword
    cases hword

/-- A comment that is closed is closed whatever stands behind it. -/
theorem Nests.commentLength_append {depth last : Nat} {body : List Char} (h : Nests depth body last)
    (hlast : last = 0) (other : List Char) :
    commentLength depth (body ++ other) = body.length := by
  induction h with
  | stop =>
      subst hlast
      rw [List.nil_append, commentLength, List.length_nil]
  | opens _ ih =>
      rw [List.cons_append, List.cons_append, commentLength, ih hlast, List.length_cons,
        List.length_cons]
      omega
  | closes _ ih =>
      rw [List.cons_append, List.cons_append, commentLength, ih hlast, List.length_cons,
        List.length_cons]
      omega
  | @other depth c r last hopens hcloses hnests ih =>
      -- something is left of the comment, so the next character is one of its own
      have hhead : (r ++ other).head? = r.head? := by
        cases r with
        | nil =>
            subst hlast
            cases hnests
        | cons d t => rfl
      rw [List.cons_append, commentLength, ih hlast, List.length_cons, Nat.add_comm]
      · rintro t rfl ht
        exact hopens rfl (by rw [← hhead, ht]; rfl)
      · rintro t rfl ht
        exact hcloses rfl (by rw [← hhead, ht]; rfl)

/-- A number that ends behind its digits, unless it is closed there. -/
theorem measureNumber_append {piece rest : List Char}
    (h : ((piece ++ rest).takeWhile isNumberPart).length = piece.length) :
    measureNumber (piece ++ rest)
      = if rest.head? = some 'L' then (.long, piece.length + 1) else (.int, piece.length) := by
  rw [measureNumber, h, List.drop_left]
  split
  · simp
  · rename_i hnone
    rw [if_neg]
    intro hhead
    obtain ⟨r, rfl⟩ := List.head?_eq_some_iff.mp hhead
    exact hnone r rfl

theorem measureNumber_congr {shape : Shape} {piece rest other : List Char}
    (h : EndsAlike shape rest other)
    (hmeasure : measureNumber (piece ++ rest) = (shape, piece.length)) :
    measureNumber (piece ++ other) = (shape, piece.length) := by
  rcases measureNumber_cases hmeasure with ⟨after, hsplit, rfl, hlength⟩ | ⟨rfl, hlength⟩
  · -- the mark of a long number closes it
    have hdigits : ∀ d ∈ (piece ++ rest).takeWhile isNumberPart, isNumberPart d = true :=
      fun d hd => List.mem_takeWhile_imp hd
    generalize (piece ++ rest).takeWhile isNumberPart = digits at *
    have hpiece : piece = digits ++ ['L'] := by
      have hall : piece ++ rest = (digits ++ ['L']) ++ after := by
        rw [hsplit, List.append_assoc]
        rfl
      exact (List.append_inj hall (by rw [hlength]; simp)).1
    rw [hpiece, List.append_assoc]
    have hlong := measureNumber_long hdigits other
    simpa using hlong
  · have hhead : rest.head? = other.head? := h.resolve_right fun hword => hword.1 rfl
    have hother : ((piece ++ other).takeWhile isNumberPart).length = piece.length := by
      obtain ⟨hpiece, hrest⟩ := length_takeWhile_append.mp hlength.symm
      exact length_takeWhile_append.mpr ⟨hpiece, hhead ▸ hrest⟩
    rw [measureNumber_append hlength.symm, hhead] at hmeasure
    rwa [measureNumber_append hother]

theorem measureQuoted_congr {shape : Shape} {piece rest : List Char} (other : List Char)
    (hshape : shape ≠ .unclosed) (hmeasure : measureQuoted (piece ++ rest) = (shape, piece.length)) :
    measureQuoted (piece ++ other) = (shape, piece.length) := by
  rcases measureQuoted_cases hmeasure with ⟨body, after, hbody, hsplit, rfl, hlength⟩ | h
  · have hpiece : piece = body ++ ['"'] := by
      have hall : piece ++ rest = (body ++ ['"']) ++ after := by
        rw [hsplit, List.append_assoc]
        rfl
      exact (List.append_inj hall (by rw [hlength]; simp)).1
    rw [hpiece, List.append_assoc]
    have hquoted := hbody.measureQuoted_append other
    simpa using hquoted
  · exact absurd h hshape

theorem measure_blank {c : Char} (h : isBlank c) (r : List Char) :
    Shape.measure c r = (.blank, (r.takeWhile isBlank).length) := by
  simp [Shape.measure, h]

theorem measure_line (r : List Char) :
    Shape.measure '/' ('/' :: r) = (.lineComment, 1 + (r.takeWhile (· != '\n')).length) := rfl

theorem measure_comment (r : List Char) :
    Shape.measure '/' ('*' :: r) = (.blockComment, 1 + commentLength 1 r) := rfl

theorem EndsAlike.blockComment {body rest other : List Char}
    (h : EndsAlike .blockComment rest other)
    (hlength : commentLength 1 (body ++ rest) = body.length) :
    commentLength 1 (body ++ other) = body.length := by
  by_cases hrest : rest = []
  · -- an open comment reaches to the end of the text, and there it stays
    subst hrest
    rcases h with hhead | ⟨-, ⟨c, hc, -⟩, -⟩
    · rw [List.head?_eq_none_iff.mp hhead.symm]
      exact hlength
    · cases hc
  · obtain ⟨last, hnests, hend⟩ := exists_nests_take 1 (body ++ rest)
    rw [hlength, List.take_left, List.drop_left] at *
    exact hnests.commentLength_append (hend.resolve_right hrest) other

/-- A lexeme is measured by its own characters and at most the one behind it. -/
theorem measure_congr {c : Char} {shape : Shape} {piece rest other : List Char}
    (h : EndsAlike shape rest other) (hunclosed : shape ≠ .unclosed) (hstray : shape ≠ .stray)
    (hmeasure : Shape.measure c (piece ++ rest) = (shape, piece.length)) :
    Shape.measure c (piece ++ other) = (shape, piece.length) := by
  have hmeasured := measured_of_eq hmeasure
  generalize htext : piece ++ rest = text, hcount : piece.length = count at hmeasured
  cases hmeasured with
  | blank hc =>
      rw [measure_blank hc, ← hcount, h.takeWhile (fun d hd => ?_) (by rw [htext, hcount])]
      exact not_isBlank_of_isWordPart (isWordPart_of_isWordStart hd)
  | @line r =>
      obtain ⟨d, piece, rfl⟩ := List.exists_cons_of_length_pos (show 0 < piece.length by omega)
      obtain ⟨rfl, rfl⟩ := List.cons.inj htext
      rw [List.length_cons, Nat.add_comm] at hcount
      have hlength := (Nat.add_left_cancel hcount).symm
      obtain ⟨hpiece, hrest⟩ := length_takeWhile_append.mp hlength
      -- behind the comment a line ends, and there no word starts
      have hhead : rest.head? = other.head? := h.head? fun c hc => by
        have hline : c = '\n' := by simpa using hrest c hc
        rw [hline]
        rfl
      have hother := length_takeWhile_append.mpr ⟨hpiece, hhead ▸ hrest⟩
      rw [List.cons_append, measure_line, hother, hlength]
  | @comment r =>
      obtain ⟨d, piece, rfl⟩ := List.exists_cons_of_length_pos (show 0 < piece.length by omega)
      obtain ⟨rfl, rfl⟩ := List.cons.inj htext
      rw [List.length_cons, Nat.add_comm] at hcount
      have hlength := (Nat.add_left_cancel hcount).symm
      rw [List.cons_append, measure_comment, h.blockComment hlength, hlength]
  | mark hc => exact measure_mark hc _
  | word hc =>
      have hlength : (((piece ++ rest).takeWhile isWordPart)).length = piece.length := by
        rw [htext, hcount]
      obtain ⟨hpiece, hrest⟩ := length_takeWhile_append.mp hlength
      have hhead : rest.head? = other.head? := h.head? fun c hc => by
        rw [Bool.eq_false_iff]
        intro hword
        have hpart := hrest c hc
        rw [isWordPart_of_isWordStart hword] at hpart
        cases hpart
      rw [measure_word hc, length_takeWhile_append.mpr ⟨hpiece, hhead ▸ hrest⟩, hcount]
  | number hc hn =>
      rw [← htext, ← hcount] at hn
      have hother := measureNumber_congr h hn
      rw [← hcount]
      refine (measure_number ?_).trans hother
      rcases hc with hc | ⟨hc, d, r, htext', hd⟩
      · exact Or.inl hc
      · -- a sign takes the digit behind it along
        subst htext'
        rw [htext] at hn
        have hpos := measureNumber_pos hd hn
        obtain ⟨d, piece, rfl⟩ := List.exists_cons_of_length_pos hpos
        obtain ⟨rfl, -⟩ := List.cons.inj htext
        exact Or.inr ⟨hc, _, _, rfl, hd⟩
  | quoted hn =>
      rw [← htext, ← hcount] at hn
      rw [measure_quote, measureQuoted_congr other hunclosed hn, hcount]
  | stray => exact absurd rfl hstray

/-! ## Texts without faults -/

/-- From an offset on the text is made of these tokens and of lexemes that are skipped. -/
inductive Lexes : Nat → List Char → List Token → Prop where
  | done {offset} : Lexes offset [] []
  | skipped {offset c r shape n tokens} (hmeasure : Shape.measure c r = (shape, n))
      (hread : ∀ span, Reading.of shape (c :: r.take n) span = .skipped)
      (hrest : Lexes (offset + Text.width (c :: r.take n)) (r.drop n) tokens) :
      Lexes offset (c :: r) tokens
  | token {offset c r shape n kind tokens} (hmeasure : Shape.measure c r = (shape, n))
      (hread : ∀ span, Reading.of shape (c :: r.take n) span = .token kind)
      (hrest : Lexes (offset + Text.width (c :: r.take n)) (r.drop n) tokens) :
      Lexes offset (c :: r)
        (⟨kind, ⟨offset, offset + Text.width (c :: r.take n)⟩⟩ :: tokens)

theorem lexes_scan {room offset : Nat} {cs : List Char} (hroom : 0 < room)
    (h : (scan room offset cs).faults = []) : Lexes offset cs (scan room offset cs).tokens := by
  fun_induction scan room offset cs with
  | case1 => cases hroom
  | case2 => exact .done
  | case3 offset room c r shape n hmeasure lexeme span hread ih =>
      refine .skipped hmeasure (fun place => ?_) (ih hroom h)
      rcases shape_of_skipped hread with rfl | rfl | rfl <;> rfl
  | case4 offset room c r shape n hmeasure lexeme span kind hread later ih =>
      exact .token hmeasure (fun _ => of_eq_token_iff.mpr (of_eq_token_iff.mp hread)) (ih hroom h)
  | case5 => cases h

namespace Lexes

variable {offset : Nat} {cs : List Char} {tokens : List Token} (h : Lexes offset cs tokens)

include h

theorem scan_eq (room : Nat) : scan (room + 1) offset cs = ⟨tokens, []⟩ := by
  induction h with
  | done => rw [scan]; simp
  | skipped hmeasure hread _ ih =>
      rw [scan]
      simp only [hmeasure, hread]
      exact ih
  | token hmeasure hread _ ih =>
      rw [scan]
      simp only [hmeasure, hread, ih]

theorem le_start : ∀ t ∈ tokens, offset ≤ t.span.start := by
  induction h with
  | done => simp
  | skipped _ _ _ ih => exact fun t ht => (Nat.le_add_right ..).trans (ih t ht)
  | token _ _ _ ih =>
      intro t ht
      rcases List.mem_cons.mp ht with rfl | ht
      · exact Nat.le_refl _
      · exact (Nat.le_add_right ..).trans (ih t ht)

/-- At other offsets the same text is made of tokens of the same kinds. -/
theorem shift (place : Nat) :
    ∃ others, Lexes place cs others ∧ others.map (·.kind) = tokens.map (·.kind) := by
  induction h generalizing place with
  | done => exact ⟨[], .done, rfl⟩
  | skipped hmeasure hread _ ih =>
      obtain ⟨others, hothers, hkinds⟩ := ih _
      exact ⟨others, .skipped hmeasure hread hothers, hkinds⟩
  | token hmeasure hread _ ih =>
      obtain ⟨others, hothers, hkinds⟩ := ih _
      exact ⟨_, .token hmeasure hread hothers, congrArg (_ :: ·) hkinds⟩

end Lexes

/-! ## Another identifier -/

/-- By itself the text is read as one identifier. -/
def IsIdentifier (name : String) : Prop :=
  (tokenize name).tokens.map (·.kind) = [.ident name, .eof]

instance (name : String) : Decidable (IsIdentifier name) := inferInstanceAs (Decidable (_ = _))

/-- The name that is written at an offset is another one; all others are as they are. -/
def renamedAt (start : Nat) (new : String) (name : Name) : String :=
  if name.span.start = start then new else name.text

/-- An identifier is a word. -/
theorem word_of_ident {c : Char} {r : List Char} {shape : Shape} {n : Nat} {span : Span}
    {name : String} (hmeasure : Shape.measure c r = (shape, n))
    (hread : Reading.of shape (c :: r.take n) span = .token (.ident name)) :
    isWordStart c = true ∧ n = (r.takeWhile isWordPart).length ∧ c :: r.take n = name.toList
      ∧ wordKind name.toList = .ident name := by
  rcases of_eq_token_iff.mp hread with rfl | ⟨rfl, hkind⟩ | ⟨_, _, _, h⟩ | ⟨_, _, _, h⟩ | ⟨_, _, _, h⟩
  · exact absurd rfl (ne_ident_of_markOf? (markOf?_of_measure hmeasure) name)
  · have hlexeme := eq_of_wordKind hkind.symm
    rw [← hlexeme]
    cases measured_of_eq hmeasure with
    | word hc => exact ⟨hc, rfl, rfl, hkind.symm⟩
    | number hc hn =>
        rcases measureNumber_cases hn with ⟨-, -, hshape, -⟩ | ⟨hshape, -⟩ <;> cases hshape
    | quoted hn => rcases measureQuoted_cases hn with ⟨-, -, -, -, hshape, -⟩ | hshape <;> cases hshape
  all_goals cases h

theorem Spells.exists_word {lexeme : List Char} {name : String} (h : Spells lexeme (.ident name)) :
    ∃ c r, name.toList = c :: r ∧ isWordStart c = true ∧ (∀ d ∈ r, isWordPart d = true)
      ∧ wordKind (c :: r) = .ident name := by
  obtain ⟨hmeasure, hread⟩ := h
  rename_i c r shape
  have hread : Reading.of shape (c :: r.take r.length) default = .token (.ident name) := by
    rw [List.take_length]
    exact hread default
  obtain ⟨hc, hlength, hlexeme, hword⟩ := word_of_ident hmeasure hread
  rw [List.take_length] at hlexeme
  have hwhole := (List.takeWhile_prefix isWordPart).eq_of_length hlength.symm
  exact ⟨c, r, hlexeme.symm, hc, List.takeWhile_eq_self_iff.mp hwhole, hlexeme ▸ hword⟩

theorem Spells.startsWord {lexeme : List Char} {name : String} (h : Spells lexeme (.ident name)) :
    StartsWord name.toList := by
  obtain ⟨c, r, hname, hc, -⟩ := h.exists_word
  rw [hname]
  exact ⟨c, rfl, hc⟩

theorem IsIdentifier.exists_spells {name : String} (h : IsIdentifier name) :
    ∃ lexeme, Spells lexeme (.ident name) := by
  have hmem : Kind.ident name ∈ (tokenize name).tokens.map (·.kind) := by
    rw [h]
    exact List.mem_cons_self ..
  obtain ⟨t, ht, hkind⟩ := List.mem_map.mp hmem
  rcases List.mem_append.mp ht with hword | hlast
  · obtain ⟨-, lexeme, -, -, -, hspells⟩ := (scans_scan maxFaults 0 name.toList).occurs t hword
    exact ⟨lexeme, hkind ▸ hspells⟩
  · rw [List.mem_singleton.mp hlast] at hkind
    cases hkind

/-- Where the offset is behind a lexeme, the text in front of it starts with the lexeme. -/
theorem exists_front {offset : Nat} {c : Char} {r front rest : List Char} {n : Nat}
    (h : c :: r = front ++ rest)
    (hle : offset + Text.width (c :: r.take n) ≤ offset + Text.width front) :
    ∃ after, front = c :: r.take n ++ after ∧ r.drop n = after ++ rest := by
  rw [← take_append_drop_cons n c r] at h
  exact Text.exists_eq_append h (by omega)

/-- A lexeme in front of a word is one in front of another word as well. -/
theorem measure_take_append {c : Char} {r after name new back : List Char} {shape : Shape} {n : Nat}
    (h : Shape.measure c r = (shape, n)) (hunclosed : shape ≠ .unclosed) (hstray : shape ≠ .stray)
    (hdrop : r.drop n = after ++ (name ++ back)) (hname : StartsWord name) (hnew : StartsWord new)
    (hint : after = [] → shape ≠ .int) :
    Shape.measure c (r.take n ++ (after ++ (new ++ back))) = (shape, n)
      ∧ (r.take n ++ (after ++ (new ++ back))).take n = r.take n
      ∧ (r.take n ++ (after ++ (new ++ back))).drop n = after ++ (new ++ back) := by
  have happend : ∀ {word : List Char}, StartsWord word → StartsWord (word ++ back) := by
    rintro word ⟨c, hc, hword⟩
    obtain ⟨r, rfl⟩ := List.head?_eq_some_iff.mp hc
    exact ⟨c, rfl, hword⟩
  have hends : EndsAlike shape (r.drop n) (after ++ (new ++ back)) := by
    rw [hdrop]
    cases after with
    | nil => exact Or.inr ⟨hint rfl, happend hname, happend hnew⟩
    | cons c r => exact Or.inl rfl
  -- something is left behind the lexeme, so it is as long as it was measured
  have hlength : (r.take n).length = n := by
    obtain ⟨c, hc, -⟩ := hname
    have hpos : 0 < (r.drop n).length := by
      have hname := List.length_pos_of_mem (List.mem_of_head? hc)
      simp only [hdrop, List.length_append]
      omega
    rw [List.length_drop] at hpos
    rw [List.length_take]
    omega
  refine ⟨?_, List.take_left' hlength, List.drop_left' hlength⟩
  have hmeasure := @measure_congr c shape (r.take n) _ _ hends hunclosed hstray
  rw [List.take_append_drop, hlength] at hmeasure
  exact hmeasure h

theorem shape_of_token {shape : Shape} {lexeme : List Char} {span : Span} {kind : Kind}
    (h : Reading.of shape lexeme span = .token kind) :
    shape ≠ .unclosed ∧ shape ≠ .stray ∧ (shape = .int → ∃ n, kind = .int n) := by
  rcases of_eq_token_iff.mp h with
    rfl | ⟨rfl, -⟩ | ⟨n, rfl, -, rfl⟩ | ⟨n, rfl, -, rfl⟩ | ⟨text, rfl, -, rfl⟩ <;> simp

theorem kindAs_renamedAt {start : Nat} {t : Token} (h : t.span.start ≠ start) (new : String) :
    t.kindAs (renamedAt start new) = t.kind := by
  obtain ⟨kind, span⟩ := t
  cases kind with
  | ident text => exact congrArg Kind.ident (if_neg h)
  | _ => rfl

/-- Behind the new name the text is what it was, at other offsets. -/
theorem Lexes.rename_first {offset : Nat} {c : Char} {r : List Char} {shape : Shape} {n : Nat}
    {name new : String} {tokens : List Token} (hmeasure : Shape.measure c r = (shape, n))
    (hread : ∀ span, Reading.of shape (c :: r.take n) span = .token (.ident name))
    (hrest : Lexes (offset + Text.width (c :: r.take n)) (r.drop n) tokens)
    (hnew : IsIdentifier new) :
    ∃ others, Lexes offset (new.toList ++ r.drop n) others
      ∧ others.map (·.kind) = .ident new :: tokens.map (·.kind) := by
  obtain ⟨-, hlength, -, -⟩ := word_of_ident hmeasure (hread default)
  obtain ⟨_, hspells⟩ := hnew.exists_spells
  obtain ⟨c', r', hlexeme, hc', hparts, hkind⟩ := hspells.exists_word
  have hends : ∀ d ∈ (r.drop n).head?, isWordPart d = false := by
    have htake : ((r.take n ++ r.drop n).takeWhile isWordPart).length = (r.take n).length := by
      have hle := (List.takeWhile_prefix (l := r) isWordPart).length_le
      rw [List.take_append_drop, List.length_take, ← hlength]
      omega
    exact (length_takeWhile_append.mp htake).2
  have hword : Shape.measure c' (r' ++ r.drop n) = (.word, r'.length) := by
    rw [measure_word hc', length_takeWhile_append.mpr ⟨hparts, hends⟩]
  obtain ⟨others, hothers, hkinds⟩ := hrest.shift (offset + Text.width (c' :: r'))
  rw [hlexeme]
  refine ⟨⟨.ident new, ⟨offset, offset + Text.width (c' :: r')⟩⟩ :: others, ?_,
    congrArg (_ :: ·) hkinds⟩
  have hlexes := @Lexes.token offset c' (r' ++ r.drop n) .word r'.length (.ident new) others hword
  rw [List.take_left, List.drop_left] at hlexes
  exact hlexes (fun _ => congrArg Reading.token hkind) hothers

/-- **Another identifier changes nothing but the name**, unless digits stand directly in front of
it. -/
theorem Lexes.rename {offset : Nat} {cs : List Char} {tokens : List Token}
    (h : Lexes offset cs tokens) {name new : String} (hname : StartsWord name.toList)
    (hnew : IsIdentifier new) : ∀ front back, cs = front ++ (name.toList ++ back) →
      (⟨.ident name, ⟨offset + Text.width front, offset + Text.width front + Text.width name.toList⟩⟩
        : Token) ∈ tokens →
      (∀ t ∈ tokens, t.span.stop = offset + Text.width front → ∀ n, t.kind ≠ .int n) →
      ∃ others, Lexes offset (front ++ (new.toList ++ back)) others
        ∧ others.map (·.kind) = tokens.map (kindAs (renamedAt (offset + Text.width front) new)) := by
  have hword : StartsWord new.toList := by
    obtain ⟨_, hspells⟩ := hnew.exists_spells
    exact hspells.startsWord
  induction h with
  | done => exact fun _ _ _ hmem => absurd hmem List.not_mem_nil
  | @skipped offset c r shape n tokens hmeasure hread hrest ih =>
      intro front back hcs hmem hint
      obtain ⟨after, rfl, hdrop⟩ := exists_front hcs (hrest.le_start _ hmem)
      rw [Text.width_append, ← Nat.add_assoc] at hmem hint ⊢
      obtain ⟨others, hothers, hkinds⟩ := ih after back hdrop hmem hint
      obtain ⟨hagain, htake, hrest'⟩ :
          Shape.measure c (r.take n ++ (after ++ (new.toList ++ back))) = (shape, n) ∧ _ := by
        refine measure_take_append hmeasure ?_ ?_ hdrop hname hword fun _ => ?_
        all_goals rcases shape_of_skipped (hread default) with rfl | rfl | rfl <;> simp
      refine ⟨others, ?_, hkinds⟩
      rw [List.append_assoc, List.cons_append]
      refine .skipped hagain ?_ ?_
      · rwa [htake]
      · rwa [htake, hrest']
  | @token offset c r shape n kind tokens hmeasure hread hrest ih =>
      intro front back hcs hmem hint
      have hpos : 0 < Text.width (c :: r.take n) := by
        have hc := Char.utf8Size_pos c
        rw [Text.width_cons]
        omega
      by_cases hfront : front = []
      · -- the name is the first token
        subst hfront
        have hfirst : kind = .ident name := by
          rcases List.mem_cons.mp hmem with hsame | htail
          · exact (congrArg Token.kind hsame).symm
          · have hle : _ ≤ offset + 0 := hrest.le_start _ htail
            omega
        subst hfirst
        obtain ⟨-, -, hlexeme, -⟩ := word_of_ident hmeasure (hread default)
        have hback : r.drop n = back := by
          rw [List.nil_append, ← take_append_drop_cons n c r, hlexeme] at hcs
          exact List.append_cancel_left hcs
        obtain ⟨others, hothers, hkinds⟩ := Lexes.rename_first hmeasure hread hrest hnew
        rw [hback] at hothers
        refine ⟨others, hothers, ?_⟩
        rw [hkinds, List.map_cons]
        refine congrArg₂ _ (congrArg Kind.ident (if_pos rfl).symm) ?_
        refine List.map_congr_left fun t ht => (kindAs_renamedAt ?_ new).symm
        have hle := hrest.le_start t ht
        rw [Text.width_nil]
        omega
      · have hwidth : 0 < Text.width front := Nat.pos_of_ne_zero (mt Text.eq_nil_of_width hfront)
        have htail := (List.mem_cons.mp hmem).resolve_left fun hsame => by
          have hstart : offset + Text.width front = offset := congrArg (·.span.start) hsame
          omega
        obtain ⟨after, rfl, hdrop⟩ := exists_front hcs (hrest.le_start _ htail)
        rw [Text.width_append, ← Nat.add_assoc] at htail hint ⊢
        obtain ⟨others, hothers, hkinds⟩ := ih after back hdrop htail
          fun t ht => hint t (List.mem_cons_of_mem _ ht)
        obtain ⟨hunclosed, hstray, hkind⟩ := shape_of_token (hread default)
        have hdigits : after = [] → shape ≠ .int := by
          rintro rfl hshape
          obtain ⟨m, rfl⟩ := hkind hshape
          exact hint _ (List.mem_cons_self ..) (by simp) m rfl
        obtain ⟨hagain, htake, hrest'⟩ :=
          measure_take_append hmeasure hunclosed hstray hdrop hname hword hdigits
        refine ⟨⟨kind, ⟨offset, offset + Text.width (c :: r.take n)⟩⟩ :: others, ?_, ?_⟩
        · have hlexes := @Lexes.token offset c _ shape n kind others hagain
          rw [htake, hrest'] at hlexes
          rw [List.append_assoc, List.cons_append]
          exact hlexes hread hothers
        · rw [List.map_cons, List.map_cons, hkinds, kindAs_renamedAt]
          dsimp only
          omega

/-- A text without faults, with another identifier in place of one of its own. -/
theorem tokenize_renamed {text name new : String} {front back : List Char}
    (hclean : (tokenize text).faults = []) (htext : text.toList = front ++ (name.toList ++ back))
    (hmem : (⟨.ident name, ⟨Text.width front, Text.width front + Text.width name.toList⟩⟩ : Token)
      ∈ (scan maxFaults 0 text.toList).tokens)
    (hint : ∀ t ∈ (scan maxFaults 0 text.toList).tokens, t.span.stop = Text.width front →
      ∀ n, t.kind ≠ .int n) (hnew : IsIdentifier new) :
    let edited := String.ofList (front ++ (new.toList ++ back))
    (tokenize edited).faults = []
      ∧ (tokenize edited).tokens.map (·.kind)
          = (tokenize text).tokens.map (kindAs (renamedAt (Text.width front) new)) := by
  intro edited
  have hlexes : Lexes 0 text.toList (scan maxFaults 0 text.toList).tokens :=
    lexes_scan (by decide) hclean
  obtain ⟨-, lexeme, -, -, -, hspells⟩ := (scans_scan maxFaults 0 text.toList).occurs _ hmem
  rw [← Nat.zero_add (Text.width front)] at hmem hint ⊢
  obtain ⟨others, hothers, hkinds⟩ :=
    hlexes.rename hspells.startsWord hnew front back htext hmem hint
  have hscan : scan maxFaults 0 edited.toList = ⟨others, []⟩ := by
    rw [String.toList_ofList]
    exact hothers.scan_eq 19
  have hedited : tokenize edited
      = ⟨others ++ [⟨.eof, .point (Text.width edited.toList)⟩], []⟩ := by
    rw [tokenize, hscan]
  rw [hedited]
  refine ⟨rfl, ?_⟩
  rw [tokenize, List.map_append, List.map_append, hkinds]
  rfl

end Declarative.Token
