import Declarative.Proofs.Token.Lexeme

/-!
# Nothing is lost between tokens

A text is scanned lexeme by lexeme (`Scans`): a lexeme is skipped, or it is a token, or a fault
that takes up room. From that follows what the tokens of a text are: they stand in order, each is
the only token of its own piece of the text (`Spells`), and where nothing is at fault there are
only blanks and comments in front of, between and behind them (`Spaced`).
-/

namespace Declarative

namespace Token

open Shape

/-! ## Spellings -/

/-- The lexer takes the lexeme as a whole, and it is a token of this kind wherever it stands. -/
inductive Spells : List Char → Kind → Prop where
  | intro {c r shape kind} (hmeasure : Shape.measure c r = (shape, r.length))
      (hread : ∀ span, Reading.of shape (c :: r) span = .token kind) : Spells (c :: r) kind

/-- What a lexeme is a token of does not depend on where it stands. -/
theorem of_eq_token_iff {shape : Shape} {lexeme : List Char} {span : Span} {kind : Kind} :
    Reading.of shape lexeme span = .token kind ↔
      shape = .mark kind ∨ (shape = .word ∧ kind = wordKind lexeme)
        ∨ (∃ n, shape = .int ∧ integer? lexeme = some n ∧ kind = .int n)
        ∨ (∃ n, shape = .long ∧ integer? lexeme.dropLast = some n ∧ kind = .long n)
        ∨ ∃ text, shape = .quoted ∧ unescape? (lexeme.drop 1).dropLast = some text
            ∧ kind = .string (String.ofList text) := by
  constructor
  · intro h
    unfold Reading.of at h
    split at h
    case h_1 | h_2 | h_3 | h_9 | h_10 => cases h
    case h_4 | h_5 =>
      cases h
      simp
    case h_6 | h_7 | h_8 =>
      split at h <;> cases h
      simp_all
  · rintro (rfl | ⟨rfl, rfl⟩ | ⟨n, rfl, hn, rfl⟩ | ⟨n, rfl, hn, rfl⟩ | ⟨text, rfl, htext, rfl⟩)
    · rfl
    · rfl
    · simp only [Reading.of, hn]
    · simp only [Reading.of, hn]
    · simp only [Reading.of, htext]

theorem spells_take {c : Char} {r : List Char} {shape : Shape} {n : Nat} {span : Span} {kind : Kind}
    (h : Shape.measure c r = (shape, n)) (hread : Reading.of shape (c :: r.take n) span = .token kind) :
    Spells (c :: r.take n) kind := by
  obtain ⟨halone, hlength⟩ := measure_take h hread
  exact .intro (halone.trans (congrArg (Prod.mk shape) hlength)) fun _ =>
    of_eq_token_iff.mpr (of_eq_token_iff.mp hread)

theorem markOf?_of_measure {c : Char} {r : List Char} {kind : Kind} {n : Nat}
    (h : Shape.measure c r = (.mark kind, n)) : markOf? c = some kind := by
  cases measured_of_eq h with
  | mark hc => exact hc
  | number hc hn => rcases measureNumber_cases hn with ⟨-, -, h, -⟩ | ⟨h, -⟩ <;> cases h
  | quoted hn => rcases measureQuoted_cases hn with ⟨-, -, -, -, h, -⟩ | h <;> cases h

theorem wordKind_ne_eof (name : List Char) : wordKind name ≠ .eof := by
  unfold wordKind
  split_ifs <;> simp

theorem eq_of_wordKind {lexeme : List Char} {name : String} (h : wordKind lexeme = .ident name) :
    lexeme = name.toList := by
  unfold wordKind at h
  split_ifs at h
  cases h
  exact String.toList_ofList.symm

namespace Spells

variable {lexeme : List Char} {kind : Kind} (h : Spells lexeme kind)

include h

theorem width_pos : 0 < Text.width lexeme := by
  obtain ⟨hmeasure, hread⟩ := h
  rename_i c r shape
  have hc := Char.utf8Size_pos c
  rw [Text.width_cons]
  omega

theorem ne_eof : kind ≠ .eof := by
  obtain ⟨hmeasure, hread⟩ := h
  rcases of_eq_token_iff.mp (hread (.point 0)) with
    rfl | ⟨-, rfl⟩ | ⟨n, -, -, rfl⟩ | ⟨n, -, -, rfl⟩ | ⟨text, -, -, rfl⟩
  · exact ne_eof_of_markOf? (markOf?_of_measure hmeasure)
  · exact wordKind_ne_eof _
  all_goals simp

theorem eq_of_ident {name : String} (hkind : kind = .ident name) : lexeme = name.toList := by
  obtain ⟨hmeasure, hread⟩ := h
  rcases of_eq_token_iff.mp (hread (.point 0)) with
    hmark | ⟨-, h⟩ | ⟨n, -, -, h⟩ | ⟨n, -, -, h⟩ | ⟨text, -, -, h⟩
  · rw [hmark] at hmeasure
    exact absurd hkind (ne_ident_of_markOf? (markOf?_of_measure hmeasure) name)
  · exact eq_of_wordKind (h.symm.trans hkind)
  all_goals cases h.symm.trans hkind

theorem tokenize_eq :
    tokenize (String.ofList lexeme) =
      ⟨[⟨kind, ⟨0, Text.width lexeme⟩⟩, ⟨.eof, .point (Text.width lexeme)⟩], []⟩ := by
  obtain ⟨hmeasure, hread⟩ := h
  rename_i c r shape
  have hscan : scan maxFaults 0 (c :: r) = ⟨[⟨kind, ⟨0, Text.width (c :: r)⟩⟩], []⟩ := by
    rw [maxFaults, scan]
    simp only [hmeasure, List.take_length, List.drop_length, hread, Nat.zero_add]
    simp [scan]
  unfold tokenize
  rw [String.toList_ofList, hscan]
  rfl

end Spells

/-! ## Scans -/

/-- Whatever is skipped behind the lexeme is skipped together with it. -/
def Skips (lexeme rest : List Char) : Prop :=
  ∀ gap after, rest = gap ++ after → Skipped gap after → Skipped (lexeme ++ gap) after

/-- Reads the text from an offset on lexeme by lexeme, with room for some faults. -/
inductive Scans : Nat → Nat → List Char → Lexed → Prop where
  | full {offset cs} : Scans 0 offset cs ⟨[], []⟩
  | done {room offset} : Scans room offset [] ⟨[], []⟩
  | skipped {room offset lexeme rest lexed} (hskips : Skips lexeme rest)
      (hrest : Scans room (offset + Text.width lexeme) rest lexed) :
      Scans room offset (lexeme ++ rest) lexed
  | token {room offset lexeme rest kind lexed} (hspells : Spells lexeme kind)
      (hrest : Scans room (offset + Text.width lexeme) rest lexed) :
      Scans room offset (lexeme ++ rest)
        ⟨⟨kind, ⟨offset, offset + Text.width lexeme⟩⟩ :: lexed.tokens, lexed.faults⟩
  | fault {room offset lexeme rest fault lexed}
      (hrest : Scans room (offset + Text.width lexeme) rest lexed) :
      Scans (room + 1) offset (lexeme ++ rest) ⟨lexed.tokens, fault :: lexed.faults⟩

theorem take_append_drop_cons (n : Nat) (c : Char) (r : List Char) :
    c :: r.take n ++ r.drop n = c :: r := by
  rw [List.cons_append, List.take_append_drop]

theorem scans_scan (room offset : Nat) (cs : List Char) :
    Scans room offset cs (scan room offset cs) := by
  fun_induction scan room offset cs with
  | case1 => exact .full
  | case2 => exact .done
  | case3 offset room c r shape n hmeasure lexeme span hread ih =>
      rw [← take_append_drop_cons n c r]
      refine .skipped (fun gap after hrest hgap => ?_) ih
      exact skipped_lexeme hmeasure hread hgap hrest
  | case4 offset room c r shape n hmeasure lexeme span kind hread later ih =>
      rw [← take_append_drop_cons n c r]
      exact .token (spells_take hmeasure hread) ih
  | case5 offset room c r shape n hmeasure lexeme span fault hread later ih =>
      rw [← take_append_drop_cons n c r]
      exact .fault ih

/-- The token stands at its lexeme in a text that begins at the offset. -/
def Occurs (offset : Nat) (cs : List Char) (t : Token) : Prop :=
  ∃ front lexeme rest, cs = front ++ (lexeme ++ rest)
    ∧ t.span = ⟨offset + Text.width front, offset + Text.width front + Text.width lexeme⟩
    ∧ Spells lexeme t.kind

theorem Occurs.behind {offset : Nat} {lexeme rest : List Char} {t : Token}
    (h : Occurs (offset + Text.width lexeme) rest t) : Occurs offset (lexeme ++ rest) t := by
  obtain ⟨front, word, after, rfl, hspan, hspells⟩ := h
  refine ⟨lexeme ++ front, word, after, ?_, ?_, hspells⟩
  · rw [List.append_assoc]
  · rw [hspan, Text.width_append, Nat.add_assoc offset]

/-- In front of each token and behind the last one the text is skipped. -/
inductive Spaced : Nat → List Char → List Token → Prop where
  | last {offset gap} : Skipped gap [] → Spaced offset gap []
  | token {offset gap lexeme rest t tokens} (hgap : Skipped gap (lexeme ++ rest))
      (hspan : t.span = ⟨offset + Text.width gap, offset + Text.width gap + Text.width lexeme⟩) :
      Spaced t.span.stop rest tokens → Spaced offset (gap ++ (lexeme ++ rest)) (t :: tokens)

theorem Spaced.behind {offset : Nat} {lexeme rest : List Char} {tokens : List Token}
    (h : Spaced (offset + Text.width lexeme) rest tokens) (hskips : Skips lexeme rest) :
    Spaced offset (lexeme ++ rest) tokens := by
  cases h with
  | last hgap => exact .last (hskips _ _ (List.append_nil _).symm hgap)
  | token hgap hspan hrest =>
      rw [← List.append_assoc]
      refine .token (hskips _ _ rfl hgap) ?_ hrest
      rw [hspan, Text.width_append, Nat.add_assoc offset]

namespace Scans

variable {room offset : Nat} {cs : List Char} {lexed : Lexed} (h : Scans room offset cs lexed)

include h

theorem length_faults_le : lexed.faults.length ≤ room := by
  induction h with
  | full => exact Nat.le_refl _
  | done => exact Nat.zero_le _
  | skipped _ _ ih => exact ih
  | token _ _ ih => exact ih
  | fault _ ih => exact Nat.succ_le_succ ih

theorem occurs : ∀ t ∈ lexed.tokens, Occurs offset cs t := by
  induction h with
  | full => simp
  | done => simp
  | skipped _ _ ih => exact fun t ht => (ih t ht).behind
  | fault _ ih => exact fun t ht => (ih t ht).behind
  | token hspells _ ih =>
      intro t ht
      rcases List.mem_cons.mp ht with rfl | ht
      · exact ⟨[], _, _, rfl, rfl, hspells⟩
      · exact (ih t ht).behind

theorem le_start : ∀ t ∈ lexed.tokens, offset ≤ t.span.start := by
  intro t ht
  obtain ⟨front, lexeme, rest, -, hspan, -⟩ := h.occurs t ht
  rw [hspan]
  exact Nat.le_add_right ..

theorem pairwise : lexed.tokens.Pairwise fun a b => a.span.stop ≤ b.span.start := by
  induction h with
  | full => exact .nil
  | done => exact .nil
  | skipped _ _ ih => exact ih
  | fault _ ih => exact ih
  | token _ hrest ih => exact .cons hrest.le_start ih

theorem spaced (hroom : 0 < room) (hfaults : lexed.faults = []) :
    Spaced offset cs lexed.tokens := by
  induction h with
  | full => cases hroom
  | done => exact .last .nil
  | skipped hskips _ ih => exact (ih hroom hfaults).behind hskips
  | fault => cases hfaults
  | token _ _ ih => exact .token .nil rfl (ih hroom hfaults)

end Scans

/-! ## Tokens of a text -/

/-- The words of a text are disjoint pieces of it in order, cut between characters. Each is the
only token of its piece, and without faults all other text is blank or comment. -/
structure Lossless (text : List Char) (words : List Token) (faults : List Fault) : Prop where
  nonempty : ∀ t ∈ words, t.span.start < t.span.stop
  ordered : words.Pairwise fun a b => a.span.stop ≤ b.span.start
  noEnd : ∀ t ∈ words, t.kind ≠ .eof
  alone : ∀ t ∈ words, ∃ lexeme, Text.slice? text t.span.start t.span.stop = some lexeme
    ∧ tokenize (String.ofList lexeme) =
        ⟨[⟨t.kind, ⟨0, Text.width lexeme⟩⟩, ⟨.eof, .point (Text.width lexeme)⟩], []⟩
  few : faults.length ≤ 20
  spaced : faults = [] → Spaced 0 text words

theorem Occurs.slice?_eq {cs : List Char} {t : Token} (h : Occurs 0 cs t) :
    ∃ lexeme, Text.slice? cs t.span.start t.span.stop = some lexeme
      ∧ t.span.stop = t.span.start + Text.width lexeme ∧ Spells lexeme t.kind := by
  obtain ⟨front, lexeme, rest, rfl, hspan, hspells⟩ := h
  refine ⟨lexeme, ?_, by rw [hspan], hspells⟩
  rw [hspan, Text.slice?, if_pos (Nat.le_add_right ..), Nat.add_sub_cancel_left, Nat.zero_add,
    Text.splitAt?_width]
  simp [Text.splitAt?_width]

theorem Occurs.start_lt_stop {offset : Nat} {cs : List Char} {t : Token} (h : Occurs offset cs t) :
    t.span.start < t.span.stop := by
  obtain ⟨front, lexeme, rest, rfl, hspan, hspells⟩ := h
  have hpos := hspells.width_pos
  rw [hspan]
  dsimp only
  omega

theorem Occurs.stop_le {cs : List Char} {t : Token} (h : Occurs 0 cs t) :
    t.span.stop ≤ Text.width cs := by
  obtain ⟨front, lexeme, rest, rfl, hspan, -⟩ := h
  rw [hspan, Text.width_append, Text.width_append]
  dsimp only
  omega

theorem Occurs.ne_eof {offset : Nat} {cs : List Char} {t : Token} (h : Occurs offset cs t) :
    t.kind ≠ .eof := by
  obtain ⟨front, lexeme, rest, -, -, hspells⟩ := h
  exact hspells.ne_eof

/-- A text is read as its words and then its end, and nothing of it is lost. -/
theorem tokenize_lossless (source : String) :
    ∃ words, (tokenize source).tokens = words ++ [⟨.eof, .point (Text.width source.toList)⟩]
      ∧ Lossless source.toList words (tokenize source).faults := by
  have hscans := scans_scan maxFaults 0 source.toList
  refine ⟨_, rfl, ?_, hscans.pairwise, ?_, ?_, hscans.length_faults_le, ?_⟩
  · exact fun t ht => (hscans.occurs t ht).start_lt_stop
  · exact fun t ht => (hscans.occurs t ht).ne_eof
  · intro t ht
    obtain ⟨lexeme, hslice, -, hspells⟩ := (hscans.occurs t ht).slice?_eq
    exact ⟨lexeme, hslice, hspells.tokenize_eq⟩
  · exact hscans.spaced (by decide)

example : (tokenize "a /* b /* c */ */ = 1 // d").faults = [] := by decide +kernel

end Token

end Declarative
