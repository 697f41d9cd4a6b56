import Declarative.Proofs.Token.Joined

/-!
# Block comments

A comment is read mark by mark (`marks`): slash-star opens one, star-slash closes one, and what belongs to
such a pair belongs to no other. It ends behind the first mark at which as many are closed as were
opened, or with the text (`Ends`). What stands behind it is read as if the text began there
(`tokenize_comment`).
-/

namespace Declarative.Token

open Shape

/-! ## Marks -/

/-- A piece of a text as the inside of a comment is read. -/
inductive Mark where
  | opening
  | closing
  | other (c : Char)
  deriving DecidableEq, Repr

/-- The marks of a text from left to right. -/
def marks : List Char → List Mark
  | '/' :: '*' :: r => .opening :: marks r
  | '*' :: '/' :: r => .closing :: marks r
  | c :: r => .other c :: marks r
  | [] => []

def Mark.text : Mark → List Char
  | .opening => ['/', '*']
  | .closing => ['*', '/']
  | .other c => [c]

def spelled (ms : List Mark) : List Char := ms.flatMap Mark.text

/-- The bytes of marks, which are two for a pair. -/
def bytes : List Mark → Nat
  | [] => 0
  | .other c :: ms => c.utf8Size + bytes ms
  | _ :: ms => 2 + bytes ms

theorem spelled_marks (cs : List Char) : spelled (marks cs) = cs := by
  fun_induction marks cs with
  | case1 r ih => exact congrArg ('/' :: '*' :: ·) ih
  | case2 r ih => exact congrArg ('*' :: '/' :: ·) ih
  | case3 c r _ _ ih => exact congrArg (c :: ·) ih
  | case4 => rfl

theorem bytes_eq_width (ms : List Mark) : bytes ms = Text.width (spelled ms) := by
  induction ms with
  | nil => rfl
  | cons m ms ih =>
      have hspelled : spelled (m :: ms) = m.text ++ spelled ms := rfl
      rw [hspelled, Text.width_append, ← ih]
      cases m <;> rfl

/-- As many comments are closed as were opened. -/
def Balances (ms : List Mark) : Prop := ms.count .opening = ms.count .closing

/-- Of the marks from a comment's own opening on, those in front belong to the comment: it ends where
its marks balance for the first time, which is behind a closing one, or, where they never do, with
the text. -/
structure Ends (front back : List Mark) : Prop where
  notBefore : ∀ ms, ms <+: front → ms ≠ [] → ms ≠ front → ¬Balances ms
  ends : Balances front ∧ front.getLast? = some .closing ∨ ¬Balances front ∧ back = []

/-! ## Counting -/

theorem marks_other {c : Char} {r : List Char} (hopens : c = '/' → r.head? ≠ some '*')
    (hcloses : c = '*' → r.head? ≠ some '/') : marks (c :: r) = .other c :: marks r := by
  rw [marks]
  · rintro t rfl rfl
    exact hopens rfl rfl
  · rintro t rfl rfl
    exact hcloses rfl rfl

namespace Nests

variable {depth last : Nat} {body rest : List Char}

/-- Something is left of a comment that is still open, unless the text is at its end. -/
theorem head?_append (h : Nests (depth + 1) body last) (hend : last = 0 ∨ rest = []) :
    (body ++ rest).head? = body.head? := by
  cases body with
  | nil =>
      rcases hend with rfl | rfl
      · cases h
      · rfl
  | cons d t => rfl

/-- No mark lies on the end of a comment. -/
theorem marks_append (h : Nests depth body last) (hend : last = 0 ∨ rest = []) :
    marks (body ++ rest) = marks body ++ marks rest := by
  induction h with
  | stop => rfl
  | opens _ ih => exact congrArg (.opening :: ·) (ih hend)
  | closes _ ih => exact congrArg (.closing :: ·) (ih hend)
  | other hopens hcloses hnests ih =>
      -- the character behind is the same with the text behind the comment, so it makes no other mark
      have hhead := hnests.head?_append hend
      rw [marks_other hopens hcloses, List.cons_append, List.cons_append, ← ih hend]
      exact marks_other (fun hc => hhead ▸ hopens hc) (fun hc => hhead ▸ hcloses hc)

theorem count_eq (h : Nests depth body last) :
    (marks body).count .closing + last = (marks body).count .opening + depth := by
  induction h with
  | stop => rfl
  | opens _ ih =>
      rw [marks, List.count_cons_of_ne (by decide), List.count_cons_self]
      omega
  | closes _ ih =>
      rw [marks, List.count_cons_self, List.count_cons_of_ne (by decide)]
      omega
  | other hopens hcloses _ ih =>
      rw [marks_other hopens hcloses, List.count_cons_of_ne (by simp), List.count_cons_of_ne (by simp)]
      exact ih

/-- Inside of a comment fewer are closed than were opened. -/
theorem count_lt (h : Nests depth body last) {ms : List Mark} (hms : ms <+: marks body)
    (hne : ms ≠ marks body) : ms.count .closing < ms.count .opening + depth := by
  induction h generalizing ms with
  | stop => exact absurd (List.prefix_nil.mp hms) hne
  | opens _ ih =>
      rcases List.prefix_cons_iff.mp hms with rfl | ⟨inner, rfl, hinner⟩
      · simp
      · have hlt := ih hinner (fun h => hne (congrArg _ h))
        rw [List.count_cons_of_ne (by decide), List.count_cons_self]
        omega
  | closes _ ih =>
      rcases List.prefix_cons_iff.mp hms with rfl | ⟨inner, rfl, hinner⟩
      · simp
      · have hlt := ih hinner (fun h => hne (congrArg _ h))
        rw [List.count_cons_self, List.count_cons_of_ne (by decide)]
        omega
  | other hopens hcloses _ ih =>
      rw [marks_other hopens hcloses] at hms hne
      rcases List.prefix_cons_iff.mp hms with rfl | ⟨inner, rfl, hinner⟩
      · simp
      · have hlt := ih hinner (fun h => hne (congrArg _ h))
        rw [List.count_cons_of_ne (by simp), List.count_cons_of_ne (by simp)]
        exact hlt

/-- A comment that is closed ends with the mark that closes it, because only that one takes a count
down. -/
theorem getLast?_eq (h : Nests (depth + 1) body 0) : (marks body).getLast? = some .closing := by
  have hcount := h.count_eq
  have hlt : ∀ {ms}, ms <+: marks body → ms ≠ marks body → _ := h.count_lt
  generalize marks body = all at hcount hlt ⊢
  rcases List.eq_nil_or_concat' all with rfl | ⟨inner, m, rfl⟩
  · simp at hcount
  · have hinner := hlt (List.prefix_append ..) (by simp)
    rw [List.count_append, List.count_append] at hcount
    rw [List.getLast?_concat]
    cases m with
    | closing => rfl
    | opening | other =>
        simp only [List.count_singleton, beq_self_eq_true, reduceCtorEq, beq_iff_eq, if_true,
          if_false] at hcount
        omega

end Nests

/-! ## Behind a comment -/

theorem ends_of_nests {body rest : List Char} {last : Nat} (h : Nests 1 body last)
    (hend : last = 0 ∨ rest = []) : Ends (.opening :: marks body) (marks rest) where
  notBefore ms hms hnil hne hbalances := by
    rcases List.prefix_cons_iff.mp hms with rfl | ⟨inner, rfl, hinner⟩
    · exact hnil rfl
    · have hlt := h.count_lt hinner (fun hall => hne (congrArg _ hall))
      rw [Balances, List.count_cons_self, List.count_cons_of_ne (by decide)] at hbalances
      omega
  ends := by
    have hcount := h.count_eq
    rw [Balances, List.count_cons_self, List.count_cons_of_ne (by decide)]
    cases last with
    | zero =>
        refine Or.inl ⟨by omega, ?_⟩
        rw [List.getLast?_cons, h.getLast?_eq]
        rfl
    | succ depth =>
        obtain rfl := hend.resolve_left (Nat.succ_ne_zero depth)
        exact Or.inr ⟨by omega, rfl⟩

theorem width_opened (inside : List Char) :
    Text.width ('/' :: '*' :: inside) = 2 + Text.width inside := by
  rw [Text.width_cons, Text.width_cons, ← Nat.add_assoc]
  rfl

/-- Where the lexer meets a comment, it goes on behind it as if the text began there. -/
theorem scan_comment {inside behind : List Char}
    (hlength : commentLength 1 (inside ++ behind) = inside.length) (room offset : Nat) :
    scan room offset ('/' :: '*' :: (inside ++ behind)) =
      (scan room 0 behind).shift (offset + (2 + Text.width inside)) := by
  cases room with
  | zero => simp [scan, Lexed.shift]
  | succ room =>
      rw [← scan_shift, scan]
      simp only [measure_comment, Reading.of]
      rw [hlength, Nat.add_comm 1, List.take_succ_cons, List.drop_succ_cons, List.take_left,
        List.drop_left, Nat.zero_add, width_opened]

/-- **A comment is left out**: it takes the text up to the mark that closes it, or all of the text where
none does, and what stands behind it is read as it is read alone, that much further on. -/
theorem tokenize_comment (text : List Char) :
    ∃ inside behind, marks text = inside ++ behind
      ∧ Ends (.opening :: inside) behind
      ∧ commentLength 1 text = (spelled inside).length
      ∧ Text.splitAt? (bytes inside) text = some (spelled inside, spelled behind)
      ∧ (∀ room offset, scan room offset ('/' :: '*' :: text)
          = (scan room 0 (spelled behind)).shift (offset + (2 + bytes inside)))
      ∧ tokenize (String.ofList ('/' :: '*' :: text))
          = (tokenize (String.ofList (spelled behind))).shift (2 + bytes inside) := by
  obtain ⟨last, hnests, hend⟩ := exists_nests_take 1 text
  have htext := List.take_append_drop (commentLength 1 text) text
  have hlength := List.length_take_of_le (commentLength_le 1 text)
  generalize text.take (commentLength 1 text) = inside at *
  generalize text.drop (commentLength 1 text) = behind at *
  subst htext
  have hscan := scan_comment hlength.symm
  refine ⟨marks inside, marks behind, hnests.marks_append hend, ends_of_nests hnests hend, ?_, ?_, ?_, ?_⟩
  all_goals simp only [bytes_eq_width, spelled_marks]
  · exact hlength.symm
  · exact Text.splitAt?_width inside behind
  · exact hscan
  · have hwidth : Text.width ('/' :: '*' :: (inside ++ behind))
        = Text.width behind + (2 + Text.width inside) := by
      rw [width_opened, Text.width_append]
      omega
    rw [tokenize, tokenize, String.toList_ofList, String.toList_ofList, hscan, hwidth, Nat.zero_add]
    simp [Lexed.shift, Token.shift, Span.shift, Span.point]

-- a slash between two stars belongs to one of them only
example :
    tokenize "/*/ é /* **/ */x" = ⟨[⟨.ident "x", ⟨16, 17⟩⟩, ⟨.eof, .point 17⟩], []⟩ := by
  decide +kernel

end Declarative.Token
