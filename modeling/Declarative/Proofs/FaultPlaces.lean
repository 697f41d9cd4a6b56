import Declarative.Proofs.Parser.Spans
import Declarative.Proofs.Source.Position

/-!
# Where faults stand

The faults that are found in a text stand at pieces of it. A fault of the lexer takes its lexeme or
the first character of it: a quote, where an escape is wrong. A fault of the parser is found at the
next token, which may be the end of the text, and a block that is not closed is one at its opening
brace. What is said of all tokens and of the end is therefore said of all such faults
(`Reader.Bounded`).
-/

namespace Declarative

namespace Token

/-! ## Faults in the text -/

theorem eq_quote_of_measure {c : Char} {r : List Char} {n : Nat}
    (h : Shape.measure c r = (.quoted, n)) : c = '"' := by
  cases measured_of_eq h with
  | quoted hn => rfl
  | number hc hn => rcases measureNumber_cases hn with ⟨-, -, hshape, -⟩ | ⟨hshape, -⟩ <;> cases hshape

/-- A fault takes some characters from the start of its lexeme on. -/
theorem exists_piece_of_fault {c : Char} {r : List Char} {shape : Shape} {n : Nat} {span : Span}
    {fault : Fault} (h : Shape.measure c r = (shape, n))
    (hspan : span.stop = span.start + Text.width (c :: r.take n))
    (hread : Reading.of shape (c :: r.take n) span = .fault fault) :
    ∃ piece rest, c :: r.take n = piece ++ rest
      ∧ fault.span = ⟨span.start, span.start + Text.width piece⟩ := by
  have hwhole : span = ⟨span.start, span.start + Text.width (c :: r.take n)⟩ := by
    rw [← hspan]
  unfold Reading.of at hread
  split at hread
  case h_1 | h_2 | h_3 | h_4 | h_5 => cases hread
  case h_6 | h_7 =>
    split at hread <;> cases hread
    exact ⟨_, [], (List.append_nil _).symm, hwhole⟩
  case h_8 =>
    split at hread <;> cases hread
    obtain rfl := eq_quote_of_measure h
    exact ⟨['"'], _, rfl, rfl⟩
  case h_9 =>
    cases hread
    exact ⟨_, [], (List.append_nil _).symm, hwhole⟩
  case h_10 =>
    cases hread
    exact ⟨[c], _, rfl, rfl⟩

theorem fits_of_mem_scan {text : List Char} (room offset : Nat) (cs : List Char) :
    ∀ front, text = front ++ cs → offset = Text.width front →
      ∀ fault ∈ (scan room offset cs).faults, fault.span.Fits text := by
  fun_induction scan room offset cs with
  | case1 | case2 => simp
  | case3 offset room c r shape n hmeasure lexeme span hread ih
  | case4 offset room c r shape n hmeasure lexeme span kind hread later ih =>
      intro front htext hoffset
      refine ih (front ++ lexeme) ?_ ?_
      · rw [htext, List.append_assoc, take_append_drop_cons]
      · rw [Text.width_append, ← hoffset]
  | case5 offset room c r shape n hmeasure lexeme span fault hread later ih =>
      intro front htext hoffset other hother
      rcases List.mem_cons.mp hother with rfl | hother
      · obtain ⟨piece, rest, hlexeme, hspan⟩ := exists_piece_of_fault hmeasure rfl hread
        rw [hspan, htext, ← take_append_drop_cons n c r, hlexeme, List.append_assoc]
        show Span.Fits _ ⟨offset, offset + _⟩
        rw [hoffset]
        exact Span.fits_of_append ..
      · refine ih (front ++ lexeme) ?_ ?_ other hother
        · rw [htext, List.append_assoc, take_append_drop_cons]
        · rw [Text.width_append, ← hoffset]

theorem Occurs.fits {text : List Char} {t : Token} (h : Occurs 0 text t) : t.span.Fits text := by
  obtain ⟨front, lexeme, rest, rfl, hspan, -⟩ := h
  rw [hspan, Nat.zero_add]
  exact Span.fits_of_append ..

end Token

namespace Script

/-! ## Faults in the tokens -/

variable {P : Span → Prop}

/-- The tokens to be read, the end of the text and the faults found so far are at such spans. -/
structure Reader.Bounded (P : Span → Prop) (s : Reader) : Prop where
  unread : ∀ t ∈ s.unread, P t.span
  finish : P s.finish
  faults : ∀ fault ∈ s.faults, P fault.span

namespace Reader.Bounded

variable {s : Reader} (h : s.Bounded P)

include h

theorem here : P s.here := by
  unfold Reader.here
  split
  · exact h.finish
  · rename_i t rest hunread
    exact h.unread t (hunread ▸ List.mem_cons_self ..)

theorem skip (n : Nat) : (s.skip n).Bounded P :=
  ⟨fun t ht => h.unread t (List.mem_of_mem_drop ht), h.finish, h.faults⟩

theorem report {fault : Fault} (hfault : P fault.span) : (s.report fault).Bounded P := by
  refine ⟨h.unread, h.finish, fun other hother => ?_⟩
  rcases List.mem_append.mp hother with hother | hother
  · exact h.faults other hother
  · rw [List.mem_singleton.mp hother]
    exact hfault

end Reader.Bounded

/-- Reading stops with a fault at such a span, and puts no others on record. -/
def bounded (P : Span → Prop) : Law := fun s fault? s' =>
  s.Bounded P → s'.Bounded P ∧ ∀ fault ∈ fault?, P fault.span

theorem bounded_elementary (P : Span → Prop) : (bounded P).Elementary where
  refl s h := ⟨h, by simp⟩
  trans hfirst hrest h := hrest (hfirst h).1
  skip s n h := ⟨h.skip n, by simp⟩
  takeId s h := ⟨{ h with }, by simp⟩
  stop s cause _ h := ⟨h, by simpa using h.here⟩

namespace Parser

theorem Keeps.bounded_nested {α : Type} {inner : Parser α} (h : Keeps (bounded P) inner) :
    Keeps (bounded P) (nested inner) := by
  intro s hs
  unfold nested
  split
  · obtain ⟨hend, hfault⟩ := h { s with depth := s.depth + 1 } { hs with }
    exact ⟨{ hend with }, hfault⟩
  · exact (bounded_elementary P).stop s .tooDeep (by simp) hs

theorem value_bounded : ∀ fuel : Nat, Keeps (bounded P) (value fuel) :=
  value_keeps (bounded_elementary P) fun h => h.bounded_nested

section

variable {parse : NodeId → Parser Statement} (hparse : ∀ id, Keeps (bounded P) (parse id))

include hparse

theorem recovering_bounded {s s' : Reader} {first? : Option Statement} (hs : s.Bounded P)
    (h : recovering parse s = (first?, s')) : s'.Bounded P := by
  have hstart : s.takeId.2.Bounded P := { hs with }
  rcases recovering_cases h with ⟨first, -, hread⟩ | ⟨fault, s₁, hread, rfl, -⟩
    | ⟨fault, s₁, hread, rfl, -⟩
  · exact ((hparse _).of_eq hread hstart).1
  · obtain ⟨hend, hfault⟩ := (hparse _).of_eq hread hstart
    exact (hend.report (hfault fault rfl)).skip _
  · obtain ⟨hend, hfault⟩ := (hparse _).of_eq hread hstart
    exact hend.report (hfault fault rfl)

theorem blockStatements_bounded {opening : Span} (hopening : P opening) :
    Keeps (bounded P) (blockStatements parse opening) := by
  intro s hs
  fun_induction blockStatements parse opening s with
  | case1 s _ => exact ⟨hs, by simp [fault?]⟩
  | case2 s _ => exact ⟨hs, by simpa [fault?] using hopening⟩
  | case3 s s₁ hfirst =>
      have hend := recovering_bounded hparse hs hfirst
      refine ⟨hend, ?_⟩
      rintro _ ⟨⟩
      exact hend.here
  | case4 s first s₁ hfirst s₂ _ others s₃ hothers =>
      rename_i ih
      obtain ⟨hend, hfault⟩ := ih ((recovering_bounded hparse hs hfirst).skip _)
      rw [hothers] at hend hfault
      rw [fault?_map]
      exact ⟨hend, hfault⟩
  | case5 s first s₁ hfirst s₂ _ =>
      exact ⟨(recovering_bounded hparse hs hfirst).skip _, by simp [fault?]⟩

/-- The opening brace is the next token where the block starts. -/
theorem blockWith_bounded : Keeps (bounded P) (blockWith parse) := by
  intro s hs
  have hlaw := bounded_elementary P
  have hopening : P s.here := hs.here
  rw [blockWith, freshId_bind, view_bind]
  refine keeps_bind hlaw (keeps_expect hlaw _) (fun _ => ?_) s.takeId.2 { hs with }
  refine keeps_bind hlaw (keeps_skipSeparators hlaw) fun _ => ?_
  refine keeps_bind hlaw (blockStatements_bounded hparse hopening) fun statements => ?_
  refine keeps_bind hlaw (keeps_view hlaw _) fun closing => ?_
  exact keeps_bind hlaw (keeps_advance hlaw) fun _ => keeps_pure hlaw _

theorem topStatements_bounded {s s' : Reader} {statements : List Statement} (hs : s.Bounded P)
    (h : topStatements parse s = (statements, s')) : s'.Bounded P := by
  have hround : ∀ {s s₁ : Reader} {first : Statement}, s.Bounded P → TopRound parse s first s₁ →
      s₁.Bounded P := by
    rintro s s₁ first hs (hround | ⟨-, hstray⟩)
    · exact recovering_bounded hparse hs hround.hread
    · obtain ⟨-, rfl⟩ := Prod.mk.inj hstray
      have hskip : (s.skip 1).takeId.2.Bounded P := { hs.skip 1 with }
      exact hskip.report hs.here
  replace h := topRounds_of_eq h
  induction h with
  | done => exact hs
  | gaveUp _ _ hnone => exact recovering_bounded hparse hs hnone
  | more hfirst _ _ ih => exact ih ((hround hs hfirst).skip _)
  | last hfirst hend =>
      rcases hend with rfl | rfl
      · exact hround hs hfirst
      · exact (hround hs hfirst).skip _

end

theorem statement_bounded (fuel : Nat) (block : Parser Body) (hblock : Keeps (bounded P) block)
    (id : NodeId) : Keeps (bounded P) (statement (value fuel) block id) :=
  statement_keeps (bounded_elementary P) (value_bounded fuel) hblock id

theorem block_bounded : ∀ fuel : Nat, Keeps (bounded P) (block fuel)
  | 0 => keeps_fail (bounded_elementary P) (by simp)
  | fuel + 1 =>
      (blockWith_bounded (statement_bounded fuel _ (block_bounded fuel))).bounded_nested

end Parser

/-- What is said of the spans of the tokens and of the end is said of those of the faults. -/
theorem forall_span_faults_ofTokens {tokens : List Token} (source : String)
    (h : (Reader.ofTokens tokens).Bounded P) :
    ∀ fault ∈ (ofTokens source tokens).faults, P fault.span := by
  have hblock := Parser.block_bounded (P := P) Parser.fullFuel
  have hparse := Parser.statement_bounded Parser.fullFuel _ hblock
  exact (Parser.topStatements_bounded hparse (h.skip _) rfl).faults

/-- All faults that are found in a text stand at pieces of it. -/
theorem fits_faults_ofText (source text : String) :
    (∀ fault ∈ (ofText source text).lexical, fault.span.Fits text.toList)
      ∧ ∀ fault ∈ (ofText source text).structural, fault.span.Fits text.toList := by
  refine ⟨Token.fits_of_mem_scan _ _ _ [] rfl rfl, forall_span_faults_ofTokens source ?_⟩
  have hoccurs := (Token.scans_scan Token.maxFaults 0 text.toList).occurs
  have hend := Span.fits_point text.toList
  refine ⟨fun t ht => ?_, (Reader.inText_ofTokens text).finish ▸ hend, by simp [Reader.ofTokens]⟩
  have hmem : t ∈ (tokenize text).tokens := (List.takeWhile_prefix _).subset ht
  rcases List.mem_append.mp hmem with hword | hlast
  · exact (hoccurs t hword).fits
  · rw [List.mem_singleton.mp hlast]
    exact hend

end Script

end Declarative
