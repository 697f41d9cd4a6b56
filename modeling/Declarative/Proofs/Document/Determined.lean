import Declarative.Proofs.Document.Headings
import Declarative.Proofs.Document.ReadBack
import Declarative.Proofs.Token.Renaming

/-!
# What is printed determines the document

A line ends with the first line feed, since texts are printed in quotes and names are identifiers. In a
line the blanks in front tell the depth, and the last at sign stands in front of the span
(`Document.Heading.written_injective`). What is between them tells the caption: its word the kind, and
the rest the name or, as one token, the literal (`Document.Caption.text_injective`). So the headings can be
read off the text, and they are enough for the document (`Document.unnumbered_eq_of_print_eq`).
-/

namespace Declarative

/-! ## Lists of characters -/

namespace Text

/-- The first occurrence of a character parts a text in two. -/
theorem append_cons_inj {c : Char} {rest other : List Char} : ∀ {front head : List Char},
    c ∉ front → c ∉ head → front ++ c :: rest = head ++ c :: other → front = head ∧ rest = other
  | [], [], _, _, h => ⟨rfl, (List.cons.inj h).2⟩
  | [], d :: head, _, hhead, h => absurd (List.cons.inj h).1 (List.ne_of_not_mem_cons hhead)
  | d :: front, [], hfront, _, h =>
      absurd (List.cons.inj h).1.symm (List.ne_of_not_mem_cons hfront)
  | d :: front, e :: head, hfront, hhead, h => by
      obtain ⟨rfl, htail⟩ := List.cons.inj h
      obtain ⟨rfl, hrest⟩ := append_cons_inj (List.not_mem_of_not_mem_cons hfront)
        (List.not_mem_of_not_mem_cons hhead) htail
      exact ⟨rfl, hrest⟩

/-- And so does the last one. -/
theorem cons_append_inj {c : Char} {front head rest other : List Char} (hrest : c ∉ rest)
    (hother : c ∉ other) (h : front ++ c :: rest = head ++ c :: other) :
    front = head ∧ rest = other := by
  have hreverse := congrArg List.reverse h
  simp only [List.reverse_append, List.reverse_cons, List.append_assoc, List.singleton_append]
    at hreverse
  obtain ⟨hback, hfront⟩ := append_cons_inj (by simpa using hrest) (by simpa using hother) hreverse
  exact ⟨List.reverse_injective hfront, List.reverse_injective hback⟩

/-- Where no line holds a line feed, the lines can be told apart again. -/
theorem eq_of_flatMap_lines : ∀ {lines others : List (List Char)},
    (∀ line ∈ lines, '\n' ∉ line) → (∀ line ∈ others, '\n' ∉ line) →
      lines.flatMap (· ++ ['\n']) = others.flatMap (· ++ ['\n']) → lines = others
  | [], [], _, _, _ => rfl
  | [], other :: others, _, _, h => by simp at h
  | line :: lines, [], _, _, h => by simp at h
  | line :: lines, other :: others, hlines, hothers, h => by
      obtain ⟨hline, hbelow⟩ := List.forall_mem_cons.mp hlines
      obtain ⟨hother, habove⟩ := List.forall_mem_cons.mp hothers
      simp only [List.flatMap_cons, List.append_assoc, List.singleton_append] at h
      obtain ⟨rfl, hrest⟩ := append_cons_inj hline hother h
      exact congrArg (line :: ·) (eq_of_flatMap_lines hbelow habove hrest)

theorem eq_of_blanks_append {c d : Char} {cs ds : List Char} (hc : c ≠ ' ') (hd : d ≠ ' ') :
    ∀ {m n : Nat}, List.replicate m ' ' ++ c :: cs = List.replicate n ' ' ++ d :: ds →
      m = n ∧ c :: cs = d :: ds
  | 0, 0, h => ⟨rfl, h⟩
  | 0, n + 1, h => absurd (List.cons.inj h).1 hc
  | m + 1, 0, h => absurd (List.cons.inj h).1.symm hd
  | m + 1, n + 1, h => by
      obtain ⟨rfl, hrest⟩ := eq_of_blanks_append hc hd (List.cons.inj h).2
      exact ⟨rfl, hrest⟩

theorem toString_injective : Function.Injective (toString : Nat → String) := by
  intro m n h
  have hdigits := congrArg (fun text : String => magnitude text.toList) h
  simpa only [Nat.toString_eq_repr, Nat.toList_repr, magnitude_toDigits] using hdigits

theorem notMem_toString {c : Char} (hc : c.isDigit = false) (n : Nat) : c ∉ (toString n).toList := by
  intro h
  rw [Nat.toString_eq_repr, Nat.toList_repr] at h
  rw [isDigit_of_mem h] at hc
  cases hc

end Text

namespace Span

/-- Offsets are written in digits, with two dots between them. -/
theorem notMem_display {c : Char} (hdigit : c.isDigit = false) (hdot : c ≠ '.') (span : Span) :
    c ∉ span.display.toList := by
  simp only [display, String.toList_append, List.mem_append, not_or]
  exact ⟨⟨Text.notMem_toString hdigit _, by simpa using hdot⟩, Text.notMem_toString hdigit _⟩

theorem display_injective : Function.Injective display := by
  rintro ⟨start, stop⟩ ⟨start', stop'⟩ h
  have hchars := congrArg String.toList h
  simp only [display, String.toList_append, List.append_assoc] at hchars
  have hdot : ∀ n : Nat, '.' ∉ (toString n).toList := Text.notMem_toString (by decide)
  obtain ⟨hstart, hrest⟩ := Text.append_cons_inj (hdot start) (hdot start') hchars
  obtain rfl := Text.toString_injective (String.toList_inj.mp hstart)
  obtain rfl := Text.toString_injective (String.toList_inj.mp (List.cons.inj hrest).2)
  rfl

end Span

theorem Literal.kind_injective : Function.Injective Literal.kind := by
  intro a b h
  cases a <;> cases b <;> simp_all [kind]

/-- A name of the language stays on its line. -/
theorem Token.IsIdentifier.newline_notMem {name : String} (h : IsIdentifier name) :
    '\n' ∉ name.toList := by
  obtain ⟨_, hspells⟩ := h.exists_spells
  obtain ⟨c, r, hname, hstart, hparts, -⟩ := hspells.exists_word
  intro hmem
  rw [hname] at hmem
  rcases List.mem_cons.mp hmem with rfl | hmem
  · exact absurd hstart (by decide)
  · exact absurd (hparts _ hmem) (by decide)

theorem Token.Quotable.newline_notMem {body : List Char} (h : Quotable body) : '\n' ∉ body := by
  induction h with
  | nil => exact List.not_mem_nil
  | plain _ _ hline _ ih =>
      exact List.not_mem_cons_of_ne_of_not_mem hline.symm ih
  | escape hline _ ih =>
      exact List.not_mem_cons_of_ne_of_not_mem (by decide)
        (List.not_mem_cons_of_ne_of_not_mem hline.symm ih)

/-! ## Captions -/

namespace Document

/-- A literal is the value of the one token that its text is read as. -/
theorem literalText_injective : Function.Injective literalText := by
  intro a b h
  have ha := (Token.spells_literalText a).tokenize_eq
  have hb := (Token.spells_literalText b).tokenize_eq
  rw [h, hb] at ha
  have hkinds := congrArg (fun lexed : Token.Lexed => lexed.tokens.map (·.kind)) ha
  exact Literal.kind_injective (List.cons.inj hkinds).1.symm

theorem newline_notMem_literalText (content : Literal) : '\n' ∉ (literalText content).toList := by
  have hnumber : ∀ i : Int, '\n' ∉ (toString i).toList := by
    intro i h
    obtain ⟨c, r, htext, hstart, hparts⟩ := Token.exists_toString_cons i
    rw [htext] at h
    rcases List.mem_cons.mp h with rfl | h
    · rcases hstart with hdigit | ⟨hsign, -⟩
      · exact absurd hdigit (by decide)
      · exact absurd hsign (by decide)
    · exact absurd (hparts _ h) (by decide)
  cases content with
  | string value =>
      have hbody := (Token.quotable_flatMap_escape value.toList).newline_notMem
      rw [literalText, Text.quoted, String.toList_ofList]
      simpa using hbody
  | int value => exact hnumber _
  | long value =>
      have hmark : '\n' ∉ "L".toList := by decide
      simpa [literalText, Literal.display, hmark] using hnumber value.toInt
  | bool value => cases value <;> decide
  | null => decide

namespace Caption

/-- Two letters are enough to tell the words apart. -/
theorem word_eq_of_text_eq {a b : Caption} (h : a.text = b.text) : a.word = b.word := by
  have hstart := congrArg (fun text : String => text.toList.take 2) h
  cases a <;> cases b <;> first | rfl | simp [text, word] at hstart

theorem text_injective : Function.Injective text := by
  intro a b h
  have hword := word_eq_of_text_eq h
  have hbody : a.body = b.body := by
    rw [text, text, hword, String.append_right_inj] at h
    exact h
  cases a with
  | literal content =>
      cases b with
      | literal content' => exact congrArg literal (literalText_injective hbody)
      | _ => exact absurd hword (by simp [word])
  | factory name =>
      cases b with
      | factory name' => exact congrArg factory hbody
      | _ => exact absurd hword (by simp [word])
  | element name =>
      cases b with
      | element name' => exact congrArg element hbody
      | _ => exact absurd hword (by simp [word])
  | property name =>
      cases b with
      | property name' => exact congrArg property hbody
      | _ => exact absurd hword (by simp [word])
  | error message =>
      cases b with
      | error message' =>
          have hquoted : literalText (.string message) = literalText (.string message') := hbody
          exact congrArg error (Literal.string.inj (literalText_injective hquoted))
      | _ => exact absurd hword (by simp [word])

theorem exists_text_cons (caption : Caption) : ∃ c r, caption.text.toList = c :: r ∧ c ≠ ' ' := by
  have hword : ∃ c r, caption.word.toList = c :: r ∧ c ≠ ' ' := by
    cases caption <;> exact ⟨_, _, String.toList_ofList, by decide⟩
  obtain ⟨c, r, hcons, hc⟩ := hword
  exact ⟨c, r ++ caption.body.toList, by rw [text, String.toList_append, hcons]; rfl, hc⟩

theorem newline_notMem {caption : Caption}
    (h : ∀ name ∈ caption.name?, '\n' ∉ name.toList) : '\n' ∉ caption.text.toList := by
  rw [text, String.toList_append, List.mem_append, not_or]
  constructor
  · cases caption <;> rw [word] <;> decide
  · cases caption with
    | literal content => exact newline_notMem_literalText content
    | factory name => exact h name rfl
    | element name => exact h name rfl
    | property name => exact h name rfl
    | error message => exact newline_notMem_literalText (.string message)

end Caption

/-! ## Lines -/

namespace Heading

/-- What is written on the line of a heading. -/
def written (heading : Heading) : List Char :=
  List.replicate (2 * heading.depth) ' ' ++
    (heading.caption.text.toList ++ ' ' :: '@' :: heading.span.display.toList)

theorem toList_render_line (heading : Heading) :
    (heading.line.render true).toList = heading.written ++ ['\n'] := by
  simp [line, Line.render, Text.blanks, written]

theorem written_injective : Function.Injective written := by
  rintro ⟨depth, caption, span⟩ ⟨depth', caption', span'⟩ h
  obtain ⟨c, r, hcaption, hc⟩ := caption.exists_text_cons
  obtain ⟨c', r', hcaption', hc'⟩ := caption'.exists_text_cons
  simp only [written, hcaption, hcaption', List.cons_append] at h
  obtain ⟨hdepth, hbehind⟩ := Text.eq_of_blanks_append hc hc' h
  obtain rfl : depth = depth' := by omega
  -- neither place has an at sign in it, so these are the last ones
  have hsplit : (caption.text.toList ++ [' ']) ++ '@' :: span.display.toList
      = (caption'.text.toList ++ [' ']) ++ '@' :: span'.display.toList := by
    simpa [hcaption, hcaption'] using hbehind
  have hplace : ∀ place : Span, '@' ∉ place.display.toList :=
    Span.notMem_display (by decide) (by decide)
  obtain ⟨htext, hspan⟩ := Text.cons_append_inj (hplace span) (hplace span') hsplit
  obtain rfl := Caption.text_injective (String.toList_inj.mp (List.append_cancel_right htext))
  obtain rfl := Span.display_injective (String.toList_inj.mp hspan)
  rfl

theorem newline_notMem {heading : Heading}
    (h : ∀ name ∈ heading.caption.name?, '\n' ∉ name.toList) : '\n' ∉ heading.written := by
  have htext := Caption.newline_notMem h
  have hplace := heading.span.notMem_display (c := '\n') (by decide) (by decide)
  simp [written, htext, hplace]

end Heading

theorem toList_print (document : Document) :
    (document.print true).toList = (document.headings.map Heading.written).flatMap (· ++ ['\n']) := by
  rw [print, String.toList_join, Node.linesOfAll_eq, List.map_map, List.flatMap_map, List.flatMap_map]
  exact congrArg (document.headings.flatMap ·) (funext Heading.toList_render_line)

theorem newline_notMem_of_names {document : Document}
    (h : ∀ name ∈ document.names, Token.IsIdentifier name) :
    ∀ line ∈ document.headings.map Heading.written, '\n' ∉ line := by
  intro line hline
  obtain ⟨heading, hheading, rfl⟩ := List.mem_map.mp hline
  refine Heading.newline_notMem fun name hname => ?_
  exact (h name (List.mem_filterMap.mpr ⟨heading, hheading, hname⟩)).newline_notMem

/-- **What is printed determines the document**, but for the source and the numbers of nodes. -/
theorem unnumbered_eq_of_print_eq {a b : Document} (ha : ∀ name ∈ a.names, Token.IsIdentifier name)
    (hb : ∀ name ∈ b.names, Token.IsIdentifier name) (h : a.print true = b.print true) :
    Node.unnumberedAll a.content = Node.unnumberedAll b.content := by
  have hwritten := congrArg String.toList h
  rw [toList_print, toList_print] at hwritten
  have hlines := Text.eq_of_flatMap_lines (newline_notMem_of_names ha) (newline_notMem_of_names hb)
    hwritten
  exact unnumbered_eq_of_headings_eq (Heading.written_injective.list_map hlines)

/-- The message looks like another line, and the literal like a number. -/
theorem unnumbered_eq_of_print_eq_bed :
    let content (first : Nat) : List Node := [
      .element "bed" [.literal (.string "3") ⟨⟨first⟩, ⟨4, 7⟩⟩]
        [.error "a\n  error \"b\" @9..9" ⟨⟨first + 1⟩, ⟨9, 10⟩⟩] ⟨⟨first + 2⟩, ⟨0, 12⟩⟩]
    let a : Document := ⟨"garden", content 0⟩
    let b : Document := ⟨"orchard", content 7⟩
    (∀ name ∈ a.names, Token.IsIdentifier name) ∧ (∀ name ∈ b.names, Token.IsIdentifier name)
      ∧ a.print true = b.print true ∧ a ≠ b
      ∧ Node.unnumberedAll a.content = Node.unnumberedAll b.content := by
  intro content a b
  have ha : ∀ name ∈ a.names, Token.IsIdentifier name := by decide +kernel
  have hb : ∀ name ∈ b.names, Token.IsIdentifier name := by decide +kernel
  have hprint : a.print true = b.print true := by decide +kernel
  exact ⟨ha, hb, hprint, by decide, unnumbered_eq_of_print_eq ha hb hprint⟩

end Document

end Declarative
