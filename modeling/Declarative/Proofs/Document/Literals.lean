import Mathlib.Data.String.Defs
import Declarative.Proofs.Document.ReadBack
import Declarative.Proofs.Nesting

/-!
# Literals in printed documents

The lines of a value or node hold those of all that stands in it, each level one deeper
(`Document.Piece.lines_isInfix`). So a literal of a document is printed on a row of its own, as deep as the
path that leads to it is long, and what is written there behind its word is read back as the literal
(`Document.printed_literal`).
-/

namespace Declarative

namespace Document

/-! ## The lines of what stands in a document -/

theorem Value.linesOfAll_eq_flatMap (depth : Nat) (values : List Value) :
    Value.linesOfAll depth values = values.flatMap (Value.lines depth) := by
  induction values with
  | nil => rfl
  | cons value values ih => rw [linesOfAll, ih, List.flatMap_cons]

theorem Node.linesOfAll_eq_flatMap (depth : Nat) (nodes : List Node) :
    Node.linesOfAll depth nodes = nodes.flatMap (Node.lines depth) := by
  induction nodes with
  | nil => rfl
  | cons node nodes ih => rw [linesOfAll, ih, List.flatMap_cons]

theorem Value.lines_isInfix_of_mem {value : Value} {values : List Value} (h : value ∈ values)
    (depth : Nat) : value.lines depth <:+: Value.linesOfAll depth values := by
  rw [linesOfAll_eq_flatMap, List.flatMap_def]
  exact List.infix_of_mem_flatten (List.mem_map_of_mem h)

theorem Node.lines_isInfix_of_mem {node : Node} {nodes : List Node} (h : node ∈ nodes) (depth : Nat) :
    node.lines depth <:+: Node.linesOfAll depth nodes := by
  rw [linesOfAll_eq_flatMap, List.flatMap_def]
  exact List.infix_of_mem_flatten (List.mem_map_of_mem h)

namespace Piece

def lines (depth : Nat) : Piece → List Line
  | node n => n.lines depth
  | value v => v.lines depth

/-- What stands in a piece is printed one level deeper among its lines. -/
theorem Holds.lines_isInfix {outer inner : Piece} (h : outer.Holds inner) (depth : Nat) :
    inner.lines (depth + 1) <:+: outer.lines depth := by
  cases h with
  | argument hvalue =>
      exact (Value.lines_isInfix_of_mem hvalue _).trans
        ((List.prefix_append ..).isInfix.trans (List.suffix_cons ..).isInfix)
  | content hnode =>
      exact (Node.lines_isInfix_of_mem hnode _).trans
        ((List.suffix_append ..).isInfix.trans (List.suffix_cons ..).isInfix)
  | assigned => exact (List.suffix_cons ..).isInfix
  | nested hvalue =>
      exact (Value.lines_isInfix_of_mem hvalue _).trans (List.suffix_cons ..).isInfix

/-- At the end of a path a piece is printed as many levels deeper as there are steps. -/
theorem lines_isInfix_of_isChain {last : Piece} : ∀ {path : List Piece} {first : Piece},
    (first :: (path ++ [last])).IsChain Holds → ∀ depth,
      last.lines (depth + (path.length + 1)) <:+: first.lines depth
  | [], _, h, depth => (List.isChain_cons_cons.mp h).1.lines_isInfix depth
  | next :: path, _, h, depth => by
      obtain ⟨hnext, hpath⟩ := List.isChain_cons_cons.mp h
      have hlast := lines_isInfix_of_isChain hpath (depth + 1)
      rw [Nat.add_right_comm, Nat.add_assoc, Nat.add_assoc] at hlast
      exact hlast.trans (hnext.lines_isInfix depth)

end Piece

theorem IsPath.lines_isInfix {document : Document} {path : List Piece} {last : Piece}
    (h : document.IsPath (path ++ [last])) :
    last.lines path.length <:+: Node.linesOfAll 0 document.content := by
  match path, h with
  | [], h =>
      obtain ⟨node, hnode, rfl⟩ := h.starts last rfl
      exact Node.lines_isInfix_of_mem hnode 0
  | first :: path, h =>
      obtain ⟨node, hnode, rfl⟩ := h.starts first rfl
      have hlast := Piece.lines_isInfix_of_isChain h.goesInwards 0
      rw [Nat.zero_add] at hlast
      exact hlast.trans (Node.lines_isInfix_of_mem hnode 0)

/-! ## Rows of their own -/

/-- Printed lines end with a line feed. -/
theorem join_render_ends (withSpans : Bool) (lines : List Line) :
    let rows := String.join (lines.map (Line.render withSpans))
    rows = "" ∨ ∃ front, rows = front ++ "\n" := by
  rcases List.eq_nil_or_concat lines with rfl | ⟨lines, line, rfl⟩
  · exact Or.inl rfl
  · refine Or.inr ⟨String.join (lines.map (Line.render withSpans)) ++ (Text.blanks (2 * line.depth)
      ++ line.text ++ (if withSpans then " @" ++ line.span.display else "")), ?_⟩
    simp [Line.render, String.append_assoc]

/-- **Printed literals are read back.** Wherever a literal stands in a document, it is printed on a row
of its own. What stands there behind its word is the spelling of one token, which has its value. -/
theorem printed_literal (depth : Nat) (content : Literal) (origin : Origin) :
    ∃ text, Value.lines depth (.literal content origin) = [⟨depth, "literal " ++ text, origin.span⟩]
      ∧ tokenize text = ⟨[⟨content.kind, ⟨0, Text.width text.toList⟩⟩,
          ⟨.eof, .point (Text.width text.toList)⟩], []⟩
      ∧ ∀ withSpans,
        let row := String.replicate (2 * depth) ' ' ++ "literal " ++ text
          ++ (if withSpans then " @" ++ origin.span.display else "") ++ "\n"
        Line.render withSpans ⟨depth, "literal " ++ text, origin.span⟩ = row
          ∧ ∀ (document : Document) (path : List Piece), path.length = depth →
            document.IsPath (path ++ [.value (.literal content origin)]) →
              ∃ above below, document.print withSpans = above ++ row ++ below
                ∧ (above = "" ∨ ∃ front, above = front ++ "\n") := by
  have hread := (Token.spells_literalText content).tokenize_eq
  rw [String.ofList_toList] at hread
  refine ⟨literalText content, rfl, hread, fun withSpans => ?_⟩
  intro row
  have hrow : Line.render withSpans ⟨depth, "literal " ++ literalText content, origin.span⟩ = row := by
    rw [Line.render, ← String.append_assoc]
    rfl
  refine ⟨hrow, fun document path hdepth hpath => ?_⟩
  obtain ⟨front, back, hlines⟩ := hpath.lines_isInfix
  rw [hdepth] at hlines
  refine ⟨_, String.join (back.map (Line.render withSpans)), ?_, join_render_ends withSpans front⟩
  rw [print, ← hlines, ← hrow]
  simp only [List.map_append, String.join_append]
  rfl

/-- A text with a quote in it, as the name of a bed. -/
theorem printed_literal_quote :
    let name : Value := .literal (.string "a\"b") ⟨⟨2⟩, ⟨12, 18⟩⟩
    let property : Node := .property "name" name ⟨⟨1⟩, ⟨5, 18⟩⟩
    let bed : Node := .element "bed" [] [property] ⟨⟨0⟩, ⟨0, 20⟩⟩
    let document : Document := ⟨"garden", [bed]⟩
    document.IsPath ([.node bed, .node property] ++ [.value name])
      ∧ ∃ text, tokenize text = ⟨[⟨.string "a\"b", ⟨0, Text.width text.toList⟩⟩,
          ⟨.eof, .point (Text.width text.toList)⟩], []⟩
        ∧ ∃ above below, document.print false = above ++ ("    literal " ++ text ++ "\n") ++ below := by
  intro name property bed document
  have hpath : document.IsPath ([.node bed, .node property] ++ [.value name]) := by
    refine ⟨?_, ?_⟩
    · rintro _ ⟨⟩
      exact ⟨bed, List.mem_singleton_self _, rfl⟩
    · exact .cons_cons (.content (List.mem_singleton_self _)) (.cons_cons .assigned (.singleton _))
  obtain ⟨text, -, hread, hprinted⟩ := printed_literal 2 (.string "a\"b") ⟨⟨2⟩, ⟨12, 18⟩⟩
  obtain ⟨above, below, hprint, -⟩ := (hprinted false).2 document [.node bed, .node property] rfl hpath
  refine ⟨hpath, text, hread, above, below, hprint.trans ?_⟩
  rw [if_neg Bool.false_ne_true, String.append_empty]
  rfl

end Document

end Declarative
