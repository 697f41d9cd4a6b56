import Declarative.Proofs.Diagnostic.Snippet
import Declarative.Proofs.Diagnostic.Suggestions
import Declarative.Proofs.Source.Position

/-!
# The line that a replacement makes

The terminal and the report show what comes of a replacement as the line that it would make. Each cuts
the line for itself, at the column that the line map finds for the start of the span. Where the span is
a piece of one line, both put the replacement between the part of the line in front of the piece and the
part behind it (`Diagnostic.Report.resultLine_eq`, `Diagnostic.Terminal.replacementRows_eq`). That line
in place of the old one makes the text that the replacement makes of the whole
(`LineMap.exists_withLine`).
-/

namespace Declarative

theorem Text.exists_append_of_slice? {cs piece : List Char} {start stop : Nat}
    (h : slice? cs start stop = some piece) :
    ∃ front back, cs = front ++ (piece ++ back) ∧ width front = start
      ∧ stop = start + width piece := by
  rw [slice?] at h
  split at h
  · rename_i hle
    obtain ⟨⟨front, rest⟩, hfront, hpiece⟩ := Option.bind_eq_some_iff.mp h
    obtain ⟨⟨piece', back⟩, hback, rfl⟩ := Option.map_eq_some_iff.mp hpiece
    obtain ⟨rfl, rfl⟩ := splitAt?_eq_some hfront
    obtain ⟨rfl, hwidth⟩ := splitAt?_eq_some hback
    exact ⟨front, back, rfl, rfl, by dsimp only; omega⟩
  · cases h

theorem Text.dropBytes_width (front back : List Char) :
    dropBytes (width front) (front ++ back) = back := by
  rw [dropBytes, takeBytes_width, List.drop_left]

/-! ## One line of a text -/

namespace LineMap

/-- The text with another line in place of the one with the number. -/
def withLine (m : LineMap) (number : Nat) (line : String) : String :=
  String.ofList (join (m.lines.set (number - 1) line.toList))

theorem join_cons (line : List Char) (back : List (List Char)) :
    join (line :: back) = line ++ back.flatMap ('\n' :: ·) := by
  induction back generalizing line with
  | nil => simp [join]
  | cons next back ih => rw [join, ih, List.flatMap_cons, List.cons_append]

theorem join_append_cons (front : List (List Char)) (line : List Char) (back : List (List Char)) :
    join (front ++ line :: back)
      = front.flatMap (· ++ ['\n']) ++ (line ++ back.flatMap ('\n' :: ·)) := by
  induction front with
  | nil => exact join_cons line back
  | cons first front ih =>
      obtain ⟨next, others, hrest⟩ := List.exists_cons_of_ne_nil
        (List.append_ne_nil_of_right_ne_nil front (List.cons_ne_nil line back))
      rw [List.cons_append, hrest, join, ← hrest, ih, List.flatMap_cons]
      simp

theorem join_set {lines : List (List Char)} {n : Nat} (hn : n < lines.length) (line : List Char) :
    join (lines.set n line)
      = (lines.take n).flatMap (· ++ ['\n']) ++ (line ++ (lines.drop (n + 1)).flatMap ('\n' :: ·)) := by
  rw [List.set_eq_take_append_cons_drop, if_pos hn, join_append_cons]

/-- What stands around a line stays where the line is replaced. -/
theorem Finds.exists_around {source : String} {offset : Nat} {front back : List Char}
    (h : (ofSource source).Finds offset front back) :
    ∃ before behind, source.toList = (before ++ front) ++ (back ++ behind)
      ∧ Text.width (before ++ front) = offset
      ∧ ∀ line : String, (ofSource source).withLine ((ofSource source).locate offset).line line
          = String.ofList (before ++ (line.toList ++ behind)) := by
  obtain ⟨hline, hstart, -⟩ := h
  generalize ((ofSource source).locate offset).line = number at hline hstart ⊢
  obtain _ | n := number
  · cases hline
  obtain ⟨line, hfound, htext⟩ := Option.map_eq_some_iff.mp hline
  obtain rfl : line = front ++ back := by simpa using congrArg String.toList htext
  obtain ⟨hn, hget⟩ := List.getElem?_eq_some_iff.mp hfound
  have hset := join_set hn
  have hwhole := hset (front ++ back)
  rw [← hget, List.set_getElem_self, hget, ofSource, join_split] at hwhole
  refine ⟨_, _, ?_, ?_, fun line => congrArg String.ofList (hset line.toList)⟩
  · rw [hwhole]
    simp only [List.append_assoc]
    rfl
  · rw [Text.width_append]
    exact hstart

/-- A piece of one line is replaced in the text by replacing it in the line. -/
theorem exists_withLine {source : String} {front piece back : List Char}
    (h : source.toList = front ++ (piece ++ back)) (hline : '\n' ∉ piece) :
    ∃ rest tail, (ofSource source).Finds (Text.width front) rest (piece ++ tail)
      ∧ ∀ text : String, (ofSource source).withLine ((ofSource source).locate (Text.width front)).line
          (String.ofList (rest ++ (text.toList ++ tail)))
        = String.ofList (front ++ (text.toList ++ back)) := by
  obtain ⟨-, rest, -, hfinds⟩ := exists_finds h
  rw [takeWhile_append hline] at hfinds
  generalize back.takeWhile (· != '\n') = tail at hfinds
  refine ⟨rest, tail, hfinds, fun text => ?_⟩
  obtain ⟨before, behind, htext, hwidth, hwith⟩ := hfinds.exists_around
  -- the text is cut at one offset, whether it is seen as lines or not
  have hcut := Text.splitAt?_width (before ++ rest) (piece ++ tail ++ behind)
  rw [hwidth, ← htext, h, Text.splitAt?_width] at hcut
  obtain ⟨rfl, hbehind⟩ := Prod.mk.inj (Option.some.inj hcut)
  rw [List.append_assoc, List.append_cancel_left_eq] at hbehind
  rw [hwith, hbehind]
  simp

end LineMap

/-! ## The line in the outputs -/

namespace Diagnostic

section

variable {m : LineMap} {r : Replacement} {rest piece tail : List Char}
  (hfinds : m.Finds r.span.start rest (piece ++ tail)) (hlength : r.span.length = Text.width piece)

include hfinds hlength

theorem Report.resultLine_eq :
    Report.resultLine m r = String.ofList (rest ++ (r.text.toList ++ tail)) := by
  have htail := Text.dropBytes_width (rest ++ piece) tail
  rw [Text.width_append, List.append_assoc] at htail
  have hfront : min (Text.width rest) (Text.width (rest ++ (piece ++ tail))) = Text.width rest :=
    Nat.min_eq_left (by simp)
  rw [resultLine, hfinds.line, hfinds.preceding, hlength, Option.getD_some, String.toList_ofList,
    hfront, htail, Text.takeBytes_width, List.append_assoc]

/-- Without colours the rows are an empty one, the line behind its number and the marks below the
replacement. -/
theorem Terminal.replacementRows_eq {t : Terminal} (hplain : t.hasColor = false) (hlines : t.lines = m) :
    t.replacementRows r = ["    |\n",
      String.leftpad 3 ' ' (toString (m.locate r.span.start).line) ++ " | "
        ++ String.ofList (rest ++ (r.text.toList ++ tail)) ++ "\n",
      "    | " ++ String.replicate ((m.locate r.span.start).column - 1) ' '
        ++ String.replicate (Text.width r.text.toList) '~' ++ "\n"] := by
  have htail := Text.dropBytes_width (rest ++ piece) tail
  rw [Text.width_append, List.append_assoc] at htail
  rw [replacementRows, hlines, hfinds.line, hfinds.preceding, hlength]
  dsimp only
  rw [String.toList_ofList, htail, Text.takeBytes_width, hfinds.column, sourceRow_of_plain hplain,
    row_of_plain hplain, bar, paint_of_plain hplain, paint_of_plain hplain, paint_of_plain hplain]
  simp only [String.append_assoc, String.ofList_append, String.ofList_toList]
  rfl

end

/-- The diagnostic with the same help, but without a replacement. -/
def withoutReplacement (d : Diagnostic) : Diagnostic :=
  { d with help := d.help.map fun help => { help with replacement := none } }

theorem Terminal.format_of_replacement? (t : Terminal) {d : Diagnostic} {r : Replacement}
    (h : d.replacement? = some r) :
    t.format d = t.format d.withoutReplacement ++ String.join (t.replacementRows r) := by
  obtain ⟨help, hhelp, hr⟩ := Option.bind_eq_some_iff.mp h
  have hfooter : t.footer d = t.footer d.withoutReplacement ++ t.replacementRows r := by
    simp [footer, withoutReplacement, hhelp, hr]
  rw [format, hfooter, ← List.append_assoc, ← List.cons_append, String.join_append]
  rfl

/-- **A replacement within one line is shown as it comes out.** Both outputs show one and the same line,
and with it in place of the line on which the span starts the text is the one that the replacement
makes. The terminal shows it behind its number, between an empty row and the marks below the replacement,
below all the rest. -/
theorem line_of_replacement (file : Option String) (source : String) (r : Replacement)
    {piece : List Char}
    (hpiece : Text.slice? source.toList r.span.start r.span.stop = some piece)
    (hline : '\n' ∉ piece) :
    let t : Terminal := ⟨false, file, .ofSource source⟩
    let place := t.lines.locate r.span.start
    ∃ shown, (t.lines.text? place.line).isSome
      ∧ r.applied? source = some (t.lines.withLine place.line shown)
      ∧ ∀ d : Diagnostic, d.replacement? = some r →
        (∃ suggestion, (Report.diagnostic t.lines d).member? "suggestion" = some suggestion
          ∧ suggestion.member? "result_line" = some (.string shown))
        ∧ t.format d = t.format d.withoutReplacement
          ++ ("    |\n"
            ++ (String.leftpad 3 ' ' (toString place.line) ++ " | " ++ shown ++ "\n")
            ++ ("    | " ++ String.replicate (place.column - 1) ' '
              ++ String.replicate (Text.width r.text.toList) '~' ++ "\n")) := by
  intro t place
  obtain ⟨front, back, htext, hstart, hstop⟩ := Text.exists_append_of_slice? hpiece
  have hspan : r.span = ⟨Text.width front, Text.width front + Text.width piece⟩ :=
    (Span.mk.injEq ..).mpr ⟨hstart.symm, by rw [hstop, hstart]⟩
  obtain ⟨rest, tail, hfinds, hwith⟩ := LineMap.exists_withLine htext hline
  rw [hstart] at hfinds hwith
  have hlength : r.span.length = Text.width piece := by
    rw [hspan, Span.length, Nat.add_sub_cancel_left]
  refine ⟨String.ofList (rest ++ (r.text.toList ++ tail)), ?_, ?_, fun d hd => ⟨?_, ?_⟩⟩
  · rw [hfinds.line]
    rfl
  · rw [hwith, Replacement.applied?_eq htext hspan]
  · refine ⟨_, by rw [Report.member?_suggestion, ← replacement?, hd, Option.map_some], ?_⟩
    rw [← Report.resultLine_eq hfinds hlength]
    rfl
  · have hrows := Terminal.replacementRows_eq hfinds hlength (t := t) rfl rfl
    rw [Terminal.format_of_replacement? t hd, hrows]
    simp only [String.join_cons, String.join_nil, String.append_empty, String.append_assoc]
    rfl

theorem line_of_replacement_second :
    let t : Terminal := ⟨false, none, .ofSource "a = 1\nservce(\"ä\")"⟩
    let d := ((new .error "no such name").withHelp "did you mean this?").withReplacement ⟨6, 12⟩
      "service"
    Text.slice? "a = 1\nservce(\"ä\")".toList 6 12 = some "servce".toList
      ∧ '\n' ∉ "servce".toList
      ∧ ∃ shown, (Replacement.mk ⟨6, 12⟩ "service").applied? "a = 1\nservce(\"ä\")"
          = some (t.lines.withLine 2 shown)
        ∧ (∃ suggestion, (Report.diagnostic t.lines d).member? "suggestion" = some suggestion
          ∧ suggestion.member? "result_line" = some (.string shown))
        ∧ t.format d = t.format d.withoutReplacement
          ++ ("    |\n" ++ ("  2 | " ++ shown ++ "\n") ++ "    | ~~~~~~~\n") := by
  intro t d
  have hpiece : Text.slice? "a = 1\nservce(\"ä\")".toList 6 12 = some "servce".toList := by
    decide +kernel
  have hline : '\n' ∉ "servce".toList := by decide +kernel
  have hnumber : (t.lines.locate 6).line = 2 := by decide +kernel
  obtain ⟨shown, -, happlied, houtputs⟩ :=
    line_of_replacement none "a = 1\nservce(\"ä\")" ⟨⟨6, 12⟩, "service"⟩ hpiece hline
  obtain ⟨hreport, hterminal⟩ := houtputs d rfl
  have hcolumn : (t.lines.locate 6).column = 1 := by decide +kernel
  rw [hnumber] at happlied
  rw [hnumber, hcolumn] at hterminal
  exact ⟨hpiece, hline, shown, happlied, hreport, hterminal⟩

end Diagnostic

end Declarative
