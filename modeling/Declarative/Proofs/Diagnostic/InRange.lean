import Declarative.Diagnostic.Fault
import Declarative.Diagnostic.Terminal
import Declarative.Proofs.Diagnostic.Walk
import Declarative.Proofs.FaultPlaces
import Declarative.Proofs.Parser.Runs
import Declarative.Proofs.Places

/-!
# Diagnostics point into their text

Everything that a diagnostic points to is a piece of the text it is about: a fault stands at
characters or tokens of it, and what did not resolve is made of tokens, the first of which is its
name. So wherever diagnostics are shown (`Diagnostic.InRange`), each place is on a line that is
there, underlines do not leave their row, and no line is cut inside of a character.
-/

namespace Declarative

namespace Diagnostic

/-- The places that the diagnostic speaks about: those of its labels, and what is to be replaced. -/
def spans (d : Diagnostic) : List Span :=
  d.labels.map (·.span) ++ d.replacement?.toList.map (·.span)

/-- Showing the diagnostic of a source reaches nowhere that is not there. -/
structure InRange (source : String) (d : Diagnostic) : Prop where
  fits : ∀ span ∈ d.spans, span.Fits source.toList
  /-- Each end of a place is found on a line, so that the start of the line can be taken from the
  offset and one from the column. -/
  found : ∀ span ∈ d.spans, ∀ offset ∈ [span.start, span.stop],
    ∃ front back, (LineMap.ofSource source).Finds offset front back
  /-- An underline goes at most one column past the end of its line, behind which a place can be. -/
  underlined : ∀ hasColor file,
    ∀ line ∈ (Terminal.mk hasColor file (.ofSource source)).annotatedLines d, ∀ a ∈ line.annotations,
      1 ≤ a.start ∧ a.start < a.stop ∧ a.stop ≤ Text.width line.text.toList + 2
  /-- The line with a replacement is cut where the replacement starts and where it stops; the
  terminal and the report cut it at the same bytes, since the column is one of the line. -/
  replaced : ∀ r, d.replacement? = some r →
    let place := (LineMap.ofSource source).locate r.span.start
    ∃ line, (LineMap.ofSource source).text? place.line = some (String.ofList line)
      ∧ place.preceding ≤ Text.width line
      ∧ Text.Sliced line place.preceding ∧ Text.Sliced line (place.preceding + r.span.length)

/-! ## What is shown of places in a text -/

variable {source : String}

theorem exists_finds_of_fits {span : Span} (h : span.Fits source.toList) :
    ∀ offset ∈ [span.start, span.stop],
      ∃ front back, (LineMap.ofSource source).Finds offset front back := by
  obtain ⟨start, piece, stop, htext, hstart, hpiece⟩ := h.exists_append
  have hstop : Text.width (start ++ piece) = span.stop := by
    have hle := h.1
    rw [Text.width_append, hstart, hpiece, Span.length]
    omega
  intro offset hoffset
  rcases List.mem_pair.mp hoffset with rfl | rfl
  · obtain ⟨-, front, -, hfinds⟩ := LineMap.exists_finds htext
    exact ⟨_, _, hstart ▸ hfinds⟩
  · rw [← List.append_assoc] at htext
    obtain ⟨-, front, -, hfinds⟩ := LineMap.exists_finds htext
    exact ⟨_, _, hstop ▸ hfinds⟩

/-- A label is underlined from its column on up to its end or to the end of the line. -/
theorem annotation_bounds {t : Terminal} {label : Label} {front back front' back' : List Char}
    (hstart : t.lines.Finds label.span.start front back)
    (hstop : t.lines.Finds label.span.stop front' back') :
    let (number, a) := t.annotation label
    1 ≤ a.start ∧ a.start < a.stop ∧ a.stop ≤ Text.width (t.lineText number).toList + 2 := by
  have hline : t.lineText (t.lines.locate label.span.start).line = String.ofList (front ++ back) := by
    rw [Terminal.lineText, hstart.line, Option.getD_some]
  simp only [Terminal.annotation, hline, String.toList_ofList, hstart.preceding]
  refine ⟨Nat.le_add_left .., by omega, ?_⟩
  rw [Text.width_append]
  split
  · rename_i hsame
    have hlines : front' ++ back' = front ++ back := by
      have hfound := hstop.line
      rw [hsame, hstart.line] at hfound
      exact (String.ofList_injective (Option.some.inj hfound)).symm
    have hwidth := congrArg Text.width hlines
    rw [Text.width_append, Text.width_append] at hwidth
    rw [hstop.column]
    omega
  · omega

/-- A diagnostic whose places are pieces of the source can be shown. -/
theorem inRange_of_fits {d : Diagnostic} (h : ∀ span ∈ d.spans, span.Fits source.toList) :
    d.InRange source := by
  have hlabel : ∀ label ∈ d.labels, label.span.Fits source.toList := fun label hmem =>
    h _ (List.mem_append_left _ (List.mem_map_of_mem hmem))
  refine ⟨h, fun span hspan => exists_finds_of_fits (h span hspan), ?_, ?_⟩
  · intro hasColor file line hline a ha
    obtain ⟨number, -, rfl⟩ := List.mem_map.mp hline
    obtain ⟨⟨_, _⟩, hplaced, rfl⟩ := List.mem_map.mp ha
    obtain ⟨hmem, hnumber⟩ := List.mem_filter.mp hplaced
    obtain ⟨label, hlabels, hlaid⟩ := List.mem_map.mp hmem
    obtain rfl := beq_iff_eq.mp hnumber
    have hfinds := exists_finds_of_fits (hlabel label hlabels)
    obtain ⟨_, _, hstart⟩ := hfinds label.span.start (List.mem_cons_self ..)
    obtain ⟨_, _, hstop⟩ := hfinds label.span.stop (by simp)
    have hbounds := annotation_bounds (t := ⟨hasColor, file, .ofSource source⟩) hstart hstop
    rw [hlaid] at hbounds
    exact hbounds
  · intro r hr place
    have hmem : r.span ∈ d.spans := by simp [spans, hr]
    obtain ⟨front, back, hfinds, hfront, hback⟩ := LineMap.sliced_of_fits (h _ hmem)
    have hpreceding : place.preceding = Text.width front := hfinds.preceding
    rw [← hpreceding] at hfront hback
    refine ⟨_, hfinds.line, ?_, hfront, hback⟩
    simp [hpreceding]

theorem spans_ofFault (code message : String) (span : Span) (label : String)
    (hint : Option String) : (ofFault code message span label hint).spans = [span] := by
  cases hint <;> rfl

end Diagnostic

namespace Script

/-! ## What did not resolve -/

variable {text : List Char} {tokens : List Token}

theorem Node.MadeOf.fits {node : Node} (h : node.MadeOf tokens) (horder : Token.InOrder tokens)
    (htokens : ∀ t ∈ tokens, t.span.Fits text) : node.span.Fits text := by
  obtain ⟨before, run, after, rfl, hreaches, -⟩ := h
  have hrun : Token.InOrder run := horder.of_append.2.1.of_append.1
  have hmem : ∀ t ∈ run, t.span.Fits text := fun t ht =>
    htokens t (List.mem_append_right _ (List.mem_append_left _ ht))
  have hlt := hreaches.start_lt_stop hrun
  obtain ⟨first, rest, hfirst, hstart⟩ := hreaches.exists_first
  obtain ⟨init, last, hlast, hstop⟩ := hreaches.exists_last
  obtain ⟨-, -, hcut, -⟩ := hmem first (hfirst ▸ List.mem_cons_self ..)
  obtain ⟨-, hle, -, hcut'⟩ := hmem last (hlast ▸ List.mem_append_right _ (List.mem_singleton_self _))
  rw [Span.Fits, hstart, hstop]
  exact ⟨by omega, hle, hcut, hcut'⟩

/-- A name is as wide as its token, and the part that it starts is at least as wide. -/
theorem Node.MadeOf.nameSpan_eq {node : Node} (h : node.MadeOf tokens)
    (horder : Token.InOrder tokens) (hoccurs : ∀ t ∈ tokens, Token.Occurs 0 text t) {name : Name}
    (hname : node.written? = some name) :
    Resolved.nameSpan node.span name.text = name.span
      ∧ (⟨.ident name.text, name.span⟩ : Token) ∈ tokens := by
  obtain ⟨before, run, after, rfl, hreaches, hwritten⟩ := h
  obtain ⟨hhead, -⟩ := hwritten name hname
  obtain ⟨rest, rfl⟩ := List.head?_eq_some_iff.mp hhead
  let t : Token := ⟨.ident name.text, name.span⟩
  have hmem : t ∈ before ++ (t :: rest ++ after) := by simp
  obtain ⟨lexeme, -, hstop, hspells⟩ := (hoccurs t hmem).slice?_eq
  obtain rfl := hspells.eq_of_ident rfl
  have hcovers := hreaches.covers horder.of_append.2.1.of_append.1 t (List.mem_cons_self ..)
  have hstart : node.span.start = name.span.start := by simpa using hreaches.start.symm
  refine ⟨?_, hmem⟩
  have hwidth : name.span.stop = node.span.start + Text.width name.text.toList := by
    rw [hstart]
    exact hstop
  have hle : name.span.stop ≤ max node.span.stop node.span.start :=
    hcovers.2.trans (Nat.le_max_left ..)
  rw [Resolved.nameSpan, ← hwidth, if_pos hle, hstart]

theorem Node.written?_of_name? {node : Node} {name : String} (h : node.name? = some name) :
    ∃ written, node.written? = some written ∧ written.text = name := by
  unfold name? at h
  split at h <;> cases h <;> exact ⟨_, rfl, rfl⟩

/-- What is assigned is a value of the script. -/
theorem value_mem_preorder {script : Script} {id : NodeId} {span : Span} {target : Name}
    {assigned : Value} (h : .statement (.assign id span target assigned) ∈ script.preorder) :
    .value assigned ∈ script.preorder := by
  obtain ⟨calls, hlies⟩ := mem_preorder_iff.mp h
  cases hlies with
  | statement hs => exact (Lies.value hs (.direct (List.mem_singleton_self _))).mem_preorder

/-- The labels of a node of a text are at pieces of it. -/
theorem fits_of_mem_shown {source text : String} {node : Node}
    (hnode : node ∈ (ofText source text).script.preorder) :
    ∀ span ∈ node.shown, span.Fits text.toList := by
  have hscans := Token.scans_scan Token.maxFaults 0 text.toList
  have hoccurs := hscans.occurs
  have hmade := madeOf_ofText source text
  have hname : ∀ name, node.written? = some name →
      (Resolved.nameSpan node.span name.text).Fits text.toList := by
    intro name hwritten
    obtain ⟨heq, hmem⟩ := (hmade node hnode).nameSpan_eq hscans.inOrder hoccurs hwritten
    rw [heq]
    exact (hoccurs _ hmem).fits
  have hvalue : ∀ v : Value, .value v ∈ (ofText source text).script.preorder →
      v.span.Fits text.toList := by
    intro v hv
    exact (hmade _ hv).fits hscans.inOrder fun t ht => (hoccurs t ht).fits
  intro span hspan
  unfold Node.shown at hspan
  split at hspan
  · rw [List.mem_singleton.mp hspan]
    exact hname _ rfl
  · rcases List.mem_pair.mp hspan with rfl | rfl
    · exact hname _ rfl
    · exact hvalue _ (value_mem_preorder hnode)
  · cases hspan
  · cases hspan
  · rw [List.mem_singleton.mp hspan]
    exact hname _ rfl

theorem Node.Describes.spans_subset {node : Node} {reasons : ReasonSet} {d : Diagnostic}
    (h : node.Describes reasons d) : d.spans ⊆ node.shown := by
  intro span hspan
  rcases List.mem_append.mp hspan with hlabel | hreplacement
  · obtain ⟨label, hmem, rfl⟩ := List.mem_map.mp hlabel
    exact h.shown label hmem
  · obtain ⟨r, hr, rfl⟩ := List.mem_map.mp hreplacement
    obtain ⟨name, hname, hreplaced⟩ := h.replaced
    rw [hreplaced r (Option.mem_toList.mp hr)]
    exact Node.nameSpan_mem_shown hname

/-- **Diagnostics are in range**, whatever the text, the schema and the settings are. -/
theorem inRange_ofText (name source : String) (schema : Schema) (settings : Settings) :
    let reading := ofText name source
    ∀ d ∈ reading.diagnostics ++ (reading.script.resolvedDocument schema settings).diagnostics schema,
      d.InRange source := by
  intro reading d hd
  refine Diagnostic.inRange_of_fits ?_
  obtain ⟨hlexical, hstructural⟩ := fits_faults_ofText name source
  rcases List.mem_append.mp hd with hfault | hfailure
  · rcases List.mem_append.mp hfault with hfault | hfault
    · obtain ⟨fault, hmem, rfl⟩ := List.mem_map.mp hfault
      rw [Token.Fault.diagnostic, Diagnostic.spans_ofFault, List.forall_mem_singleton]
      exact hlexical fault hmem
    · obtain ⟨fault, hmem, rfl⟩ := List.mem_map.mp hfault
      rw [Script.Fault.diagnostic, Diagnostic.spans_ofFault, List.forall_mem_singleton]
      exact hstructural fault hmem
  · have hreports := reports_valuesFirst schema settings reading.script
    obtain ⟨node, hnode, reasons, -, hdescribes⟩ := hreports.exists_tells hfailure
    have hmem := reading.script.valuesFirst_perm.subset hnode
    exact fun span hspan => fits_of_mem_shown hmem span (hdescribes.spans_subset hspan)

/-- The name that is to be replaced stands behind a character of two bytes. -/
theorem inRange_ofText_bede :
    let schema := Schema.ofClasses "Garden"
      [.ofMembers "Garden" [.adding "bed" [] "Bed" .allowed], .ofMembers "Bed" []]
      [("Garden", []), ("Bed", [])]
    let source := "/* ä */ bede()"
    let reading := ofText "garden" source
    ∃ d ∈ (reading.script.resolvedDocument schema ⟨true⟩).diagnostics schema,
      d.replacement? = some ⟨⟨9, 13⟩, "bed"⟩ ∧ d.InRange source := by
  intro schema source reading
  have hfound : ∃ d ∈ (reading.script.resolvedDocument schema ⟨true⟩).diagnostics schema,
      d.replacement? = some ⟨⟨9, 13⟩, "bed"⟩ := by decide +kernel +revert
  obtain ⟨d, hd, hreplacement⟩ := hfound
  exact ⟨d, hd, hreplacement,
    inRange_ofText "garden" source schema ⟨true⟩ d (List.mem_append_right _ hd)⟩

end Script

end Declarative
