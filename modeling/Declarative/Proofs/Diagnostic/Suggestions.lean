import Declarative.Proofs.Diagnostic.InRange
import Declarative.Proofs.Diagnostic.Reports
import Declarative.Proofs.Parser.Numbers
import Declarative.Proofs.Token.Renaming

/-!
# Suggestions change one name

The replacement that a diagnostic suggests stands in the place of a name, and that name is the first
token of the node that failed. Where it is an identifier, putting it into the text changes this one
token (`Token.tokenize_renamed`), since a name never stands directly behind a number; and a script that
is read with another name in one token has another name for one node (`Script.ofTokens_named`). So
what comes out is the same script, in which the failed node has the name suggested
(`Script.applied_ofText`).
-/

namespace Declarative

/-- The text with the replacement in place of what stands at its span; there is none if the span is no
piece of the text. -/
def Diagnostic.Replacement.applied? (r : Replacement) (text : String) : Option String := do
  let (front, rest) ← Text.splitAt? r.span.start text.toList
  let (_, back) ← Text.splitAt? r.span.length rest
  return String.ofList (front ++ (r.text.toList ++ back))

theorem Diagnostic.Replacement.applied?_eq {r : Replacement} {text : String}
    {front piece back : List Char} (htext : text.toList = front ++ (piece ++ back))
    (hspan : r.span = ⟨Text.width front, Text.width front + Text.width piece⟩) :
    r.applied? text = some (String.ofList (front ++ (r.text.toList ++ back))) := by
  have hlength : r.span.length = Text.width piece := by
    rw [hspan, Span.length, Nat.add_sub_cancel_left]
  rw [applied?, htext, hlength, hspan, Text.splitAt?_width]
  simp [Text.splitAt?_width]

namespace Script

/-! ## The first token of a node -/

variable {tokens : List Token}

theorem Node.MadeOf.start_eq {node : Node} (h : node.MadeOf tokens) {name : Name}
    (hname : node.written? = some name) : name.span.start = node.span.start := by
  obtain ⟨before, run, after, -, hreaches, hwritten⟩ := h
  obtain ⟨rest, rfl⟩ := List.head?_eq_some_iff.mp (hwritten name hname).1
  simpa using hreaches.start

/-- What ends where the name starts is a mark. -/
theorem Node.MadeOf.isMark_of_stop_eq {node : Node} (h : node.MadeOf tokens)
    (horder : Token.InOrder tokens) {name : Name} (hname : node.written? = some name) :
    ∀ t ∈ tokens, t.span.stop = name.span.start → t.kind.isMark = true := by
  obtain ⟨before, run, after, rfl, -, hwritten⟩ := h
  obtain ⟨hhead, hmark⟩ := hwritten name hname
  obtain ⟨rest, rfl⟩ := List.head?_eq_some_iff.mp hhead
  obtain ⟨hbefore, hbehind, hacross⟩ := horder.of_append
  let first : Token := ⟨.ident name.text, name.span⟩
  have hfirst : first ∈ first :: rest ++ after := List.mem_cons_self ..
  intro t ht hstop
  rcases List.mem_append.mp ht with ht | ht
  · -- all tokens in front but the last one end before that one starts
    obtain ⟨init, last, rfl⟩ := (List.eq_nil_or_concat' before).resolve_left (List.ne_nil_of_mem ht)
    have hlast : last.kind.isMark = true := hmark last (by simp)
    rcases List.mem_append.mp ht with hinit | hself
    · have hle := hbefore.of_append.2.2 t hinit last (List.mem_singleton_self _)
      have hsize := hbefore.nonempty last (List.mem_append_right _ (List.mem_singleton_self _))
      have hnext : last.span.stop ≤ name.span.start :=
        hacross last (List.mem_append_right _ (List.mem_singleton_self _)) first hfirst
      omega
    · rwa [List.mem_singleton.mp hself]
  · have hsize := hbehind.nonempty t ht
    have hpairwise := hbehind.pairwise
    rw [List.cons_append] at ht hpairwise
    rcases List.mem_cons.mp ht with rfl | ht
    · have hsize : name.span.start < name.span.stop := hsize
      have hstop : name.span.stop = name.span.start := hstop
      omega
    · have hle : name.span.stop ≤ t.span.start := (List.pairwise_cons.mp hpairwise).1 t ht
      have hnonempty : name.span.start < name.span.stop := hbehind.nonempty first hfirst
      omega

/-! ## One name of a script -/

/-- No two nodes of a text start at the same place. -/
theorem eq_of_start_eq {source text : String} {node other : Node}
    (hnode : node ∈ (ofText source text).script.preorder)
    (hother : other ∈ (ofText source text).script.preorder)
    (h : node.span.start = other.span.start) : node = other := by
  obtain ⟨lo, hi, hlaid, -⟩ := laid_ofText source text
  have hnodup : ((ofText source text).script.preorder.map (·.span.start)).Nodup := by
    refine List.Pairwise.map _ (fun a b hlt => ?_) (ascending_of_laid hlaid)
    exact Nat.ne_of_lt hlt
  exact List.inj_on_of_nodup_map hnodup hnode hother h

/-- To give another name to what is written at the start of a node is to give it to the node. -/
theorem named_renamedAt_eq {source text : String} {node : Node}
    (hnode : node ∈ (ofText source text).script.preorder) (new : String) :
    ((ofText source text).script.named fun _ => Token.renamedAt node.span.start new)
      = (ofText source text).script.renamed node.id new := by
  have hids := nodup_nodeIds_ofTokens source (tokenize text).tokens
  refine named_congr fun other hother name hname => ?_
  have hstart := (madeOf_ofText source text other hother).start_eq hname
  show (if name.span.start = node.span.start then new else name.text)
    = if other.id = node.id then new else name.text
  rw [hstart]
  by_cases hsame : other = node
  · rw [if_pos (congrArg (·.span.start) hsame), if_pos (congrArg Node.id hsame)]
  · have hplaces := mt (eq_of_start_eq hother hnode) hsame
    have hnumbers := mt (List.inj_on_of_nodup_map hids hother hnode) hsame
    rw [if_neg hplaces, if_neg hnumbers]

/-- The name of the node stands between these two parts of the text, where the node starts. It is a
token of its own, and no digits end in front of it. -/
structure Node.Written (text : String) (node : Node) (name : Name) (front back : List Char) :
    Prop where
  text_eq : text.toList = front ++ (name.text.toList ++ back)
  start : node.span.start = Text.width front
  span : Resolved.nameSpan node.span name.text
    = ⟨Text.width front, Text.width front + Text.width name.text.toList⟩
  token : (⟨.ident name.text, Resolved.nameSpan node.span name.text⟩ : Token)
    ∈ (Token.scan Token.maxFaults 0 text.toList).tokens
  behind : ∀ t ∈ (Token.scan Token.maxFaults 0 text.toList).tokens,
    t.span.stop = Text.width front → ∀ n, t.kind ≠ .int n

theorem exists_written {source text : String} {node : Node} {name : Name}
    (hnode : node ∈ (ofText source text).script.preorder) (hname : node.written? = some name) :
    ∃ front back, node.Written text name front back := by
  have hscans := Token.scans_scan Token.maxFaults 0 text.toList
  have hmade := madeOf_ofText source text node hnode
  obtain ⟨heq, hmem⟩ := hmade.nameSpan_eq hscans.inOrder hscans.occurs hname
  obtain ⟨front, lexeme, back, htext, hplace, hspells⟩ := hscans.occurs _ hmem
  obtain rfl := hspells.eq_of_ident rfl
  rw [Nat.zero_add] at hplace
  have hfront : name.span.start = Text.width front := congrArg Span.start hplace
  refine ⟨front, back, htext, ?_, heq.trans hplace, heq ▸ hmem, fun t ht hstop n hkind => ?_⟩
  · rw [← hmade.start_eq hname, hfront]
  · have hmark := hmade.isMark_of_stop_eq hscans.inOrder hname t ht (hstop.trans hfront.symm)
    rw [hkind] at hmark
    cases hmark

/-- What is written where the node with the name starts is replaced by the new name, and nothing else
is changed: neither the text's other tokens nor what is read of them. -/
structure Renames (source text edited : String) (node : Node) (new : String) : Prop where
  clean : (tokenize edited).faults = []
  /-- Numbers, shape, literals, the messages of error statements and all other names are the
  same. -/
  script : (ofText source edited).script.unplaced
    = ((ofText source text).script.renamed node.id new).unplaced
  /-- As many faults are found in the statements, and the same is said of them. -/
  messages : (ofText source edited).structural.map Fault.message
    = (ofText source text).structural.map Fault.message

theorem exists_renames {source text : String} {node : Node} {name : Name}
    {r : Diagnostic.Replacement} (hclean : (tokenize text).faults = [])
    (hnode : node ∈ (ofText source text).script.preorder) (hname : node.written? = some name)
    (hspan : r.span = Resolved.nameSpan node.span name.text) (hnew : Token.IsIdentifier r.text) :
    ∃ edited, r.applied? text = some edited ∧ Renames source text edited node r.text := by
  obtain ⟨front, back, hwritten⟩ := exists_written hnode hname
  obtain ⟨hedited, hkinds⟩ := Token.tokenize_renamed hclean hwritten.text_eq
    (hwritten.span ▸ hwritten.token) hwritten.behind hnew
  obtain ⟨hscript, hfaults⟩ := ofTokens_named source hkinds
  have hscript : ((ofText source text).script.named fun _ =>
      Token.renamedAt node.span.start r.text).unplaced = _ := hwritten.start ▸ hscript
  rw [named_renamedAt_eq hnode] at hscript
  have happlied := Diagnostic.Replacement.applied?_eq hwritten.text_eq (hspan.trans hwritten.span)
  refine ⟨_, happlied, hedited, hscript.symm, ?_⟩
  rw [← List.forall₂_eq_eq_eq, List.forall₂_map_left_iff, List.forall₂_map_right_iff]
  exact hfaults.flip.imp fun _ _ => Fault.message_eq_of_read

/-- **A suggestion changes one name**, whatever the text is that is scanned without faults, and
whatever the schema and the settings are. -/
theorem applied_ofText (source : String) {text : String} (hclean : (tokenize text).faults = [])
    (schema : Schema) (settings : Settings) :
    let script := (ofText source text).script
    ∀ d ∈ (script.resolvedDocument schema settings).diagnostics schema,
      ∀ r, d.replacement? = some r → Token.IsIdentifier r.text →
        ∃ node ∈ script.failedNodes schema settings, script.AccountsFor schema settings node d
          ∧ ∃ edited, r.applied? text = some edited ∧ Renames source text edited node r.text := by
  intro script d hd r hr hnew
  have hids : script.nodeIds.Nodup := nodup_nodeIds_ofTokens source (tokenize text).tokens
  have hreports := reports_valuesFirst schema settings script
  obtain ⟨node, hvisited, htells⟩ := hreports.exists_tells hd
  have hnode : node ∈ script.preorder := script.valuesFirst_perm.subset hvisited
  have hfailed : node ∈ script.failedNodes schema settings := by
    refine List.mem_filter.mpr ⟨hnode, ?_⟩
    rw [← isReported_eq schema settings hids hnode, Node.isReported]
    obtain ⟨reasons, hreported, -⟩ := htells
    rw [hreported, Option.isSome_some]
  refine ⟨node, hfailed, accountsFor_of_tells hids hnode htells, ?_⟩
  obtain ⟨reasons, -, hdescribes⟩ := htells
  obtain ⟨written, hname, hspan⟩ := hdescribes.replaced
  obtain ⟨name, hwritten, rfl⟩ := Node.written?_of_name? hname
  exact exists_renames hclean hnode hwritten (hspan r hr) hnew

/-- The digits stand on the line above, and so they do not go on in the name. -/
theorem applied_ofText_bede :
    let schema := Schema.ofClasses "Garden"
      [.ofMembers "Garden" [.adding "bed" [] "Bed" .allowed], .ofMembers "Bed" []]
      [("Garden", []), ("Bed", [])]
    let text := "a = 1\nbede() \x7b \x7d"
    let edited := "a = 1\nbed() \x7b \x7d"
    let script := (ofText "garden" text).script
    ∃ d ∈ (script.resolvedDocument schema ⟨true⟩).diagnostics schema,
      d.replacement? = some ⟨⟨6, 10⟩, "bed"⟩
        ∧ ∃ node ∈ script.failedNodes schema ⟨true⟩, script.AccountsFor schema ⟨true⟩ node d
          ∧ Renames "garden" text edited node "bed" := by
  intro schema text edited script
  have hfound : ∃ d ∈ (script.resolvedDocument schema ⟨true⟩).diagnostics schema,
      d.replacement? = some ⟨⟨6, 10⟩, "bed"⟩ := by decide +kernel +revert
  obtain ⟨d, hd, hreplacement⟩ := hfound
  have hclean : (tokenize text).faults = [] := by decide +kernel
  obtain ⟨node, hfailed, haccounts, other, happlied, hrenames⟩ :=
    applied_ofText "garden" hclean schema ⟨true⟩ d hd _ hreplacement (by decide +kernel)
  have hedited : Diagnostic.Replacement.applied? ⟨⟨6, 10⟩, "bed"⟩ text = some edited := by
    decide +kernel
  obtain rfl := Option.some.inj (happlied.symm.trans hedited)
  exact ⟨d, hd, hreplacement, node, hfailed, haccounts, hrenames⟩

end Script

end Declarative
