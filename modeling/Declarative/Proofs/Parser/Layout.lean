import Declarative.Proofs.Parser.Renaming

/-!
# Layout means nothing

Two texts whose tokens are of the same kinds differ in blanks, comments and the spelling of
literals, and so in the places of their tokens. That is the case of reading other names in which all
names are the ones that are there (`Script.ofTokens_named`): the two scripts are equal without places
(`Script.ofTokens_alike`), and resolving, which looks at no place, goes the same way as well
(`Script.ofText_sameButPlaces`).
-/

namespace Declarative.Script

theorem Fault.message_congr {fault other : Fault} (h : fault.cause = other.cause) :
    fault.message = other.message := by
  rw [Fault.message, Fault.message, h]

theorem Fault.hint?_congr {fault other : Fault} (h : fault.cause = other.cause) :
    fault.hint? = other.hint? := by
  rw [Fault.hint?, Fault.hint?, h]

/-- Tokens of the same kinds make the same script, and the same faults are found in them. -/
theorem ofTokens_alike (source : String) {tokens others : List Token}
    (h : tokens.map (·.kind) = others.map (·.kind)) :
    (ofTokens source tokens).script.unplaced = (ofTokens source others).script.unplaced
      ∧ (ofTokens source tokens).faults.map (·.cause)
          = (ofTokens source others).faults.map (·.cause) := by
  have hkinds : others.map (·.kind) = tokens.map (Token.kindAs Name.text) := by
    rw [← h]
    exact List.map_congr_left fun t _ => (t.kind.as_text).symm
  obtain ⟨hscript, hfaults⟩ := ofTokens_named source hkinds
  rw [named_text] at hscript
  refine ⟨hscript, ?_⟩
  rw [← List.forall₂_eq_eq_eq, List.forall₂_map_left_iff, List.forall₂_map_right_iff]
  exact hfaults.imp fun _ _ hcause => hcause.eq

theorem map_congr_of_causes {α : Type} {f : Fault → α}
    (hf : ∀ fault other : Fault, fault.cause = other.cause → f fault = f other) :
    ∀ {faults others : List Fault}, faults.map (·.cause) = others.map (·.cause) →
      faults.map f = others.map f
  | [], [], _ => rfl
  | _ :: _, _ :: _, h => by
      obtain ⟨hfirst, hrest⟩ := List.cons.inj h
      rw [List.map_cons, List.map_cons, hf _ _ hfirst, map_congr_of_causes hf hrest]

/-- The two readings say the same and differ in places only. -/
structure Reading.SameButPlaces (a b : Reading) : Prop where
  /-- Shape, names, literals, numbers and the messages of error statements are the same. -/
  script : a.script.unplaced = b.script.unplaced
  /-- As many faults are found in the statements, and the same is said of them. -/
  messages : a.structural.map Fault.message = b.structural.map Fault.message
  hints : a.structural.map Fault.hint? = b.structural.map Fault.hint?
  /-- Whatever the scripts are resolved against, the outcomes are the same. -/
  trace : ∀ schema settings, a.script.resolve schema settings = b.script.resolve schema settings
  lines : ∀ schema settings, (a.script.resolvedDocument schema settings).render
    = (b.script.resolvedDocument schema settings).render

/-- **Layout means nothing.** Texts whose tokens are of the same kinds are read alike. -/
theorem ofText_sameButPlaces (source : String) {text other : String}
    (h : (tokenize text).tokens.map (·.kind) = (tokenize other).tokens.map (·.kind)) :
    (ofText source text).SameButPlaces (ofText source other) := by
  obtain ⟨hscript, hcauses⟩ := ofTokens_alike source h
  have hscript : (ofText source text).script.unplaced = (ofText source other).script.unplaced :=
    hscript
  refine ⟨hscript, ?_, ?_, fun schema settings => ?_, fun schema settings => ?_⟩
  · exact map_congr_of_causes (fun _ _ => Fault.message_congr) hcauses
  · exact map_congr_of_causes (fun _ _ => Fault.hint?_congr) hcauses
  · rw [← resolve_unplaced, hscript, resolve_unplaced]
  · rw [← render_unplaced, hscript, render_unplaced]

/-- Blanks, comments and another spelling of a text and of a number, around a line that is no
statement. -/
theorem ofText_sameButPlaces_bed :
    let text := "bed(\"rose\", 12) \x7b\n)\na = b()\x7d"
    let other := "/* a /* b */ */ bed ( \"\\u\x7b72\x7dose\" , 1_2 ) \x7b // c\n\t)\n  a=b( ) \x7d"
    (tokenize text).tokens.map (·.kind) = (tokenize other).tokens.map (·.kind)
      ∧ (ofText "garden" text).SameButPlaces (ofText "garden" other) :=
  have h := by decide +kernel
  ⟨h, ofText_sameButPlaces "garden" h⟩

end Declarative.Script
