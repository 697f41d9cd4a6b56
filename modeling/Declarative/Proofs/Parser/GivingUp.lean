import Declarative.Proofs.Grammar.Completeness
import Declarative.Proofs.Parser.Patience

/-!
# Every open block adds a fault

There are scripts with twenty faults and one more for each level of nesting, up to the
deepest: blocks in each other that are opened and never closed, and twenty lines inside of
them that are no statements (`Script.length_faults_openBlocks`). So nothing less can be
said of how many faults there may be than that it is twenty and one for each block.

A loop over statements in which reading is given up ends with the state that the last
round left (`Parser.GivesUp`), in a block as well as outside of all blocks.
-/

namespace Declarative.Script

open Token (Kind)

namespace Parser

/-- In a loop over statements reading is given up, after some rounds that went well. -/
inductive GivesUp (parse : NodeId → Parser Statement) : Reader → Reader → Prop where
  | now {s s'} : s.peek ≠ .rightBrace → s.peek ≠ .eof → recovering parse s = (none, s') →
      GivesUp parse s s'
  | later {s s₁ s' first} : s.peek ≠ .rightBrace → s.peek ≠ .eof →
      recovering parse s = (some first, s₁) →
      s₁.skipSeparators.unread.length < s.unread.length →
      GivesUp parse s₁.skipSeparators s' → GivesUp parse s s'

namespace GivesUp

variable {parse : NodeId → Parser Statement} {s s' : Reader}

theorem blockStatements_eq (h : GivesUp parse s s') (opening : Span) :
    blockStatements parse opening s = fail .tooManyFaults s' := by
  induction h with
  | now hbrace heof hfirst =>
      rw [blockStatements]
      split
      · exact absurd ‹_› hbrace
      · exact absurd ‹_› heof
      · rw [hfirst]
  | later hbrace heof hfirst hlt _ ih =>
      rw [blockStatements]
      split
      · exact absurd ‹_› hbrace
      · exact absurd ‹_› heof
      · simp only [hfirst, if_pos hlt, ih]
        rfl

theorem topStatements_eq (h : GivesUp parse s s') :
    ∃ statements, topStatements parse s = (statements, s') := by
  induction h with
  | now hbrace heof hfirst =>
      refine ⟨[], ?_⟩
      rw [topStatements]
      split
      · exact absurd ‹_› heof
      · exact absurd ‹_› hbrace
      · rw [hfirst]
  | @later _ _ _ first hbrace heof hfirst hlt _ ih =>
      obtain ⟨others, ih⟩ := ih
      refine ⟨first :: others, ?_⟩
      rw [topStatements]
      split
      · exact absurd ‹_› heof
      · exact absurd ‹_› hbrace
      · simp only [hfirst, if_pos hlt, ih]

end GivesUp

/-! ## Parsers that stop -/

section

variable {α : Type} {value : Parser Value} {block : Parser Body}
  {parse : NodeId → Parser Statement} {s s' : Reader} {fault : Fault}

theorem recovering_eq_none (h : parse s.takeId.1 s.takeId.2 = (.error fault, s'))
    (hstops : maxFaults ≤ s'.faults.length + 1) :
    recovering parse s = (none, s'.report fault) := by
  have hpatience : ¬(s'.report fault).hasPatience = true := by
    simpa [Reader.hasPatience, Reader.report] using hstops
  rw [recovering]
  dsimp only
  rw [h]
  exact if_neg hpatience

theorem recovering_eq_some (h : parse s.takeId.1 s.takeId.2 = (.error fault, s'))
    (hgoes : s'.faults.length + 1 < maxFaults) :
    let s₁ := (s'.report fault).synchronize
    recovering parse s
      = (some (.error s.takeId.1 ⟨s.here.start, max s₁.lastEnd s.here.start⟩ fault.message), s₁) := by
  have hpatience : (s'.report fault).hasPatience = true := by
    simpa [Reader.hasPatience, Reader.report] using hgoes
  rw [recovering]
  dsimp only
  rw [h]
  exact if_pos hpatience

theorem statement_rightParen (h : s.peek = .rightParen) (id : NodeId) :
    statement value block id s = (.error ⟨s.here, .expected .identifier .rightParen⟩, s) := by
  have hidentifier : identifier .identifier s
      = (.error ⟨s.here, .expected .identifier .rightParen⟩, s) := by
    rw [identifier, h]
    dsimp only
    rw [missing, h]
    rfl
  rw [statement, view_bind]
  simp only [bind, hidentifier]

theorem statement_eq_error {name : String} (hname : s.peek = .ident name)
    (hopen : (s.skip 1).peek = .leftBrace) (hblock : block (s.skip 1) = (.error fault, s'))
    (id : NodeId) : statement value block id s = (.error fault, s') := by
  have hidentifier : identifier .identifier s = (.ok ⟨name, s.here⟩, s.skip 1) := by
    rw [identifier, hname]
  rw [statement, view_bind]
  simp only [bind, hidentifier, statementRest, view, hopen, hblock]

theorem blockWith_eq_error (hopen : s.peek = .leftBrace)
    (h : blockStatements parse s.here (s.takeId.2.skip 1).skipSeparators = (.error fault, s')) :
    blockWith parse s = (.error fault, s') := by
  have hexpect : expect .leftBrace s.takeId.2 = (.ok (), s.takeId.2.skip 1) := if_pos hopen
  have hstatements : blockStatements parse s.takeId.2.here (s.takeId.2.skip 1).skipSeparators
      = (.error fault, s') := h
  rw [blockWith, freshId_bind, view_bind]
  simp only [bind, hexpect, step, hstatements]

theorem nested_eq_error {inner : Parser α} (hdepth : s.depth < maxDepth)
    (h : inner { s with depth := s.depth + 1 } = (.error fault, s')) :
    nested inner s = (.error fault, { s' with depth := s'.depth - 1 }) := by
  rw [nested, if_pos hdepth, h]

end

/-! ## Lines without statements, in open blocks -/

def badLines (n : Nat) : List Kind := (List.replicate n [Kind.rightParen, .newline]).flatten

theorem badLines_succ (n : Nat) : badLines (n + 1) = .rightParen :: .newline :: badLines n := by
  simp [badLines, List.replicate_succ]

/-- The start of `n` blocks in each other. -/
def openBlocks (n : Nat) : List Kind := (List.replicate n [Kind.ident "bed", .leftBrace]).flatten

theorem openBlocks_succ (n : Nat) :
    openBlocks (n + 1) = .ident "bed" :: .leftBrace :: openBlocks n := by
  simp [openBlocks, List.replicate_succ]

/-- Reading passes over a bad line to what follows the separators behind it. -/
theorem leaves_badLine {s : Reader} {rest : List Kind}
    (hs : s.kinds = .rightParen :: .newline :: rest) :
    s.Leaves (rest.dropWhile Kind.isSeparator) s.synchronize.skipSeparators := by
  obtain ⟨first, others, hunread, hfirst, hothers⟩ := List.map_eq_cons_iff.mp hs
  obtain ⟨second, tail, rfl, hsecond, -⟩ := List.map_eq_cons_iff.mp hothers
  have hlength : Reader.statementLength 0 s.unread = 1 := by
    simp [hunread, Reader.statementLength, hfirst, hsecond]
  have hskip := Reader.leaves_skip_one hs
  have hseparators := (s.skip 1).leaves_skipWhile Kind.isSeparator
  rw [hskip.kinds, List.dropWhile_cons_of_pos rfl] at hseparators
  rw [Reader.synchronize, hlength]
  exact hskip.trans hseparators

variable {value : Parser Value} {block : Parser Body}

theorem badLines_dropWhile (n : Nat) : (badLines n).dropWhile Kind.isSeparator = badLines n := by
  cases n with
  | zero => rfl
  | succ n => rw [badLines_succ, List.dropWhile_cons_of_neg (by nofun)]

theorem openBlocks_dropWhile (n m : Nat) :
    (openBlocks n ++ badLines m).dropWhile Kind.isSeparator = openBlocks n ++ badLines m := by
  cases n with
  | zero => exact badLines_dropWhile m
  | succ n => rw [openBlocks_succ, List.cons_append, List.dropWhile_cons_of_neg (by nofun)]

theorem eof_notMem_openBlocks (n m : Nat) : Kind.eof ∉ openBlocks n ++ badLines m := by
  simp [openBlocks, badLines, List.mem_flatten, List.mem_replicate]

theorem givesUp_badLines (n : Nat) : ∀ {s : Reader}, s.kinds = badLines (n + 1) →
    s.faults.length + (n + 1) = maxFaults →
      ∃ s', GivesUp (statement value block) s s' ∧ s'.faults.length = maxFaults := by
  induction n with
  | zero =>
      intro s hs hlength
      have hpeek := Reader.peek_of_kinds hs
      have herror := @statement_rightParen value block s.takeId.2 hpeek s.takeId.1
      have hfirst := recovering_eq_none herror (Nat.le_of_eq hlength.symm)
      refine ⟨_, .now (by rw [hpeek]; nofun) (by rw [hpeek]; nofun) hfirst, ?_⟩
      rw [← hlength]
      exact List.length_append
  | succ n ih =>
      intro s hs hlength
      rw [badLines_succ] at hs
      have hpeek := Reader.peek_of_kinds hs
      have herror := @statement_rightParen value block s.takeId.2 hpeek s.takeId.1
      have hgoes : s.takeId.2.faults.length + 1 < maxFaults := by
        have htake : s.takeId.2.faults = s.faults := rfl
        rw [htake]
        omega
      have hfirst := recovering_eq_some herror hgoes
      set s₁ := s.takeId.2.report ⟨s.here, .expected .identifier .rightParen⟩
      have hreport : s₁.faults.length = s.faults.length + 1 := List.length_append
      have hleaves := @leaves_badLine s₁ _ hs
      rw [badLines_dropWhile] at hleaves
      obtain ⟨s', hgives, hfull⟩ := ih hleaves.kinds (by rw [hleaves.faults, hreport]; omega)
      have hlt : s₁.synchronize.skipSeparators.unread.length < s.unread.length := by
        rw [Reader.length_unread, Reader.length_unread, hleaves.kinds, hs, List.length_cons,
          List.length_cons]
        omega
      exact ⟨s', .later (by rw [hpeek]; nofun) (by rw [hpeek]; nofun) hfirst hlt hgives, hfull⟩

/-- A block in which reading is given up stops the statement that it belongs to, and that
adds a fault. -/
theorem recovering_openBlock {fuel n : Nat} {s : Reader} {name : String} {inside : List Kind}
    (hs : s.kinds = .ident name :: .leftBrace :: inside) (hdepth : s.depth < maxDepth)
    (hn : maxFaults ≤ n)
    (hinside : ∀ {s₁ : Reader}, s₁.kinds = inside.dropWhile Kind.isSeparator →
      s₁.depth = s.depth + 1 → s₁.faults = s.faults →
        ∃ s', GivesUp (statement (Parser.value fuel) (Parser.block fuel)) s₁ s'
          ∧ s'.faults.length = n) :
    ∃ s', recovering (statement (Parser.value (fuel + 1)) (Parser.block (fuel + 1))) s = (none, s')
      ∧ s'.faults.length = n + 1 := by
  have hname := Reader.peek_of_kinds hs
  have hident := @Reader.leaves_skip_one s.takeId.2 _ _ hs
  have hopen := Reader.peek_of_kinds hident.kinds
  let entered : Reader := { s.takeId.2.skip 1 with depth := s.depth + 1 }
  have hbrace := @Reader.leaves_skip_one entered.takeId.2 _ _ hident.kinds
  have hskip := hbrace.trans ((entered.takeId.2.skip 1).leaves_skipWhile Kind.isSeparator)
  rw [hbrace.kinds] at hskip
  obtain ⟨s', hgives, hfull⟩ := hinside hskip.kinds hskip.depth hskip.faults
  have hstatements := hgives.blockStatements_eq entered.here
  have hblock : Parser.block (fuel + 1) (s.takeId.2.skip 1) = _ :=
    nested_eq_error hdepth (blockWith_eq_error hopen hstatements)
  have herror := @statement_eq_error (Parser.value (fuel + 1)) (Parser.block (fuel + 1))
    s.takeId.2 _ _ _ hname hopen hblock s.takeId.1
  refine ⟨_, recovering_eq_none herror ?_, ?_⟩
  · exact (hn.trans_eq hfull.symm).trans (Nat.le_succ _)
  · rw [← hfull]
    exact List.length_append

/-- In a loop over `n` opened blocks reading is given up in the innermost one. -/
theorem givesUp_openBlocks : ∀ (n : Nat) {fuel : Nat} {s : Reader},
    s.kinds = openBlocks n ++ badLines maxFaults → n ≤ fuel → s.depth + n ≤ maxDepth →
    s.faults = [] →
      ∃ s', GivesUp (statement (Parser.value fuel) (Parser.block fuel)) s s'
        ∧ s'.faults.length = maxFaults + n
  | 0, fuel, s, hs, _, _, hfaults => givesUp_badLines (maxFaults - 1) hs (by rw [hfaults]; rfl)
  | n + 1, 0, s, hs, hfuel, _, _ => absurd hfuel (Nat.not_succ_le_zero n)
  | n + 1, fuel + 1, s, hs, hfuel, hdepth, hfaults => by
      rw [openBlocks_succ, List.cons_append, List.cons_append] at hs
      have hpeek := Reader.peek_of_kinds hs
      have hinside : ∀ {s₁ : Reader},
          s₁.kinds = (openBlocks n ++ badLines maxFaults).dropWhile Kind.isSeparator →
          s₁.depth = s.depth + 1 → s₁.faults = s.faults →
            ∃ s', GivesUp (statement (Parser.value fuel) (Parser.block fuel)) s₁ s'
              ∧ s'.faults.length = maxFaults + n := by
        intro s₁ hs₁ hdepth₁ hfaults₁
        rw [openBlocks_dropWhile] at hs₁
        exact givesUp_openBlocks n hs₁ (by omega) (by omega) (hfaults₁.trans hfaults)
      obtain ⟨s', hfirst, hfull⟩ := recovering_openBlock hs (by omega)
        (Nat.le_add_right maxFaults n) hinside
      exact ⟨s', .now (by rw [hpeek]; nofun) (by rw [hpeek]; nofun) hfirst, hfull⟩

end Parser

/-- **Every open block adds a fault** to the twenty that may be found, down to the deepest
nesting. -/
theorem length_faults_openBlocks (source : String) {n : Nat} (hn : n ≤ maxDepth) :
    let token (kind : Kind) : Token := ⟨kind, ⟨0, 0⟩⟩
    let kinds := Parser.openBlocks n ++ Parser.badLines maxFaults
    (ofTokens source (kinds.map token)).faults.length = maxFaults + n := by
  intro token kinds
  have hunread : (kinds.map token).takeWhile (·.kind != .eof) = kinds.map token := by
    refine List.takeWhile_eq_self_iff.mpr fun t ht => ?_
    obtain ⟨kind, hkind, rfl⟩ := List.mem_map.mp ht
    simpa using ne_of_mem_of_not_mem hkind (Parser.eof_notMem_openBlocks n maxFaults)
  have hkinds : (Reader.ofTokens (kinds.map token)).kinds = kinds := by
    rw [Reader.kinds, Reader.ofTokens, hunread, List.map_map]
    exact List.map_id _
  let s := (Reader.ofTokens (kinds.map token)).skipSeparators
  have hskip : (Reader.ofTokens (kinds.map token)).Leaves kinds s := by
    have hleaves := (Reader.ofTokens (kinds.map token)).leaves_skipWhile Kind.isSeparator
    rwa [hkinds, Parser.openBlocks_dropWhile] at hleaves
  have hdepth : s.depth + n ≤ maxDepth := by
    rw [hskip.depth]
    exact (Nat.zero_add n).trans_le hn
  obtain ⟨s', hgives, hfull⟩ := @Parser.givesUp_openBlocks n Parser.fullFuel s hskip.kinds
    (Nat.le_succ_of_le hn) hdepth hskip.faults
  obtain ⟨statements, htop⟩ := hgives.topStatements_eq
  rw [ofTokens, htop]
  exact hfull

end Declarative.Script
