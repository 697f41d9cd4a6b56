import Declarative.Proofs.Grammar.Completeness
import Declarative.Proofs.Grammar.Soundness

/-!
# The parser accepts the grammar

Reading finds no fault in a sequence of tokens just where the grammar derives the tokens
in front of the end of the text and the tree is not too high. The tree of the derivation
is then the one that was read, so there is only one (`Script.faults_ofTokens_eq_nil_iff`).
-/

namespace Declarative.Script

open Token (Kind)

def Parser.topStatement : NodeId → Parser Statement :=
  Parser.statement (Parser.value Parser.fullFuel) (Parser.block Parser.fullFuel)

theorem Parser.topStatement_sound : SoundStatement topStatement :=
  statement_sound (value_sound fullFuel) (block_sound fullFuel)

theorem Parser.topStatement_complete : CompleteStatement topStatement fullFuel :=
  statement_complete (value_complete fullFuel) (block_complete fullFuel)

section

variable {tokens : List Token} {last : Token} (htokens : ∀ token ∈ tokens, token.kind ≠ .eof)
  (hlast : last.kind = .eof)

include htokens hlast

theorem Reader.unread_ofTokens : (Reader.ofTokens (tokens ++ [last])).unread = tokens := by
  rw [Reader.ofTokens]
  dsimp only
  rw [List.takeWhile_append_of_pos fun token htoken => by simpa using htokens token htoken]
  simp [hlast]

theorem Reader.kinds_ofTokens :
    (Reader.ofTokens (tokens ++ [last])).kinds = tokens.map (·.kind) := by
  rw [Reader.kinds, Reader.unread_ofTokens htokens hlast]

theorem exists_derivation_of_faults_eq_nil {source : String}
    (h : (ofTokens source (tokens ++ [last])).faults = []) :
    ∃ trees, Grammar.Statements trees (tokens.map (·.kind))
      ∧ Plain.Statement.heightAll trees ≤ 256 := by
  obtain ⟨separators, hseparators, hskip⟩ :=
    (Reader.ofTokens (tokens ++ [last])).advances_skipSeparators
  obtain ⟨⟨inner, hread, hderives, hheight⟩, hend⟩ :=
    Parser.topStatements_sound Parser.topStatement_sound rfl h
  have hkinds := (hskip.trans hread).kinds
  rw [Reader.kinds_ofTokens htokens hlast] at hkinds
  have heof : Kind.eof ∉ tokens.map (·.kind) := fun hmem => by
    obtain ⟨token, htoken, hkind⟩ := List.mem_map.mp hmem
    exact htokens token htoken hkind
  rw [hkinds] at heof
  rw [Reader.kinds_eq_nil_of_peek (fun hmem => heof (List.mem_append_right _ hmem)) hend,
    List.append_nil] at hkinds
  exact ⟨_, hkinds ▸ hderives.prepend hseparators, hheight⟩

theorem ofTokens_of_derivation {source : String} {trees : List Plain.Statement}
    (h : Grammar.Statements trees (tokens.map (·.kind)))
    (hheight : Plain.Statement.heightAll trees ≤ 256) :
    (ofTokens source (tokens ++ [last])).faults = []
      ∧ Statement.plainAll (ofTokens source (tokens ++ [last])).script.statements = trees := by
  have hskip := (Reader.ofTokens (tokens ++ [last])).leaves_skipWhile Kind.isSeparator
  rw [Reader.kinds_ofTokens htokens hlast] at hskip
  obtain ⟨statements, s₁, hok, hleaves, hplain⟩ :=
    Parser.topStatements_complete Parser.topStatement_complete h hskip.kinds
      (hheight.trans (Nat.le_succ _)) (hskip.depth ▸ hheight)
  obtain ⟨hstatements, hfaults⟩ := Prod.ext_iff.mp hok
  constructor
  · exact (congrArg Reader.faults hfaults).trans (hskip.trans hleaves).faults
  · exact (congrArg Statement.plainAll hstatements).trans hplain

/-- **The parser accepts just the grammar**, and yields the tree of the derivation. No
path of a tree may hold more than 256 blocks and values. -/
theorem faults_ofTokens_eq_nil_iff (source : String) :
    ((ofTokens source (tokens ++ [last])).faults = [] ↔
        ∃ trees, Grammar.Statements trees (tokens.map (·.kind))
          ∧ Plain.Statement.heightAll trees ≤ 256)
      ∧ ∀ trees, Grammar.Statements trees (tokens.map (·.kind)) →
          Plain.Statement.heightAll trees ≤ 256 →
          Statement.plainAll (ofTokens source (tokens ++ [last])).script.statements = trees := by
  refine ⟨⟨exists_derivation_of_faults_eq_nil htokens hlast, ?_⟩, ?_⟩
  · rintro ⟨trees, hderives, hheight⟩
    exact (ofTokens_of_derivation htokens hlast hderives hheight).1
  · intro trees hderives hheight
    exact (ofTokens_of_derivation htokens hlast hderives hheight).2

end

/-- A line feed and a comma behind the last argument, and no separator behind the last
statement. -/
theorem faults_ofTokens_eq_nil_iff_garden :
    let token (kind : Kind) : Token := ⟨kind, ⟨0, 0⟩⟩
    let tokens := [Kind.newline, .ident "bed", .leftParen, .int 3, .comma, .newline, .rightParen,
      .leftBrace, .semicolon, .ident "name", .equals, .string "north", .rightBrace].map token
    let trees : List Plain.Statement := [.call "bed" [.literal (.int 3)]
      (.block [.assign "name" (.literal (.string "north"))])]
    (∀ t ∈ tokens, t.kind ≠ .eof) ∧ (token .eof).kind = .eof
      ∧ Grammar.Statements trees (tokens.map (·.kind)) ∧ Plain.Statement.heightAll trees ≤ 256
      ∧ (ofTokens "garden" (tokens ++ [token .eof])).faults = []
      ∧ Statement.plainAll (ofTokens "garden" (tokens ++ [token .eof])).script.statements = trees := by
  intro token tokens trees
  have htokens : ∀ t ∈ tokens, t.kind ≠ .eof := by decide +revert
  have hlast : (token .eof).kind = .eof := rfl
  have hnewline : Kind.newline.isSeparator = true := rfl
  have hsemicolon : Kind.semicolon.isSeparator = true := rfl
  have hnoLines : Grammar.Lines [] := nofun
  have hline : Grammar.Lines [.newline] := by simp [Grammar.Lines]
  have harguments : Grammar.Arguments [.literal (.int 3)] _ :=
    .parenthesised hnoLines (.more .literal hnoLines hline .none)
  have hblock : Grammar.Block (.block [.assign "name" (.literal (.string "north"))]) _ :=
    .braced (.separator hsemicolon (.last (.assign .literal)))
  have hderives : Grammar.Statements trees (tokens.map (·.kind)) :=
    .separator hnewline (.last (.callBlock harguments hblock))
  have hheight : Plain.Statement.heightAll trees ≤ 256 := by decide
  obtain ⟨haccepts, htree⟩ := faults_ofTokens_eq_nil_iff htokens hlast "garden"
  exact ⟨htokens, hlast, hderives, hheight, haccepts.mpr ⟨trees, hderives, hheight⟩,
    htree trees hderives hheight⟩

end Declarative.Script
