import Declarative.Proofs.Entries

/-!
# Statements side by side

What is recorded of statements depends on the calls in whose blocks they stand, and on nothing
that is written before or after them. A place in a script is given by the calls around it, each
with its siblings (`Enclosure`). Filling the place with statements puts their entries, resolved on
the stack of these calls, between entries that do not depend on them
(`Resolver.exists_entries_fillAll`). Since numbers are distinct, the entries of some of the
statements are found by number (`Script.entriesOf_fillAll`).
-/

namespace Declarative

/-! ## Places inside of blocks -/

/-- A call whose block is a place for statements, with what stands before and after the call. -/
structure Enclosure where
  before : List Statement
  id : NodeId
  span : Span
  name : Name
  arguments : List Value
  blockId : NodeId
  blockSpan : Span
  after : List Statement

namespace Enclosure

/-- The statements are put into the block of the call. -/
def fill (enclosure : Enclosure) (inner : List Statement) : List Statement :=
  let block := Body.block enclosure.blockId enclosure.blockSpan inner
  enclosure.before ++
    .call enclosure.id enclosure.span enclosure.name enclosure.arguments block :: enclosure.after

def alone (enclosure : Enclosure) : Enclosure := { enclosure with before := [], after := [] }

/-- The statements are put into the block of the last call, that call into the block of the one
before it, and so on. -/
def fillAll : List Enclosure → List Statement → List Statement
  | [], inner => inner
  | enclosure :: around, inner => enclosure.fill (fillAll around inner)

end Enclosure

namespace Statement

def nodeIds (ss : List Statement) : List NodeId := (preorderAll ss).map Script.Node.id

theorem nodeIds_append (first second : List Statement) :
    nodeIds (first ++ second) = nodeIds first ++ nodeIds second := by
  induction first with
  | nil => rfl
  | cons s first ih =>
      rw [nodeIds, nodeIds] at *
      rw [List.cons_append, preorderAll, preorderAll, List.map_append, List.map_append, ih,
        List.append_assoc]

theorem nodeIds_fill (enclosure : Enclosure) (inner : List Statement) :
    nodeIds (enclosure.fill inner)
      = nodeIds enclosure.before
        ++ (enclosure.id :: ((Value.preorderAll enclosure.arguments).map Script.Node.id
          ++ nodeIds inner) ++ nodeIds enclosure.after) := by
  rw [Enclosure.fill, nodeIds_append]
  simp only [nodeIds, preorderAll, preorder, preorderBody, List.map_append, List.map_cons]
  rfl

theorem nodeIds_fillAll_sublist {inner outer : List Statement}
    (h : (nodeIds inner).Sublist (nodeIds outer)) : ∀ around : List Enclosure,
    (nodeIds (Enclosure.fillAll around inner)).Sublist (nodeIds (Enclosure.fillAll around outer))
  | [] => h
  | enclosure :: around => by
      have hinner := nodeIds_fillAll_sublist h around
      rw [Enclosure.fillAll, Enclosure.fillAll, nodeIds_fill, nodeIds_fill]
      exact (((hinner.append_left _).cons_cons _).append_right _).append_left _

/-- Where siblings are left out, the numbers that are left keep their order. -/
theorem nodeIds_fillAll_alone_sublist (inner : List Statement) : ∀ around : List Enclosure,
    (nodeIds (Enclosure.fillAll (around.map .alone) inner)).Sublist
      (nodeIds (Enclosure.fillAll around inner))
  | [] => .refl _
  | enclosure :: around => by
      have hinner := nodeIds_fillAll_alone_sublist inner around
      rw [List.map_cons, Enclosure.fillAll, Enclosure.fillAll, nodeIds_fill, nodeIds_fill]
      have hcall := (hinner.append_left
        ((Value.preorderAll enclosure.arguments).map Script.Node.id)).cons_cons enclosure.id
      exact (List.nil_sublist _).append (hcall.append (List.nil_sublist _))

end Statement

/-! ## The entries at a place -/

namespace Resolver

variable (schema : Schema) (settings : Settings)

theorem statementsEntries_append (stack : ScopeStack) (first second : List Statement) :
    statementsEntries schema settings stack (first ++ second)
      = statementsEntries schema settings stack first
        ++ statementsEntries schema settings stack second := by
  induction first with
  | nil => rfl
  | cons s first ih =>
      rw [List.cons_append, statementsEntries, statementsEntries, ih, List.append_assoc]

/-- The stack inside of the block of a call, whatever the block holds. -/
def enter (stack : ScopeStack) (enclosure : Enclosure) : ScopeStack :=
  stack.push (blockScope (elementOutcome schema settings stack true enclosure.name.text
    (valueTypes schema settings stack enclosure.arguments)))

/-- What is recorded around a place does not depend on what is put there, and what is recorded of
that depends on the calls around it alone. -/
theorem exists_entries_fillAll (around : List Enclosure) : ∀ stack : ScopeStack,
    ∃ front back, ∀ inner,
      statementsEntries schema settings stack (Enclosure.fillAll around inner)
        = front ++ statementsEntries schema settings
            (around.foldl (enter schema settings) stack) inner ++ back := by
  induction around with
  | nil => exact fun stack => ⟨[], [], fun inner => (List.append_nil _).symm⟩
  | cons enclosure around ih =>
      intro stack
      obtain ⟨front, back, hinner⟩ := ih (enter schema settings stack enclosure)
      let outcome := elementOutcome schema settings stack true enclosure.name.text
        (valueTypes schema settings stack enclosure.arguments)
      refine ⟨statementsEntries schema settings stack enclosure.before
          ++ (enclosure.id, .element outcome)
            :: (valuesEntries schema settings stack enclosure.arguments ++ front),
        back ++ statementsEntries schema settings stack enclosure.after, fun inner => ?_⟩
      rw [Enclosure.fillAll, Enclosure.fill, statementsEntries_append, statementsEntries,
        statementEntries, bodyEntries, List.foldl_cons]
      have hblock := hinner inner
      rw [enter] at hblock
      simp only [callOutcome, Body.isPresent]
      rw [hblock]
      simp only [List.append_assoc, List.cons_append]
      rfl

theorem foldl_enter_alone (around : List Enclosure) (stack : ScopeStack) :
    (around.map Enclosure.alone).foldl (enter schema settings) stack
      = around.foldl (enter schema settings) stack := by
  rw [List.foldl_map]
  rfl

end Resolver

/-! ## The entries of some of the statements -/

namespace Script

/-- What the trace of the script has of the statements and of what is inside of them. -/
def entriesOf (schema : Schema) (settings : Settings) (script : Script) (ss : List Statement) :
    List (NodeId × Trace.Entry) :=
  (script.resolve schema settings).toList.filter fun entry => entry.1 ∈ Statement.nodeIds ss

/-- Where keys are distinct, those in the middle are found by their keys. -/
theorem filter_keys_middle {α β : Type} [DecidableEq α] {front middle back : List (α × β)}
    (hkeys : ((front ++ middle ++ back).map (·.1)).Nodup) :
    (front ++ middle ++ back).filter (fun entry => entry.1 ∈ middle.map (·.1)) = middle := by
  rw [List.map_append, List.map_append, List.nodup_append', List.nodup_append'] at hkeys
  obtain ⟨⟨-, -, hfront⟩, -, hback⟩ := hkeys
  have hbefore : front.filter (fun entry => entry.1 ∈ middle.map (·.1)) = [] := by
    refine List.filter_eq_nil_iff.mpr fun entry hentry hmem => ?_
    exact hfront (List.mem_map_of_mem hentry) (of_decide_eq_true hmem)
  have hafter : back.filter (fun entry => entry.1 ∈ middle.map (·.1)) = [] := by
    refine List.filter_eq_nil_iff.mpr fun entry hentry hmem => ?_
    exact hback (List.mem_append_right _ (of_decide_eq_true hmem)) (List.mem_map_of_mem hentry)
  have hmiddle : middle.filter (fun entry => entry.1 ∈ middle.map (·.1)) = middle :=
    List.filter_eq_self.mpr fun entry hentry => decide_eq_true (List.mem_map_of_mem hentry)
  rw [List.filter_append, List.filter_append, hbefore, hafter, hmiddle, List.nil_append,
    List.append_nil]

section

variable {schema : Schema} {settings : Settings} {script : Script}
  (hids : script.nodeIds.Nodup)

include hids

/-- At a place inside of blocks the trace has what is recorded on the stack of the calls around. -/
theorem entriesOf_fillAll {around : List Enclosure} (before ss after : List Statement)
    (hscript : script.statements = Enclosure.fillAll around (before ++ ss ++ after)) :
    script.entriesOf schema settings ss
      = Resolver.statementsEntries schema settings
          (around.foldl (Resolver.enter schema settings) (.new schema.topLevel)) ss := by
  obtain ⟨front, back, hinner⟩ :=
    Resolver.exists_entries_fillAll schema settings around (.new schema.topLevel)
  let stack := around.foldl (Resolver.enter schema settings) (.new schema.topLevel)
  have hsplit : script.entries schema settings
      = front ++ Resolver.statementsEntries schema settings stack before
        ++ Resolver.statementsEntries schema settings stack ss
        ++ (Resolver.statementsEntries schema settings stack after ++ back) := by
    rw [entries, hscript, hinner, Resolver.statementsEntries_append,
      Resolver.statementsEntries_append]
    simp only [List.append_assoc, stack]
  have hkeys := @entries_ids_nodup schema settings script hids
  rw [hsplit] at hkeys
  rw [entriesOf, toList_resolve hids, hsplit, Statement.nodeIds,
    ← Resolver.statementsEntries_ids schema settings stack]
  exact filter_keys_middle hkeys

end

theorem entriesOf_fillAll_self {schema : Schema} {settings : Settings} {source : String}
    {span : Span} {around : List Enclosure} {ss : List Statement}
    (hids : (Statement.nodeIds (Enclosure.fillAll around ss)).Nodup) :
    (Script.mk source (Enclosure.fillAll around ss) span).entriesOf schema settings ss
      = Resolver.statementsEntries schema settings
          (around.foldl (Resolver.enter schema settings) (.new schema.topLevel)) ss := by
  have hscript : (Script.mk source (Enclosure.fillAll around ss) span).nodeIds.Nodup := hids
  refine entriesOf_fillAll hscript [] ss [] ?_
  rw [List.nil_append, List.append_nil]

/-! ## Independence -/

/-- What it means that statements are resolved independently of their siblings. -/
structure SiblingsApart (schema : Schema) (settings : Settings) : Prop where
  /-- One list of statements after another. -/
  append : ∀ (source : String) (span : Span) (first second : List Statement),
    (Script.mk source (first ++ second) span).nodeIds.Nodup →
      ((Script.mk source (first ++ second) span).resolve schema settings).toList
        = ((Script.mk source first span).resolve schema settings).toList
          ++ ((Script.mk source second span).resolve schema settings).toList
  /-- The same inside of the blocks of calls. -/
  appendInside : ∀ (source : String) (span : Span) (around : List Enclosure)
      (first second : List Statement),
    (Script.mk source (Enclosure.fillAll around (first ++ second)) span).nodeIds.Nodup →
      (Script.mk source (Enclosure.fillAll around (first ++ second)) span).entriesOf
          schema settings (first ++ second)
        = (Script.mk source (Enclosure.fillAll around first) span).entriesOf
            schema settings first
          ++ (Script.mk source (Enclosure.fillAll around second) span).entriesOf
            schema settings second
  /-- Nothing changes for a statement when all statements but it and the calls around it are left
  out, in its own block and in those further out. -/
  alone : ∀ (source : String) (span : Span) (around : List Enclosure)
      (before after : List Statement) (s : Statement),
    (Script.mk source (Enclosure.fillAll around (before ++ s :: after)) span).nodeIds.Nodup →
      (Script.mk source (Enclosure.fillAll around (before ++ s :: after)) span).entriesOf
          schema settings [s]
        = (Script.mk source (Enclosure.fillAll (around.map .alone) [s]) span).entriesOf
            schema settings [s]

/-- **Siblings are resolved independently**, whatever the schema and the settings are. -/
theorem siblingsApart (schema : Schema) (settings : Settings) : SiblingsApart schema settings := by
  have hparts : ∀ first second : List Statement,
      (Statement.nodeIds first).Sublist (Statement.nodeIds (first ++ second))
        ∧ (Statement.nodeIds second).Sublist (Statement.nodeIds (first ++ second)) := by
    intro first second
    rw [Statement.nodeIds_append]
    exact ⟨List.sublist_append_left _ _, List.sublist_append_right _ _⟩
  refine ⟨?_, ?_, ?_⟩
  · intro source span first second hids
    obtain ⟨hfirst, hsecond⟩ := hparts first second
    have hfirst : (Script.mk source first span).nodeIds.Nodup := List.Nodup.sublist hfirst hids
    have hsecond : (Script.mk source second span).nodeIds.Nodup := List.Nodup.sublist hsecond hids
    rw [toList_resolve hids, toList_resolve hfirst, toList_resolve hsecond]
    exact Resolver.statementsEntries_append schema settings _ first second
  · intro source span around first second hids
    obtain ⟨hfirst, hsecond⟩ := hparts first second
    have hfirst := Statement.nodeIds_fillAll_sublist hfirst around
    have hsecond := Statement.nodeIds_fillAll_sublist hsecond around
    rw [entriesOf_fillAll_self hids, entriesOf_fillAll_self (List.Nodup.sublist hfirst hids),
      entriesOf_fillAll_self (List.Nodup.sublist hsecond hids), Resolver.statementsEntries_append]
  · intro source span around before after s hids
    have hself : (Statement.nodeIds [s]).Sublist (Statement.nodeIds (before ++ s :: after)) :=
      (hparts [s] after).1.trans (hparts before (s :: after)).2
    have hfewer := (Statement.nodeIds_fillAll_alone_sublist [s] around).trans
      (Statement.nodeIds_fillAll_sublist hself around)
    rw [entriesOf_fillAll_self (List.Nodup.sublist hfewer hids), Resolver.foldl_enter_alone]
    refine entriesOf_fillAll hids before [s] after ?_
    rw [List.append_assoc, List.singleton_append]

/-- The depth of a bed is the same assignment with the pond and the mistake beside it and without
them, though neither of the two resolves. -/
theorem siblingsApart_depth :
    let schema := Schema.ofClasses "Garden"
      [.ofMembers "Garden" [.adding "bed" [] "Bed" .allowed],
        .ofMembers "Bed" [.property "depth" .int false false]]
      [("Garden", []), ("Bed", [])]
    let name (text : String) : Name := ⟨text, ⟨0, 0⟩⟩
    let pond : Statement := .call ⟨0⟩ ⟨0, 6⟩ (name "pond") [] .absent
    let mistake : Statement := .error ⟨3⟩ ⟨12, 13⟩ "Unexpected ')'"
    let depth : Statement := .assign ⟨4⟩ ⟨14, 23⟩ (name "depth") (.literal ⟨5⟩ ⟨22, 23⟩ (.int 3))
    let bed : Enclosure := ⟨[pond], ⟨1⟩, ⟨7, 25⟩, name "bed", [], ⟨2⟩, ⟨11, 25⟩, []⟩
    let script : Script := ⟨"garden", Enclosure.fillAll [bed] [mistake, depth], ⟨0, 25⟩⟩
    let other : Script := ⟨"garden", Enclosure.fillAll [bed.alone] [depth], ⟨0, 25⟩⟩
    script.nodeIds.Nodup
      ∧ script.entriesOf schema ⟨true⟩ [depth] = other.entriesOf schema ⟨true⟩ [depth]
      ∧ (script.resolve schema ⟨true⟩).toList.map (·.2.reasons?)
          = [some ⟨[.unresolvedSignature]⟩, none, some ⟨[.isError]⟩, none, none] := by
  intro schema name pond mistake depth bed script other
  have hids : script.nodeIds.Nodup := by decide
  exact ⟨hids, (siblingsApart schema ⟨true⟩).alone "garden" ⟨0, 25⟩ [bed] [mistake] [] depth hids,
    by decide⟩

end Script

end Declarative
