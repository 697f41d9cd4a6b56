import Mathlib.Data.List.Chain
import Mathlib.Order.MinMax
import Declarative.Proofs.Merge
import Declarative.Proofs.Parser.Nesting

/-!
# No tree is deep

A walk over a tree calls itself on what a piece of the tree holds, so the calls that are open at once
are a path that leads from an outermost piece inwards (`Path`). On such a path through a script that
was read from tokens there are no more blocks and values than there are levels, whatever the tokens are
(`Script.nestingBounded_ofTokens`). With that the length of all paths is bounded, through the script,
through its document and through the document with the outcomes of any trace.

Blocks are no nodes of a document, and only of calls in blocks are there statements below statements, so
a path through the document is longer by one than the blocks and values on the path through the script.
A document with outcomes has the paths of the document.
-/

namespace Declarative

/-! ## Paths -/

/-- A path through a tree, inwards from an outermost piece. It may stop in front of a leaf. -/
structure Path {α : Type} (outermost : α → Prop) (holds : α → α → Prop) (path : List α) : Prop where
  starts : ∀ piece ∈ path.head?, outermost piece
  goesInwards : path.IsChain holds

namespace Path

variable {α β : Type} {outermost : α → Prop} {holds : α → α → Prop} {path : List α}

/-- What is counted on a path does not exceed the height where it starts, if each step inwards goes
down, and further down where something is counted. -/
theorem countP_le {counted : α → Bool} {height : α → Nat} {bound : Nat}
    (hcounted : ∀ piece, counted piece = true → 1 ≤ height piece)
    (hdown : ∀ outer inner, holds outer inner →
      height inner + (if counted outer then 1 else 0) ≤ height outer)
    (hbound : ∀ piece, outermost piece → height piece ≤ bound) (h : Path outermost holds path) :
    path.countP counted ≤ bound := by
  have hchain : ∀ {path : List α}, path.IsChain holds → ∀ piece ∈ path.head?,
      path.countP counted ≤ height piece := by
    intro path hpath
    induction hpath with
    | nil => nofun
    | singleton piece =>
        rintro _ ⟨⟩
        rw [List.countP_singleton]
        split
        · exact hcounted piece ‹_›
        · exact Nat.zero_le _
    | @cons_cons outer inner rest hholds _ ih =>
        rintro _ ⟨⟩
        rw [List.countP_cons]
        exact (Nat.add_le_add_right (ih inner rfl) _).trans (hdown outer inner hholds)
  cases path with
  | nil => exact Nat.zero_le _
  | cons piece rest => exact (hchain h.goesInwards piece rfl).trans (hbound piece (h.starts piece rfl))

/-- A path is no longer than the height where it starts, if each step inwards goes down. -/
theorem length_le {height : α → Nat} {bound : Nat} (hpos : ∀ piece, 1 ≤ height piece)
    (hdown : ∀ outer inner, holds outer inner → height inner + 1 ≤ height outer)
    (hbound : ∀ piece, outermost piece → height piece ≤ bound) (h : Path outermost holds path) :
    path.length ≤ bound := by
  rw [← List.countP_true]
  exact h.countP_le (fun piece _ => hpos piece) hdown hbound

theorem map {f : α → β} {outermost' : β → Prop} {holds' : β → β → Prop}
    (houtermost : ∀ piece, outermost piece → outermost' (f piece))
    (hholds : ∀ outer inner, holds outer inner → holds' (f outer) (f inner))
    (h : Path outermost holds path) : Path outermost' holds' (path.map f) where
  starts := by
    cases path with
    | nil => nofun
    | cons piece rest =>
        rintro _ ⟨⟩
        exact houtermost piece (h.starts piece rfl)
  goesInwards := (List.isChain_map f).mpr (h.goesInwards.imp hholds)

end Path

/-- The greatest height of a list is not exceeded by any in the list. -/
theorem le_greatest_of_mem {α : Type} (height : α → Nat) (greatest : List α → Nat)
    (hcons : ∀ a as, greatest (a :: as) = max (height a) (greatest as)) {a : α} :
    ∀ {as : List α}, a ∈ as → height a ≤ greatest as
  | first :: others, h => by
      rw [hcons]
      rcases List.mem_cons.mp h with rfl | h
      · exact le_max_left _ _
      · exact (le_greatest_of_mem height greatest hcons h).trans (le_max_right _ _)

/-! ## Paths through scripts -/

/-- What a walk over a script comes by. -/
inductive Script.Piece where
  | statement (statement : Statement)
  | block (id : NodeId) (span : Span) (statements : List Statement)
  | value (value : Value)

namespace Script

namespace Piece

/-- The second piece stands in the first one, with none in between. -/
inductive Holds : Piece → Piece → Prop where
  | argument {id span name arguments body value} (hvalue : value ∈ arguments) :
      Holds (.statement (.call id span name arguments body)) (.value value)
  | body {id span name arguments bid bspan statements} :
      Holds (.statement (.call id span name arguments (.block bid bspan statements)))
        (.block bid bspan statements)
  | assigned {id span target value} :
      Holds (.statement (.assign id span target value)) (.value value)
  | statement {id span statements statement} (hstatement : statement ∈ statements) :
      Holds (.block id span statements) (.statement statement)
  | nested {id span name arguments value} (hvalue : value ∈ arguments) :
      Holds (.value (.factory id span name arguments)) (.value value)

/-- Blocks and values take a level; statements stand on the level of what is around them. -/
def takesLevel : Piece → Bool
  | statement _ => false
  | block _ _ _ => true
  | value _ => true

def height : Piece → Nat
  | statement s => s.plain.height
  | block id span statements => (Body.block id span statements).plain.height
  | value v => v.plain.height

end Piece

/-- A path through the script. -/
def IsPath (script : Script) : List Piece → Prop :=
  Path (fun piece => ∃ s ∈ script.statements, piece = .statement s) Piece.Holds

end Script

theorem Value.height_le_heightAll {value : Value} {values : List Value} (h : value ∈ values) :
    value.plain.height ≤ Plain.Value.heightAll (Value.plainAll values) :=
  le_greatest_of_mem (·.plain.height) (Plain.Value.heightAll ∘ Value.plainAll) (fun _ _ => rfl) h

theorem Statement.height_le_heightAll {s : Statement} {statements : List Statement}
    (h : s ∈ statements) :
    s.plain.height ≤ Plain.Statement.heightAll (Statement.plainAll statements) :=
  le_greatest_of_mem (·.plain.height) (Plain.Statement.heightAll ∘ Statement.plainAll)
    (fun _ _ => rfl) h

namespace Script

namespace Piece

theorem one_le_height : ∀ piece : Piece, piece.takesLevel = true → 1 ≤ piece.height
  | block _ _ _, _ => Nat.le_add_right 1 _
  | value v, _ => v.plain.height_pos

/-- On the way inwards the height goes down by the level that is left behind. -/
theorem Holds.height_le {outer inner : Piece} (h : outer.Holds inner) :
    inner.height + (if outer.takesLevel then 1 else 0) ≤ outer.height := by
  cases h with
  | argument hvalue => exact (Value.height_le_heightAll hvalue).trans (le_max_left _ _)
  | body => exact le_max_right _ _
  | assigned => exact le_rfl
  | statement hstatement =>
      rw [Nat.add_comm]
      exact Nat.add_le_add_left (Statement.height_le_heightAll hstatement) 1
  | nested hvalue =>
      rw [Nat.add_comm]
      exact Nat.add_le_add_left (Value.height_le_heightAll hvalue) 1

/-- How many pieces there are at most on a path from this one on: a statement may stand around every
level and below the last one. -/
def reach : Piece → Nat
  | statement s => 2 * s.plain.height + 1
  | block id span statements => 2 * (Body.block id span statements).plain.height
  | value v => 2 * v.plain.height

theorem one_le_reach : ∀ piece : Piece, 1 ≤ piece.reach
  | statement _ => Nat.le_add_left 1 _
  | block id span statements => by
      have hlevel := (block id span statements).one_le_height rfl
      simp only [height, reach] at hlevel ⊢
      omega
  | value v => by
      have hlevel := (value v).one_le_height rfl
      simp only [height, reach] at hlevel ⊢
      omega

theorem Holds.reach_lt {outer inner : Piece} (h : outer.Holds inner) :
    inner.reach + 1 ≤ outer.reach := by
  have hheight := h.height_le
  cases h <;>
    simp only [height, takesLevel, reach, Bool.false_eq_true, ↓reduceIte] at hheight ⊢ <;> omega

end Piece

/-- On a path through a script that is read from tokens there are no more blocks and values than there
are levels. -/
theorem IsPath.levels_le {source : String} {tokens : List Token} {path : List Piece}
    (h : (ofTokens source tokens).script.IsPath path) :
    path.countP Piece.takesLevel ≤ maxDepth ∧ path.length ≤ 2 * maxDepth + 1 := by
  have hlow := heightAll_ofTokens_le source tokens
  have hstatement {s} (hs : s ∈ (ofTokens source tokens).script.statements) :
      s.plain.height ≤ maxDepth := (Statement.height_le_heightAll hs).trans hlow
  refine ⟨h.countP_le Piece.one_le_height (fun _ _ => Piece.Holds.height_le) ?_,
    h.length_le Piece.one_le_reach (fun _ _ => Piece.Holds.reach_lt) ?_⟩
  · rintro _ ⟨s, hs, rfl⟩
    exact hstatement hs
  · rintro _ ⟨s, hs, rfl⟩
    exact Nat.add_le_add_right (Nat.mul_le_mul_left 2 (hstatement hs)) 1

end Script

/-! ## Paths through documents -/

namespace Document

mutual

/-- The length of the longest path from the value on. -/
def Value.depth : Value → Nat
  | .literal _ _ => 1
  | .factory _ values _ => 1 + Value.depthAll values

def Value.depthAll : List Value → Nat
  | [] => 0
  | value :: values => max value.depth (Value.depthAll values)

end

mutual

def Node.depth : Node → Nat
  | .element _ values content _ => 1 + max (Value.depthAll values) (Node.depthAll content)
  | .property _ value _ => 1 + value.depth
  | .error _ _ => 1

def Node.depthAll : List Node → Nat
  | [] => 0
  | node :: nodes => max node.depth (Node.depthAll nodes)

end

theorem Value.depth_le_depthAll {value : Value} {values : List Value} (h : value ∈ values) :
    value.depth ≤ Value.depthAll values :=
  le_greatest_of_mem Value.depth Value.depthAll (fun _ _ => rfl) h

theorem Node.depth_le_depthAll {node : Node} {nodes : List Node} (h : node ∈ nodes) :
    node.depth ≤ Node.depthAll nodes :=
  le_greatest_of_mem Node.depth Node.depthAll (fun _ _ => rfl) h

inductive Piece where
  | node (node : Node)
  | value (value : Value)

namespace Piece

inductive Holds : Piece → Piece → Prop where
  | argument {name values content origin value} (hvalue : value ∈ values) :
      Holds (.node (.element name values content origin)) (.value value)
  | content {name values content origin node} (hnode : node ∈ content) :
      Holds (.node (.element name values content origin)) (.node node)
  | assigned {name value origin} : Holds (.node (.property name value origin)) (.value value)
  | nested {name values origin value} (hvalue : value ∈ values) :
      Holds (.value (.factory name values origin)) (.value value)

def depth : Piece → Nat
  | node n => n.depth
  | value v => v.depth

theorem one_le_depth : ∀ piece : Piece, 1 ≤ piece.depth
  | node (.element ..) | node (.property ..) | value (.factory ..) => Nat.le_add_right 1 _
  | node (.error ..) | value (.literal ..) => le_rfl

theorem Holds.depth_lt {outer inner : Piece} (h : outer.Holds inner) :
    inner.depth + 1 ≤ outer.depth := by
  rw [Nat.add_comm]
  cases h with
  | argument hvalue =>
      exact Nat.add_le_add_left ((Value.depth_le_depthAll hvalue).trans (le_max_left _ _)) 1
  | content hnode =>
      exact Nat.add_le_add_left ((Node.depth_le_depthAll hnode).trans (le_max_right _ _)) 1
  | assigned => exact le_rfl
  | nested hvalue => exact Nat.add_le_add_left (Value.depth_le_depthAll hvalue) 1

end Piece

def IsPath (document : Document) : List Piece → Prop :=
  Path (fun piece => ∃ node ∈ document.content, piece = .node node) Piece.Holds

theorem IsPath.length_le {document : Document} {path : List Piece} (h : document.IsPath path) :
    path.length ≤ Node.depthAll document.content := by
  refine Path.length_le Piece.one_le_depth (fun _ _ => Piece.Holds.depth_lt) ?_ h
  rintro _ ⟨node, hnode, rfl⟩
  exact Node.depth_le_depthAll hnode

/-! ## Documents of scripts -/

mutual

theorem Value.depth_ofScript : ∀ v : Declarative.Value, (Value.ofScript v).depth = v.plain.height
  | .literal _ _ _ => rfl
  | .factory _ _ _ arguments => congrArg (1 + ·) (Value.depthAll_ofScripts arguments)

theorem Value.depthAll_ofScripts : ∀ vs : List Declarative.Value,
    Value.depthAll (Value.ofScripts vs) = Plain.Value.heightAll (Declarative.Value.plainAll vs)
  | [] => rfl
  | v :: vs => congrArg₂ max (Value.depth_ofScript v) (Value.depthAll_ofScripts vs)

end

mutual

/-- A node stands for a statement, which takes no level. -/
theorem Node.depth_ofStatement_le : ∀ s : Statement,
    (Node.ofStatement s).depth ≤ 1 + s.plain.height
  | .call _ _ _ arguments body =>
      Nat.add_le_add_left (max_le_max (Value.depthAll_ofScripts arguments).le
        (Node.depthAll_ofBody_le body)) 1
  | .assign _ _ _ value => Nat.add_le_add_left (Value.depth_ofScript value).le 1
  | .error _ _ _ => le_rfl

theorem Node.depthAll_ofBody_le : ∀ body : Body,
    Node.depthAll (Node.ofBody body) ≤ body.plain.height
  | .absent => le_rfl
  | .block _ _ statements => Node.depthAll_ofStatements_le statements

theorem Node.depthAll_ofStatements_le : ∀ ss : List Statement,
    Node.depthAll (Node.ofStatements ss) ≤ 1 + Plain.Statement.heightAll (Statement.plainAll ss)
  | [] => Nat.zero_le _
  | s :: ss => by
      refine max_le ((Node.depth_ofStatement_le s).trans ?_)
        ((Node.depthAll_ofStatements_le ss).trans ?_)
      · exact Nat.add_le_add_left (le_max_left _ _) 1
      · exact Nat.add_le_add_left (le_max_right _ _) 1

end

end Document

/-! ## Paths through resolved documents -/

namespace Resolved

inductive Piece where
  | node (node : Node)
  | value (value : Value)

namespace Piece

inductive Holds : Piece → Piece → Prop where
  | argument {name values content origin resolution value} (hvalue : value ∈ values) :
      Holds (.node (.element name values content origin resolution)) (.value value)
  | content {name values content origin resolution node} (hnode : node ∈ content) :
      Holds (.node (.element name values content origin resolution)) (.node node)
  | assigned {name value origin resolution} :
      Holds (.node (.property name value origin resolution)) (.value value)
  | nested {name values origin resolution value} (hvalue : value ∈ values) :
      Holds (.value (.factory name values origin resolution)) (.value value)

def strip : Piece → Document.Piece
  | node n => .node n.strip
  | value v => .value v.strip

end Piece

theorem Value.stripAll_eq_map (values : List Value) :
    Value.stripAll values = values.map Value.strip := by
  induction values with
  | nil => rfl
  | cons value values ih => rw [Value.stripAll, List.map_cons, ih]

theorem Node.stripAll_eq_map (nodes : List Node) : Node.stripAll nodes = nodes.map Node.strip := by
  induction nodes with
  | nil => rfl
  | cons node nodes ih => rw [Node.stripAll, List.map_cons, ih]

theorem Value.strip_mem_stripAll {value : Value} {values : List Value} (h : value ∈ values) :
    value.strip ∈ Value.stripAll values :=
  Value.stripAll_eq_map values ▸ List.mem_map_of_mem h

theorem Node.strip_mem_stripAll {node : Node} {nodes : List Node} (h : node ∈ nodes) :
    node.strip ∈ Node.stripAll nodes :=
  Node.stripAll_eq_map nodes ▸ List.mem_map_of_mem h

theorem Piece.Holds.strip {outer inner : Piece} (h : outer.Holds inner) :
    outer.strip.Holds inner.strip := by
  cases h with
  | argument hvalue => exact .argument (Value.strip_mem_stripAll hvalue)
  | content hnode => exact .content (Node.strip_mem_stripAll hnode)
  | assigned => exact .assigned
  | nested hvalue => exact .nested (Value.strip_mem_stripAll hvalue)

end Resolved

namespace ResolvedDocument

def IsPath (document : ResolvedDocument) : List Resolved.Piece → Prop :=
  Path (fun piece => ∃ node ∈ document.content, piece = .node node) Resolved.Piece.Holds

/-- Without its resolutions it is a path through the document. -/
theorem IsPath.strip {document : ResolvedDocument} {path : List Resolved.Piece}
    (h : document.IsPath path) : document.strip.IsPath (path.map Resolved.Piece.strip) := by
  refine Path.map ?_ (fun _ _ => Resolved.Piece.Holds.strip) h
  rintro _ ⟨node, hnode, rfl⟩
  exact ⟨node.strip, Resolved.Node.strip_mem_stripAll hnode, rfl⟩

end ResolvedDocument

namespace Script

/-- Whatever the tokens are, no path through the script has more than 256 blocks and values, so the
paths through the script, its document and this document with any outcomes are short; and every parser
for values, arguments, blocks and statements leaves the level as it was. -/
theorem nestingBounded_ofTokens (source : String) (tokens : List Token) :
    let script := (ofTokens source tokens).script
    let document := Document.ofScript script
    (∀ path, script.IsPath path → path.countP Piece.takesLevel ≤ 256 ∧ path.length ≤ 513)
      ∧ (∀ path, document.IsPath path → path.length ≤ 257)
      ∧ (∀ trace path, (document.resolveWith trace).IsPath path → path.length ≤ 257)
      ∧ ∀ fuel, Parser.KeepsLevels (Parser.value fuel) (Parser.block fuel) := by
  intro script document
  have hdocument : Document.Node.depthAll document.content ≤ 257 :=
    (Document.Node.depthAll_ofStatements_le script.statements).trans
      (Nat.add_le_add_left (heightAll_ofTokens_le source tokens) 1)
  refine ⟨fun path => IsPath.levels_le, fun path hpath => hpath.length_le.trans hdocument,
    fun trace path hpath => ?_, Parser.keepsLevels⟩
  have hstripped := hpath.strip
  rw [ResolvedDocument.strip, Document.resolveWith,
    Resolved.Node.stripAll_ofDocuments trace document.content] at hstripped
  have hlength := hstripped.length_le.trans hdocument
  rwa [List.length_map] at hlength

end Script

end Declarative
