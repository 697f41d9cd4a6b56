import Declarative.Proofs.Preorder
import Declarative.Text.Utf8

/-!
# Outlines of scripts

What of a statement, block or value can be seen in a text: the span it takes, the name that is
written at its start, and the parts inside of it. A row of outlines is laid between two offsets
(`Laid`) if each part starts behind the one before it, and what is inside of a part is laid out
between the part's start and its end. That is one induction, and the facts about all parts at all
depths are read off it: they nest, they do not overlap, and their starts go up in preorder.
-/

namespace Declarative

/-- A statement, block or value by its span, its name if it has one, and its parts. -/
inductive Outline where
  | part (span : Span) (name? : Option String) (inside : List Outline)

namespace Outline

def span : Outline → Span
  | part span _ _ => span

def name? : Outline → Option String
  | part _ name? _ => name?

def inside : Outline → List Outline
  | part _ _ inside => inside

mutual

/-- The outline and all outlines inside of it, in preorder. -/
def parts : Outline → List Outline
  | part span name? inside => part span name? inside :: partsAll inside

def partsAll : List Outline → List Outline
  | [] => []
  | outline :: others => parts outline ++ partsAll others

end

theorem partsAll_append (outlines others : List Outline) :
    partsAll (outlines ++ others) = partsAll outlines ++ partsAll others := by
  induction outlines with
  | nil => rfl
  | cons outline outlines ih => rw [List.cons_append, partsAll, partsAll, ih, List.append_assoc]

/-- The name is written in the text from the offset on. -/
def Written (text : List Char) (start : Nat) (name : String) : Prop :=
  Text.slice? text start (start + Text.width name.toList) = some name.toList

/-! ## Laying out -/

/-- The outlines stand one behind the other between two offsets of the text, and so do the parts of
each between its start and its end. -/
inductive Laid (text : List Char) : Nat → List Outline → Nat → Prop where
  | nil {lo hi} : lo ≤ hi → Laid text lo [] hi
  | cons {lo span name? inside others hi} (hlo : lo ≤ span.start)
      (hname : ∀ name, name? = some name → Written text span.start name)
      (hinside : Laid text (span.start + 1) inside span.stop)
      (hothers : Laid text span.stop others hi) :
      Laid text lo (.part span name? inside :: others) hi

namespace Laid

variable {text : List Char} {lo mid hi : Nat} {outlines others : List Outline}

theorem lo_le_hi (h : Laid text lo outlines hi) : lo ≤ hi := by
  induction h with
  | nil hle => exact hle
  | cons hlo _ _ _ hinside hothers => omega

theorem raise (h : Laid text mid outlines hi) (hle : lo ≤ mid) : Laid text lo outlines hi := by
  cases h with
  | nil hhi => exact .nil (Nat.le_trans hle hhi)
  | cons hmid hname hinside hothers => exact .cons (Nat.le_trans hle hmid) hname hinside hothers

theorem append (h : Laid text lo outlines mid) (hothers : Laid text mid others hi) :
    Laid text lo (outlines ++ others) hi := by
  induction h with
  | nil hle => exact hothers.raise hle
  | cons hlo hname hinside _ _ ih => exact .cons hlo hname hinside (ih hothers)

theorem widen (h : Laid text lo outlines mid) (hle : mid ≤ hi) : Laid text lo outlines hi := by
  have hall := h.append (.nil hle)
  rwa [List.append_nil] at hall

/-- A part without parts takes some of the text. -/
theorem single {span : Span} {name? : Option String} (hlo : lo ≤ span.start)
    (hname : ∀ name, name? = some name → Written text span.start name)
    (hinside : Laid text (span.start + 1) outlines span.stop) (hhi : span.stop ≤ hi) :
    Laid text lo [.part span name? outlines] hi :=
  .cons hlo hname hinside (.nil hhi)

theorem bounds (h : Laid text lo outlines hi) :
    ∀ part ∈ outlines, lo ≤ part.span.start ∧ part.span.start < part.span.stop
      ∧ part.span.stop ≤ hi := by
  induction h with
  | nil _ => simp
  | cons hlo _ hinside hothers _ ih =>
      intro part hpart
      have hnonempty := hinside.lo_le_hi
      have hrest := hothers.lo_le_hi
      rcases List.mem_cons.mp hpart with rfl | hpart
      · exact ⟨hlo, hnonempty, hrest⟩
      · have := ih part hpart
        omega

theorem pairwise (h : Laid text lo outlines hi) :
    outlines.Pairwise fun a b => a.span.stop ≤ b.span.start := by
  induction h with
  | nil _ => exact .nil
  | cons _ _ _ hothers _ ih => exact .cons (fun b hb => (hothers.bounds b hb).1) ih

theorem head_start_le {first : Outline} (h : Laid text lo (first :: others) hi) :
    ∀ part ∈ first :: others, first.span.start ≤ part.span.start := by
  intro part hpart
  have hfirst := h.bounds first (List.mem_cons_self ..)
  rcases List.mem_cons.mp hpart with rfl | hpart
  · exact Nat.le_refl _
  · have hle := (List.pairwise_cons.mp h.pairwise).1 part hpart
    omega

/-- What is said of an outline among others is said of every part of it as well. -/
theorem of_mem (h : Laid text lo outlines hi) :
    ∀ part ∈ partsAll outlines, lo ≤ part.span.start ∧ part.span.stop ≤ hi
      ∧ Laid text (part.span.start + 1) part.inside part.span.stop
      ∧ ∀ name, part.name? = some name → Written text part.span.start name := by
  induction h with
  | nil _ => simp [partsAll]
  | @cons lo span name? inside others hi hlo hname hinside hothers ih₁ ih₂ =>
      intro part hpart
      have hnonempty := hinside.lo_le_hi
      have hrest := hothers.lo_le_hi
      rcases List.mem_append.mp hpart with hpart | hpart
      · rcases List.mem_cons.mp hpart with rfl | hpart
        · exact ⟨hlo, hrest, hinside, hname⟩
        · obtain ⟨hstart, hstop, hlaid⟩ := ih₁ part hpart
          exact ⟨by omega, by omega, hlaid⟩
      · obtain ⟨hstart, hstop, hlaid⟩ := ih₂ part hpart
        exact ⟨by omega, hstop, hlaid⟩

theorem starts_pairwise (h : Laid text lo outlines hi) :
    (partsAll outlines).Pairwise fun a b => a.span.start < b.span.start := by
  induction h with
  | nil _ => exact .nil
  | @cons lo span name? inside others hi hlo hname hinside hothers ih₁ ih₂ =>
      refine List.pairwise_append.mpr ⟨.cons ?_ ih₁, ih₂, ?_⟩
      · intro b hb
        exact (hinside.of_mem b hb).1
      · intro a ha b hb
        have hafter := (hothers.of_mem b hb).1
        have hnonempty := hinside.lo_le_hi
        rcases List.mem_cons.mp ha with rfl | ha
        · exact Nat.le_trans hnonempty hafter
        · obtain ⟨-, hstop, hlaid, -⟩ := hinside.of_mem a ha
          have hsize := hlaid.lo_le_hi
          omega

end Laid

end Outline

/-! ## Outlines of statements -/

mutual

def Value.outline : Value → Outline
  | .literal _ span _ => .part span none []
  | .factory _ span name arguments => .part span (some name.text) (Value.outlines arguments)

def Value.outlines : List Value → List Outline
  | [] => []
  | value :: values => value.outline :: Value.outlines values

end

mutual

def Statement.outline : Statement → Outline
  | .call _ span name arguments body =>
    .part span (some name.text) (Value.outlines arguments ++ body.outlines)
  | .assign _ span target value => .part span (some target.text) [value.outline]
  | .error _ span _ => .part span none []

def Body.outlines : Body → List Outline
  | .absent => []
  | .block _ span statements => [.part span none (Statement.outlines statements)]

def Statement.outlines : List Statement → List Outline
  | [] => []
  | statement :: statements => statement.outline :: Statement.outlines statements

end

@[simp] theorem Statement.span_outline (s : Statement) : s.outline.span = s.span := by
  cases s <;> rfl

theorem Statement.outlines_eq_map (statements : List Statement) :
    Statement.outlines statements = statements.map Statement.outline := by
  induction statements with
  | nil => rfl
  | cons s statements ih => rw [Statement.outlines, ih, List.map_cons]

def Script.outlines (script : Script) : List Outline := Statement.outlines script.statements

mutual

theorem Value.spans_preorder : ∀ v : Value,
    v.preorder.map Script.Node.span = v.outline.parts.map Outline.span
  | .literal _ _ _ => rfl
  | .factory _ _ _ arguments => by
      rw [Value.preorder, Value.outline, Outline.parts, List.map_cons, List.map_cons,
        Value.spans_preorderAll arguments]
      rfl

theorem Value.spans_preorderAll : ∀ vs : List Value,
    (Value.preorderAll vs).map Script.Node.span
      = (Outline.partsAll (Value.outlines vs)).map Outline.span
  | [] => rfl
  | v :: vs => by
      rw [Value.preorderAll, Value.outlines, Outline.partsAll, List.map_append, List.map_append,
        Value.spans_preorder v, Value.spans_preorderAll vs]

end

mutual

/-- The parts that are no nodes are blocks. -/
theorem Statement.spans_sublist : ∀ s : Statement,
    (s.preorder.map Script.Node.span).Sublist (s.outline.parts.map Outline.span)
  | .call _ _ _ arguments body => by
      rw [Statement.preorder, Statement.outline, Outline.parts, Outline.partsAll_append,
        List.map_cons, List.map_cons, List.map_append, List.map_append,
        Value.spans_preorderAll arguments]
      exact .cons_cons _ ((List.Sublist.refl _).append (Statement.spans_sublist_body body))
  | .assign _ _ _ value => by
      rw [Statement.preorder, Statement.outline, Outline.parts, List.map_cons, List.map_cons,
        Value.spans_preorder value, Outline.partsAll, Outline.partsAll, List.append_nil]
      exact .refl _
  | .error _ _ _ => .refl _

theorem Statement.spans_sublist_body : ∀ body : Body,
    ((Statement.preorderBody body).map Script.Node.span).Sublist
      ((Outline.partsAll body.outlines).map Outline.span)
  | .absent => .refl _
  | .block _ _ statements => by
      rw [Statement.preorderBody, Body.outlines, Outline.partsAll, Outline.partsAll,
        List.append_nil, Outline.parts, List.map_cons]
      exact .cons _ (Statement.spans_sublist_all statements)

theorem Statement.spans_sublist_all : ∀ ss : List Statement,
    ((Statement.preorderAll ss).map Script.Node.span).Sublist
      ((Outline.partsAll (Statement.outlines ss)).map Outline.span)
  | [] => .refl _
  | s :: ss => by
      rw [Statement.preorderAll, Statement.outlines, Outline.partsAll, List.map_append,
        List.map_append]
      exact (Statement.spans_sublist s).append (Statement.spans_sublist_all ss)

end

end Declarative
