import Declarative.Proofs.Judgement
import Declarative.Proofs.Schema.Reordering

/-!
# Resolving does not depend on the order of declarations

Two schemas that answer alike may list the overloads of a name in different orders. Looking
outward then stops at the same receiver, with the same functions in another order
(`ScopeStack.lookup_rel`). Which of them stands out is not a question of their order: it is the
only one, or the only one with exactly the types of the arguments (`Resolver.mostFitting?_perm`).
So each outcome is the same, and by one recursion over the script so is the trace
(`Schema.AnswersAlike.resolve_eq`).
-/

namespace Declarative

/-! ## Looking outward for members that are related -/

/-- The same receiver was found, and members that are related. -/
structure Found.Alike {α β : Type} (R : α → β → Prop) (a : Found α) (b : Found β) : Prop where
  member : R a.member b.member
  receiver : a.receiver = b.receiver
  isOuter : a.isOuter = b.isOuter

namespace ScopeStack

variable {α β : Type} {R : α → β → Prop} {find : String → Option α} {find' : String → Option β}
  (hfind : ∀ receiver, Option.Rel R (find receiver) (find' receiver))

include hfind

theorem searchM_rel : ∀ (scopes : List Scope) (isOuter : Bool),
    Option.Rel (Found.Alike R) (searchM (m := Id) find scopes isOuter)
      (searchM (m := Id) find' scopes isOuter)
  | [], _ => .none
  | .unresolved :: _, _ => .none
  | .receiver name :: outer, isOuter => by
      have hname := hfind name
      cases ha : find name with
      | none =>
          cases hb : find' name with
          | none =>
              rw [searchM_receiver_none ha, searchM_receiver_none hb]
              exact searchM_rel outer true
          | some _ => rw [ha, hb] at hname; cases hname
      | some a =>
          cases hb : find' name with
          | none => rw [ha, hb] at hname; cases hname
          | some b =>
              rw [ha, hb] at hname
              cases hname with
              | some hab =>
                  rw [searchM_receiver_some ha, searchM_receiver_some hb]
                  exact .some ⟨hab, rfl, rfl⟩

theorem lookup_rel (stack : ScopeStack) :
    Option.Rel (Found.Alike R) (stack.lookup find) (stack.lookup find') :=
  searchM_rel hfind stack.scopes false

end ScopeStack

/-! ## Choosing among overloads -/

namespace Resolver

/-- Neither condition under which a function stands out looks at the order. -/
theorem mostFitting?_perm (types : List DataType) {functions others : List Schema.Function}
    (hperm : functions.Perm others) : mostFitting? types functions = mostFitting? types others := by
  match functions, others, hperm.length_eq with
  | [], [], _ => rfl
  | [f], [g], _ =>
      obtain rfl := List.singleton_perm_singleton.mp hperm
      rfl
  | f₁ :: f₂ :: functions, g₁ :: g₂ :: others, _ =>
      have hexact := hperm.filter (·.parameters == types)
      simp only [mostFitting?]
      split
      · rename_i f hone
        rw [hone] at hexact
        rw [← List.singleton_perm.mp hexact]
      · rename_i hmany
        split
        · rename_i g hone
          rw [hone] at hexact
          exact absurd (List.perm_singleton.mp hexact) (hmany g)
        · rfl

end Resolver

namespace Schema.AnswersAlike

open Resolver

variable {s t : Schema}

section

variable (h : s.AnswersAlike t)

include h

theorem candidates?_rel (site : CallSite) (name receiver : String) :
    Option.Rel List.Perm (candidates? s site name receiver) (candidates? t site name receiver) := by
  have hperm := (h.functionsNamed receiver name).filter site.admits
  unfold candidates?
  cases hs : (s.functionsNamed receiver name).filter site.admits with
  | nil =>
      rw [hs, List.nil_perm] at hperm
      rw [hperm]
      exact .none
  | cons f functions =>
      cases ht : (t.functionsNamed receiver name).filter site.admits with
      | nil => simp [hs, ht] at hperm
      | cons g others => exact .some (hs ▸ ht ▸ hperm)

theorem argumentsMatch_eq (f : Function) (types : List DataType) :
    argumentsMatch s f types = argumentsMatch t f types := by
  unfold argumentsMatch
  simp only [h.isAssignable]

theorem selectFunction_eq (settings : Settings) (stack : ScopeStack) (site : CallSite)
    (name : String) (types : List (Option DataType)) :
    selectFunction s settings stack site name types
      = selectFunction t settings stack site name types := by
  have hfound := stack.lookup_rel (h.candidates?_rel site name)
  unfold selectFunction
  generalize stack.lookup (candidates? s site name) = found at hfound ⊢
  generalize stack.lookup (candidates? t site name) = found' at hfound ⊢
  cases hfound with
  | none => rfl
  | @some found found' hsame =>
      cases types.mapM id with
      | none => rfl
      | some types =>
          have hfitting : (found.member.filter fun f =>
                site.acceptsBlock f && argumentsMatch s f types).Perm
              (found'.member.filter fun f => site.acceptsBlock f && argumentsMatch t f types) := by
            simp only [h.argumentsMatch_eq]
            exact hsame.member.filter _
          simp only [mostFitting?_perm types hfitting, hsame.receiver, hsame.isOuter]

/-! ## Outcomes and traces -/

theorem factoryOutcome_eq (settings : Settings) (stack : ScopeStack) (name : String)
    (types : List (Option DataType)) :
    factoryOutcome s settings stack name types = factoryOutcome t settings stack name types := by
  unfold factoryOutcome
  rw [h.selectFunction_eq]

theorem elementOutcome_eq (settings : Settings) (stack : ScopeStack) (hasBlock : Bool)
    (name : String) (types : List (Option DataType)) :
    elementOutcome s settings stack hasBlock name types
      = elementOutcome t settings stack hasBlock name types := by
  unfold elementOutcome
  rw [h.selectFunction_eq]

theorem assignmentOutcome_eq (settings : Settings) (stack : ScopeStack) (name : String)
    (type : Option DataType) :
    assignmentOutcome s settings stack name type = assignmentOutcome t settings stack name type := by
  unfold assignmentOutcome
  simp only [h.property?, h.isAssignable]

end

mutual

theorem value_eq (h : s.AnswersAlike t) (settings : Settings) (stack : ScopeStack) :
    ∀ v : Value, value s settings stack v = value t settings stack v
  | .literal _ _ _ => rfl
  | .factory _ _ _ arguments => by
      simp only [value, values_eq h settings stack arguments, h.factoryOutcome_eq]

theorem values_eq (h : s.AnswersAlike t) (settings : Settings) (stack : ScopeStack) :
    ∀ vs : List Value, values s settings stack vs = values t settings stack vs
  | [] => rfl
  | first :: others => by
      simp only [values, value_eq h settings stack first, values_eq h settings stack others]

end

mutual

theorem statement_eq (h : s.AnswersAlike t) (settings : Settings) (stack : ScopeStack) :
    ∀ statement : Statement,
      Resolver.statement s settings stack statement = Resolver.statement t settings stack statement
  | .call _ _ _ _ block => by
      simp only [Resolver.statement, h.values_eq, h.elementOutcome_eq,
        body_eq h settings stack _ block]
  | .assign _ _ _ _ => by
      simp only [Resolver.statement, h.value_eq, h.assignmentOutcome_eq]
  | .error _ _ _ => rfl

theorem body_eq (h : s.AnswersAlike t) (settings : Settings) (stack : ScopeStack) (scope : Scope) :
    ∀ block : Body, body s settings stack scope block = body t settings stack scope block
  | .absent => rfl
  | .block _ _ inner => by
      simp only [body, statements_eq h settings (stack.push scope) inner]

theorem statements_eq (h : s.AnswersAlike t) (settings : Settings) (stack : ScopeStack) :
    ∀ ss : List Statement, statements s settings stack ss = statements t settings stack ss
  | [] => rfl
  | first :: others => by
      simp only [statements, statement_eq h settings stack first,
        statements_eq h settings _ others]

end

/-- Schemas that answer alike give every script the same trace. -/
theorem resolve_eq (h : s.AnswersAlike t) (settings : Settings) (script : Script) :
    script.resolve s settings = script.resolve t settings := by
  rw [Script.resolve, Script.resolve, h.topLevel, h.statements_eq]

end Schema.AnswersAlike

namespace Schema

/-- **Nothing depends on the order of declarations.** Builders that declare the same in any order
are built together or refused together, and their schemas give every script the same trace. -/
theorem resolve_eq_of_reordered {a b : Builder} (h : a.Reordered b) :
    ((∃ s, a.build = .ok s) ↔ ∃ t, b.build = .ok t)
      ∧ ∀ s t, a.build = .ok s → b.build = .ok t → ∀ (settings : Settings) (script : Script),
          script.resolve s settings = script.resolve t settings := by
  refine ⟨⟨?_, ?_⟩, ?_⟩
  · rintro ⟨s, hs⟩
    exact Builder.exists_build_of_valid (h.valid (Builder.valid_of_build hs))
  · rintro ⟨t, ht⟩
    exact Builder.exists_build_of_valid (h.symm.valid (Builder.valid_of_build ht))
  · intro s t hs ht settings script
    exact (answersAlike_of_reordered h hs ht).resolve_eq settings script

/-- Three plants make an `Int` row, whether or not the `Long` one is declared before it. -/
theorem resolve_eq_of_reordered_rows :
    let garden := DataClass.ofMembers "Garden"
      [.adding "row" [.int] "Plot" .allowed, .adding "row" [.long] "Ground" .allowed]
    let garden' := DataClass.ofMembers "Garden"
      [.adding "row" [.long] "Ground" .allowed, .adding "row" [.int] "Plot" .allowed]
    let plot := DataClass.ofMembers "Plot" [.supertype "Ground", .supertype "Place"]
    let plot' := DataClass.ofMembers "Plot" [.supertype "Place", .supertype "Ground"]
    let a : Builder := ⟨"Garden", [garden, plot, .empty "Ground", .empty "Place"]⟩
    let b : Builder := ⟨"Garden", [.empty "Place", plot', garden', .empty "Ground"]⟩
    let s := ofClasses "Garden" a.classes
      [("Garden", []), ("Plot", ["Place", "Ground"]), ("Ground", []), ("Place", [])]
    let t := ofClasses "Garden" b.classes
      [("Place", []), ("Plot", ["Ground", "Place"]), ("Garden", []), ("Ground", [])]
    let script : Script := ⟨"rows", [.call ⟨0⟩ ⟨0, 6⟩ ⟨"row", ⟨0, 3⟩⟩
      [.literal ⟨1⟩ ⟨4, 5⟩ (.int 3)] .absent], ⟨0, 6⟩⟩
    a.Reordered b ∧ a.build = .ok s ∧ b.build = .ok t
      ∧ script.resolve s ⟨true⟩ = script.resolve t ⟨true⟩
      ∧ (script.resolve t ⟨true⟩).get? ⟨0⟩ = some (.element (.resolved (.added "Garden" "Plot"
          ⟨"Garden", "row", [.int], .named "Plot", .adding "Plot" .allowed⟩))) := by
  intro garden garden' plot plot' a b s t script
  have hreordered : a.Reordered b := by
    refine ⟨rfl, [.empty "Place", plot, garden, .empty "Ground"], by decide, ?_⟩
    refine .cons ?_ (.cons ?_ (.cons ?_ (.cons ?_ .nil)))
    all_goals exact ⟨rfl, by decide, by decide, by decide⟩
  have hs : a.build = .ok s := rfl
  have ht : b.build = .ok t := rfl
  exact ⟨hreordered, hs, ht, (resolve_eq_of_reordered hreordered).2 s t hs ht _ _, by decide⟩

end Schema

end Declarative
