import Mathlib.Data.List.Induction
import Declarative.Proofs.Judgement

/-!
# Looking outward

Whatever blocks were entered and left, and however often more than were open, the stack holds the
scopes of the blocks that are still open (`Opens`), and the top-level receiver below them. A look-up on
such a stack asks one receiver after the other, from the inside outward, until one has what is sought or
a scope is unresolved (`Looks`).

Whoever is asked may remember it and answer otherwise the next time. So an answer is not a fact about
the receiver, but about the state in which it was asked: what is said of a look-up is which answers
the finder gives when it is asked about these receivers in this order.
-/

namespace Declarative

namespace ScopeStack

/-! ## Histories -/

/-- What can be done to a stack. -/
inductive Operation where
  | push (scope : Scope)
  | pop
  deriving DecidableEq, Repr

def perform (stack : ScopeStack) : Operation → ScopeStack
  | .push scope => stack.push scope
  | .pop => stack.pop

/-- The stack behind a history that begins outside of all blocks. -/
def after (topLevel : String) (history : List Operation) : ScopeStack :=
  history.foldl perform (new topLevel)

/-- Each block entered is left again, and no other one is. -/
inductive Balanced : List Operation → Prop where
  | nil : Balanced []
  | block {scope inner rest} (hinner : Balanced inner) (hrest : Balanced rest) :
      Balanced (.push scope :: (inner ++ .pop :: rest))

/-- Behind the history these scopes are open, the innermost first. Leaving a block where none is open
does nothing. -/
inductive Opens : List Operation → List Scope → Prop where
  | nil : Opens [] []
  | surplus {history} : Opens history [] → Opens (history ++ [.pop]) []
  | push {history opened scope} :
      Opens history opened → Opens (history ++ [.push scope]) (scope :: opened)
  | balanced {history opened inner} (hinner : Balanced inner) :
      Opens history opened → Opens (history ++ inner) opened

theorem Balanced.append {first second : List Operation} (hfirst : Balanced first)
    (hsecond : Balanced second) : Balanced (first ++ second) := by
  induction hfirst with
  | nil => exact hsecond
  | block hinner _ _ ih =>
      rw [List.cons_append, List.append_assoc, List.cons_append]
      exact .block hinner ih

theorem Balanced.foldl_perform {inner : List Operation} (h : Balanced inner) :
    ∀ stack : ScopeStack, inner.foldl perform stack = stack := by
  induction h with
  | nil => exact fun _ => rfl
  | block _ _ ihinner ihrest =>
      intro stack
      rw [List.foldl_cons, List.foldl_append, ihinner, List.foldl_cons, ihrest]
      exact pop_push ..

/-- The innermost of the open blocks was entered at some point, and since then only blocks inside of
it were. -/
theorem Opens.exists_push {history : List Operation} {scope : Scope} {opened : List Scope}
    (h : Opens history (scope :: opened)) :
    ∃ before inner, history = before ++ .push scope :: inner
      ∧ Opens before opened ∧ Balanced inner := by
  generalize hall : scope :: opened = all at h
  induction h with
  | nil => cases hall
  | surplus => cases hall
  | push h _ =>
      cases hall
      exact ⟨_, [], rfl, h, .nil⟩
  | balanced hbalanced _ ih =>
      obtain ⟨before, inner, rfl, hbefore, hinner⟩ := ih hall
      refine ⟨before, inner ++ _, ?_, hbefore, hinner.append hbalanced⟩
      rw [List.append_assoc, List.cons_append]

theorem Opens.pop {history : List Operation} {opened : List Scope} (h : Opens history opened) :
    Opens (history ++ [.pop]) opened.tail := by
  cases opened with
  | nil => exact .surplus h
  | cons scope opened =>
      obtain ⟨before, inner, rfl, hbefore, hinner⟩ := h.exists_push
      rw [List.append_assoc]
      exact .balanced (.block hinner .nil) hbefore

theorem after_append_singleton (topLevel : String) (history : List Operation)
    (operation : Operation) :
    after topLevel (history ++ [operation]) = (after topLevel history).perform operation := by
  rw [after, List.foldl_append]
  rfl

theorem topLevel_perform (stack : ScopeStack) (operation : Operation) :
    (stack.perform operation).topLevel = stack.topLevel := by
  cases operation <;> rfl

theorem topLevel_after (topLevel : String) (history : List Operation) :
    (after topLevel history).topLevel = topLevel := by
  induction history using List.reverseRecOn with
  | nil => rfl
  | append_singleton history operation ih =>
      rw [after_append_singleton, topLevel_perform, ih]

theorem opens_after (topLevel : String) (history : List Operation) :
    Opens history (after topLevel history).entered := by
  induction history using List.reverseRecOn with
  | nil => exact .nil
  | append_singleton history operation ih =>
      rw [after_append_singleton]
      cases operation with
      | push scope => exact ih.push
      | pop => exact ih.pop

theorem entered_after {history : List Operation} {opened : List Scope} (h : Opens history opened)
    (topLevel : String) : (after topLevel history).entered = opened := by
  induction h with
  | nil => rfl
  | surplus _ ih => rw [after_append_singleton, perform, ScopeStack.pop, ih, List.tail_nil]
  | push _ ih => rw [after_append_singleton, perform, ScopeStack.push, ih]
  | balanced hinner _ ih => rw [after, List.foldl_append, hinner.foldl_perform, ← after, ih]

theorem scopes_after {history : List Operation} {opened : List Scope} (h : Opens history opened)
    (topLevel : String) :
    (after topLevel history).scopes = opened ++ [.receiver topLevel] := by
  rw [scopes, entered_after h, topLevel_after]

/-! ## Looking up -/

variable {σ α : Type} {find : String → StateM σ (Option α)}

/-- The finder, which also notes down about whom it is asked. -/
def noting (find : String → StateM σ (Option α)) (name : String) :
    StateM (σ × List String) (Option α) := fun memory =>
  let answered := (find name).run memory.1
  (answered.1, (answered.2, memory.2 ++ [name]))

/-- What a look-up comes to where the finder is in the state `before`: about whom it is asked, in this
order, what is found, and the state of the finder then. -/
inductive Looks (find : String → StateM σ (Option α)) (scopes : List Scope) (before : σ) :
    List String → Option (Found α) → σ → Prop where
  /-- The receivers further in answer that they do not have it, and the next one has. -/
  | hit (inner) {receiver outer member isOuter later}
      (hscopes : scopes = inner.map .receiver ++ .receiver receiver :: outer)
      (hanswers : ((inner ++ [receiver]).mapM find).run before
        = (inner.map (fun _ => none) ++ [some member], later))
      (houter : isOuter = true ↔ inner ≠ []) :
      Looks find scopes before (inner ++ [receiver]) (some ⟨member, receiver, isOuter⟩) later
  /-- Nobody has it up to an unresolved scope, or up to the top level. -/
  | miss {asked rest later} (hscopes : scopes = asked.map .receiver ++ rest)
      (hstop : rest = [] ∨ rest.head? = some .unresolved)
      (hanswers : (asked.mapM find).run before = (asked.map fun _ => none, later)) :
      Looks find scopes before asked none later

theorem run_noting {name : String} {before later : σ} {answer : Option α}
    (h : (find name).run before = (answer, later)) (asked : List String) :
    (noting find name).run (before, asked) = (answer, (later, asked ++ [name])) := by
  change (((find name).run before).1, (((find name).run before).2, asked ++ [name])) = _
  rw [h]

theorem run_searchM_some {name : String} {member : α} {before later : σ}
    (h : (find name).run before = (some member, later)) (outer : List Scope) (isOuter : Bool) :
    (searchM find (.receiver name :: outer) isOuter).run before
      = (some ⟨member, name, isOuter⟩, later) := by
  rw [searchM, StateT.run_bind, h]
  rfl

theorem run_searchM_none {name : String} {before later : σ}
    (h : (find name).run before = (none, later)) (outer : List Scope) (isOuter : Bool) :
    (searchM find (.receiver name :: outer) isOuter).run before
      = (searchM find outer true).run later := by
  rw [searchM, StateT.run_bind, h]
  rfl

theorem run_mapM_cons {name : String} {before between later : σ} {answer : Option α}
    {names : List String} {answers : List (Option α)} (hfirst : (find name).run before = (answer, between))
    (hrest : (names.mapM find).run between = (answers, later)) :
    ((name :: names).mapM find).run before = (answer :: answers, later) := by
  rw [List.mapM_cons, StateT.run_bind, hfirst]
  change StateT.run (names.mapM find >>= fun answers => pure (answer :: answers)) between = _
  rw [StateT.run_bind, hrest]
  rfl

/-- What is found is behind scopes that were asked before, if it was not already. -/
def outside (isOuter : Bool) (found : Found α) : Found α :=
  { found with isOuter := isOuter || found.isOuter }

theorem map_outside_false (found : Option (Found α)) : found.map (outside false) = found := by
  cases found <;> simp [outside]

theorem map_outside_true (isOuter : Bool) (found : Option (Found α)) :
    (found.map (outside true)).map (outside isOuter) = found.map (outside true) := by
  cases found <;> simp [outside]

/-- A search through the scopes comes to this look-up, with the asking noted down or not, and whatever was
asked further in before: that is told by the place of what is found. -/
structure Searched (find : String → StateM σ (Option α)) (scopes : List Scope) (before : σ)
    (asked : List String) (found : Option (Found α)) (later : σ) : Prop where
  looks : Looks find scopes before asked found later
  plain : ∀ isOuter, (searchM find scopes isOuter).run before = (found.map (outside isOuter), later)
  noted : ∀ isOuter earlier, (searchM (noting find) scopes isOuter).run (before, earlier)
    = (found.map (outside isOuter), (later, earlier ++ asked))

theorem searchM_of_stop {scopes : List Scope} (h : scopes = [] ∨ scopes.head? = some .unresolved)
    (find : String → StateM σ (Option α)) (isOuter : Bool) :
    searchM find scopes isOuter = pure none := by
  rcases h with rfl | h
  · rfl
  · obtain ⟨outer, rfl⟩ := List.head?_eq_some_iff.mp h
    rfl

theorem searched_of_stop {scopes : List Scope} (h : scopes = [] ∨ scopes.head? = some .unresolved)
    (find : String → StateM σ (Option α)) (before : σ) :
    Searched find scopes before [] none before where
  looks := .miss rfl h rfl
  plain isOuter := by
    rw [searchM_of_stop h]
    rfl
  noted isOuter earlier := by
    rw [searchM_of_stop h, List.append_nil]
    rfl

theorem searched_of_some {name : String} {member : α} {before later : σ}
    (h : (find name).run before = (some member, later)) (outer : List Scope) :
    Searched find (.receiver name :: outer) before [name] (some ⟨member, name, false⟩) later where
  looks := .hit [] rfl (run_mapM_cons h rfl) (by simp)
  plain isOuter := by rw [run_searchM_some h, Option.map_some, outside, Bool.or_false]
  noted isOuter earlier := by
    rw [run_searchM_some (run_noting h earlier), Option.map_some, outside, Bool.or_false]

section

variable {name : String} {scopes : List Scope} {before between later : σ} {asked : List String}
  {found : Option (Found α)} (hnone : (find name).run before = (none, between))

include hnone

theorem Looks.behind (h : Looks find scopes between asked found later) :
    Looks find (.receiver name :: scopes) before (name :: asked) (found.map (outside true)) later := by
  cases h with
  | hit inner hscopes hanswers houter =>
      rw [hscopes]
      exact .hit (name :: inner) rfl (run_mapM_cons hnone hanswers) (by simp)
  | miss hscopes hstop hanswers =>
      rw [hscopes]
      exact .miss (List.cons_append ..).symm hstop (run_mapM_cons hnone hanswers)

theorem Searched.behind (h : Searched find scopes between asked found later) :
    Searched find (.receiver name :: scopes) before (name :: asked) (found.map (outside true))
      later where
  looks := h.looks.behind hnone
  plain isOuter := by rw [run_searchM_none hnone, h.plain, map_outside_true]
  noted isOuter earlier := by
    rw [run_searchM_none (run_noting hnone earlier), h.noted, map_outside_true, List.append_assoc,
      List.singleton_append]

end

theorem exists_searched (find : String → StateM σ (Option α)) (scopes : List Scope) (before : σ) :
    ∃ asked found later, Searched find scopes before asked found later := by
  induction scopes generalizing before with
  | nil => exact ⟨_, _, _, searched_of_stop (Or.inl rfl) find before⟩
  | cons scope outer ih =>
      cases scope with
      | unresolved => exact ⟨_, _, _, searched_of_stop (Or.inr rfl) find before⟩
      | receiver name =>
          obtain ⟨answer, between, hasked⟩ :
              ∃ answer between, (find name).run before = (answer, between) := ⟨_, _, rfl⟩
          cases answer with
          | some member => exact ⟨_, _, _, searched_of_some hasked outer⟩
          | none =>
              -- the scopes further out are searched by the finder as it is after it was asked here
              obtain ⟨asked, found, later, hsearched⟩ := ih between
              exact ⟨_, _, _, hsearched.behind hasked⟩

/-- **A look-up goes from the inside outward**: behind any history of blocks the stack holds the open
scopes with the top-level receiver below them, and a finder in any state is asked about one receiver
after the other, up to the first that has what is sought or up to an unresolved scope. -/
theorem looks_outward (topLevel : String) (history : List Operation)
    (find : String → StateM σ (Option α)) (before : σ) :
    let stack := after topLevel history
    ∃ opened asked found later,
      Opens history opened
      ∧ stack.scopes = opened ++ [.receiver topLevel]
      ∧ 1 ≤ stack.depth
      ∧ (stack.lookupM find).run before = (found, later)
      ∧ (stack.lookupM (noting find)).run (before, []) = (found, (later, asked))
      ∧ Looks find stack.scopes before asked found later := by
  intro stack
  have hopens := opens_after topLevel history
  have hscopes := scopes_after hopens topLevel
  obtain ⟨asked, found, later, hsearched⟩ := exists_searched find stack.scopes before
  refine ⟨stack.entered, asked, found, later, hopens, hscopes, ?_, ?_, ?_, hsearched.looks⟩
  · rw [depth, hscopes, List.length_append]
    exact Nat.le_add_left ..
  · rw [lookupM, hsearched.plain, map_outside_false]
  · rw [lookupM, hsearched.noted, map_outside_false, List.nil_append]

-- who is asked a second time may have what was sought in vain the first time
example :
    ((after "Garden" [.pop, .push (.receiver "Bed"), .push (.receiver "Bed")]).lookupM
        (m := StateM Nat) fun _ => modifyGet fun n => (if n = 1 then some n else none, n + 1)).run 0
      = (some ⟨1, "Bed", true⟩, 2) := rfl

theorem run_searchM_pure (find : String → Option α) (state : σ) (scopes : List Scope)
    (isOuter : Bool) :
    (searchM (m := StateM σ) (fun name => pure (find name)) scopes isOuter).run state
      = (searchM (m := Id) find scopes isOuter, state) := by
  induction scopes generalizing isOuter with
  | nil => rfl
  | cons scope outer ih =>
      cases scope with
      | unresolved => rfl
      | receiver name =>
          have hasked : (pure (find name) : StateM σ (Option α)).run state = (find name, state) := rfl
          cases hfind : find name with
          | some member =>
              rw [run_searchM_some (hasked.trans (by rw [hfind])), searchM_receiver_some hfind]
          | none => rw [run_searchM_none (hasked.trans (by rw [hfind])), searchM_receiver_none hfind, ih]

/-- The finders of the resolver have no memory: what `lookup` finds by such a one is what the look-up
finds by it, in whatever state. -/
theorem run_lookupM_pure (stack : ScopeStack) (find : String → Option α) (state : σ) :
    (stack.lookupM (m := StateM σ) fun name => pure (find name)).run state
      = (stack.lookup find, state) :=
  run_searchM_pure find state stack.scopes false

end ScopeStack

end Declarative
