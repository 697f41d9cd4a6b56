/-!
# Scopes

The statements of a block resolve against the receiver that the block configures, and if that does not
declare the member, against the receivers around it, from the inside outward. A block whose call did not
resolve has no receiver, and nothing is looked up through it.
-/

namespace Declarative

/-- What the statements of a block resolve against. -/
inductive Scope where
  | receiver (name : String)
  | unresolved
  deriving DecidableEq, Repr

/-- A member found by looking outward. -/
structure Found (α : Type) where
  member : α
  /-- The receiver that declares it. -/
  receiver : String
  /-- Whether that is another receiver than the current one. -/
  isOuter : Bool
  deriving DecidableEq, Repr

/-- The scopes around a statement. The top-level receiver is always at the bottom. -/
structure ScopeStack where
  topLevel : String
  /-- The scopes of the blocks entered, the innermost first. -/
  entered : List Scope
  deriving DecidableEq, Repr

namespace ScopeStack

def new (topLevel : String) : ScopeStack := ⟨topLevel, []⟩

/-- Enters a block. -/
def push (stack : ScopeStack) (scope : Scope) : ScopeStack :=
  { stack with entered := scope :: stack.entered }

/-- Leaves a block; outside of all blocks nothing is left. -/
def pop (stack : ScopeStack) : ScopeStack := { stack with entered := stack.entered.tail }

/-- All scopes from the inside outward. -/
def scopes (stack : ScopeStack) : List Scope := stack.entered ++ [.receiver stack.topLevel]

def depth (stack : ScopeStack) : Nat := stack.scopes.length

def current (stack : ScopeStack) : Scope :=
  match stack.entered with
  | [] => .receiver stack.topLevel
  | scope :: _ => scope

/-- Asks the receivers of scopes in turn until one has what is sought; an unresolved scope ends the
search. `isOuter` says whether scopes further in were asked before. -/
def searchM {m : Type → Type} [Monad m] {α : Type} (find : String → m (Option α)) :
    List Scope → (isOuter : Bool) → m (Option (Found α))
  | [], _ => return none
  | .unresolved :: _, _ => return none
  | .receiver name :: outer, isOuter => do
    match ← find name with
    | some member => return some ⟨member, name, isOuter⟩
    | none => searchM find outer true

/-- Looks for a member from the inside outward, where asking a receiver may have an effect. -/
def lookupM {m : Type → Type} [Monad m] {α : Type} (stack : ScopeStack)
    (find : String → m (Option α)) : m (Option (Found α)) :=
  searchM find stack.scopes false

/-- Looks for a member from the inside outward. -/
def lookup {α : Type} (stack : ScopeStack) (find : String → Option α) : Option (Found α) :=
  stack.lookupM (m := Id) find

@[simp] theorem pop_push (stack : ScopeStack) (scope : Scope) : (stack.push scope).pop = stack :=
  rfl

@[simp] theorem scopes_push (stack : ScopeStack) (scope : Scope) :
    (stack.push scope).scopes = scope :: stack.scopes := rfl

@[simp] theorem current_push (stack : ScopeStack) (scope : Scope) :
    (stack.push scope).current = scope := rfl

theorem scopes_eq_current_cons (stack : ScopeStack) :
    ∃ outer, stack.scopes = stack.current :: outer := by
  cases h : stack.entered <;> simp [scopes, current, h]

end ScopeStack

end Declarative
