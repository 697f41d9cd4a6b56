import Mathlib.Data.List.Forall2
import Declarative.Proofs.Schema.Declared
import Declarative.Resolver

/-!
# When calls and assignments resolve

A declarative account of what a call binds to (`Binds`) and of what can be assigned
(`Assigns`), by the declarations of the schema and the scopes around. It knows no stack,
no index and no order of search: the receiver is the innermost one that has a member of
the name, and the function is the one that stands out among those that fit.

The stack of the resolver looks outward from scope to scope, and stops at one that is
unresolved. Where a stack is grounded, so that nothing inside of an unresolved scope has a
receiver, what it finds is the nearest receiver of the judgement
(`ScopeStack.lookup_nearest_iff`).
-/

namespace Declarative

open Resolver (CallSite)

/-! ## The judgement -/

/-- The receiver is the innermost one among the scopes that has what is sought. Under
strict checks it must be the innermost scope of all. -/
def Nearest (strict : Bool) (scopes : List Scope) (has : String → Prop) (receiver : String) : Prop :=
  ∃ inner outer, scopes = inner ++ .receiver receiver :: outer
    ∧ has receiver
    ∧ (∀ other, .receiver other ∈ inner → ¬has other)
    ∧ (strict = true → inner = [])

/-- Statements call functions that add or configure, values call plain ones. -/
def Fits : CallSite → Schema.Function → Prop
  | .statement _, f => f.semantics ≠ .plain
  | .value, f => f.semantics = .plain

/-- A function that adds an element can ask for a block or refuse it. -/
def MeetsBlockRule (site : CallSite) (f : Schema.Function) : Prop :=
  ∀ hasBlock produced rule, site = .statement hasBlock → f.semantics = .adding produced rule →
    (rule = .required → hasBlock = true) ∧ (rule = .notAllowed → hasBlock = false)

/-- A function that the receiver declares under the name for calls in such a place. -/
def Usable (schema : Schema) (site : CallSite) (name receiver : String) (f : Schema.Function) : Prop :=
  schema.Declares receiver f ∧ f.name = name ∧ Fits site f

/-- The function takes as many arguments as there are, of types that can stand where its
parameters are declared, and its block rule is met. -/
def Applicable (schema : Schema) (site : CallSite) (name receiver : String) (types : List DataType)
    (f : Schema.Function) : Prop :=
  Usable schema site name receiver f
    ∧ List.Forall₂ schema.Assignable types f.parameters
    ∧ MeetsBlockRule site f

/-- A call of the name, with arguments of these types and inside of these scopes, binds to
the function `f` of the receiver. -/
structure Binds (schema : Schema) (settings : Settings) (scopes : List Scope) (site : CallSite)
    (name : String) (types : List DataType) (receiver : String) (f : Schema.Function) : Prop where
  /-- The block around has a receiver. -/
  resolved : ∃ current, scopes.head? = some (.receiver current)
  nearest : Nearest settings.strict scopes
    (fun other => ∃ g, Usable schema site name other g) receiver
  applicable : Applicable schema site name receiver types f
  /-- The function is the only applicable one, or the only one of them that takes exactly
  these types. -/
  chosen : (∀ g, Applicable schema site name receiver types g → g = f)
    ∨ (f.parameters = types
        ∧ ∀ g, Applicable schema site name receiver types g → g.parameters = types → g = f)

/-- A value of the type can be assigned, inside of these scopes, to the property `p` of
the receiver. -/
structure Assigns (schema : Schema) (settings : Settings) (scopes : List Scope) (name : String)
    (type : DataType) (receiver : String) (p : Schema.Property) : Prop where
  /-- The block around has a receiver. -/
  resolved : ∃ current, scopes.head? = some (.receiver current)
  nearest : Nearest settings.strict scopes
    (fun other => ∃ q, schema.DeclaresProperty other q ∧ q.name = name) receiver
  declared : schema.DeclaresProperty receiver p ∧ p.name = name
  writable : p.readOnly = false
  assignable : schema.Assignable type p.type

/-! ## Looking outward -/

namespace ScopeStack

section

variable {α : Type} {find : String → Option α}

theorem searchM_receiver_some {name : String} {member : α} (h : find name = some member)
    (outer : List Scope) (isOuter : Bool) :
    searchM (m := Id) find (.receiver name :: outer) isOuter = some ⟨member, name, isOuter⟩ := by
  simp only [searchM, h]
  rfl

theorem searchM_receiver_none {name : String} (h : find name = none) (outer : List Scope)
    (isOuter : Bool) :
    searchM (m := Id) find (.receiver name :: outer) isOuter
      = searchM (m := Id) find outer true := by
  simp only [searchM, h]
  rfl

/-- Behind receivers that do not have it, what is sought is found at the first that does. -/
theorem searchM_append {receiver : String} {member : α} (h : find receiver = some member)
    (outer : List Scope) : ∀ {inner : List Scope} {isOuter : Bool},
    (∀ scope ∈ inner, ∃ other, scope = .receiver other ∧ find other = none) →
    searchM (m := Id) find (inner ++ .receiver receiver :: outer) isOuter
      = some ⟨member, receiver, isOuter || !inner.isEmpty⟩
  | [], isOuter, _ => by
      rw [List.nil_append, searchM_receiver_some h]
      simp
  | scope :: inner, isOuter, hinner => by
      obtain ⟨other, rfl, hnone⟩ := hinner scope (List.mem_cons_self ..)
      rw [List.cons_append, searchM_receiver_none hnone,
        searchM_append h outer fun s hs => hinner s (List.mem_cons_of_mem _ hs)]
      simp

theorem exists_of_searchM_eq_some {found : Found α} : ∀ {scopes : List Scope} {isOuter : Bool},
    searchM (m := Id) find scopes isOuter = some found →
      ∃ inner outer, scopes = inner ++ .receiver found.receiver :: outer
        ∧ find found.receiver = some found.member
        ∧ (∀ scope ∈ inner, ∃ other, scope = .receiver other ∧ find other = none)
        ∧ found.isOuter = (isOuter || !inner.isEmpty)
  | [], _, h => by cases h
  | .unresolved :: _, _, h => by cases h
  | .receiver name :: scopes, isOuter, h => by
      cases hfind : find name with
      | some member =>
          rw [searchM_receiver_some hfind] at h
          obtain rfl := Option.some.inj h
          exact ⟨[], scopes, rfl, hfind, by simp, by simp⟩
      | none =>
          rw [searchM_receiver_none hfind] at h
          obtain ⟨inner, outer, rfl, hmember, hinner, houter⟩ := exists_of_searchM_eq_some h
          refine ⟨.receiver name :: inner, outer, rfl, hmember, ?_, by simpa using houter⟩
          intro scope hscope
          rcases List.mem_cons.mp hscope with rfl | hscope
          · exact ⟨name, rfl, hfind⟩
          · exact hinner scope hscope

/-- A look-up finds something at the first receiver that has it, if only receivers stand
in front. -/
theorem lookup_eq_some_iff {stack : ScopeStack} {found : Found α} :
    stack.lookup find = some found ↔
      ∃ inner outer, stack.scopes = inner ++ .receiver found.receiver :: outer
        ∧ find found.receiver = some found.member
        ∧ (∀ scope ∈ inner, ∃ other, scope = .receiver other ∧ find other = none)
        ∧ found.isOuter = !inner.isEmpty := by
  constructor
  · intro h
    exact exists_of_searchM_eq_some h
  · rintro ⟨inner, outer, hscopes, hmember, hinner, houter⟩
    rw [lookup, lookupM, hscopes, searchM_append hmember outer hinner]
    simp [← houter]

end

theorem head?_scopes (stack : ScopeStack) : stack.scopes.head? = some stack.current := by
  obtain ⟨outer, houter⟩ := stack.scopes_eq_current_cons
  rw [houter, List.head?_cons]

/-- No scope around is unresolved. -/
def AllResolved (scopes : List Scope) : Prop := ∀ scope ∈ scopes, ∃ name, scope = .receiver name

/-- Where the innermost scope has a receiver, so have those around it. -/
def Grounded (stack : ScopeStack) : Prop :=
  (∃ name, stack.current = .receiver name) → AllResolved stack.scopes

theorem grounded_new (topLevel : String) : (ScopeStack.new topLevel).Grounded := by
  intro _ scope hscope
  exact ⟨topLevel, by simpa [ScopeStack.new, scopes] using hscope⟩

/-- A scope with a receiver may only be entered from one that has a receiver. -/
theorem Grounded.push {stack : ScopeStack} (h : stack.Grounded) {scope : Scope}
    (hscope : (∃ name, scope = .receiver name) → ∃ name, stack.current = .receiver name) :
    (stack.push scope).Grounded := by
  rintro ⟨name, hname⟩ other hother
  rw [current_push] at hname
  rw [scopes_push] at hother
  rcases List.mem_cons.mp hother with rfl | hother
  · exact ⟨name, hname⟩
  · exact h (hscope ⟨name, hname⟩) other hother

/-- Where all scopes are resolved, the receiver that a look-up finds is the nearest one,
and strictness asks whether it is found further out. -/
theorem lookup_nearest_iff {α : Type} {find : String → Option α} {stack : ScopeStack}
    (hscopes : AllResolved stack.scopes) {strict : Bool} {receiver : String} {member : α} :
    (∃ isOuter, stack.lookup find = some ⟨member, receiver, isOuter⟩ ∧ (isOuter && strict) = false)
      ↔ find receiver = some member
        ∧ Nearest strict stack.scopes (fun other => (find other).isSome) receiver := by
  constructor
  · rintro ⟨isOuter, hlookup, hstrict⟩
    obtain ⟨inner, outer, hsplit, hmember, hinner, houter⟩ := lookup_eq_some_iff.mp hlookup
    refine ⟨hmember, inner, outer, hsplit, by simp [hmember], ?_, ?_⟩
    · intro other hother
      obtain ⟨_, hname, hnone⟩ := hinner _ hother
      obtain rfl := Scope.receiver.inj hname
      simp [hnone]
    · rintro rfl
      have houter : isOuter = !inner.isEmpty := houter
      simpa [houter] using hstrict
  · rintro ⟨hmember, inner, outer, hsplit, -, hinner, hstrict⟩
    refine ⟨!inner.isEmpty, lookup_eq_some_iff.mpr ⟨inner, outer, hsplit, hmember, ?_, rfl⟩, ?_⟩
    · intro scope hscope
      obtain ⟨other, rfl⟩ := hscopes scope (hsplit ▸ List.mem_append_left _ hscope)
      exact ⟨other, rfl, by simpa using hinner other hscope⟩
    · cases strict with
      | false => simp
      | true => simp [hstrict rfl]

section

variable {α : Type} {find : String → Option α} {stack : ScopeStack}

theorem searchM_eq_none_iff : ∀ {scopes : List Scope} {isOuter : Bool}, AllResolved scopes →
    (searchM (m := Id) find scopes isOuter = none
      ↔ ∀ receiver, .receiver receiver ∈ scopes → find receiver = none)
  | [], _, _ => iff_of_true rfl (by simp)
  | scope :: scopes, isOuter, hscopes => by
      obtain ⟨⟨name, rfl⟩, hrest⟩ := List.forall_mem_cons.mp hscopes
      cases hfind : find name with
      | some member =>
          rw [searchM_receiver_some hfind]
          refine iff_of_false (Option.some_ne_none _) fun hnone => ?_
          rw [hnone name (List.mem_cons_self ..)] at hfind
          cases hfind
      | none =>
          rw [searchM_receiver_none hfind, searchM_eq_none_iff hrest]
          simp [hfind]

/-- Nothing is found just where no receiver has what is sought. -/
theorem lookup_eq_none_iff (hscopes : AllResolved stack.scopes) :
    stack.lookup find = none ↔ ∀ receiver, .receiver receiver ∈ stack.scopes → find receiver = none :=
  searchM_eq_none_iff hscopes

/-- What is found further out is not of the current receiver. -/
theorem isOuter_iff_of_lookup {found : Found α} (h : stack.lookup find = some found) :
    found.isOuter = true ↔ stack.scopes.head? ≠ some (.receiver found.receiver) := by
  obtain ⟨inner, outer, hscopes, hmember, hinner, houter⟩ := lookup_eq_some_iff.mp h
  rw [hscopes, houter]
  cases inner with
  | nil => simp
  | cons scope inner =>
      obtain ⟨other, rfl, hnone⟩ := hinner scope (List.mem_cons_self ..)
      refine iff_of_true rfl fun hhead => ?_
      obtain rfl := Scope.receiver.inj (Option.some.inj hhead)
      rw [hmember] at hnone
      cases hnone

end

end ScopeStack

theorem Nearest.congr {strict : Bool} {scopes : List Scope} {has has' : String → Prop}
    (h : ∀ name, has name ↔ has' name) {receiver : String} :
    Nearest strict scopes has receiver ↔ Nearest strict scopes has' receiver := by
  simp only [Nearest, h]

end Declarative
