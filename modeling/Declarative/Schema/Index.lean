/-!
# Indexes

An index is a list of keys with what is filed under them, each key once. Filing under a new key puts it
at the end, filing under a known one changes what is there.
-/

namespace Declarative.Schema

abbrev Index (α : Type) := List (String × α)

namespace Index

variable {α : Type}

def get? : Index α → String → Option α
  | [], _ => none
  | (k, a) :: rest, key => if key = k then some a else get? rest key

/-- Replaces what is filed under a key by what `f` makes of it. -/
def alter (index : Index α) (key : String) (f : Option α → α) : Index α :=
  match index with
  | [] => [(key, f none)]
  | (k, a) :: rest => if key = k then (k, f (some a)) :: rest else (k, a) :: alter rest key f

/-- Files under a key, in place of what was there. -/
def insert (index : Index α) (key : String) (value : α) : Index α :=
  index.alter key fun _ => value

theorem get?_alter (index : Index α) (key other : String) (f : Option α → α) :
    (index.alter key f).get? other =
      if other = key then some (f (index.get? key)) else index.get? other := by
  induction index with
  | nil => rfl
  | cons entry rest ih =>
    simp only [alter, get?]
    split <;> simp only [get?, ih] <;> grind

/-- What was filed last is what is found. -/
@[simp] theorem get?_insert (index : Index α) (key other : String) (value : α) :
    (index.insert key value).get? other = if other = key then some value else index.get? other :=
  get?_alter ..

end Index

end Declarative.Schema
