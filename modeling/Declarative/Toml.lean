/-!
# TOML tables

A TOML text consists of lines: headers, each of which opens a table or begins another table of an array, and
entries, which go into the table opened last. No table is opened twice and no key is given twice; what may
still be added to a table depends on how it came to be.
-/

namespace Declarative.Toml

/-- How a table came to be. -/
inductive Origin where
  /-- A header opened it, or it is the whole text. -/
  | header
  /-- The header of a table further inside has passed through it. -/
  | implied
  /-- A key with dots made it, or has passed through it since. -/
  | dotted
  /-- It is written between braces, and complete. -/
  | inline
  deriving DecidableEq, Repr

/-- What a table counts as once a header, or a key with dots, has passed through it. Headers pass through all
tables that are not complete and leave them as they are. Keys with dots do not pass through tables that a header
has opened, and no header can open a table any more that such a key has passed through. -/
def Origin.passed? (byDots : Bool) : Origin → Option Origin
  | header => if byDots then none else some header
  | implied => some (if byDots then dotted else implied)
  | dotted => some dotted
  | inline => none

inductive Value where
  | string (content : String)
  | integer (value : Int)
  /-- The number `mantissa` times ten to the power `exponent`. -/
  | decimal (mantissa exponent : Int)
  /-- An infinity, or what is not a number. -/
  | nonFinite
  | bool (value : Bool)
  /-- A date, a time, or both. -/
  | moment (text : String)
  /-- What is written like a number and denotes none: it is beyond the range of numbers, or has no digits
  where they should be. -/
  | void
  /-- An array; one that is growing gets another table with each header in two brackets. -/
  | array (isGrowing : Bool) (elements : List Value)
  /-- A table with its entries in the order in which they were made. -/
  | table (origin : Origin) (entries : List (String × Value))
  deriving Repr

/-- A key with dots: the tables on the way, and the key in the last one. -/
structure Key where
  path : List String
  last : String
  deriving DecidableEq, Repr

def Key.parts (key : Key) : List String := key.path ++ [key.last]

inductive Line where
  /-- Opens a table. -/
  | header (key : Key)
  /-- Begins another table of an array. -/
  | element (key : Key)
  | entry (key : Key) (value : Value)
  deriving Repr

namespace Value

mutual

/-- Whether every number in the value denotes one. -/
def isSound : Value → Bool
  | void => false
  | array _ elements => areSound elements
  | table _ entries => areSoundEntries entries
  | _ => true

def areSound : List Value → Bool
  | [] => true
  | element :: elements => isSound element && areSound elements

def areSoundEntries : List (String × Value) → Bool
  | [] => true
  | (_, value) :: entries => isSound value && areSoundEntries entries

end

/-- Changes the value of a key, or gives it one, as `change` says. -/
def changeEntry (key : String) (change : Option Value → Option Value) :
    List (String × Value) → Option (List (String × Value))
  | [] => (change none).map fun value => [(key, value)]
  | (other, value) :: entries =>
    if other = key then
      (change (some value)).map fun value => (other, value) :: entries
    else
      (changeEntry key change entries).map ((other, value) :: ·)

/-- Changes the value of a key of a table. -/
def changeKey (key : String) (change : Option Value → Option Value) : Value → Option Value
  | table origin entries => (changeEntry key change entries).map (table origin)
  | _ => none

/-- Changes the table at the end of a path. Tables that are not there are made on the way; the way through a
growing array leads to its last table. -/
def changeAt (byDots : Bool) : List String → (Value → Option Value) → Value → Option Value
  | [], change, value => change value
  | key :: path, change, value => value.changeKey key fun
    | none => changeAt byDots path change (table (if byDots then .dotted else .implied) [])
    | some (table origin entries) => do changeAt byDots path change (table (← origin.passed? byDots) entries)
    | some (array true elements) => do
      let last ← elements.getLast?
      let last ← changeAt byDots path change last
      return array true (elements.dropLast ++ [last])
    | some _ => none

/-- Whether the value is a table that keys with dots may add to. -/
def isDotted : Value → Bool
  | table .dotted _ => true
  | _ => false

/-- Makes an entry. Its key must be new. A key with dots may lead through the last table of a growing array, but
not end there: a header began that table. -/
def insert? (whole : Value) (key : Key) (value : Value) : Option Value :=
  changeAt true key.path enter whole
where
  enter (target : Value) : Option Value := do
    guard (key.path.isEmpty ∨ target.isDotted)
    target.changeKey key.last fun
      | none => some value
      | some _ => none

/-- Opens a table, which must be new or only passed through so far. -/
def openTable? (key : Key) : Value → Option Value :=
  changeAt false key.path <| changeKey key.last fun
    | none => some (table .header [])
    | some (table .implied entries) => some (table .header entries)
    | some _ => none

/-- Begins another table of an array, which must be new or growing. -/
def appendTable? (key : Key) : Value → Option Value :=
  changeAt false key.path <| changeKey key.last fun
    | none => some (array true [table .header []])
    | some (array true elements) => some (array true (elements ++ [table .header []]))
    | some _ => none

/-- The table of entries between braces. -/
def ofEntries? (entries : List (Key × Value)) : Option Value := do
  let filled ← entries.foldlM (fun t (key, value) => t.insert? key value) (table .header [])
  match filled with
  | table _ entries => return table .inline entries
  | _ => none

/-- What the lines have made so far, and the path to the table opened last. -/
structure Draft where
  root : Value
  opened : List String
  deriving Repr

def Draft.add? (draft : Draft) : Line → Option Draft
  | .header key => do return ⟨← draft.root.openTable? key, key.parts⟩
  | .element key => do return ⟨← draft.root.appendTable? key, key.parts⟩
  | .entry key value => do
    return ⟨← draft.root.changeAt false draft.opened (·.insert? key value), draft.opened⟩

/-- The table that lines make. -/
def ofLines? (lines : List Line) : Option Value :=
  (lines.foldlM Draft.add? ⟨table .header [], []⟩).map (·.root)

end Value

end Declarative.Toml
