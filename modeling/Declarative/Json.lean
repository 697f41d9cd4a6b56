/-!
# JSON values

Objects are lists of members in the order of the text; a key may occur in it twice, which is for the
reader of an object to judge.
-/

namespace Declarative

inductive Json where
  | null
  | bool (value : Bool)
  /-- A number that is written with digits alone. -/
  | natural (value : Nat)
  /-- Any other number, `mantissa` times ten to the power `exponent`. -/
  | decimal (mantissa exponent : Int)
  | string (value : String)
  | array (elements : List Json)
  | object (members : List (String × Json))
  /-- What is written as it should be but denotes nothing: half of a surrogate pair in a text or in a
  key of the object, or a number beyond the range of numbers. -/
  | void
  deriving Repr

namespace Json

mutual

/-- Whether everything in the value denotes something and containers are nested at most `levels` deep. -/
def isSound (levels : Nat) : Json → Bool
  | void => false
  | array elements => 0 < levels && areSound (levels - 1) elements
  | object members => 0 < levels && areSoundMembers (levels - 1) members
  | _ => true

def areSound (levels : Nat) : List Json → Bool
  | [] => true
  | element :: elements => isSound levels element && areSound levels elements

def areSoundMembers (levels : Nat) : List (String × Json) → Bool
  | [] => true
  | (_, value) :: members => isSound levels value && areSoundMembers levels members

end

/-- The fields of a record with these names, each with its value where it is given. A record is written as
an object, in which no field is given twice and other keys mean nothing, or as an array of its first
fields in order. -/
def record? (fields : List String) : Json → Option (List (Option Json))
  | object members =>
    if fields.all fun field => (members.filter (·.1 == field)).length ≤ 1 then
      some (fields.map fun field => members.lookup field)
    else
      none
  | array elements =>
    if elements.length ≤ fields.length then
      some (elements.map some ++ List.replicate (fields.length - elements.length) none)
    else
      none
  | _ => none

def string? : Json → Option String
  | string value => some value
  | _ => none

def bool? : Json → Option Bool
  | bool value => some value
  | _ => none

/-- The elements of an array, each read by `element?`. -/
def list? {α : Type} (element? : Json → Option α) : Json → Option (List α)
  | array elements => elements.mapM element?
  | _ => none

/-- A field that must be given. -/
def required {α : Type} (read? : Json → Option α) (field : Option Json) : Option α :=
  field.bind read?

/-- A field that has a value of its own where it is not given. -/
def optional {α : Type} (read? : Json → Option α) (default : α) : Option Json → Option α
  | none => some default
  | some value => read? value

end Json

end Declarative
