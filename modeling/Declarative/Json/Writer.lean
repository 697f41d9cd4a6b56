import Declarative.Json
import Declarative.Text.Quoted
import Declarative.Text.Style

/-!
# Writing JSON

Values are written with every element and every member on a line of its own, indented by two blanks a
level. In texts only what has to be escaped is escaped.
-/

namespace Declarative.Json

/-- How a character is written in a text. -/
def escape (c : Char) : List Char :=
  match c with
  | '"' => ['\\', '"']
  | '\\' => ['\\', '\\']
  | '\x08' => ['\\', 'b']
  | '\x0c' => ['\\', 'f']
  | '\n' => ['\\', 'n']
  | '\r' => ['\\', 'r']
  | '\t' => ['\\', 't']
  | c =>
    if c < ' ' then
      ['\\', 'u', '0', '0', Text.hexDigit (c.toNat / 16), Text.hexDigit (c.toNat % 16)]
    else
      [c]

def quote (text : String) : String :=
  String.ofList ('"' :: (text.toList.flatMap escape ++ ['"']))

/-- Elements between brackets, each on a line of its own; nothing at all between them if there are
none. -/
def bracket (level : Nat) (opening closing : String) : List String → String
  | [] => opening ++ closing
  | elements =>
    let blanks := Text.blanks (2 * (level + 1))
    opening ++ "\n" ++ ",\n".intercalate (elements.map (blanks ++ ·)) ++ "\n" ++
      Text.blanks (2 * level) ++ closing

mutual

/-- The value as text, where its first line stands at a level. -/
def pretty (level : Nat) : Json → String
  | null | void => "null"
  | bool value => if value then "true" else "false"
  | natural value => toString value
  | decimal mantissa exponent => toString mantissa ++ "e" ++ toString exponent
  | string value => quote value
  | array elements => bracket level "[" "]" (prettyAll (level + 1) elements)
  | object members => bracket level "\x7b" "\x7d" (prettyMembers (level + 1) members)

def prettyAll (level : Nat) : List Json → List String
  | [] => []
  | element :: elements => pretty level element :: prettyAll level elements

def prettyMembers (level : Nat) : List (String × Json) → List String
  | [] => []
  | (key, value) :: members =>
    (quote key ++ ": " ++ pretty level value) :: prettyMembers level members

end

/-- The value as text on several lines. -/
def render (json : Json) : String := pretty 0 json

end Declarative.Json
