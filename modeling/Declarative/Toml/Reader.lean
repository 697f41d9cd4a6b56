import Declarative.Toml.Quoted
import Declarative.Toml.Scalar

/-!
# Reading TOML

Each reader takes the text from a place on and returns what it has read with the text behind it, or nothing
if no such thing starts there.
-/

namespace Declarative.Toml

/-! ## Between values -/

/-- The text from the end of the line on, without the comment that stands in front of it. -/
def afterComment? : List Char → Option (List Char)
  | '\n' :: r => some ('\n' :: r)
  | '\r' :: '\n' :: r => some ('\r' :: '\n' :: r)
  | c :: r => if isControl c then none else afterComment? r
  | [] => some []

/-- Passes over the rest of a line, on which there is at most a comment. -/
def endLine? (cs : List Char) : Option (List Char) := do
  let r ← match skipBlanks cs with
    | '#' :: r => afterComment? r
    | r => some r
  match r with
  | '\n' :: rest | '\r' :: '\n' :: rest => return rest
  | [] => return []
  | _ => none

/-- Passes over blanks, line breaks and comments. -/
def skipGap? (inComment : Bool) : List Char → Option (List Char)
  | '\n' :: r => skipGap? false r
  | '\r' :: '\n' :: r => skipGap? false r
  | c :: r =>
    if inComment then (if isControl c then none else skipGap? true r)
    else if isBlank c then skipGap? false r
    else if c = '#' then skipGap? true r
    else some (c :: r)
  | [] => some []

/-! ## Keys -/

/-- Characters of keys without quotes. -/
def isKeyChar (c : Char) : Bool := c.isAlphanum || c == '_' || c == '-'

def keyPart (cs : List Char) : Option (String × List Char) :=
  match cs with
  | '"' :: r => Quoting.read ⟨'"', false⟩ r
  | '\x27' :: r => Quoting.read ⟨'\x27', false⟩ r
  | _ =>
    match cs.takeWhile isKeyChar with
    | [] => none
    | part => some (String.ofList part, cs.dropWhile isKeyChar)

/-- The parts of a key with blanks around them. -/
def keyParts : (fuel : Nat) → List Char → Option (Key × List Char)
  | 0, _ => none
  | fuel + 1, cs => do
    let (first, r) ← keyPart (skipBlanks cs)
    match skipBlanks r with
    | '.' :: r =>
      let (key, rest) ← keyParts fuel r
      return (⟨first :: key.path, key.last⟩, rest)
    | rest => return (⟨[], first⟩, rest)

/-- How many parts a key may have. -/
def maxParts : Nat := 80

def key (cs : List Char) : Option (Key × List Char) := do
  let (k, rest) ← keyParts cs.length cs
  guard (k.parts.length ≤ maxParts)
  return (k, rest)

/-! ## Values -/

/-- How deep values may be nested. -/
def maxLevels : Nat := 80

/-- Characters that are not part of a word. -/
def endsWord (c : Char) : Bool :=
  isBlank c || ['\n', '\r', ',', '=', '#', '[', ']', '\x7b', '\x7d'].contains c

/-- Characters with which a word starts or goes on behind blanks. Quotes are not, but they can be inside. -/
def startsWord (c : Char) : Bool := !endsWord c && c != '"' && c != '\x27'

/-- The characters of the word at the head. Words with only blanks between them are one word: a date with its
time is. -/
def wordChars : List Char → List Char
  | [] => []
  | c :: r =>
    if !endsWord c || isBlank c && (skipBlanks r).head?.any startsWord then c :: wordChars r
    else []

def word (cs : List Char) : Option (Value × List Char) := do
  let chars := wordChars cs
  return (← Value.ofWord? chars, cs.drop chars.length)

/-- Reads items with commas between them, up to the bracket that closes them. There may be a comma behind
the last one. The fuel bounds the number of items. -/
def items {α : Type} (item : List Char → Option (α × List Char)) (close : Char) :
    (fuel : Nat) → List Char → Option (List α × List Char)
  | 0, _ => none
  | fuel + 1, cs => do
    let r ← skipGap? false cs
    if r.head? = some close then
      return ([], r.tail)
    let (first, r) ← item r
    match ← skipGap? false r with
    | ',' :: r =>
      let (others, rest) ← items item close fuel r
      return (first :: others, rest)
    | c :: rest =>
      guard (c = close)
      return ([first], rest)
    | [] => none

/-- Reads a key with a value behind an equals sign; `skip?` passes over what may stand on either side of the
sign. -/
def entry (skip? : List Char → Option (List Char)) (value : List Char → Option (Value × List Char))
    (cs : List Char) : Option ((Key × Value) × List Char) := do
  let (k, r) ← key cs
  match ← skip? r with
  | '=' :: r =>
    let (v, rest) ← value (← skip? r)
    return ((k, v), rest)
  | _ => none

/-- Reads a text, an array, a table between braces, or a word. Arrays and tables are nested at most `levels`
deep. Line breaks and comments may stand between the parts of an entry of a table between braces. -/
def value (levels : Nat) (cs : List Char) : Option (Value × List Char) :=
  match cs with
  | '"' :: '"' :: '"' :: r => (Quoting.read ⟨'"', true⟩ r).map fun (text, rest) => (.string text, rest)
  | '"' :: r => (Quoting.read ⟨'"', false⟩ r).map fun (text, rest) => (.string text, rest)
  | '\x27' :: '\x27' :: '\x27' :: r =>
    (Quoting.read ⟨'\x27', true⟩ r).map fun (text, rest) => (.string text, rest)
  | '\x27' :: r => (Quoting.read ⟨'\x27', false⟩ r).map fun (text, rest) => (.string text, rest)
  | '[' :: r =>
    match levels with
    | 0 => none
    | levels + 1 => do
      let (elements, rest) ← items (fun r => value levels r) ']' (r.length + 1) r
      return (.array false elements, rest)
  | '\x7b' :: r =>
    match levels with
    | 0 => none
    | levels + 1 => do
      let (entries, rest) ← items (entry (skipGap? false) fun r => value levels r) '\x7d' (r.length + 1) r
      return (← Value.ofEntries? entries, rest)
  | _ => word cs

/-! ## Lines -/

def line (cs : List Char) : Option (Line × List Char) :=
  match cs with
  | '[' :: '[' :: r => do
    let (k, r) ← key r
    match r with
    | ']' :: ']' :: rest => return (.element k, rest)
    | _ => none
  | '[' :: r => do
    let (k, r) ← key r
    match r with
    | ']' :: rest => return (.header k, rest)
    | _ => none
  | _ => do
    let ((k, v), rest) ← entry (fun r => some (skipBlanks r)) (value maxLevels) cs
    return (.entry k v, rest)

/-- Reads all lines. The fuel bounds their number. -/
def lines : (fuel : Nat) → List Char → Option (List Line)
  | 0, _ => none
  | fuel + 1, cs => do
    match ← skipGap? false cs with
    | [] => return []
    | r =>
      let (first, r) ← line r
      let others ← lines fuel (← endLine? r)
      return first :: others

/-- The table that a text is. A mark of the byte order in front of it means nothing. -/
def Value.ofText? (text : String) : Option Value :=
  let cs := match text.toList with
    | '\ufeff' :: r => r
    | cs => cs
  (lines (cs.length + 1) cs).bind Value.ofLines?

end Declarative.Toml
