import Declarative.Script.Reader
import Declarative.Token.Lexer

/-!
# Scripts from tokens

A statement starts with a name and goes on with an equals sign and a value, with arguments, with a block,
or with arguments and a block. Inside of parentheses line feeds mean nothing and a comma may follow the
last value; elsewhere line feeds and semicolons separate statements.

What makes no statement is kept as an error statement that reaches to the next separator, and reading goes
on behind it. Once too many faults are found no further statement is read.

Loops read on only while they make progress, so their end needs no further argument: each round leaves
fewer tokens unread.
-/

namespace Declarative.Script

namespace Parser

def literal? : Token.Kind → Option Literal
  | .string value => some (.string value)
  | .int value => some (.int value)
  | .long value => some (.long value)
  | .bool value => some (.bool value)
  | .null => some .null
  | _ => none

/-- Reads values up to and with the closing parenthesis; the opening one is read. -/
def listed (value : Parser Value) (s : Reader) : Except Fault (List Value) × Reader :=
  if s.peek = .rightParen then
    (.ok [], s.skip 1)
  else
    match value s with
    | (.error fault, s₁) => (.error fault, s₁)
    | (.ok first, s₁) =>
      let s₂ := s₁.skipNewlines
      if s₂.peek = .rightParen then
        (.ok [first], s₂.skip 1)
      else
        match expect .comma s₂ with
        | (.error fault, s₃) => (.error fault, s₃)
        | (.ok _, s₃) =>
          let s₄ := s₃.skipNewlines
          if s₄.unread.length < s.unread.length then
            let (others, s₅) := listed value s₄
            (others.map (first :: ·), s₅)
          else
            (.ok [first], s₄)
termination_by s.unread.length

/-- Reads the arguments of a call, from the opening parenthesis to the closing one. -/
def arguments (value : Parser Value) : Parser (List Value) := do
  expect .leftParen
  step Reader.skipNewlines
  listed value

/-- Reads a literal, or a call whose arguments are read by `inner`. -/
def valueWith (inner : Parser Value) : Parser Value := do
  let id ← freshId
  let span ← view Reader.here
  match literal? (← view Reader.peek) with
  | some content =>
    advance
    return .literal id span content
  | none =>
    let name ← identifier .value
    if (← view Reader.peek) = .leftParen then
      let values ← arguments inner
      return .factory id ⟨span.start, ← view Reader.lastEnd⟩ name values
    else
      missing (.arguments name.text)

/-- Reads a value. The fuel exceeds the depth that is left, so `nested` refuses before it runs out. -/
def value : (fuel : Nat) → Parser Value
  | 0 => fail .tooDeep
  | fuel + 1 => nested (valueWith (value fuel))

/-- Reads what follows the name of a statement; blocks and values are read by the parsers given. -/
def statementRest (value : Parser Value) (block : Parser Body) (name : Name) :
    Parser (NodeId → Span → Statement) := do
  match ← view Reader.peek with
  | .equals =>
    advance
    let assigned ← value
    return fun id span => .assign id span name assigned
  | .leftParen =>
    let values ← arguments value
    if (← view Reader.peek) = .leftBrace then
      let body ← block
      return fun id span => .call id span name values body
    else
      return fun id span => .call id span name values .absent
  | .leftBrace =>
    let body ← block
    return fun id span => .call id span name [] body
  | _ => missing .statementRest

/-- Reads a statement with its end; its number is given away already. -/
def statement (value : Parser Value) (block : Parser Body) (id : NodeId) : Parser Statement := do
  let start ← view (·.here.start)
  let name ← identifier .identifier
  let make ← statementRest value block name
  let stop ← view Reader.lastEnd
  terminator
  return make id ⟨start, stop⟩

/-- Reads a statement, or passes over what makes none and keeps its place as an error statement. There is
no statement where the fault was one too many. -/
def recovering (parse : NodeId → Parser Statement) (s : Reader) : Option Statement × Reader :=
  let (id, s₁) := s.takeId
  match parse id s₁ with
  | (.ok statement, s₂) => (some statement, s₂)
  | (.error fault, s₂) =>
    let s₃ := s₂.report fault
    if s₃.hasPatience then
      let s₄ := s₃.synchronize
      let start := s.here.start
      (some (.error id ⟨start, max s₄.lastEnd start⟩ fault.message), s₄)
    else
      (none, s₃)

/-- Reads the statements of a block up to its closing brace, which is left unread. -/
def blockStatements (parse : NodeId → Parser Statement) (opening : Span) (s : Reader) :
    Except Fault (List Statement) × Reader :=
  match s.peek with
  | .rightBrace => (.ok [], s)
  | .eof => (.error ⟨opening, .unclosedBlock⟩, s)
  | _ =>
    match recovering parse s with
    | (none, s₁) => fail .tooManyFaults s₁
    | (some first, s₁) =>
      let s₂ := s₁.skipSeparators
      if s₂.unread.length < s.unread.length then
        let (others, s₃) := blockStatements parse opening s₂
        (others.map (first :: ·), s₃)
      else
        (.ok [first], s₂)
termination_by s.unread.length

/-- Reads a block, from the opening brace to the closing one. -/
def blockWith (parse : NodeId → Parser Statement) : Parser Body := do
  let id ← freshId
  let opening ← view Reader.here
  expect .leftBrace
  step Reader.skipSeparators
  let statements ← blockStatements parse opening
  let closing ← view Reader.here
  advance
  return .block id (opening.cover closing) statements

/-- Reads a block. The fuel exceeds the depth that is left, so `nested` refuses before it runs out. -/
def block : (fuel : Nat) → Parser Body
  | 0 => fail .tooDeep
  | fuel + 1 => nested (blockWith (statement (value fuel) (block fuel)))

/-- Keeps a closing brace that closes nothing as an error statement. -/
def strayBrace (s : Reader) : Statement × Reader :=
  let fault : Fault := ⟨s.here, .unexpected .rightBrace⟩
  let (id, s₁) := (s.skip 1).takeId
  (.error id s.here fault.message, s₁.report fault)

/-- Reads statements up to the end of the text. -/
def topStatements (parse : NodeId → Parser Statement) (s : Reader) : List Statement × Reader :=
  match s.peek with
  | .eof => ([], s)
  | .rightBrace =>
    let (first, s₁) := strayBrace s
    let s₂ := s₁.skipSeparators
    if s₂.unread.length < s.unread.length then
      if s₁.hasPatience then
        let (others, s₃) := topStatements parse s₂
        (first :: others, s₃)
      else
        ([first], s₁)
    else
      ([first], s₁)
  | _ =>
    match recovering parse s with
    | (none, s₁) => ([], s₁)
    | (some first, s₁) =>
      let s₂ := s₁.skipSeparators
      if s₂.unread.length < s.unread.length then
        let (others, s₃) := topStatements parse s₂
        (first :: others, s₃)
      else
        ([first], s₂)
termination_by s.unread.length

/-- More than the deepest nesting. -/
def fullFuel : Nat := maxDepth + 1

end Parser

/-- What reading tokens yields: a script in any case, and the faults found on the way. -/
structure Parsed where
  script : Script
  faults : List Fault

namespace Parsed

def isClean (parsed : Parsed) : Bool := parsed.faults.isEmpty

end Parsed

/-- Reads the script that tokens make. -/
def ofTokens (source : String) (tokens : List Token) : Parsed :=
  let s := Reader.ofTokens tokens
  let (statements, s₁) := Parser.topStatements
    (Parser.statement (Parser.value Parser.fullFuel) (Parser.block Parser.fullFuel)) s.skipSeparators
  ⟨⟨source, statements, ⟨s.here.start, s₁.here.stop⟩⟩, s₁.faults⟩

/-- What reading a source text yields: the script of the tokens that could be made out, and what is
wrong with the text and with the tokens. -/
structure Reading where
  script : Script
  lexical : List Token.Fault
  structural : List Fault

namespace Reading

def isClean (reading : Reading) : Bool := reading.lexical.isEmpty && reading.structural.isEmpty

end Reading

/-- Reads the script that a text is. -/
def ofText (source text : String) : Reading :=
  let lexed := tokenize text
  let parsed := ofTokens source lexed.tokens
  ⟨parsed.script, lexed.faults, parsed.faults⟩

end Declarative.Script
