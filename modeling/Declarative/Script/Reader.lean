import Declarative.Token
import Declarative.Script

/-!
# Reading tokens

The state of reading a script from tokens: what is still unread, what was found wrong so far, and the
counters that give numbers to nodes and bound the nesting. Only tokens in front of the first end of the
text are ever read, so the end is not among the unread tokens; where nothing is left it is what stands
at the head.

A parser either yields a value or is stopped by a fault, and leaves the state in both cases: what it has
read stays read.
-/

namespace Declarative

namespace Script

/-- What a parser waits for. -/
inductive Wanted where
  | identifier
  | mark (kind : Token.Kind)
  /-- The end of a statement. -/
  | separator
  /-- What makes a name a statement. -/
  | statementRest
  /-- A literal or a call that makes a value. -/
  | value
  /-- The arguments that make a name a value. -/
  | arguments (name : String)
  deriving DecidableEq, Repr

namespace Wanted

def describe : Wanted → String
  | identifier | value => Token.Kind.describe (.ident "")
  | mark kind => kind.describe
  | separator => "newline or ';'"
  | statementRest => "'=', '(' or '\x7b'"
  | arguments _ => Token.Kind.describe .leftParen

def hint? : Wanted → Option String
  | identifier | mark _ | separator => none
  | statementRest => some ("A statement is a call `name(...)`, a block `name \x7b ... \x7d` " ++
      "or an assignment `name = value`")
  | value => some "Expected a literal or a value factory call like `name(...)`"
  | arguments name => some
      ("Property references are not supported; did you mean `" ++ name ++ "()`?")

end Wanted

/-- How deep blocks and values may be nested in each other. -/
def maxDepth : Nat := 256

/-- How many faults may be found before reading is given up. -/
def maxFaults : Nat := 20

/-- What can be wrong with a sequence of tokens. -/
inductive Fault.Cause where
  | expected (wanted : Wanted) (found : Token.Kind)
  | unexpected (found : Token.Kind)
  | unclosedBlock
  | tooManyFaults
  | tooDeep
  deriving DecidableEq, Repr

/-- A place where the tokens make no script. -/
structure Fault where
  span : Span
  cause : Fault.Cause
  deriving DecidableEq, Repr

namespace Fault

def message (fault : Fault) : String :=
  match fault.cause with
  | .expected wanted found => "Expected " ++ wanted.describe ++ ", found " ++ found.describe
  | .unexpected found => "Unexpected " ++ found.describe
  | .unclosedBlock => "Unclosed block"
  | .tooManyFaults => "Too many errors, giving up"
  | .tooDeep => "Nesting deeper than " ++ toString maxDepth ++ " levels"

def hint? (fault : Fault) : Option String :=
  match fault.cause with
  | .expected wanted _ => wanted.hint?
  | .unexpected _ | .tooManyFaults => none
  | .unclosedBlock => some "Add a closing '\x7d'"
  | .tooDeep => some "Split the value or block into smaller pieces"

end Fault

/-- Where reading stands. -/
structure Reader where
  /-- The tokens still to be read, without the end of the text. -/
  unread : List Token
  /-- Where the end of the text stands. -/
  finish : Span
  /-- Where the token read last ends; zero before the first one. -/
  lastEnd : Nat
  /-- The number that the next node gets. -/
  nextId : Nat
  /-- How many blocks and values are open around the next token. -/
  depth : Nat
  /-- The faults found so far, the oldest first. -/
  faults : List Fault
  deriving DecidableEq, Repr

namespace Reader

/-- The start of reading: tokens behind the first end of the text are passed over, and where there is no
such token the text ends with the last one. -/
def ofTokens (tokens : List Token) : Reader where
  unread := tokens.takeWhile (·.kind != .eof)
  finish :=
    match tokens.find? (·.kind == .eof) with
    | some last => last.span
    | none => .point ((tokens.getLast?.map (·.span.stop)).getD 0)
  lastEnd := 0
  nextId := 0
  depth := 0
  faults := []

def peek (s : Reader) : Token.Kind :=
  match s.unread with
  | [] => .eof
  | token :: _ => token.kind

def here (s : Reader) : Span :=
  match s.unread with
  | [] => s.finish
  | token :: _ => token.span

def skip (s : Reader) (n : Nat) : Reader :=
  { s with
    unread := s.unread.drop n
    lastEnd := ((s.unread.take n).getLast?.map (·.span.stop)).getD s.lastEnd }

/-- Reads all tokens at the head that pass a test. -/
def skipWhile (s : Reader) (test : Token.Kind → Bool) : Reader :=
  s.skip (s.unread.takeWhile (test ·.kind)).length

def skipSeparators (s : Reader) : Reader := s.skipWhile Token.Kind.isSeparator

def skipNewlines (s : Reader) : Reader := s.skipWhile (· == .newline)

/-- How many tokens are left of a statement inside of which `depth` braces are open: all up to a
separator or a closing brace that belongs to none of them. -/
def statementLength : Nat → List Token → Nat
  | _, [] => 0
  | depth, token :: rest =>
    match token.kind, depth with
    | .leftBrace, _ => 1 + statementLength (depth + 1) rest
    | .rightBrace, 0 => 0
    | .rightBrace, depth + 1 => 1 + statementLength depth rest
    | .newline, 0 => 0
    | .semicolon, 0 => 0
    | _, _ => 1 + statementLength depth rest

/-- Passes over the rest of a statement. -/
def synchronize (s : Reader) : Reader := s.skip (statementLength 0 s.unread)

/-- Puts a fault behind those found before. -/
def report (s : Reader) (fault : Fault) : Reader := { s with faults := s.faults ++ [fault] }

/-- Whether so few faults were found that reading goes on. -/
def hasPatience (s : Reader) : Bool := s.faults.length < maxFaults

/-- Gives away the next number. It never comes to an end; how far it comes is bounded by the number of
tokens (`Script.nextId_afterTokens_le`), so 32 bits suffice for fewer than `2 ^ 32` of them. -/
def takeId (s : Reader) : NodeId × Reader := (⟨s.nextId⟩, { s with nextId := s.nextId + 1 })

end Reader

/-- Reads a value of type `α`, or finds a fault. -/
def Parser (α : Type) := Reader → Except Fault α × Reader

namespace Parser

instance : Monad Parser where
  pure a s := (.ok a, s)
  bind p f s :=
    match p s with
    | (.ok a, s') => f a s'
    | (.error fault, s') => (.error fault, s')

/-- A view of the state that reads nothing. -/
def view {α : Type} (f : Reader → α) : Parser α := fun s => (.ok (f s), s)

/-- A step that finds no fault. -/
def step (f : Reader → Reader) : Parser Unit := fun s => (.ok (), f s)

/-- Stops with a fault at the next token. -/
def fail {α : Type} (cause : Fault.Cause) : Parser α := fun s => (.error ⟨s.here, cause⟩, s)

/-- Stops because the next token is not the one wanted. -/
def missing {α : Type} (wanted : Wanted) : Parser α := fun s =>
  fail (.expected wanted s.peek) s

/-- Reads one token whatever it is. -/
def advance : Parser Unit := step (·.skip 1)

/-- The number of the node that starts here. -/
def freshId : Parser NodeId := fun s => (.ok s.takeId.1, s.takeId.2)

def expect (kind : Token.Kind) : Parser Unit := fun s =>
  if s.peek = kind then advance s else missing (.mark kind) s

/-- Reads an identifier; `wanted` says what it is the beginning of. -/
def identifier (wanted : Wanted) : Parser Name := fun s =>
  match s.peek with
  | .ident text => (.ok ⟨text, s.here⟩, s.skip 1)
  | _ => missing wanted s

/-- Reads what ends a statement; the end of the text and the closing brace of the block around it are
left where they are. -/
def terminator : Parser Unit := fun s =>
  match s.peek with
  | .newline | .semicolon => advance s
  | .eof | .rightBrace => (.ok (), s)
  | _ => missing .separator s

/-- Reads one level deeper, unless the nesting is as deep as it may be. The level is left again whether
or not `inner` found a fault. -/
def nested {α : Type} (inner : Parser α) : Parser α := fun s =>
  if s.depth < maxDepth then
    let (result, s') := inner { s with depth := s.depth + 1 }
    (result, { s' with depth := s'.depth - 1 })
  else
    fail .tooDeep s

end Parser

end Script

end Declarative
