import Declarative.Text.Utf8
import Declarative.Token.Lexeme
import Declarative.Token.Spelling

/-!
# Tokens of a text

The text is taken apart lexeme by lexeme. What denotes no token is reported and left out, and reading
goes on behind it, until so many faults are found that the rest is not worth reading. The last token
is always the end of the text, at the text's length.
-/

namespace Declarative

namespace Token

/-- What can be wrong with a piece of the text. -/
inductive Fault.Cause where
  | strayCharacter (c : Char)
  | unclosedText
  | badEscape
  | badNumber
  deriving DecidableEq, Repr

/-- A piece of the text that denotes no token. -/
structure Fault where
  span : Span
  cause : Fault.Cause
  deriving DecidableEq, Repr

namespace Fault

def message (fault : Fault) : String :=
  match fault.cause with
  | .strayCharacter c => "Unexpected character '" ++ String.singleton c ++ "'"
  | .unclosedText => "Unterminated string"
  | .badEscape => "Invalid escape sequence"
  | .badNumber => "Invalid number"

/-- What the author can do about it. -/
def hint? (fault : Fault) : Option String :=
  match fault.cause with
  | .strayCharacter _ => none
  | .unclosedText => some "Add a closing '\"'"
  | .badEscape => some "Valid: \\n \\r \\t \\\\ \\0 \\\" \\$ \\u\x7b...\x7d"
  | .badNumber => some "Integer literals must fit in 64 bits"

end Fault

/-- How many faults are reported at most. -/
def maxFaults : Nat := 20

/-- The words that are no identifiers, and all others. -/
def wordKind (name : List Char) : Kind :=
  if name = "true".toList then .bool true
  else if name = "false".toList then .bool false
  else if name = "null".toList then .null
  else .ident (String.ofList name)

/-- What comes of one lexeme. -/
inductive Reading where
  | skipped
  | token (kind : Kind)
  | fault (fault : Fault)
  deriving DecidableEq, Repr

/-- Reads a lexeme of a known shape that stands at `span`. A fault in an escape is reported at the
opening quote. -/
def Reading.of (shape : Shape) (lexeme : List Char) (span : Span) : Reading :=
  match shape with
  | .blank | .lineComment | .blockComment => .skipped
  | .mark kind => .token kind
  | .word => .token (wordKind lexeme)
  | .int =>
    match integer? lexeme with
    | some n => .token (.int n)
    | none => .fault ⟨span, .badNumber⟩
  | .long =>
    match integer? lexeme.dropLast with
    | some n => .token (.long n)
    | none => .fault ⟨span, .badNumber⟩
  | .quoted =>
    match unescape? (lexeme.drop 1).dropLast with
    | some text => .token (.string (String.ofList text))
    | none => .fault ⟨⟨span.start, span.start + 1⟩, .badEscape⟩
  | .unclosed => .fault ⟨span, .unclosedText⟩
  | .stray => .fault ⟨⟨span.start, span.start + Text.width (lexeme.take 1)⟩,
      .strayCharacter (lexeme.headD '?')⟩

/-- What reading a text yields: its tokens and its faults, each in the order of the text. -/
structure Lexed where
  tokens : List Token
  faults : List Fault
  deriving DecidableEq, Repr

/-- Reads on at byte offset `offset`, while there is room for another fault. -/
def scan (room offset : Nat) (cs : List Char) : Lexed :=
  match room, cs with
  | 0, _ => ⟨[], []⟩
  | _, [] => ⟨[], []⟩
  | room + 1, c :: r =>
    let (shape, n) := Shape.measure c r
    let lexeme := c :: r.take n
    let span : Span := ⟨offset, offset + Text.width lexeme⟩
    match Reading.of shape lexeme span with
    | .skipped => scan (room + 1) span.stop (r.drop n)
    | .token kind =>
      let later := scan (room + 1) span.stop (r.drop n)
      ⟨⟨kind, span⟩ :: later.tokens, later.faults⟩
    | .fault fault =>
      let later := scan room span.stop (r.drop n)
      ⟨later.tokens, fault :: later.faults⟩
termination_by cs.length
decreasing_by all_goals simp only [List.length_drop, List.length_cons]; omega

end Token

/-- The tokens of a source text, the end of the text last, and the faults found in it. -/
def tokenize (source : String) : Token.Lexed :=
  let scanned := Token.scan Token.maxFaults 0 source.toList
  ⟨scanned.tokens ++ [⟨.eof, .point (Text.width source.toList)⟩], scanned.faults⟩

def Token.Lexed.isClean (lexed : Token.Lexed) : Bool := lexed.faults.isEmpty

end Declarative
