/-
Why a text is not a JSON value, and where that shows.

Readers below know only how many bytes they have not read; the place is
computed from that once, against the whole input.
-/
import AgentHooks.Text.Utf8
import AgentHooks.Text.Pieces

namespace AgentHooks.Json

/-- What is wrong with a text. -/
inductive Cause where
  | endInArray
  | endInObject
  | endInString
  | endInValue
  | noColon
  | noCommaOrBracket
  | noCommaOrBrace
  | misspelledWord
  | noValue
  | badEscape
  | badNumber
  | numberTooLarge
  | notUtf8
  | controlCharacter
  | keyNotString
  | unpairedSurrogate
  | trailingComma
  | trailingText
  | surrogateCutShort
  | nestedTooDeep
deriving DecidableEq, Repr

def Cause.message : Cause → String
  | .endInArray => "EOF while parsing a list"
  | .endInObject => "EOF while parsing an object"
  | .endInString => "EOF while parsing a string"
  | .endInValue => "EOF while parsing a value"
  | .noColon => "expected `:`"
  | .noCommaOrBracket => "expected `,` or `]`"
  | .noCommaOrBrace => "expected `,` or `\x7d`"
  | .misspelledWord => "expected ident"
  | .noValue => "expected value"
  | .badEscape => "invalid escape"
  | .badNumber => "invalid number"
  | .numberTooLarge => "number out of range"
  | .notUtf8 => "invalid unicode code point"
  | .controlCharacter => "control character (\\u0000-\\u001F) found while parsing a string"
  | .keyNotString => "key must be a string"
  | .unpairedSurrogate => "lone leading surrogate in hex escape"
  | .trailingComma => "trailing comma"
  | .trailingText => "trailing characters"
  | .surrogateCutShort => "unexpected end of hex escape"
  | .nestedTooDeep => "recursion limit exceeded"

/-- Where reading stopped: the cause, and the bytes left from there on. -/
structure Stop where
  cause : Cause
  left : Nat
deriving DecidableEq, Repr

/-- Reading stopped before `rest`. -/
def stopBefore {α : Type} (cause : Cause) (rest : Bytes) : Except Stop α :=
  .error ⟨cause, rest.length⟩

/-- Reading stopped at the first byte of `rest`, which is the one that is wrong;
at the end of the input there is none. -/
def stopAt {α : Type} (cause : Cause) (rest : Bytes) : Except Stop α :=
  .error ⟨cause, rest.length - 1⟩

/-- Why and where a text is not a JSON value: lines count from one, columns are
the bytes read in the line. -/
structure Fault where
  cause : Cause
  line : Nat
  column : Nat
deriving DecidableEq, Repr

/-- The place of a stop in the whole input. -/
def Stop.locate (s : Stop) (input : Bytes) : Fault :=
  let read := input.take (input.length - s.left)
  ⟨s.cause, read.count Text.lineFeed + 1,
    (read.reverse.takeWhile (· != Text.lineFeed)).length⟩

def Fault.message (f : Fault) : String :=
  s!"{f.cause.message} at line {f.line} column {f.column}"

end AgentHooks.Json
