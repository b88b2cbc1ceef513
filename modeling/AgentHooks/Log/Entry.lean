/-
Entries of the diagnostic log, and the formats it may have.

An entry says what happened and how much it matters; its target names the part
that wrote it.  Whether and how an entry is shown is decided elsewhere.  A format
has one name: settings files and variables spell it exactly, a flag may use any
case.
-/
import AgentHooks.Text.Characters

namespace AgentHooks.Log

/-! ## Entries -/

/-- How much an entry matters, the most important level first. -/
inductive Level where
  | error
  | warn
  | info
  | debug
  | trace
deriving DecidableEq, Repr

/-- The rank of a level; a greater one says more. -/
def Level.rank : Level → Nat
  | .error => 1
  | .warn => 2
  | .info => 3
  | .debug => 4
  | .trace => 5

def Level.name : Level → String
  | .error => "ERROR"
  | .warn => "WARN"
  | .info => "INFO"
  | .debug => "DEBUG"
  | .trace => "TRACE"

/-- The value of a field: a text or a count. -/
inductive Value where
  | text (s : String)
  | count (n : Nat)
deriving DecidableEq, Repr

def Value.toText : Value → String
  | .text s => s
  | .count n => toString n

/-- An entry: a message, and named values beside it. -/
structure Entry where
  level : Level
  target : String
  message : String
  fields : List (String × Value)
deriving DecidableEq, Repr

def envelopeTarget : String := "hookline::envelope"

/-- The part that reads messages and calls the handler. -/
def hostTarget : String := "hookline::host"

def sinkTarget : String := "hookline::sink"

def commandLineTarget : String := "hookline::cli"

def invocationTarget : String := "hookline::hook"

/-! ## Formats -/

/-- How the entries of the log are written. -/
inductive Format where
  | json
  | compact
deriving DecidableEq, Repr

namespace Format

def name : Format → String
  | json => "json"
  | compact => "compact"

def all : List Format := [json, compact]

def names : List String := all.map name

def ofName? (s : String) : Option Format := all.find? (·.name == s)

/-- The format that a text names in any case of its letters. -/
def ofText? (s : String) : Option Format :=
  all.find? fun f => Text.sameIgnoringAsciiCase f.name s

/-- What is said of a text that names no format. -/
def noSuchFormat : String := "Matching variant not found"

end Format

end AgentHooks.Log
