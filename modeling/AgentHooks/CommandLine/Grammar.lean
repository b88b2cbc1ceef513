/-
Arguments of a command line: flags, their values, and commands.

A grammar lists flags and commands; reading arguments by it gives the values of
the flags, or the command with the arguments after it, or what is wrong with
the first argument that does not fit.  A value that stands in an argument of
its own is judged when the next flag or the end is reached, so an argument that
nothing expects is reported before it.
-/
import AgentHooks.Text.Characters
import AgentHooks.Text.Plain

namespace AgentHooks.CommandLine

/-- What a value may be. -/
inductive ValueKind where
  | text
  | path
  | choice (words : List String)
  /-- One of some words, in any case of their letters; `reason` says what is
  wrong with another one. -/
  | word (words : List String) (reason : String)
deriving DecidableEq, Repr

/-- The value of a flag: what usage errors call it, and what it may be. -/
structure Operand where
  name : String
  kind : ValueKind
deriving DecidableEq, Repr

/-- What a flag is for. -/
inductive Use where
  | help
  | version
  | value (operand : Operand)
deriving DecidableEq, Repr

/-- A flag, its short form, and its use. -/
structure Flag where
  long : String
  short : Option Char
  use : Use
deriving DecidableEq, Repr

/-- The flags and commands that arguments may hold. -/
structure Grammar where
  flags : List Flag
  commands : List String
deriving DecidableEq, Repr

/-- Why arguments do not fit a grammar. -/
inductive UsageFault where
  | unexpectedArgument (text : String)
  | unexpectedValue (value flag : String)
  | missingValue (flag : String)
  | invalidValue (value flag : String) (reason : Option String)
  | repeatedFlag (flag : String)
  | unknownCommand (text : String)
deriving DecidableEq, Repr

/-- The text of a fault.  What the arguments hold is repeated as plain text. -/
def UsageFault.message : UsageFault → String
  | unexpectedArgument text => s!"error: unexpected argument '{Text.plain text}' found"
  | unexpectedValue value flag =>
    s!"error: unexpected value '{Text.plain value}' for '{flag}' found; no more were expected"
  | missingValue flag => s!"error: a value is required for '{flag}' but none was supplied"
  | invalidValue value flag none => s!"error: invalid value '{Text.plain value}' for '{flag}'"
  | invalidValue value flag (some reason) =>
    s!"error: invalid value '{Text.plain value}' for '{flag}': {reason}"
  | repeatedFlag flag => s!"error: the argument '{flag}' cannot be used multiple times"
  | unknownCommand text => s!"error: unrecognized subcommand '{Text.plain text}'"

/-- The flag with the name of its value, as usage errors show it. -/
def Operand.shown (o : Operand) (long : String) : String := s!"--{long} <{o.name}>"

/-- What is wrong with a value, if something is. -/
def Operand.fault? (o : Operand) (long value : String) : Option UsageFault :=
  match o.kind with
  | .text => none
  | .path => if value = "" then some (.missingValue (o.shown long)) else none
  | .choice words =>
    if words.contains value then none
    else if value = "" then some (.missingValue (o.shown long))
    else some (.invalidValue value (o.shown long) none)
  | .word words reason =>
    if words.any (Text.sameIgnoringAsciiCase · value) then none
    else some (.invalidValue value (o.shown long) (some reason))

/-- The form of an argument. -/
inductive Token where
  | dashes
  /-- A flag by its name, with the value after an equals sign. -/
  | long (name : String) (value : Option String)
  /-- A flag by its short form, with the characters after it. -/
  | short (flag : Char) (more : List Char)
  | word
deriving DecidableEq, Repr

/-- A text up to its first equals sign, and what follows the sign. -/
def splitAtEquals (cs : List Char) : String × Option String :=
  (String.ofList (cs.takeWhile (· != '=')),
    match cs.dropWhile (· != '=') with
    | [] => none
    | _ :: value => some (String.ofList value))

/-- The form of the argument that a text is. -/
def Token.ofText (text : String) : Token :=
  match text.toList with
  | ['-', '-'] => .dashes
  | '-' :: '-' :: cs => .long (splitAtEquals cs).1 (splitAtEquals cs).2
  | '-' :: c :: cs => .short c cs
  | _ => .word

/-- The value that follows a short form in the same argument. -/
def attachedValue : List Char → Option String
  | [] => none
  | '=' :: cs => some (String.ofList cs)
  | cs => some (String.ofList cs)

/-- The values of flags, by the flags' names. -/
abbrev Given := List (String × String)

/-- A flag whose value is still to be judged, and perhaps still to come. -/
structure Pending where
  long : String
  operand : Operand
  value : Option String
deriving DecidableEq, Repr

/-- Enters the value of a flag, which has no other. -/
def enter (given : Given) (long : String) (o : Operand) (value : String) :
    Except UsageFault Given :=
  if given.any (·.1 == long) then .error (.repeatedFlag (o.shown long))
  else
    match o.fault? long value with
    | some fault => .error fault
    | none => .ok (given ++ [(long, value)])

def settle (given : Given) : Option Pending → Except UsageFault Given
  | none => .ok given
  | some ⟨long, o, none⟩ => .error (.missingValue (o.shown long))
  | some ⟨long, o, some value⟩ => enter given long o value

/-- What arguments ask for. -/
inductive Reading where
  | flags (given : Given)
  | command (name : String) (rest : List String)
  | help (brief : Bool)
  | version
deriving DecidableEq, Repr

/-- What is read of one argument: the end, or what is known before the next. -/
inductive Progress where
  | finished (reading : Reading)
  | more (given : Given) (pending : Option Pending)
deriving DecidableEq, Repr

/-- Reads a flag with the value that its argument holds. -/
def takeFlag (given : Given) (pending : Option Pending) (f : Flag) (brief : Bool)
    (attached : Option String) : Except UsageFault Progress :=
  match f.use, attached with
  | .value o, some value => do
    let given ← settle given pending
    return .more (← enter given f.long o value) none
  | .value o, none => do return .more (← settle given pending) (some ⟨f.long, o, none⟩)
  | .help, none => do
    let _ ← settle given pending
    return .finished (.help brief)
  | .version, none => do
    let _ ← settle given pending
    return .finished .version
  | _, some value => .error (.unexpectedValue value ("--" ++ f.long))

/-- The characters after a short form count only for a flag with a value. -/
def Use.attached (use : Use) (more : List Char) : Option String :=
  match use with
  | .value _ => attachedValue more
  | _ => none

namespace Grammar

def flagOfLong? (g : Grammar) (name : String) : Option Flag := g.flags.find? (·.long == name)

def flagOfShort? (g : Grammar) (c : Char) : Option Flag := g.flags.find? (·.short == some c)

/-- The fault of a word that nothing expects. -/
def unexpectedWord (g : Grammar) (text : String) : UsageFault :=
  if g.commands = [] then .unexpectedArgument text else .unknownCommand text

/-- The fault of a word after two dashes, where no command may stand. -/
def unexpectedRest (g : Grammar) (text : String) : UsageFault :=
  if g.commands.contains text then .unexpectedArgument text else g.unexpectedWord text

/-- Reads a word: the value that a flag waits for, or a command. -/
def takeWord (g : Grammar) (given : Given) (pending : Option Pending) (text : String)
    (rest : List String) : Except UsageFault Progress :=
  match pending with
  | some ⟨long, o, none⟩ => .ok (.more given (some ⟨long, o, some text⟩))
  | _ =>
    if g.commands.contains text then .ok (.finished (.command text rest))
    else .error (g.unexpectedWord text)

/-- Reads an argument; `rest` follows it. -/
def take (g : Grammar) (given : Given) (pending : Option Pending) (text : String)
    (rest : List String) : Except UsageFault Progress :=
  match Token.ofText text with
  | .dashes =>
    match rest with
    | [] => (settle given pending).map fun given => .finished (.flags given)
    | next :: _ => .error (g.unexpectedRest next)
  | .long name value =>
    match g.flagOfLong? name with
    | none => .error (.unexpectedArgument ("--" ++ name))
    | some f => takeFlag given pending f false value
  | .short c more =>
    match g.flagOfShort? c with
    | none => .error (.unexpectedArgument (String.ofList ['-', c]))
    | some f => takeFlag given pending f true (f.use.attached more)
  | .word => g.takeWord given pending text rest

/-- Reads arguments, knowing what those before them gave. -/
def readFrom (g : Grammar) : List String → Given → Option Pending → Except UsageFault Reading
  | [], given, pending => (settle given pending).map .flags
  | text :: rest, given, pending =>
    match g.take given pending text rest with
    | .error fault => .error fault
    | .ok (.finished reading) => .ok reading
    | .ok (.more given pending) => g.readFrom rest given pending

def read (g : Grammar) (arguments : List String) : Except UsageFault Reading :=
  g.readFrom arguments [] none

end Grammar

def Given.get? (given : Given) (long : String) : Option String :=
  (given.find? (·.1 == long)).map (·.2)

end AgentHooks.CommandLine
