/-
How an entry of the log is written, in either format.

An entry is one line.  It begins with its time and, when the filter shows the
invocation, names the command and the process at its end.
-/
import AgentHooks.Json.Printer
import AgentHooks.Log.Entry
import AgentHooks.Text.Shown

namespace AgentHooks.Log

/-- The time of an entry and the process that wrote it. -/
structure Stamp where
  time : String
  process : Nat
deriving DecidableEq, Repr

/-- The invocation that an entry belongs to. -/
structure Span where
  command : String
deriving DecidableEq, Repr

def Span.name : String := "hook"

/-- A count as a JSON value; one that does not fit 64 bits is a text. -/
def countJson (n : Nat) : Json :=
  match Number.ofInt? n with
  | some x => .number x
  | none => .string (toString n)

def Value.toJson : Value → Json
  | .text s => .string s
  | .count n => countJson n

def Span.toJson (s : Span) (stamp : Stamp) : Json :=
  .object
    [("command", .string s.command), ("pid", countJson stamp.process), ("name", .string name)]

/-- The members that name an invocation: alone, and as the only one of a list. -/
def Span.members (s : Span) (stamp : Stamp) : List (String × Json) :=
  [("span", s.toJson stamp), ("spans", .array [s.toJson stamp])]

/-- An entry as a JSON object whose members are also its fields. -/
def jsonLine (stamp : Stamp) (span : Option Span) (e : Entry) : String :=
  let head : List (String × Json) :=
    [("timestamp", .string stamp.time), ("level", .string e.level.name),
      ("message", .string e.message)]
  let fields := e.fields.map fun f => (f.1, f.2.toJson)
  let invocation := (span.map (·.members stamp)).getD []
  (Json.object (head ++ fields ++ [("target", .string e.target)] ++ invocation)).text

/-- The width that the names of levels are brought to. -/
def levelWidth : Nat := 5

/-- The name of a level with blanks in front. -/
def paddedLevel (level : Level) : String :=
  String.ofList (List.replicate (levelWidth - level.name.length) ' ') ++ level.name

def compactLine (stamp : Stamp) (span : Option Span) (e : Entry) : String :=
  let place :=
    match span with
    | some _ => Span.name ++ ": "
    | none => ""
  let invocation :=
    match span with
    | some s => s!" command={Text.quote s.command} pid={stamp.process}"
    | none => ""
  let fields := String.join (e.fields.map fun f => s!" {f.1}={f.2.toText}")
  s!"{stamp.time} {paddedLevel e.level} {place}{e.target}: {e.message}{fields}{invocation}"

/-- An entry as a line in a format. -/
def Format.line (f : Format) (stamp : Stamp) (span : Option Span) (e : Entry) : String :=
  match f with
  | json => jsonLine stamp span e
  | compact => compactLine stamp span e

end AgentHooks.Log
