/-
Messages: one JSON object per line.

A message has a kind; only those of kind `hook-event` carry an event.  Reading
is lenient about types and about what is missing, and refuses only what is not
a JSON object.
-/
import AgentHooks.Diagnostic
import AgentHooks.Json.Coercion
import AgentHooks.Json.Parser

namespace AgentHooks

/-- A message on a line. -/
structure Message where
  schemaVersion : Option Int64
  kind : String
  seq : Option Int64
  event : Json
deriving DecidableEq

namespace Message

/-- The kind of the messages that carry an event. -/
def eventKind : String := "hook-event"

def currentVersion : Int64 := 1

def versionKey : String := "schema_version"

def kindKey : String := "type"

def seqKey : String := "seq"

def eventKey : String := "event"

def ofEvent (seq : Int64) (event : Json) : Message :=
  ⟨some currentVersion, eventKind, some seq, event⟩

def isEvent (m : Message) : Bool := m.kind == eventKind

def ofRecord (members : Record) : Message where
  schemaVersion := (members.get? versionKey).bind Json.asInteger?
  kind := ((members.get? kindKey).bind Json.asText?).getD ""
  seq := (members.get? seqKey).bind Json.asInteger?
  event := (members.get? eventKey).getD .null

/-- What is said of a line that holds JSON but no object. -/
def notAnObject : String := "host message is not a JSON object"

def ofLine (text : String) (line : Nat) : Except Diagnostic Message :=
  match Json.parseText text with
  | .error fault => .error (.malformed line fault.message text)
  | .ok v =>
    match v.asRecord? with
    | some members => .ok (ofRecord members)
    | none => .error (.malformed line notAnObject text)

/-- The members of a message in the order in which they are written; numbers
that are missing are left out. -/
def members (m : Message) : List (String × Json) :=
  (m.schemaVersion.map fun n => (versionKey, Json.ofInt64 n)).toList ++
    [(kindKey, .string m.kind)] ++
    (m.seq.map fun n => (seqKey, Json.ofInt64 n)).toList ++
    [(eventKey, m.event)]

/-- A message as a line, without the line feed. -/
def toLine (m : Message) : String := (Json.object m.members).text

end Message

end AgentHooks
