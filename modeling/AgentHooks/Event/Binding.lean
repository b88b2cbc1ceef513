/-
Binding: a payload as an event of its kind.

Binding never fails.  The event keeps the payload as it came, reads the fields
that its kind names through the normalized view, and keeps the rest as extras.
-/
import AgentHooks.Event.Shape
import AgentHooks.Payload.Keys

namespace AgentHooks

namespace Event

/-- The fields that every event has; a missing version is 0, a missing text is
empty. -/
structure Header where
  schemaVersion : Int64
  eventId : String
  timestamp : String
  eventType : String
deriving DecidableEq

def Header.read (view : Record) (eventType : String) : Header where
  schemaVersion := ((view.get? Key.schemaVersion).bind Json.asInteger?).getD 0
  eventId := ((view.get? Key.eventId).bind Json.asText?).getD ""
  timestamp := ((view.get? Key.timestamp).bind Json.asText?).getD ""
  eventType

end Event

/-- A payload bound to its kind. -/
structure Event where
  raw : Record
  kind : Event.Kind
  header : Event.Header
  fields : List (String × Event.FieldValue)
  extras : Record
deriving DecidableEq

namespace Event

def ofRecord (raw : Record) : Event :=
  let eventType := raw.discriminant
  let kind := Kind.ofDiscriminant eventType
  let view := raw.normalized
  { raw, kind
    header := .read view eventType
    fields := kind.shape.map fun f => (f.name, f.type.read (view.get? f.name))
    extras := raw.extras kind.fieldNames }

/-- The event of a value; one that is not an object has no members. -/
def ofJson (v : Json) : Event := ofRecord (v.asRecord?.getD .empty)

/-- The payload of an event as a value. -/
def toJson (e : Event) : Json := e.raw.toJson

def field? (e : Event) (name : String) : Option FieldValue :=
  (e.fields.find? (·.1 == name)).map (·.2)

def text? (e : Event) (name : String) : Option String :=
  match e.field? name with
  | some (.text value) => value
  | _ => none

def integer? (e : Event) (name : String) : Option Int64 :=
  match e.field? name with
  | some (.integer value) => value
  | _ => none

def flag? (e : Event) (name : String) : Option Bool :=
  match e.field? name with
  | some (.flag value) => value
  | _ => none

/-- The value of a named field that is kept as sent. -/
def sent? (e : Event) (name : String) : Option Json :=
  match e.field? name with
  | some (.sent value) => value
  | _ => none

end Event

/-- Counts of tokens; each may be missing. -/
structure TokenUsage where
  input : Option Int64
  cachedInput : Option Int64
  output : Option Int64
  reasoningOutput : Option Int64
  total : Option Int64
deriving DecidableEq

/-- The counts in a record, under either spelling of their keys. -/
def TokenUsage.ofRecord (raw : Record) : TokenUsage :=
  let count (key : String) := (raw.normalized.get? key).bind Json.asInteger?
  { input := count "input-tokens"
    cachedInput := count "cached-input-tokens"
    output := count "output-tokens"
    reasoningOutput := count "reasoning-output-tokens"
    total := count "total-tokens" }

def TokenUsage.ofJson? (v : Json) : Option TokenUsage := v.asRecord?.map .ofRecord

/-- The token counts of an event that carries them. -/
def Event.tokenUsage? (e : Event) : Option TokenUsage :=
  (e.sent? Event.tokenUsageKey).bind TokenUsage.ofJson?

end AgentHooks
