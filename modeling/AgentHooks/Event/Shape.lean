/-
The named fields of each kind of event, and how a field is read.
-/
import AgentHooks.Event.Kind
import AgentHooks.Json.Coercion

namespace AgentHooks.Event

/-- How the value of a field is read. -/
inductive FieldType where
  | text
  | texts
  | integer
  | flag
  | sent
deriving DecidableEq, Repr

/-- A named field of a shape. -/
structure Field where
  name : String
  type : FieldType
deriving DecidableEq, Repr

/-- What was read of a field. -/
inductive FieldValue where
  | text (value : Option String)
  | texts (value : Option (List String))
  | integer (value : Option Int64)
  | flag (value : Option Bool)
  | sent (value : Option Json)
deriving DecidableEq

/-- Reads a value that may be missing as the type demands. -/
def FieldType.read (type : FieldType) (value : Option Json) : FieldValue :=
  match type with
  | .text => .text (value.bind Json.asText?)
  | .texts => .texts (value.bind Json.asTexts?)
  | .integer => .integer (value.bind Json.asInteger?)
  | .flag => .flag (value.bind Json.asFlag?)
  | .sent => .sent (value.bind Json.asSent?)

def tokenUsageKey : String := "token-usage"

/-- The fields that a kind names, in the order in which they are described. -/
def Kind.shape : Kind → List Field
  | .agentTurnComplete =>
    [⟨"thread-id", .text⟩, ⟨"turn-id", .text⟩, ⟨"cwd", .text⟩, ⟨"input-messages", .texts⟩,
      ⟨"last-assistant-message", .text⟩]
  | .approvalRequested =>
    [⟨"thread-id", .text⟩, ⟨"turn-id", .text⟩, ⟨"cwd", .text⟩, ⟨"kind", .text⟩,
      ⟨"call-id", .text⟩, ⟨"command", .texts⟩, ⟨"paths", .texts⟩, ⟨"approval-policy", .sent⟩,
      ⟨"sandbox-policy", .sent⟩, ⟨"grant-root", .text⟩, ⟨"request-id", .text⟩,
      ⟨"message", .text⟩, ⟨"reason", .text⟩, ⟨"server-name", .text⟩,
      ⟨"proposed-execpolicy-amendment", .texts⟩]
  | .modelRequestStarted =>
    [⟨"thread-id", .text⟩, ⟨"turn-id", .text⟩, ⟨"cwd", .text⟩, ⟨"model-request-id", .text⟩,
      ⟨"attempt", .integer⟩, ⟨"model", .text⟩, ⟨"provider", .text⟩,
      ⟨"prompt-input-item-count", .integer⟩, ⟨"tool-count", .integer⟩,
      ⟨"parallel-tool-calls", .flag⟩, ⟨"has-output-schema", .flag⟩]
  | .modelResponseCompleted =>
    [⟨"thread-id", .text⟩, ⟨"turn-id", .text⟩, ⟨"cwd", .text⟩, ⟨"model-request-id", .text⟩,
      ⟨"attempt", .integer⟩, ⟨"response-id", .text⟩, ⟨"needs-follow-up", .flag⟩,
      ⟨tokenUsageKey, .sent⟩]
  | .sessionStart => [⟨"thread-id", .text⟩, ⟨"cwd", .text⟩, ⟨"session-source", .text⟩]
  | .sessionEnd => [⟨"thread-id", .text⟩, ⟨"cwd", .text⟩, ⟨"session-source", .text⟩]
  | .toolCallStarted =>
    [⟨"thread-id", .text⟩, ⟨"turn-id", .text⟩, ⟨"cwd", .text⟩, ⟨"model-request-id", .text⟩,
      ⟨"attempt", .integer⟩, ⟨"tool-name", .text⟩, ⟨"call-id", .text⟩]
  | .toolCallFinished =>
    [⟨"thread-id", .text⟩, ⟨"turn-id", .text⟩, ⟨"cwd", .text⟩, ⟨"model-request-id", .text⟩,
      ⟨"attempt", .integer⟩, ⟨"tool-name", .text⟩, ⟨"call-id", .text⟩, ⟨"status", .text⟩,
      ⟨"success", .flag⟩, ⟨"duration-ms", .integer⟩, ⟨"output-bytes", .integer⟩,
      ⟨"output-preview", .text⟩]
  | .unknown => []

/-- The names of the fields that a kind names. -/
def Kind.fieldNames (kind : Kind) : List String := kind.shape.map (·.name)

end AgentHooks.Event
