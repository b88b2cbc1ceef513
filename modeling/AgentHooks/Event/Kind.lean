/-
The kinds of events and the names that senders use for them.
-/

namespace AgentHooks.Event

/-- What an agent reports: a turn, an approval it waits for, a model request, a
session, a tool call.  An event of any other kind is unknown. -/
inductive Kind where
  | agentTurnComplete
  | approvalRequested
  | modelRequestStarted
  | modelResponseCompleted
  | sessionStart
  | sessionEnd
  | toolCallStarted
  | toolCallFinished
  | unknown
deriving DecidableEq, Repr

namespace Kind

/-- Every kind with a name of its own. -/
def known : List Kind :=
  [agentTurnComplete, approvalRequested, modelRequestStarted, modelResponseCompleted,
    sessionStart, sessionEnd, toolCallStarted, toolCallFinished]

/-- The accepted spellings of a kind, its name first. -/
def spellings : Kind → List String
  | agentTurnComplete =>
    ["agent-turn-complete", "agent_turn_complete", "turn-complete", "Stop"]
  | approvalRequested => ["approval-requested", "approval_requested", "PermissionRequest"]
  | modelRequestStarted => ["model-request-started", "model_request_started"]
  | modelResponseCompleted => ["model-response-completed", "model_response_completed"]
  | sessionStart => ["session-start", "session_start", "SessionStart", "session.start"]
  | sessionEnd => ["session-end", "session_end", "SessionEnd", "session.end"]
  | toolCallStarted =>
    ["tool-call-started", "tool_call_started", "PreToolUse", "tool.execute.before"]
  | toolCallFinished =>
    ["tool-call-finished", "tool_call_finished", "PostToolUse", "tool.execute.after"]
  | unknown => ["unknown"]

def name : Kind → String
  | agentTurnComplete => "agent-turn-complete"
  | approvalRequested => "approval-requested"
  | modelRequestStarted => "model-request-started"
  | modelResponseCompleted => "model-response-completed"
  | sessionStart => "session-start"
  | sessionEnd => "session-end"
  | toolCallStarted => "tool-call-started"
  | toolCallFinished => "tool-call-finished"
  | unknown => "unknown"

def isKnown (k : Kind) : Bool := k != unknown

/-- The kind that a text spells, if it spells one. -/
def ofSpelling? (text : String) : Option Kind :=
  (known ++ [unknown]).find? fun k => k.spellings.contains text

/-- What is said of a text that spells no kind. -/
def noSuchKind : String := "Matching variant not found"

def ofDiscriminant (text : String) : Kind := (ofSpelling? text).getD unknown

end Kind

end AgentHooks.Event
