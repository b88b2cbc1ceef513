/-
Diagnostics: what can go wrong with one message or one payload.

None of these stops the host; each is reported where it arises.  The wording
is in `message` alone.
-/
import AgentHooks.Json.Fault
import AgentHooks.Log.Entry
import AgentHooks.Text.Shown

namespace AgentHooks

/-- A condition that the host reports, or for which a one-shot read fails. -/
inductive Diagnostic where
  | malformedLine (line : Nat) (detail : String) (excerpt : String)
  /-- The file that an envelope names holds no payload. -/
  | payloadUnavailable (path : String) (detail : String)
  /-- A message is of a kind that carries no event. -/
  | unrecognizedKind (line : Nat) (kind : String)
  | handlerFailure (seq : Option Int64) (eventType : String) (detail : String)
  /-- The input could not be read to its end. -/
  | unreadableInput (detail : String)
  | invalidPayload (fault : Json.Fault)
deriving DecidableEq

namespace Diagnostic

/-- A sequence number, or a mark that there is none. -/
def seqText (seq : Option Int64) : String :=
  match seq with
  | some n => toString n.toInt
  | none => "?"

def message : Diagnostic → String
  | malformedLine line detail excerpt =>
    s!"line {line}: malformed envelope: {detail}; input: {Text.quote excerpt}"
  | payloadUnavailable path detail => s!"payload file '{path}' unavailable: {detail}"
  | unrecognizedKind line kind => s!"line {line}: skipping message of kind '{kind}'"
  | handlerFailure seq eventType detail =>
    s!"handler failed for '{eventType}' event (seq {seqText seq}): {detail}"
  | unreadableInput detail => s!"failed to read hook input: {detail}"
  | invalidPayload fault => s!"invalid JSON hook payload: {fault.message}"

/-- The text of the fault behind a diagnostic, when there is one of its own. -/
def source? : Diagnostic → Option String
  | unreadableInput detail => some detail
  | invalidPayload fault => some fault.message
  | _ => none

/-- The report of a line that is no message. -/
def malformed (line : Nat) (detail : String) (text : String) : Diagnostic :=
  malformedLine line detail (Text.excerpt text)

/-- A diagnostic as an entry of the log: a skipped kind matters little, a failed
handler most. -/
def logEntry (d : Diagnostic) : Log.Entry :=
  let (level, message) : Log.Level × String :=
    match d with
    | unrecognizedKind .. => (.debug, "skipped host message")
    | handlerFailure .. => (.error, "hook handler failed")
    | _ => (.warn, "skipped hook input")
  ⟨level, Log.hostTarget, message, [("diagnostic", .text d.message)]⟩

end Diagnostic

end AgentHooks
