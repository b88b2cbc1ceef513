/-
Input streams, and the payload of a whole stream.

A stream is the bytes that it yields and, when it cannot be read to its end,
the fault after the last of them.
-/
import AgentHooks.Event.Binding
import AgentHooks.Payload.Envelope

namespace AgentHooks

/-- What can be read of an input. -/
structure Stream where
  bytes : Bytes
  fault : Option String
deriving DecidableEq

namespace Stream

/-- The lines that can be read: a last line without its line feed counts only
when the stream ends there. -/
def lines (s : Stream) : List Bytes :=
  let all := Text.physicalLines s.bytes
  if s.fault = none then all else all.filter fun l => l.getLast? == some Text.lineFeed

end Stream

namespace Payload

/-- A byte that counts as blank in an input without payload. -/
def isBlankByte (b : UInt8) : Bool :=
  b = 0x20 || b = 0x09 || b = 0x0A || b = 0x0C || b = 0x0D

/-- The envelope that a whole input holds; a blank input holds an empty one. -/
def envelopeOf (input : Stream) : Except Diagnostic Json :=
  match input.fault with
  | some detail => .error (.unreadableInput detail)
  | none =>
    if input.bytes.all isBlankByte then .ok (.object [])
    else (Json.parse input.bytes).mapError .invalidPayload

/-- The payload that a whole input holds or names. -/
def ofInput (files : FileTree) (input : Stream) : Except Diagnostic Record :=
  match envelopeOf input with
  | .error d => .error d
  | .ok envelope => Envelope.resolve files envelope

/-- What reading the payload of an input leaves in the log. -/
def logEntries (input : Stream) : List Log.Entry :=
  match envelopeOf input with
  | .error _ => []
  | .ok envelope => Envelope.logEntries envelope

end Payload

/-- The event that a whole input holds or names. -/
def Event.ofInput (files : FileTree) (input : Stream) : Except Diagnostic Event :=
  (Payload.ofInput files input).map .ofRecord

end AgentHooks
