/-
Envelopes: a payload that is there, or the path of a file that holds it.

Resolving follows a path once: what the file holds is the payload, even if it
looks like an envelope itself.
-/
import AgentHooks.Diagnostic
import AgentHooks.Files.Tree
import AgentHooks.Json.Parser

namespace AgentHooks.Envelope

/-- The keys under which an envelope names a file, the preferred one first. -/
def pathKeys : List String := ["payload-path", "payload_path"]

def nonemptyString? : Json → Option String
  | .string s => if s = "" then none else some s
  | _ => none

def payloadPath? (envelope : Json) : Option String := do
  let members ← envelope.asRecord?
  pathKeys.findSome? fun key => (members.get? key).bind nonemptyString?

/-- What is said of a file that holds JSON but no object. -/
def notAnObject : String := "payload is not a JSON object"

/-- The payload that the bytes of a file hold, or what is wrong with them. -/
def payloadOfBytes (bytes : Bytes) : Except String Record :=
  match Utf8.decodeText? bytes with
  | none => .error FileFault.notUtf8.message
  | some _ =>
    match Json.parse bytes with
    | .error fault => .error fault.message
    | .ok v =>
      match v.asRecord? with
      | some payload => .ok payload
      | none => .error notAnObject

/-- The payload in the file at a path. -/
def payloadAt (files : FileTree) (path : String) : Except Diagnostic Record :=
  match files.read path with
  | .error fault => .error (.payloadUnavailable path fault.message)
  | .ok bytes => (payloadOfBytes bytes).mapError (.payloadUnavailable path)

/-- The payload of an envelope: what the file holds when the envelope names one,
else the envelope itself, which is empty unless it is an object. -/
def resolve (files : FileTree) (envelope : Json) : Except Diagnostic Record :=
  match payloadPath? envelope with
  | some path => payloadAt files path
  | none => .ok (envelope.asRecord?.getD .empty)

/-- What resolving an envelope leaves in the log. -/
def logEntries (envelope : Json) : List Log.Entry :=
  match payloadPath? envelope with
  | some path =>
    [⟨.debug, Log.envelopeTarget, "reading payload by reference", [("path", .text path)]⟩]
  | none => []

end AgentHooks.Envelope
