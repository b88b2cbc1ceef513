/-
Sinks: handlers that append to a file.

The event log takes every payload as one JSON line; the tool-call log takes one
line for each tool call that finished and nothing for other events.
-/
import AgentHooks.Host

namespace AgentHooks

/-- A sink could not append to its file. -/
structure AppendFault where
  path : String
  fault : FileFault
deriving DecidableEq, Repr

namespace AppendFault

def message (f : AppendFault) : String := s!"failed to append to '{f.path}'"

/-- The texts of the failure and of its cause. -/
def chain (f : AppendFault) : List String := [f.message, f.fault.message]

end AppendFault

/-- A text as a line with its line feed. -/
def lineBytes (text : String) : Bytes := Utf8.encode text ++ [Text.lineFeed]

/-- Appends a line to the file at a path. -/
def FileTree.appendLine (t : FileTree) (path line : String) : Except AppendFault FileTree :=
  (t.append path (lineBytes line)).mapError (⟨path, ·⟩)

namespace ToolCall

/-- What stands for a text that is missing. -/
def unknown : String := "unknown"

/-- The text of a flag that may be missing. -/
def flagText : Option Bool → String
  | some true => "true"
  | some false => "false"
  | none => unknown

/-- The text of an integer that may be missing. -/
def integerText (n : Option Int64) : String := toString (n.getD 0).toInt

/-- The line for a tool call that finished. -/
def summaryLine (e : Event) : String :=
  "type=tool-call-finished" ++
  " tool=" ++ (e.text? "tool-name").getD unknown ++
  " status=" ++ (e.text? "status").getD unknown ++
  " success=" ++ flagText (e.flag? "success") ++
  " duration_ms=" ++ integerText (e.integer? "duration-ms") ++
  " output_bytes=" ++ integerText (e.integer? "output-bytes") ++
  " cwd=" ++ (e.text? "cwd").getD ""

/-- The line for an event, when it is a tool call that finished. -/
def summaryLine? (e : Event) : Option String :=
  if e.kind = .toolCallFinished then some (summaryLine e) else none

end ToolCall

/-- What a sink writes. -/
inductive SinkKind where
  | eventLog
  | toolCalls
deriving DecidableEq, Repr

namespace SinkKind

/-- The name by which a sink is chosen. -/
def name : SinkKind → String
  | eventLog => "jsonl"
  | toolCalls => "tool-summary"

def all : List SinkKind := [eventLog, toolCalls]

def ofName? (s : String) : Option SinkKind := all.find? (·.name == s)

def logName : SinkKind → String
  | eventLog => "Jsonl"
  | toolCalls => "ToolSummary"

end SinkKind

/-- A sink and the path of its file. -/
structure Sink where
  kind : SinkKind
  path : String
deriving DecidableEq, Repr

namespace Sink

/-- The line that a sink writes for a payload, if it writes one. -/
def line? (s : Sink) (payload : Record) : Option String :=
  match s.kind with
  | .eventLog => some payload.toJson.text
  | .toolCalls => ToolCall.summaryLine? (.ofRecord payload)

/-- What a sink leaves in the log for a payload that it does not write. -/
def ignoredEntry (payload : Record) : Log.Entry :=
  ⟨.debug, Log.sinkTarget, "ignoring event",
    [("kind", .text (Event.ofRecord payload).kind.name)]⟩

def store (s : Sink) (payload : Record) (files : FileTree) : Except AppendFault FileTree :=
  match s.line? payload with
  | none => .ok files
  | some line => files.appendLine s.path line

def handler (s : Sink) : Handler Unit := fun payload w =>
  let log := if s.line? payload = none then [ignoredEntry payload] else []
  match s.store payload w.files with
  | .ok files => ⟨.done, { w with files }, log⟩
  | .error f => ⟨.failed f.chain, w, log⟩

end Sink

end AgentHooks
