/-
The log of events.

A sink of this kind writes the text of every payload as one line.  So the file
holds, after what it held before, the payloads that were handled with success
and nothing else, and they can be read back from it one line after the other:
no text has a line end inside, and reading undoes writing.
-/
import AgentHooks.Proofs.Json.Padding
import AgentHooks.Proofs.Sink.Appending

namespace AgentHooks.Sink

open Text

theorem lines_eventLog (path : String) (events : List Record) :
    lines ⟨.eventLog, path⟩ events = events.map fun event => event.toJson.text :=
  congrFun (List.filterMap_eq_map (f := fun event : Record => event.toJson.text)) events

/-- The bytes of the lines of some events. -/
def eventLines (events : List Record) : Bytes :=
  events.flatMap fun event => Utf8.encode event.toJson.text ++ [lineFeed]

theorem flatMap_lineBytes_map_text (events : List Record) :
    (events.map fun event => event.toJson.text).flatMap lineBytes = eventLines events := by
  rw [List.flatMap_map]
  rfl

end AgentHooks.Sink
