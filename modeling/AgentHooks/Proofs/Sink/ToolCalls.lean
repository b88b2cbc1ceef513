/-
The log of tool calls.

A sink of this kind writes the summary of every tool call that finished and
ends it with a line feed.  The name of the tool, the status and the directory
stand in a summary as they were sent, with every line feed they have.  So the
log has one line for each call if no such text has a line feed, and only then
(`toolCalls_added`); one with a line feed inside looks like several calls
(`toolCalls_two_lines_for_one_call`).
-/
import AgentHooks.Proofs.Sink.Appending

namespace AgentHooks

open Text

namespace ToolCall

/-- The fields whose texts stand in a summary as they were sent. -/
def textNames : List String := ["tool-name", "status", "cwd"]

/-- The characters of these texts, one text after the other. -/
def sent (call : Event) : List Char :=
  textNames.flatMap fun name => ((call.text? name).getD "").toList

/-- The text of an integer is made of digits, after its sign. -/
theorem lineFeed_not_mem_integerText (n : Option Int64) : '\n' ∉ (integerText n).toList := by
  have hdigits (m : Nat) : '\n' ∉ (toString m).toList := by
    intro hmem
    have hmem : '\n' ∈ Nat.toDigits 10 m := Nat.toList_repr ▸ hmem
    exact absurd (Nat.isDigit_of_mem_toDigits (by decide) (by decide) hmem) (by decide)
  rw [integerText]
  generalize (n.getD 0).toInt = i
  cases i with
  | ofNat m => exact hdigits m
  | negSucc m =>
      have htext : toString (Int.negSucc m) = "-" ++ toString (m + 1) := rfl
      rw [htext, String.toList_append, List.mem_append, not_or]
      exact ⟨by decide, hdigits (m + 1)⟩

theorem lineFeed_not_mem_flagText (flag : Option Bool) : '\n' ∉ (flagText flag).toList := by
  rcases flag with _ | _ | _ <;> decide

theorem count_getD_unknown (text : Option String) :
    (text.getD unknown).toList.count '\n' = (text.getD "").toList.count '\n' := by
  cases text with
  | none => decide
  | some text => rfl

/-- All line feeds of a summary are those of the texts that were sent. -/
theorem count_summaryLine (call : Event) :
    (summaryLine call).toList.count '\n' = (sent call).count '\n' := by
  have hflag := List.count_eq_zero.mpr (lineFeed_not_mem_flagText (call.flag? "success"))
  have hduration :=
    List.count_eq_zero.mpr (lineFeed_not_mem_integerText (call.integer? "duration-ms"))
  have hbytes :=
    List.count_eq_zero.mpr (lineFeed_not_mem_integerText (call.integer? "output-bytes"))
  have hwords : ∀ words ∈ ["type=tool-call-finished", " tool=", " status=", " success=",
      " duration_ms=", " output_bytes=", " cwd="], words.toList.count '\n' = 0 := by decide
  simp only [List.forall_mem_cons] at hwords
  -- The text is taken apart where its pieces were joined; no piece is evaluated.
  unfold summaryLine
  simp only [String.toList_append, List.count_append, count_getD_unknown, hflag, hduration,
    hbytes, hwords, Nat.zero_add, Nat.add_zero]
  simp only [sent, textNames, List.flatMap_cons, List.flatMap_nil, List.count_append,
    List.count_nil, Nat.add_zero, Nat.add_assoc]

/-- The tool calls that finished, among some events. -/
def finished (events : List Record) : List Event :=
  (events.map Event.ofRecord).filter fun e => e.kind = .toolCallFinished

end ToolCall

namespace Sink

open ToolCall

theorem lines_toolCalls (path : String) (events : List Record) :
    lines ⟨.toolCalls, path⟩ events = (finished events).map summaryLine := by
  have hline : lines ⟨.toolCalls, path⟩ events = (events.map .ofRecord).filterMap summaryLine? :=
    (List.filterMap_map (f := Event.ofRecord) (g := summaryLine?)).symm
  rw [hline, finished]
  generalize events.map Event.ofRecord = bound
  induction bound with
  | nil => rfl
  | cons e es ih =>
      by_cases hkind : e.kind = .toolCallFinished
      · have hsome : summaryLine? e = some (summaryLine e) := if_pos hkind
        rw [List.filterMap_cons_some hsome, ih, List.filter_cons_of_pos (by simpa using hkind),
          List.map_cons]
      · have hnone : summaryLine? e = none := if_neg hkind
        rw [List.filterMap_cons_none hnone, ih, List.filter_cons_of_neg (by simpa using hkind)]

/-- The bytes of the summaries of some calls, each with the line feed that ends
it. -/
def summaryLines (calls : List Event) : Bytes :=
  calls.flatMap fun call => lineBytes (summaryLine call)

theorem flatMap_lineBytes_map_summaryLine (calls : List Event) :
    (calls.map summaryLine).flatMap lineBytes = summaryLines calls := by
  rw [List.flatMap_map]
  rfl

theorem count_summaryLines (calls : List Event) :
    (summaryLines calls).count lineFeed = calls.length + (calls.flatMap sent).count '\n' := by
  induction calls with
  | nil => rfl
  | cons call calls ih =>
      have hcall :
          (lineBytes (summaryLine call)).count lineFeed = (sent call).count '\n' + 1 := by
        rw [lineBytes, List.count_append, count_lineFeed_encode, count_summaryLine,
          List.count_singleton_self]
      unfold summaryLines at ih ⊢
      rw [List.flatMap_cons, List.count_append, hcall, ih, List.flatMap_cons, List.count_append,
        List.length_cons]
      omega

theorem count_summaryLines_eq_length_iff {calls : List Event} :
    (summaryLines calls).count lineFeed = calls.length ↔ ∀ call ∈ calls, '\n' ∉ sent call := by
  rw [count_summaryLines, Nat.add_eq_left, List.count_eq_zero, List.mem_flatMap]
  exact ⟨fun h call hcall hmem => h ⟨call, hcall, hmem⟩,
    fun h ⟨call, hcall, hmem⟩ => h call hcall hmem⟩

/-- Between the line feeds stand the summaries, one after the other, if none is
taken apart by a line feed of its own. -/
theorem cut_summaryLines_iff {calls : List Event} :
    cut (· == lineFeed) (summaryLines calls) =
        (calls.map fun call => Utf8.encode (summaryLine call)) ++ [[]] ↔
      ∀ call ∈ calls, '\n' ∉ sent call := by
  have htexts : (calls.map fun call => Utf8.encode (summaryLine call)) =
      (calls.map summaryLine).map Utf8.encode := by
    simp only [List.map_map, Function.comp_def]
  rw [htexts, ← flatMap_lineBytes_map_summaryLine, cut_flatMap_lineBytes_iff, List.forall_mem_map]
  refine forall₂_congr fun call _ => not_congr ?_
  rw [← List.count_pos_iff, count_summaryLine, List.count_pos_iff]

theorem handler_toolCalls_of_ne (path : String) {event : Record}
    (h : (Event.ofRecord event).kind ≠ .toolCallFinished) (w : World Unit) :
    (Sink.handler ⟨.toolCalls, path⟩ event w).reply = .done ∧
      (Sink.handler ⟨.toolCalls, path⟩ event w).world = w := by
  have hstore : store ⟨.toolCalls, path⟩ event w.files = .ok w.files := by
    simp only [store, line?, summaryLine?, if_neg h]
  exact handler_of_store_ok _ hstore

/-- What is added to the log when every event is handled with success: the
summaries of the calls that finished, each ended by a line feed, in their order.
There are as many line feeds as calls, and the lines are the summaries, exactly
when no text that was sent for the tool, the status or the directory has a line
feed; otherwise there are as many more as these texts have.  Events of another
kind add nothing. -/
theorem toolCalls_added (files : FileTree) (path : String) (events : List Record)
    (hdone : (Sink.handler ⟨.toolCalls, path⟩).succeeded events ⟨files, ()⟩ = events) :
    let handler := Sink.handler ⟨.toolCalls, path⟩
    let after := (handler.afterAll events ⟨files, ()⟩).files
    let calls := finished events
    let added := summaryLines calls
    after.contentOf path = files.contentOf path ++ added ∧
    added.count lineFeed = calls.length + (calls.flatMap sent).count '\n' ∧
    (added.count lineFeed = calls.length ↔ ∀ call ∈ calls, '\n' ∉ sent call) ∧
    (cut (· == lineFeed) added =
        (calls.map fun call => Utf8.encode (summaryLine call)) ++ [[]] ↔
      ∀ call ∈ calls, '\n' ∉ sent call) ∧
    ∀ event w, (Event.ofRecord event).kind ≠ .toolCallFinished →
      (handler event w).reply = .done ∧ (handler event w).world = w := by
  intro handler after calls added
  have hafter : after.contentOf path = files.contentOf path ++ added := by
    have hcontent := contentOf_afterAll ⟨.toolCalls, path⟩ files events
    rw [hdone, lines_toolCalls, flatMap_lineBytes_map_summaryLine] at hcontent
    exact hcontent
  exact ⟨hafter, count_summaryLines calls, count_summaryLines_eq_length_iff,
    cut_summaryLines_iff, fun _ w h => handler_toolCalls_of_ne path h w⟩

/-- Two calls around an event of another kind.  The first tool has a line feed in
its name, so three lines are added for two calls. -/
theorem toolCalls_added_three_lines :
    let call (tool : String) :=
      Record.ofMembers [("type", .string "PostToolUse"), ("tool_name", .string tool)]
    let events := [call "a\nb", .ofMembers [("type", .string "session-end")], call "c"]
    let files : FileTree := ⟨[(["log"], .file [0x78])]⟩
    let after := ((Sink.handler ⟨.toolCalls, "log"⟩).afterAll events ⟨files, ()⟩).files
    after.contentOf "log" = 0x78 :: summaryLines (finished events) ∧
    (finished events).length = 2 ∧
    (summaryLines (finished events)).count lineFeed = 3 := by
  intro call events files after
  have hdone : (Sink.handler ⟨.toolCalls, "log"⟩).succeeded events ⟨files, ()⟩ = events := by
    decide +kernel
  obtain ⟨hafter, hcount, -⟩ := toolCalls_added files "log" events hdone
  have hbefore : files.contentOf "log" = [0x78] := by decide +kernel
  have hlength : (finished events).length = 2 := by decide +kernel
  have hinner : ((finished events).flatMap sent).count '\n' = 1 := by decide +kernel
  refine ⟨?_, hlength, ?_⟩
  · rw [hafter, hbefore, List.singleton_append]
  · rw [hcount, hlength, hinner]

/-- One call that is handled with success may take two lines, and then no line is
its summary. -/
theorem toolCalls_two_lines_for_one_call :
    let event := Record.ofMembers
      [("type", .string "tool-call-finished"), ("tool-name", .string "a\nb")]
    let handler := Sink.handler ⟨.toolCalls, "log"⟩
    let log := (handler.afterAll [event] ⟨⟨[]⟩, ()⟩).files.contentOf "log"
    handler.succeeded [event] ⟨⟨[]⟩, ()⟩ = [event] ∧
    finished [event] = [.ofRecord event] ∧
    log.count lineFeed = 2 ∧
    Utf8.encode (summaryLine (.ofRecord event)) ∉ cut (· == lineFeed) log := by
  decide +kernel

end Sink

end AgentHooks
