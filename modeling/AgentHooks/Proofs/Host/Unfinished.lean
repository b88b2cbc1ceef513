/-
Streams that cannot be read to their end.

The lines of a stream that fails are those that are complete, so a run over it is a
run over what is up to the last line feed, with one more report at the end
(`trace_of_fault`).  What comes after that line feed is no line: nothing is counted,
handed over or reported for it.
-/
import AgentHooks.Proofs.Host.Content
import AgentHooks.Proofs.Text.Lines

namespace AgentHooks.Host

variable {σ δ : Type}

/-- The bytes of the complete lines. -/
def completeLines (bytes : Bytes) : Bytes := Text.upToLast (· == Text.lineFeed) bytes

/-- The report of the fault is the only thing that a stream that fails adds to the run
over its complete lines, and stands before the last entry of the log. -/
theorem trace_of_fault (handler : Handler σ) (bytes : Bytes) (detail : String) (w : World σ) :
    let failed := run handler ⟨bytes, some detail⟩ w
    let ended := run handler ⟨completeLines bytes, none⟩ w
    failed.summary = ended.summary ∧ failed.world = ended.world ∧
    ∃ before, ended.trace = before ++ [.logged ended.summary.logEntry] ∧
      failed.trace =
        before ++ [.reported (.unreadableInput detail), .logged ended.summary.logEntry] := by
  intro failed ended
  have hlines : Stream.lines ⟨bytes, some detail⟩ = Stream.lines ⟨completeLines bytes, none⟩ :=
    Stream.lines_of_fault bytes detail
  simp only [failed, ended, run, hlines, true_and]
  exact ⟨_, rfl, rfl⟩

/-- A host reads a stream that fails like the stream of its complete lines, which ends
there: the calls, the reports and the summary are the same, and then comes one report
more, with the text of the fault.  The complete lines run up to the last line feed. -/
theorem serve_of_fault (r : Reporter δ) (handler : Handler σ) (bytes : Bytes) (detail : String)
    (w : World σ) (state : δ) :
    let failed := serve r handler ⟨bytes, some detail⟩ w state
    let ended := serve r handler ⟨completeLines bytes, none⟩ w state
    let report := Diagnostic.unreadableInput detail
    Trace.acts failed.trace = Trace.acts ended.trace ++ [.reported report] ∧
    failed.summary = ended.summary ∧
    failed.world = ended.world ∧
    failed.state = r.report report ended.state ∧
    report.source? = some detail ∧
    Text.EndsLine (completeLines bytes) ∧
    ∃ rest, bytes = completeLines bytes ++ rest ∧ Text.lineFeed ∉ rest := by
  obtain ⟨hsummary, hworld, before, hended, hfailed⟩ := trace_of_fault handler bytes detail w
  have hreports : Trace.reports (run handler ⟨bytes, some detail⟩ w).trace =
      Trace.reports (run handler ⟨completeLines bytes, none⟩ w).trace ++
        [.unreadableInput detail] := by
    rw [hfailed, hended, Trace.reports_append, Trace.reports_append, List.append_assoc]
    rfl
  obtain ⟨rest, hbytes, hrest⟩ := Text.exists_eq_upToLast_append (· == Text.lineFeed) bytes
  intro failed ended report
  simp only [failed, ended, serve_eq]
  refine ⟨?_, hsummary, hworld, ?_, rfl, Text.endsLine_upToLast bytes, rest, hbytes, ?_⟩
  · rw [hfailed, hended, Trace.acts_append, Trace.acts_append, List.append_assoc]
    rfl
  · rw [hreports, Reporter.takeAll_append]
    rfl
  · exact fun h => absurd (hrest _ h) (by simp)

end AgentHooks.Host
