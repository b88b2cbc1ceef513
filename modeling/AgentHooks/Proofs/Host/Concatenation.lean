/-
Streams in two parts.

The loop carries its summary from line to line, and the summary gives every
line its number.  `takeLines_shiftLine` says what the carried summary `base`
does: it is added to the counts and to the line numbers in the reports, and
changes nothing else.  So a stream that is cut after a line is read like two
streams, one after the other, by one host and one handler: `serve_append`.
-/
import AgentHooks.Proofs.Host.Content
import AgentHooks.Proofs.Text.Lines

namespace AgentHooks

/-! ## Line numbers in reports -/

/-- A report about a line `n` lines further on. -/
def Diagnostic.shiftLine (n : Nat) : Diagnostic → Diagnostic
  | malformedLine line detail excerpt => malformedLine (n + line) detail excerpt
  | unrecognizedKind line kind => unrecognizedKind (n + line) kind
  | d => d

/-- An occurrence with the line number of its report, if it has one, moved. -/
def Occurrence.shiftLine (n : Nat) : Occurrence → Occurrence
  | reported d => reported (d.shiftLine n)
  | o => o

namespace Host

/-- A content with the line number of its report, if it has one, moved. -/
def Content.shiftLine (n : Nat) : Content → Content
  | refused d => refused (d.shiftLine n)
  | c => c

/-- The rules for a line look at its number only to report it. -/
theorem Holds.shiftLine {files : FileTree} {line : Nat} {bytes : Bytes} {c : Content}
    (h : Holds files line bytes c) (n : Nat) : Holds files (n + line) bytes (c.shiftLine n) := by
  cases h with
  | blank hdecode htrim => exact .blank hdecode htrim
  | notUtf8 hdecode => exact .notUtf8 hdecode
  | notJson htext hparse => exact .notJson htext hparse
  | notAnObject htext hparse hobject => exact .notAnObject htext hparse hobject
  | otherKind hobject hkind => exact .otherKind hobject hkind
  | unavailable hobject hkind hresolve => exact .unavailable hobject hkind hresolve
  | event hobject hkind hresolve => exact .event hobject hkind hresolve

theorem contentOf_add (files : FileTree) (n line : Nat) (bytes : Bytes) :
    contentOf files (n + line) bytes = (contentOf files line bytes).shiftLine n := by
  have h : Holds files line bytes (contentOf files line bytes) := holds_iff.mpr rfl
  exact (h.shiftLine n).eq_contentOf.symm

variable {σ δ : Type}

theorem answer_shiftLine (handler : Handler σ) (w : World σ) (n : Nat) (c : Content) :
    answer handler w (c.shiftLine n) =
      { answer handler w c with
        trace := (answer handler w c).trace.map (Occurrence.shiftLine n) } := by
  cases c with
  | blank => rfl
  | refused d => rfl
  | event seq payload =>
      simp only [Content.shiftLine, answer]
      split
      · rfl
      · rfl

/-- A line that is read `n` lines further on comes to the same, but for the line
number of its report. -/
theorem takeLine_add (handler : Handler σ) (n line : Nat) (bytes : Bytes) (w : World σ) :
    (takeLine handler (n + line) bytes w).verdict = (takeLine handler line bytes w).verdict ∧
    (takeLine handler (n + line) bytes w).world = (takeLine handler line bytes w).world ∧
    Trace.acts (takeLine handler (n + line) bytes w).trace =
      (Trace.acts (takeLine handler line bytes w).trace).map (Occurrence.shiftLine n) := by
  simp only [takeLine_verdict, takeLine_world, takeLine_acts, contentOf_add, answer_shiftLine,
    and_self]

/-! ## The lines of a run -/

theorem takeLines_append (handler : Handler σ) (ls ls' : List Bytes) (s : Summary)
    (w : World σ) :
    takeLines handler (ls ++ ls') s w =
      let first := takeLines handler ls s w
      let rest := takeLines handler ls' first.summary first.world
      { rest with trace := first.trace ++ rest.trace } := by
  induction ls generalizing s w with
  | nil => rfl
  | cons l ls ih => simp only [List.cons_append, takeLines, ih, List.append_assoc]

/-- Lines taken after others come to what they come to from the start, but for
the counts and the line numbers. -/
theorem takeLines_shiftLine (handler : Handler σ) (ls : List Bytes) (base s : Summary)
    (w : World σ) :
    (takeLines handler ls (base + s) w).summary = base + (takeLines handler ls s w).summary ∧
    (takeLines handler ls (base + s) w).world = (takeLines handler ls s w).world ∧
    Trace.acts (takeLines handler ls (base + s) w).trace =
      (Trace.acts (takeLines handler ls s w).trace).map
        (Occurrence.shiftLine base.linesRead) := by
  induction ls generalizing s w with
  | nil => exact ⟨rfl, rfl, rfl⟩
  | cons l ls ih =>
      obtain ⟨hverdict, hworld, hacts⟩ :=
        takeLine_add handler base.linesRead (s.linesRead + 1) l w
      obtain ⟨hsummary, hend, hrest⟩ :=
        ih (s.count (takeLine handler (s.linesRead + 1) l w).verdict)
          (takeLine handler (s.linesRead + 1) l w).world
      simp only [takeLines, Summary.linesRead_add, Nat.add_assoc, hverdict, hworld,
        Summary.add_count, hsummary, hend, Trace.acts_append, hacts, hrest, List.map_append,
        and_self]

/-! ## Runs -/

theorem map_shiftLine_faultReport (n : Nat) (fault : Option String) :
    (faultReport fault).map (Occurrence.shiftLine n) = faultReport fault := by
  cases fault with
  | none => rfl
  | some detail => rfl

/-- A run over a stream that is cut after a line is a run over the first part
and then one over the second. -/
theorem run_append (handler : Handler σ) {a : Bytes} (ha : Text.EndsLine a) (b : Bytes)
    (fault : Option String) (w : World σ) :
    let first := run handler ⟨a, none⟩ w
    let second := run handler ⟨b, fault⟩ first.world
    let whole := run handler ⟨a ++ b, fault⟩ w
    Trace.acts whole.trace =
      Trace.acts first.trace ++
        (Trace.acts second.trace).map (Occurrence.shiftLine first.summary.linesRead) ∧
    whole.summary = first.summary + second.summary ∧ whole.world = second.world := by
  intro first second whole
  have hparts := takeLines_append handler (Stream.lines ⟨a, none⟩) (Stream.lines ⟨b, fault⟩)
    .zero w
  rw [← Stream.lines_append ha] at hparts
  obtain ⟨hsummary, hworld, hacts⟩ :=
    takeLines_shiftLine handler (Stream.lines ⟨b, fault⟩) first.summary .zero first.world
  rw [Summary.add_zero] at hsummary hworld hacts
  have hfirst : Trace.acts first.trace =
      Trace.acts (takeLines handler (Stream.lines ⟨a, none⟩) .zero w).trace := by
    rw [acts_run]
    exact List.append_nil _
  have hsecond : (Trace.acts second.trace).map (Occurrence.shiftLine first.summary.linesRead) =
      Trace.acts (takeLines handler (Stream.lines ⟨b, fault⟩) first.summary first.world).trace ++
        faultReport fault := by
    rw [acts_run, List.map_append, map_shiftLine_faultReport, hacts]
  refine ⟨?_, (congrArg (·.summary) hparts).trans hsummary,
    (congrArg (·.world) hparts).trans hworld⟩
  rw [hfirst, hsecond, acts_run, hparts, Trace.acts_append, List.append_assoc]
  rfl

/-- One host and one handler read a stream that is cut after a line like two
streams, one after the other: the calls and reports are those of the first part
followed by those of the second, whose line numbers go on where the first part
ended, and every counter is the sum of both.  A reporter that keeps the reports
then holds those of the first part in front. -/
theorem serve_append (r : Reporter δ) (handler : Handler σ) {a : Bytes} (ha : Text.EndsLine a)
    (b : Bytes) (fault : Option String) (w : World σ) (state : δ) :
    let first := serve r handler ⟨a, none⟩ w state
    let second := serve r handler ⟨b, fault⟩ first.world first.state
    let whole := serve r handler ⟨a ++ b, fault⟩ w state
    Trace.acts whole.trace =
      Trace.acts first.trace ++
        (Trace.acts second.trace).map (Occurrence.shiftLine first.summary.linesRead) ∧
    whole.summary.linesRead = first.summary.linesRead + second.summary.linesRead ∧
    whole.summary.dispatched = first.summary.dispatched + second.summary.dispatched ∧
    whole.summary.skipped = first.summary.skipped + second.summary.skipped ∧
    whole.summary.handlerFailures =
      first.summary.handlerFailures + second.summary.handlerFailures ∧
    whole.world = second.world ∧
    ∀ kept, let first := serve .keeping handler ⟨a, none⟩ w kept
      let second := serve .keeping handler ⟨b, fault⟩ first.world first.state
      first.state = kept ++ Trace.reports first.trace ∧
      second.state = first.state ++ Trace.reports second.trace := by
  obtain ⟨hacts, hsummary, hworld⟩ := run_append handler ha b fault w
  intro first second whole
  simp only [first, second, whole, serve_eq]
  refine ⟨hacts, ?_, ?_, ?_, ?_, hworld, fun kept =>
    ⟨Reporter.takeAll_keeping _ _, Reporter.takeAll_keeping _ _⟩⟩
  · rw [hsummary]; rfl
  · rw [hsummary]; rfl
  · rw [hsummary]; rfl
  · rw [hsummary]; rfl

/-- A blank line, and after it a line of another kind that has no line feed. -/
theorem serve_append_other_kind :
    Text.EndsLine [0x0A] ∧
    Trace.acts (serve .keeping .scripted
        ⟨[0x0A] ++ Utf8.encode "\x7b\"type\":\"tick\"\x7d", none⟩ ⟨.empty, []⟩ []).trace =
      [.reported (.unrecognizedKind 2 "tick")] := by
  have hends : Text.EndsLine [0x0A] := .inr rfl
  refine ⟨hends, ?_⟩
  have happend := serve_append .keeping .scripted hends
    (Utf8.encode "\x7b\"type\":\"tick\"\x7d") none ⟨.empty, []⟩ []
  exact happend.1.trans (by decide +kernel)

end Host

end AgentHooks
