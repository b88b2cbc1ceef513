/-
The accounts of a run.

A summary is kept in four counters while the reports are made elsewhere.
`Accounted` ties them together: what the counters say of the lines consumed so
far is what these lines and the trace so far show.  Every line keeps the
accounts, whatever it holds and whatever the handler answers, so every run
does; `run_accounts` adds what the end of the stream contributes.
-/
import AgentHooks.Proofs.Host.Content

namespace AgentHooks

namespace Diagnostic

/-- The report of a line that never reached the handler. -/
def isSkip : Diagnostic → Bool
  | malformedLine .. => true
  | unrecognizedKind .. => true
  | payloadUnavailable .. => true
  | _ => false

/-- The report of a handler that did not succeed. -/
def isHandlerFailure : Diagnostic → Bool
  | handlerFailure .. => true
  | _ => false

theorem isHandlerFailure_of_isSkip {d : Diagnostic} (h : d.isSkip = true) :
    d.isHandlerFailure = false := by
  cases d with
  | handlerFailure _ _ _ => cases h
  | _ => rfl

end Diagnostic

namespace Host

/-- A line that is text, with nothing on it but blanks. -/
def isBlankLine (bytes : Bytes) : Bool :=
  match Utf8.decode bytes with
  | .ok chars => (Text.trim chars).isEmpty
  | .error _ => false

/-! ## What the content of a line says about the accounts -/

theorem Holds.isSkip {files : FileTree} {line : Nat} {bytes : Bytes} {d : Diagnostic}
    (h : Holds files line bytes (.refused d)) : d.isSkip = true := by
  cases h <;> rfl

theorem isBlankLine_of_holdsText {bytes : Bytes} {text : String} (h : HoldsText bytes text) :
    isBlankLine bytes = false := by
  obtain ⟨chars, hdecode, hne, -⟩ := h
  simp only [isBlankLine, hdecode, List.isEmpty_eq_false_iff]
  exact hne

theorem isBlankLine_of_holdsObject {bytes : Bytes} {members : Record}
    (h : HoldsObject bytes members) : isBlankLine bytes = false := by
  obtain ⟨text, v, htext, -, -⟩ := h
  exact isBlankLine_of_holdsText htext

/-- The blank lines are the ones that hold nothing. -/
theorem Holds.isBlankLine_eq {files : FileTree} {line : Nat} {bytes : Bytes} {c : Content}
    (h : Holds files line bytes c) : isBlankLine bytes = decide (c = .blank) := by
  cases h with
  | blank hdecode htrim => simp only [isBlankLine, hdecode, htrim]; rfl
  | notUtf8 hdecode => simp only [isBlankLine, hdecode]; rfl
  | notJson htext _ => rw [isBlankLine_of_holdsText htext]; rfl
  | notAnObject htext _ _ => rw [isBlankLine_of_holdsText htext]; rfl
  | otherKind hobject _ => rw [isBlankLine_of_holdsObject hobject]; rfl
  | unavailable hobject _ _ => rw [isBlankLine_of_holdsObject hobject]; rfl
  | event hobject _ _ => rw [isBlankLine_of_holdsObject hobject]; rfl

/-! ## The invariant -/

/-- The counters of a summary and the lines and the trace that they are about. -/
structure Accounted (consumed : List Bytes) (s : Summary) (trace : List Occurrence) : Prop where
  linesRead : s.linesRead = consumed.length
  lines : consumed.length = consumed.countP isBlankLine + s.skipped + s.dispatched
  dispatched : s.dispatched = (Trace.events trace).length
  skipped : s.skipped = (Trace.reports trace).countP Diagnostic.isSkip
  failures : s.handlerFailures = (Trace.reports trace).countP Diagnostic.isHandlerFailure
  failures_le : s.handlerFailures ≤ s.dispatched
  reports : (Trace.reports trace).length = s.skipped + s.handlerFailures

namespace Accounted

theorem nil : Accounted [] .zero [] := ⟨rfl, rfl, rfl, rfl, rfl, Nat.le_refl 0, rfl⟩

theorem append {ls ls' : List Bytes} {s s' : Summary} {t t' : List Occurrence}
    (h : Accounted ls s t) (h' : Accounted ls' s' t') :
    Accounted (ls ++ ls') (s + s') (t ++ t') where
  linesRead := by simp [h.linesRead, h'.linesRead]
  lines := by
    have h₁ := h.lines
    have h₂ := h'.lines
    simp only [List.length_append, List.countP_append, Summary.skipped_add,
      Summary.dispatched_add]
    omega
  dispatched := by simp [h.dispatched, h'.dispatched]
  skipped := by simp [h.skipped, h'.skipped]
  failures := by simp [h.failures, h'.failures]
  failures_le := Nat.add_le_add h.failures_le h'.failures_le
  reports := by
    have h₁ := h.reports
    have h₂ := h'.reports
    simp only [Trace.reports_append, List.length_append, Summary.skipped_add,
      Summary.handlerFailures_add]
    omega

theorem of_acts {ls : List Bytes} {s : Summary} {t : List Occurrence}
    (h : Accounted ls s (Trace.acts t)) : Accounted ls s t where
  linesRead := h.linesRead
  lines := h.lines
  dispatched := by rw [h.dispatched, Trace.events_acts]
  skipped := by rw [h.skipped, Trace.reports_acts]
  failures := by rw [h.failures, Trace.reports_acts]
  failures_le := h.failures_le
  reports := by rw [← Trace.reports_acts, h.reports]

end Accounted

section Run

variable {σ : Type} (handler : Handler σ)

/-- One line keeps the accounts: it is blank, or it leaves one report of a
skip, or one handler call and at most one report of its failure. -/
theorem accounted_answer {files : FileTree} {line : Nat} {bytes : Bytes} {c : Content}
    (h : Holds files line bytes c) (w : World σ) :
    Accounted [bytes] (Summary.zero.count (answer handler w c).verdict)
      (answer handler w c).trace := by
  have hblank := h.isBlankLine_eq
  cases c with
  | blank =>
      show Accounted [bytes] ⟨1, 0, 0, 0⟩ []
      exact ⟨rfl, by simp [hblank], rfl, rfl, rfl, Nat.le_refl 0, rfl⟩
  | refused d =>
      have hskip : d.isSkip = true := h.isSkip
      have hfailure := Diagnostic.isHandlerFailure_of_isSkip hskip
      have hreports : Trace.reports [.reported d] = [d] := rfl
      show Accounted [bytes] ⟨1, 0, 1, 0⟩ [.reported d]
      refine ⟨rfl, by simp [hblank], rfl, ?_, ?_, Nat.le_refl 0, rfl⟩
      · simp [hreports, hskip]
      · simp [hreports, hfailure]
  | event seq payload =>
      simp only [answer]
      split
      · show Accounted [bytes] ⟨1, 1, 0, 0⟩ [.handled payload]
        exact ⟨rfl, by simp [hblank], rfl, rfl, rfl, Nat.zero_le 1, rfl⟩
      · show Accounted [bytes] ⟨1, 1, 0, 1⟩ [.handled payload, .reported _]
        exact ⟨rfl, by simp [hblank], rfl, rfl, rfl, Nat.le_refl 1, rfl⟩

/-- A line keeps the accounts of everything before it. -/
theorem takeLine_accounted {past : List Bytes} {s : Summary} {t : List Occurrence}
    (h : Accounted past s t) (line : Nat) (l : Bytes) (w : World σ) :
    Accounted (past ++ [l]) (s.count (takeLine handler line l w).verdict)
      (t ++ (takeLine handler line l w).trace) := by
  have hholds : Holds w.files line l (contentOf w.files line l) := holds_iff.mpr rfl
  have hline := accounted_answer handler hholds w
  rw [← takeLine_acts, ← takeLine_verdict] at hline
  rw [← Summary.add_zero s, Summary.add_count]
  exact h.append hline.of_acts

theorem takeLines_accounted (ls : List Bytes) {past : List Bytes} {s : Summary}
    {t : List Occurrence} (h : Accounted past s t) (w : World σ) :
    Accounted (past ++ ls) (takeLines handler ls s w).summary
      (t ++ (takeLines handler ls s w).trace) := by
  induction ls generalizing past s t w with
  | nil => simpa only [takeLines, List.append_nil] using h
  | cons l ls ih =>
      have hline := takeLine_accounted handler h (s.linesRead + 1) l w
      have hrest := ih hline (takeLine handler (s.linesRead + 1) l w).world
      simpa only [takeLines, List.append_assoc, List.singleton_append] using hrest

/-- The summary of a run accounts for every line and for every report: each
line is blank, skipped or dispatched, each dispatch is a handler call, each
skip and each failure of the handler is a report, and there is no other report
but the one of a stream that cannot be read to its end. -/
theorem run_accounts (input : Stream) (w : World σ) :
    let summary := (run handler input w).summary
    let events := Trace.events (run handler input w).trace
    let reports := Trace.reports (run handler input w).trace
    summary.linesRead = input.lines.length ∧
    summary.linesRead =
      input.lines.countP isBlankLine + summary.skipped + summary.dispatched ∧
    summary.dispatched = events.length ∧
    summary.handlerFailures = reports.countP Diagnostic.isHandlerFailure ∧
    summary.handlerFailures ≤ summary.dispatched ∧
    summary.skipped = reports.countP Diagnostic.isSkip ∧
    reports.length =
      summary.skipped + summary.handlerFailures + if input.fault.isSome then 1 else 0 := by
  have h := takeLines_accounted handler input.lines .nil w
  rw [List.nil_append, List.nil_append] at h
  intro summary events reports
  -- The report of the fault is neither a skip nor a failure of the handler.
  have hskip : (Trace.reports (faultReport input.fault)).countP Diagnostic.isSkip = 0 := by
    cases input.fault <;> rfl
  have hfailure :
      (Trace.reports (faultReport input.fault)).countP Diagnostic.isHandlerFailure = 0 := by
    cases input.fault <;> rfl
  have hlength : (Trace.reports (faultReport input.fault)).length =
      if input.fault.isSome then 1 else 0 := by
    cases input.fault <;> rfl
  refine ⟨h.linesRead, h.linesRead.trans h.lines, ?_, ?_, h.failures_le, ?_, ?_⟩
  · simp only [events, events_run]; exact h.dispatched
  · simp only [reports, reports_run, List.countP_append, hfailure]; exact h.failures
  · simp only [reports, reports_run, List.countP_append, hskip]; exact h.skipped
  · simp only [reports, reports_run, List.length_append, h.reports, hlength]; rfl

end Run

end Host

end AgentHooks
