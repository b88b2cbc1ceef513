/-
Failures of a handler stay its own.

What a run delivers and what it reports, failures of the handler apart, are
functions of the lines and the files: `steady_takeLines` computes them from the
contents of the lines, and no handler occurs there.  Two runs with different
handlers and different reporters therefore agree on all of it, and on every
counter but that of the failures.
-/
import AgentHooks.Proofs.Host.Accounting

namespace AgentHooks

/-- A handler call, or a report of something other than a failure of the
handler. -/
def Occurrence.isSteady : Occurrence → Bool
  | handled _ => true
  | reported d => !d.isHandlerFailure
  | logged _ => false

namespace Trace

/-- The handler calls and the reports that no handler has a part in. -/
def steady (trace : List Occurrence) : List Occurrence := trace.filter Occurrence.isSteady

@[simp] theorem steady_append (t u : List Occurrence) :
    steady (t ++ u) = steady t ++ steady u :=
  List.filter_append ..

theorem steady_acts (trace : List Occurrence) : steady (acts trace) = steady trace := by
  unfold steady acts
  rw [List.filter_filter]
  refine List.filter_congr fun o _ => ?_
  cases o with
  | handled _ => rfl
  | reported _ => exact Bool.and_true _
  | logged _ => rfl

theorem events_steady (trace : List Occurrence) : events (steady trace) = events trace := by
  unfold events steady
  rw [List.filterMap_filter]
  refine congrArg (List.filterMap · trace) (funext fun o => ?_)
  cases o with
  | handled _ => rfl
  | reported d => exact ite_self none
  | logged _ => rfl

theorem reports_steady (trace : List Occurrence) :
    reports (steady trace) = (reports trace).filter fun d => !d.isHandlerFailure := by
  unfold reports steady
  rw [List.filterMap_filter, List.filter_filterMap]
  refine congrArg (List.filterMap · trace) (funext fun o => ?_)
  cases o with
  | handled _ => rfl
  | reported d => rfl
  | logged _ => rfl

end Trace

/-- The counts that do not depend on what a handler answers. -/
def Summary.withoutFailures (s : Summary) : Summary := { s with handlerFailures := 0 }

namespace Host

/-- What a content comes to whatever the handler answers. -/
def Content.steady : Content → List Occurrence
  | .blank => []
  | .refused d => [.reported d]
  | .event _ payload => [.handled payload]

/-- The verdict on a content when the handler succeeds. -/
def Content.verdict : Content → Verdict
  | .blank => .blank
  | .refused _ => .skipped
  | .event _ _ => .dispatched

variable {σ δ : Type}

/-! ## One handler -/

theorem steady_answer (handler : Handler σ) (w : World σ) {files : FileTree} {line : Nat}
    {bytes : Bytes} {c : Content} (h : Holds files line bytes c) :
    Trace.steady (answer handler w c).trace = c.steady := by
  cases c with
  | blank => rfl
  | refused d =>
      have hfailure := Diagnostic.isHandlerFailure_of_isSkip h.isSkip
      simp [answer, Trace.steady, Occurrence.isSteady, hfailure, Content.steady]
  | event seq payload =>
      simp only [answer]
      split
      · rfl
      · rfl

theorem count_answer_withoutFailures (handler : Handler σ) (w : World σ) (s : Summary)
    (c : Content) :
    (s.count (answer handler w c).verdict).withoutFailures =
      s.withoutFailures.count c.verdict := by
  cases c with
  | blank => rfl
  | refused d => rfl
  | event seq payload =>
      simp only [answer]
      split
      · rfl
      · rfl

/-- What lines deliver and report, failures of the handler apart, is decided by
what the lines hold. -/
theorem steady_takeLines {handler : Handler σ} (keeps : handler.KeepsFiles) (files : FileTree)
    (ls : List Bytes) (s : Summary) (st : σ) :
    Trace.steady (takeLines handler ls s ⟨files, st⟩).trace =
      (contents files s.linesRead ls).flatMap Content.steady := by
  induction ls generalizing s st with
  | nil => rfl
  | cons l ls ih =>
      have hline : Trace.steady (takeLine handler (s.linesRead + 1) l ⟨files, st⟩).trace =
          (contentOf files (s.linesRead + 1) l).steady := by
        rw [← Trace.steady_acts, takeLine_acts]
        exact steady_answer handler _ (holds_iff.mpr rfl)
      simp only [takeLines, Trace.steady_append, hline, takeLine_world_of_keepsFiles keeps, ih,
        Summary.linesRead_count, contents, List.flatMap_cons]

/-- The counters, that of the failures apart, are decided by what the lines
hold. -/
theorem takeLines_withoutFailures {handler : Handler σ} (keeps : handler.KeepsFiles)
    (files : FileTree) (ls : List Bytes) (s : Summary) (st : σ) :
    (takeLines handler ls s ⟨files, st⟩).summary.withoutFailures =
      (contents files s.linesRead ls).foldl (fun s c => s.count c.verdict)
        s.withoutFailures := by
  induction ls generalizing s st with
  | nil => rfl
  | cons l ls ih =>
      simp only [takeLines, takeLine_world_of_keepsFiles keeps, ih, Summary.linesRead_count,
        contents, List.foldl_cons, takeLine_verdict, count_answer_withoutFailures]

theorem steady_run {handler : Handler σ} (keeps : handler.KeepsFiles) (input : Stream)
    (files : FileTree) (st : σ) :
    Trace.steady (run handler input ⟨files, st⟩).trace =
      (contents files 0 input.lines).flatMap Content.steady ++ faultReport input.fault := by
  have hfault : Trace.steady (faultReport input.fault) = faultReport input.fault := by
    cases input.fault <;> rfl
  rw [← Trace.steady_acts, acts_run, Trace.steady_append, Trace.steady_acts,
    steady_takeLines keeps, hfault]
  rfl

/-! ## Two handlers -/

/-- Two runs over the same stream and the same files deliver the same events
and make the same reports, failures of the handlers apart, and their summaries
agree on everything but these failures, whatever the two handlers answer and
whoever takes the reports. -/
theorem serve_isolates_failures {σ₁ σ₂ δ₁ δ₂ : Type} (handler₁ : Handler σ₁)
    (handler₂ : Handler σ₂) (keeps₁ : handler₁.KeepsFiles) (keeps₂ : handler₂.KeepsFiles)
    (r₁ : Reporter δ₁) (r₂ : Reporter δ₂) (input : Stream) (files : FileTree) (s₁ : σ₁) (s₂ : σ₂)
    (d₁ : δ₁) (d₂ : δ₂) :
    let o₁ := serve r₁ handler₁ input ⟨files, s₁⟩ d₁
    let o₂ := serve r₂ handler₂ input ⟨files, s₂⟩ d₂
    Trace.events o₁.trace = Trace.events o₂.trace ∧
    ((Trace.reports o₁.trace).filter fun d => !d.isHandlerFailure) =
      ((Trace.reports o₂.trace).filter fun d => !d.isHandlerFailure) ∧
    o₁.summary.linesRead = o₂.summary.linesRead ∧
    o₁.summary.dispatched = o₂.summary.dispatched ∧
    o₁.summary.skipped = o₂.summary.skipped ∧
    o₁.state = r₁.takeAll (Trace.reports o₁.trace) d₁ ∧
    o₂.state = r₂.takeAll (Trace.reports o₂.trace) d₂ := by
  intro o₁ o₂
  have hsteady : Trace.steady o₁.trace = Trace.steady o₂.trace := by
    simp only [o₁, o₂, serve_eq, steady_run keeps₁, steady_run keeps₂]
  have hsummary : o₁.summary.withoutFailures = o₂.summary.withoutFailures := by
    simp only [o₁, o₂, serve_eq, run, takeLines_withoutFailures keeps₁,
      takeLines_withoutFailures keeps₂]
  obtain ⟨hread, hdispatched, hskipped, -⟩ := Summary.mk.inj hsummary
  refine ⟨?_, ?_, hread, hdispatched, hskipped, ?_, ?_⟩
  · rw [← Trace.events_steady o₁.trace, hsteady, Trace.events_steady]
  · rw [← Trace.reports_steady, hsteady, Trace.reports_steady]
  · simp only [o₁, serve_eq]
  · simp only [o₂, serve_eq]

/-- A handler that always succeeds and one that fails and then panics; one
reporter keeps the reports and the other counts them. -/
theorem serve_isolates_failures_scripted :
    Handler.scripted.KeepsFiles ∧
    Trace.events (serve .keeping .scripted
        ⟨eventLine 1 .null ++ [0x0A] ++ eventLine 2 .null, none⟩ ⟨.empty, []⟩ []).trace =
      Trace.events (serve ⟨fun _ n => n + 1⟩ .scripted
        ⟨eventLine 1 .null ++ [0x0A] ++ eventLine 2 .null, none⟩
        ⟨.empty, [.failed ["rejected"], .panicked none]⟩ 0).trace ∧
    (serve ⟨fun _ n => n + 1⟩ .scripted
        ⟨eventLine 1 .null ++ [0x0A] ++ eventLine 2 .null, none⟩
        ⟨.empty, [.failed ["rejected"], .panicked none]⟩ 0).state = 2 := by
  refine ⟨Handler.scripted_keepsFiles, ?_, by decide +kernel⟩
  exact (serve_isolates_failures .scripted .scripted Handler.scripted_keepsFiles
    Handler.scripted_keepsFiles .keeping ⟨fun _ n => n + 1⟩
    ⟨eventLine 1 .null ++ [0x0A] ++ eventLine 2 .null, none⟩ .empty [] _ [] 0).1

end Host

end AgentHooks
