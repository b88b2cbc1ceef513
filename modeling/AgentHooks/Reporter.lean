/-
Reporters: what takes the reports of a host.

A host hands every report to its reporter as soon as it makes it.  A reporter
keeps a state of its own from one run to the next, and nothing that a line
comes to depends on it: `serve` is the loop with the reporter in its place, and
`serve_eq` says that it is a run, with the reports of the run taken in turn.
-/
import AgentHooks.Host

namespace AgentHooks

namespace Occurrence

/-- A handler call or a report, as against an entry of the log. -/
def isAct : Occurrence → Bool
  | handled _ => true
  | reported _ => true
  | logged _ => false

end Occurrence

/-! ## Views of a trace -/

namespace Trace

/-- The handler calls and the reports, in the order in which they happen. -/
def acts (trace : List Occurrence) : List Occurrence := trace.filter Occurrence.isAct

/-- The events that the handler is given. -/
def events (trace : List Occurrence) : List Record := trace.filterMap Occurrence.event?

/-- The reports. -/
def reports (trace : List Occurrence) : List Diagnostic :=
  trace.filterMap Occurrence.diagnostic?

@[simp] theorem acts_append (t u : List Occurrence) : acts (t ++ u) = acts t ++ acts u :=
  List.filter_append ..

@[simp] theorem events_append (t u : List Occurrence) :
    events (t ++ u) = events t ++ events u :=
  List.filterMap_append

@[simp] theorem reports_append (t u : List Occurrence) :
    reports (t ++ u) = reports t ++ reports u :=
  List.filterMap_append

@[simp] theorem acts_map_logged (entries : List Log.Entry) :
    acts (entries.map .logged) = [] := by
  induction entries with
  | nil => rfl
  | cons e es ih => exact ih

@[simp] theorem events_acts (trace : List Occurrence) : events (acts trace) = events trace := by
  induction trace with
  | nil => rfl
  | cons o os ih =>
      cases o with
      | handled e => exact congrArg (e :: ·) ih
      | reported _ => exact ih
      | logged _ => exact ih

@[simp] theorem reports_acts (trace : List Occurrence) :
    reports (acts trace) = reports trace := by
  induction trace with
  | nil => rfl
  | cons o os ih =>
      cases o with
      | handled _ => exact ih
      | reported d => exact congrArg (d :: ·) ih
      | logged _ => exact ih

end Trace

/-! ## Reporters -/

/-- What takes reports, and how its state changes with each of them. -/
structure Reporter (δ : Type) where
  report : Diagnostic → δ → δ

namespace Reporter

variable {δ : Type}

/-- A reporter that keeps every report, the latest one last. -/
def keeping : Reporter (List Diagnostic) := ⟨fun d kept => kept ++ [d]⟩

/-- The state of a reporter after some reports. -/
def takeAll (r : Reporter δ) (reports : List Diagnostic) (state : δ) : δ :=
  reports.foldl (fun state d => r.report d state) state

theorem takeAll_append (r : Reporter δ) (ds es : List Diagnostic) (state : δ) :
    r.takeAll (ds ++ es) state = r.takeAll es (r.takeAll ds state) :=
  List.foldl_append

/-- What is kept is what was there, followed by the reports. -/
theorem takeAll_keeping (ds kept : List Diagnostic) :
    keeping.takeAll ds kept = kept ++ ds := by
  induction ds generalizing kept with
  | nil => exact (List.append_nil kept).symm
  | cons d ds ih =>
      calc keeping.takeAll (d :: ds) kept
          = keeping.takeAll ds (kept ++ [d]) := rfl
        _ = kept ++ [d] ++ ds := ih _
        _ = kept ++ d :: ds := List.append_assoc ..

end Reporter

/-! ## A host with a reporter -/

namespace Host

variable {σ δ : Type}

/-- What a run comes to, and the state of the reporter after it. -/
structure Served (σ δ : Type) extends Outcome σ where
  state : δ

/-- Takes lines in turn, and hands over the reports of each line before the
next one is read. -/
def serveLines (r : Reporter δ) (handler : Handler σ) :
    List Bytes → Summary → World σ → δ → Served σ δ
  | [], s, w, state => ⟨⟨s, w, []⟩, state⟩
  | l :: ls, s, w, state =>
    let first := takeLine handler (s.linesRead + 1) l w
    let rest := serveLines r handler ls (s.count first.verdict) first.world
      (r.takeAll (Trace.reports first.trace) state)
    { rest with trace := first.trace ++ rest.trace }

/-- Reads a stream to its end, with a reporter. -/
def serve (r : Reporter δ) (handler : Handler σ) (input : Stream) (w : World σ) (state : δ) :
    Served σ δ :=
  let body := serveLines r handler input.lines .zero w state
  let last := closing input.fault body.summary
  ⟨⟨body.summary, body.world, body.trace ++ last⟩, r.takeAll (Trace.reports last) body.state⟩

theorem serveLines_eq (r : Reporter δ) (handler : Handler σ) (ls : List Bytes) (s : Summary)
    (w : World σ) (state : δ) :
    serveLines r handler ls s w state =
      ⟨takeLines handler ls s w,
        r.takeAll (Trace.reports (takeLines handler ls s w).trace) state⟩ := by
  induction ls generalizing s w state with
  | nil => rfl
  | cons l ls ih =>
      simp only [serveLines, takeLines, ih, Trace.reports_append, Reporter.takeAll_append]

/-- A reporter takes the reports of a run in turn, and has no part in what the
run comes to. -/
theorem serve_eq (r : Reporter δ) (handler : Handler σ) (input : Stream) (w : World σ)
    (state : δ) :
    serve r handler input w state =
      ⟨run handler input w, r.takeAll (Trace.reports (run handler input w).trace) state⟩ := by
  simp only [serve, run, serveLines_eq, Trace.reports_append, Reporter.takeAll_append]

end Host

end AgentHooks
