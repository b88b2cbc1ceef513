/-
Hosting, from the arguments to the files.

Once an invocation is known to host and its hooks home is there, nothing ends it
but its input: it succeeds, whatever the lines hold and whether or not the file
of the sink can be written.  That file gets the lines of the events that the
input delivers, each event being read against the files that the lines before it
have left (`Readers.run_host`).  Nothing else changes but for the hooks home.
The readers are any that give answers: how the command, the settings, the filter
and the home came to be known does not matter.

A run that is followed line by line comes to the same (`Hosting.run_eq_followed`).
-/
import AgentHooks.Program
import AgentHooks.Proofs.Files.Directories
import AgentHooks.Proofs.Sink.EventLog
import AgentHooks.Proofs.Sink.ToolCalls

namespace AgentHooks

/-! ## Sinks in a hooks home -/

/-- The name of the file of a sink. -/
def SinkKind.fileName : SinkKind → String
  | eventLog => eventLogName
  | toolCalls => toolCallsName

theorem Hosting.sink_ofRoot (kind : SinkKind) (root : String) :
    sink kind (.ofRoot root) = ⟨kind, Path.join root kind.fileName⟩ := by
  cases kind with
  | eventLog => rfl
  | toolCalls => rfl

/-- The bytes that a sink of a kind writes for some events. -/
def Sink.written : SinkKind → List Record → Bytes
  | .eventLog, events => eventLines events
  | .toolCalls, events => summaryLines (ToolCall.finished events)

theorem Sink.flatMap_lineBytes_lines (s : Sink) (events : List Record) :
    (s.lines events).flatMap lineBytes = written s.kind events := by
  rcases s with ⟨kind, path⟩
  cases kind with
  | eventLog => rw [lines_eventLog, flatMap_lineBytes_map_text, written]
  | toolCalls => rw [lines_toolCalls, flatMap_lineBytes_map_summaryLine, written]

/-- The files after a run of a sink whose file can be opened: those of the events
that the stream delivers. -/
theorem Sink.run_of_opens {s : Sink} {files : FileTree} {place : Location}
    (h : files.Opens s.path place) (input : Stream) :
    let after (earlier : List Record) := files.extended place (s.lines earlier)
    (∃ lines events, Stream.LinesOf input.fault input.bytes lines ∧
      Host.Deliveries after [] lines events) ∧
    ∀ lines events, Stream.LinesOf input.fault input.bytes lines →
      Host.Deliveries after [] lines events →
      (Host.run s.handler input ⟨files, ()⟩).world.files = after events :=
  Host.run_deliveries (leaves_extended h) input

theorem Sink.run_of_not_opens {s : Sink} {files : FileTree}
    (h : ∀ place, ¬ files.Opens s.path place) (input : Stream) :
    (Host.run s.handler input ⟨files, ()⟩).world.files = files := by
  obtain ⟨⟨lines, events, hlines, hevents⟩, hall⟩ :=
    Host.run_deliveries (leaves_of_not_opens h) input
  exact hall lines events hlines hevents

/-! ## Following a run -/

namespace Hosting

variable {view : LogView}

theorem notices_append (first more : List Log.Entry) :
    view.notices (first ++ more) = view.notices first ++ view.notices more := by
  simp only [LogView.notices, List.filter_append, List.map_append]

/-- What lines lead to one after the other, with what is shown of them. -/
def takeLines (view : LogView) (sink : Sink) : List Bytes → Summary → FileTree → Progress
  | [], s, files => ⟨s, files, []⟩
  | line :: lines, s, files =>
    let first := takeLine view sink s files line
    let rest := takeLines view sink lines first.summary first.files
    { rest with notices := first.notices ++ rest.notices }

/-- Lines that are followed lead to what the host makes of them. -/
theorem takeLines_eq (sink : Sink) (lines : List Bytes) (s : Summary) (files : FileTree) :
    let outcome := Host.takeLines sink.handler lines s ⟨files, ()⟩
    takeLines view sink lines s files =
      ⟨outcome.summary, outcome.world.files, view.notices (entries outcome.trace)⟩ := by
  induction lines generalizing s files with
  | nil => rfl
  | cons line lines ih =>
      simp only [takeLines, takeLine, ih, Host.takeLines, entries_append, notices_append]

/-- A run shows its opening, then what is shown of its lines, and then its
ending, and it leaves what the last line leads to. -/
theorem run_eq_followed (kind : SinkKind) (home : HooksHome) (files : FileTree)
    (input : Stream) :
    let followed := takeLines view (sink kind home) input.lines .zero files
    run view kind home files input =
      ⟨0, "", opening view kind home ++ followed.notices ++
        ending view input.fault followed.summary, followed.files⟩ := by
  simp only [takeLines_eq, run, Host.run, opening, ending, ← notices_append, entries_append,
    List.append_assoc, List.cons_append, List.nil_append]

end Hosting

/-! ## Hosting -/

theorem LogView.failure?_of_mem_notices {view : LogView} {entries : List Log.Entry} {n : Notice}
    (h : n ∈ view.notices entries) : n.failure? = none := by
  obtain ⟨entry, -, rfl⟩ := List.mem_map.mp h
  rfl

namespace Readers

variable {Φ : Type} {r : Readers Φ} {i : Invocation}

theorem plan_eq_run {command : Command} {settings : Settings} {filter : Φ}
    (hrequest : r.requestOf i = .ok (.run command)) (hsettings : r.settingsOf i = .ok settings)
    (hfilter : r.filter settings.logFilter = .ok filter) :
    r.plan i = .run command settings filter := by
  simp only [plan, hrequest, hsettings, hfilter]

theorem run_of_plan_eq_run {command : Command} {settings : Settings} {filter : Φ}
    (hplan : r.plan i = .run command settings filter) :
    r.run i =
      command.run (r.logView filter settings.logFormat command) (r.homePath i settings) i := by
  simp only [run, hplan]

end Readers

/-- An invocation that hosts, and whose hooks home could be prepared, succeeds
without output and without reporting a failure.  The hooks home is a directory
then, made with its parents where they were missing.  If the file of the sink can
be opened, it has what it had and then what the sink writes for the events that
the input delivers; no other place changes.  If it cannot be opened, nothing
changes at all. -/
theorem Readers.run_host {Φ : Type} (r : Readers Φ) (i : Invocation) (kind : SinkKind)
    (settings : Settings) (filter : Φ) (files : FileTree) (home : HooksHome)
    (hrequest : r.requestOf i = .ok (.run (.host kind))) (hsettings : r.settingsOf i = .ok settings)
    (hfilter : r.filter settings.logFilter = .ok filter)
    (hhome : HooksHome.prepare i.files (r.homePath i settings) = (files, .ok home)) :
    let result := r.run i
    let root := r.homePath i settings
    let log := Path.join root kind.fileName
    result.exitStatus = 0 ∧
    result.output = "" ∧
    (∀ n ∈ result.notices, n.failure? = none) ∧
    FileTree.OnlyMakes (Path.ofText root).Passes i.files files ∧
    (root = "" ∨ result.files.isDirectory (.ofText root) = true) ∧
    (∀ place, files.Opens log place →
      let after (earlier : List Record) := files.extended place (Sink.lines ⟨kind, log⟩ earlier)
      (∃ lines events, Stream.LinesOf i.input.fault i.input.bytes lines ∧
        Host.Deliveries after [] lines events) ∧
      ∀ lines events, Stream.LinesOf i.input.fault i.input.bytes lines →
        Host.Deliveries after [] lines events →
        result.files.contentOf log = i.files.bytesAt place ++ Sink.written kind events ∧
        ∀ k, k ≠ place → result.files.get? k = files.get? k) ∧
    ((∀ place, ¬ files.Opens log place) → result.files = files) := by
  intro result root log
  obtain ⟨rfl, hmakes, hdirectory⟩ := HooksHome.prepare_makes hhome
  have hrun : result = Hosting.run (r.logView filter settings.logFormat (.host kind)) kind
      (.ofRoot root) files i.input := by
    refine (run_of_plan_eq_run (plan_eq_run hrequest hsettings hfilter)).trans ?_
    unfold Command.run
    simp only [hhome]
    rfl
  have hsink : Hosting.sink kind (.ofRoot root) = ⟨kind, log⟩ := Hosting.sink_ofRoot kind root
  have hfiles : result.files =
      (Host.run (Sink.handler ⟨kind, log⟩) i.input ⟨files, ()⟩).world.files := by
    rw [hrun, ← hsink]
    rfl
  have hkeeps : files.KeepsDirectories result.files := by
    rw [hfiles]
    by_cases hopens : ∃ place, files.Opens log place
    · obtain ⟨place, hopens⟩ := hopens
      obtain ⟨⟨lines, events, hlines, hevents⟩, hall⟩ :=
        Sink.run_of_opens (s := ⟨kind, log⟩) hopens i.input
      rw [hall lines events hlines hevents]
      exact hopens.keepsDirectories_extended _
    · rw [Sink.run_of_not_opens (s := ⟨kind, log⟩) (not_exists.mp hopens)]
      exact fun _ hk => hk
  refine ⟨?_, ?_, ?_, hmakes, hdirectory.imp_right hkeeps.isDirectory, ?_, ?_⟩
  · rw [hrun]
    rfl
  · rw [hrun]
    rfl
  · rw [hrun]
    exact fun n hn => LogView.failure?_of_mem_notices hn
  · intro place hopens after
    obtain ⟨hexists, hall⟩ := Sink.run_of_opens (s := ⟨kind, log⟩) hopens i.input
    refine ⟨hexists, ?_⟩
    intro lines events hlines hevents
    have hafter : result.files = after events := hfiles.trans (hall lines events hlines hevents)
    constructor
    · rw [hafter, hopens.contentOf_extended, hopens.contentOf_eq, hmakes.bytesAt_eq,
        Sink.flatMap_lineBytes_lines]
    · intro k hk
      rw [hafter]
      exact hopens.get?_extended _ hk
  · intro hclosed
    exact hfiles.trans (Sink.run_of_not_opens (s := ⟨kind, log⟩) hclosed i.input)

/-- Three lines for a hooks home that is not there yet: an event, no message, and
an envelope that names the log itself, in which the first event stands by then.
Where the log is a directory, the same invocation changes nothing. -/
theorem Readers.run_host_log_of_itself :
    let event := Json.object [("n", .ofInt64 1)]
    let lines := [Host.eventLine 1 event, Utf8.encode "?\n",
      Host.eventLine 2 (.object [("payload-path", .string "hh/hooks.jsonl")])]
    let start (files : FileTree) : Invocation :=
      ⟨["--hooks-home=hh", "host"], [], files, ⟨lines.flatten, none⟩⟩
    let occupied : FileTree := ⟨[(["hh"], .directory), (["hh", "hooks.jsonl"], .directory)]⟩
    (((own none).run (start .empty)).exitStatus = 0 ∧
      ((own none).run (start .empty)).files.contentOf "hh/hooks.jsonl" =
        Utf8.encode "\x7b\"n\":1\x7d\n\x7b\"n\":1\x7d\n") ∧
    ((own none).run (start occupied)).exitStatus = 0 ∧
      ((own none).run (start occupied)).files = occupied := by
  intro event lines start occupied
  -- The arguments ask for the same, and the path is the same, whatever the files are.
  have hrequest (files : FileTree) :
      (own none).requestOf (start files) = .ok (.run (.host .eventLog)) := by
    change (own none).request (Settings.split ["--hooks-home=hh", "host"]).2 = _
    decide +kernel
  have hlog (files : FileTree) :
      Path.join ((own none).homePath (start files) ⟨"info", .json, some "hh"⟩)
        SinkKind.eventLog.fileName = "hh/hooks.jsonl" := by
    change Path.join "hh" eventLogName = _
    decide +kernel
  have hsettings (files : FileTree) (h : files = .empty ∨ files = occupied) :
      (own none).settingsOf (start files) = .ok ⟨"info", .json, some "hh"⟩ := by
    rcases h with rfl | rfl
    · decide +kernel
    · decide +kernel
  have hfilter : (own none).filter "info" = .ok ⟨[⟨none, some .info⟩]⟩ := by decide +kernel
  constructor
  · have hhome : HooksHome.prepare FileTree.empty "hh" =
        (⟨[(["hh"], .directory)]⟩, .ok (.ofRoot "hh")) := rfl
    have hopens : FileTree.Opens ⟨[(["hh"], .directory)]⟩ "hh/hooks.jsonl" ["hh", "hooks.jsonl"] :=
      ⟨rfl, rfl, by decide +kernel, by decide +kernel, by decide +kernel⟩
    obtain ⟨hstatus, -, -, -, -, hopened, -⟩ := run_host (own none) (start .empty) .eventLog _ _ _ _
      (hrequest _) (hsettings _ (.inl rfl)) hfilter hhome
    have hevents : Host.Deliveries (fun earlier => FileTree.extended ⟨[(["hh"], .directory)]⟩
        ["hh", "hooks.jsonl"] (Sink.lines ⟨.eventLog, "hh/hooks.jsonl"⟩ earlier)) [] lines
        [.ofMembers [("n", .ofInt64 1)], .ofMembers [("n", .ofInt64 1)]] := by
      refine .event ((Host.delivers_iff 1).mpr ?_) (.other ((Host.forall_not_delivers_iff 2).mpr ?_)
        (.event ((Host.delivers_iff 3).mpr ?_) .nil))
      · rw [Host.eventLine_eq]
        decide +kernel
      · decide +kernel
      · rw [Host.eventLine_eq]
        decide +kernel
    rw [hlog] at hopened
    refine ⟨hstatus, ?_⟩
    have hlines : Stream.LinesOf (start .empty).input.fault (start .empty).input.bytes lines := by
      refine Stream.linesOf_iff.mpr ?_
      simp only [start, lines, Host.eventLine_eq]
      decide +kernel
    have hcontent := ((hopened _ hopens).2 lines _ hlines hevents).1
    rw [hcontent]
    decide +kernel
  · have hhome : HooksHome.prepare occupied "hh" = (occupied, .ok (.ofRoot "hh")) := rfl
    obtain ⟨hstatus, -, -, -, -, -, hclosed⟩ := run_host (own none) (start occupied) .eventLog
      _ _ _ _ (hrequest _) (hsettings _ (.inr rfl)) hfilter hhome
    have hdirectory : occupied.get? ["hh", "hooks.jsonl"] = some .directory := by decide +kernel
    rw [hlog] at hclosed
    exact ⟨hstatus, hclosed (FileTree.not_opens_of_directory rfl hdirectory)⟩

end AgentHooks
