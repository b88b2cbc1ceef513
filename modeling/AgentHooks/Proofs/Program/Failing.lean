/-
Invocations that fail.

Planning has four stages: the request in the arguments, the settings, the filter
of the log, and then the command itself.  `Planned` gives the end of each stage
as a rule, and `planned_plan` says that the rules leave no other end.  All that
is said of a failure goes through them: the stage that failed decides the exit
status, the failure is the last notice and there is no output beside it, and no
file changes before the last stage (`Readers.run_leaves_no_trace`).  This holds
whatever the readers of the first three stages answer.

The exit status is 0, 1 or 2, unless a reader breaks off: then the program does
so with a status of its own, and without the line that tells of a failure.  A
filter can do this to it (`Invocation.run_breaks_off_behind_blank`).
-/
import AgentHooks.Proofs.Program.Hosting

namespace AgentHooks

/-! ## Failures and their results -/

namespace Failure

theorem exitStatus_eq_two_iff {f : Failure} :
    f.exitStatus = 2 ↔ ∃ message, f = .arguments message := by
  cases f <;> simp [exitStatus]

theorem exitStatus_eq_101_iff {f : Failure} :
    f.exitStatus = 101 ↔ ∃ message, f = .brokeOff message := by
  cases f <;> simp [exitStatus]

/-- A failure has one of three statuses, and success none of them. -/
theorem exitStatus_mem (f : Failure) : f.exitStatus ∈ [1, 2, 101] := by
  cases f <;> simp [exitStatus]

theorem exitStatus_ne_zero (f : Failure) : f.exitStatus ≠ 0 := by
  intro h
  have hmem := f.exitStatus_mem
  rw [h] at hmem
  exact absurd hmem (by decide)

/-- A failure is told on a line that names the program, unless the program breaks
off. -/
theorem report_eq_iff {f : Failure} :
    f.report = "hookline: " ++ f.message ↔ f.exitStatus ≠ 101 := by
  cases f with
  | brokeOff message =>
      -- The two texts are not of the same length.
      have hne : "\n" ++ message ≠ "hookline: " ++ message := by
        intro h
        have hlength := congrArg String.length h
        rw [String.length_append, String.length_append] at hlength
        exact absurd (Nat.add_right_cancel hlength) (by decide)
      exact ⟨fun h => absurd h hne, fun h => (h rfl).elim⟩
  | arguments _ | settings _ | filter _ | home _ | payload _ =>
      simp [report, exitStatus]

end Failure

namespace Result

/-- A result that tells of no failure. -/
structure Succeeds (result : Result) : Prop where
  exitStatus : result.exitStatus = 0
  notices : ∀ n ∈ result.notices, n.failure? = none

/-- A result that tells of one failure, as the last thing, and of nothing
else. -/
structure Fails (result : Result) (f : Failure) : Prop where
  exitStatus : result.exitStatus = f.exitStatus
  output : result.output = ""
  notices : ∃ before, result.notices = before ++ [.failure f] ∧ ∀ n ∈ before, n.failure? = none

end Result

theorem Failure.fails_result (f : Failure) {notices : List Notice} (files : FileTree)
    (h : ∀ n ∈ notices, n.failure? = none) : (f.result notices files).Fails f :=
  ⟨rfl, rfl, notices, rfl, h⟩

/-! ## Commands -/

/-- A payload that is read, or not, leaves the files alone. -/
theorem readOnce_ends (view : LogView) (files : FileTree) (input : Stream) :
    (readOnce view files input).files = files ∧
    ((readOnce view files input).Succeeds ∨
      ∃ d, (readOnce view files input).Fails (.payload d)) := by
  have hnotices : ∀ n ∈ view.notices (Payload.logEntries input), n.failure? = none :=
    fun n hn => LogView.failure?_of_mem_notices hn
  unfold readOnce
  split
  · rename_i d _
    exact ⟨rfl, .inr ⟨d, (Failure.payload d).fails_result files hnotices⟩⟩
  · exact ⟨rfl, .inl ⟨rfl, hnotices⟩⟩

/-- A command fails with an ordinary failure or not at all, and reading changes
no file. -/
theorem Command.run_ends (command : Command) (view : LogView) (root : String) (i : Invocation) :
    (command = .read → (command.run view root i).files = i.files) ∧
    ((command.run view root i).Succeeds ∨
      ∃ f, (command.run view root i).Fails f ∧ f.exitStatus = 1) := by
  cases command with
  | read =>
      obtain ⟨hfiles, hends⟩ := readOnce_ends view i.files i.input
      refine ⟨fun _ => hfiles, hends.imp_right ?_⟩
      rintro ⟨d, hfails⟩
      exact ⟨_, hfails, rfl⟩
  | host kind =>
      refine ⟨nofun, ?_⟩
      unfold Command.run
      simp only
      split
      · rename_i files fault _
        exact .inr ⟨.home fault, (Failure.home fault).fails_result files nofun, rfl⟩
      · exact .inl ⟨rfl, fun n hn => LogView.failure?_of_mem_notices hn⟩

namespace Readers

variable {Φ : Type} {r : Readers Φ} {i : Invocation}

/-! ## Stages -/

/-- A reader that is asked breaks off. -/
inductive BreaksOff (r : Readers Φ) (i : Invocation) : Prop
  | request {message : String} : r.requestOf i = .error (.brokeOff message) → BreaksOff r i
  | settings {command : Command} {message : String} : r.requestOf i = .ok (.run command) →
      r.settingsOf i = .error (.brokeOff message) → BreaksOff r i
  | filter {command : Command} {settings : Settings} {message : String} :
      r.requestOf i = .ok (.run command) → r.settingsOf i = .ok settings →
      r.filter settings.logFilter = .error (.brokeOff message) → BreaksOff r i

/-- How planning ends, stage by stage. -/
inductive Planned (r : Readers Φ) (i : Invocation) : Plan Φ → Prop
  | usage {message : String} :
      r.requestOf i = .error (.refused message) → Planned r i (.fail (.arguments message))
  | display {text : String} : r.requestOf i = .ok (.display text) → Planned r i (.display text)
  | settings {command : Command} {message : String} :
      r.requestOf i = .ok (.run command) → r.settingsOf i = .error (.refused message) →
      Planned r i (.fail (.settings message))
  | filter {command : Command} {settings : Settings} {message : String} :
      r.requestOf i = .ok (.run command) → r.settingsOf i = .ok settings →
      r.filter settings.logFilter = .error (.refused message) →
      Planned r i (.fail (.filter message))
  | run {command : Command} {settings : Settings} {filter : Φ} :
      r.requestOf i = .ok (.run command) → r.settingsOf i = .ok settings →
      r.filter settings.logFilter = .ok filter → Planned r i (.run command settings filter)
  | brokeOff {message : String} : r.BreaksOff i → Planned r i (.fail (.brokeOff message))

theorem planned_plan (r : Readers Φ) (i : Invocation) : r.Planned i (r.plan i) := by
  unfold plan
  split
  · rename_i refusal hrequest
    cases refusal with
    | refused message => exact .usage hrequest
    | brokeOff message => exact .brokeOff (.request hrequest)
  · exact .display ‹_›
  · rename_i command hrequest
    split
    · rename_i refusal hsettings
      cases refusal with
      | refused message => exact .settings hrequest hsettings
      | brokeOff message => exact .brokeOff (.settings hrequest hsettings)
    · rename_i settings hsettings
      split
      · rename_i refusal hfilter
        cases refusal with
        | refused message => exact .filter hrequest hsettings hfilter
        | brokeOff message => exact .brokeOff (.filter hrequest hsettings hfilter)
      · exact .run hrequest hsettings ‹_›

theorem BreaksOff.exists_plan_eq (h : r.BreaksOff i) :
    ∃ message, r.plan i = .fail (.brokeOff message) := by
  cases h with
  | @request message hrequest => exact ⟨message, by simp only [plan, hrequest, Refusal.failure]⟩
  | @settings command message hrequest hsettings =>
      exact ⟨message, by simp only [plan, hrequest, hsettings, Refusal.failure]⟩
  | @filter command settings message hrequest hsettings hfilter =>
      exact ⟨message, by simp only [plan, hrequest, hsettings, hfilter, Refusal.failure]⟩

theorem breaksOff_of_plan_eq {message : String} (hplan : r.plan i = .fail (.brokeOff message)) :
    r.BreaksOff i := by
  have hplanned := r.planned_plan i
  rw [hplan] at hplanned
  cases hplanned with
  | brokeOff hbreaks => exact hbreaks

/-! ## Whole runs -/

theorem run_of_plan_eq_fail {f : Failure} (hplan : r.plan i = .fail f) :
    r.run i = f.result [] i.files := by
  simp only [run, hplan]

/-- A run succeeds, or it fails with a failure that its plan names, or with an
ordinary one of its command. -/
theorem run_ends (r : Readers Φ) (i : Invocation) :
    (r.run i).Succeeds ∨
      ∃ f, (r.run i).Fails f ∧
        (r.plan i = .fail f ∨ (f.exitStatus = 1 ∧ ∀ g, r.plan i ≠ .fail g)) := by
  cases hplan : r.plan i with
  | display text =>
      unfold run
      rw [hplan]
      exact .inl ⟨rfl, nofun⟩
  | fail f =>
      rw [run_of_plan_eq_fail hplan]
      exact .inr ⟨f, f.fails_result i.files nofun, .inl rfl⟩
  | run command settings filter =>
      rw [run_of_plan_eq_run hplan]
      refine (command.run_ends _ _ i).2.imp_right ?_
      rintro ⟨f, hfails, hstatus⟩
      exact ⟨f, hfails, .inr ⟨hstatus, nofun⟩⟩

theorem exitStatus_run_mem (r : Readers Φ) (i : Invocation) :
    (r.run i).exitStatus ∈ [0, 1, 2, 101] := by
  rcases r.run_ends i with hsucceeds | ⟨f, hfails, -⟩
  · rw [hsucceeds.exitStatus]
    decide
  · rw [hfails.exitStatus]
    exact List.mem_cons_of_mem 0 f.exitStatus_mem

theorem exitStatus_of_plan_eq_fail {f : Failure} (hplan : r.plan i = .fail f) :
    (r.run i).exitStatus = f.exitStatus := by
  rw [run_of_plan_eq_fail hplan]
  rfl

/-- A status that is neither that of success nor that of an ordinary failure
comes from the plan. -/
theorem exists_plan_eq_fail (hzero : (r.run i).exitStatus ≠ 0) (hone : (r.run i).exitStatus ≠ 1) :
    ∃ f, r.plan i = .fail f ∧ f.exitStatus = (r.run i).exitStatus := by
  rcases r.run_ends i with hsucceeds | ⟨f, hfails, hplan | ⟨hstatus, -⟩⟩
  · exact absurd hsucceeds.exitStatus hzero
  · exact ⟨f, hplan, hfails.exitStatus.symm⟩
  · exact absurd (hfails.exitStatus.trans hstatus) hone

theorem exitStatus_run_eq_two_iff :
    (r.run i).exitStatus = 2 ↔ ∃ message, r.requestOf i = .error (.refused message) := by
  constructor
  · intro hstatus
    obtain ⟨f, hplan, hf⟩ := exists_plan_eq_fail (r := r) (i := i) (by rw [hstatus]; decide)
      (by rw [hstatus]; decide)
    obtain ⟨message, rfl⟩ := Failure.exitStatus_eq_two_iff.mp (hf.trans hstatus)
    have hplanned := r.planned_plan i
    rw [hplan] at hplanned
    cases hplanned with
    | usage hrequest => exact ⟨message, hrequest⟩
  · rintro ⟨message, hrequest⟩
    have hplan : r.plan i = .fail (.arguments message) := by
      simp only [plan, hrequest, Refusal.failure]
    exact exitStatus_of_plan_eq_fail hplan

theorem exitStatus_run_eq_101_iff : (r.run i).exitStatus = 101 ↔ r.BreaksOff i := by
  constructor
  · intro hstatus
    obtain ⟨f, hplan, hf⟩ := exists_plan_eq_fail (r := r) (i := i) (by rw [hstatus]; decide)
      (by rw [hstatus]; decide)
    obtain ⟨message, rfl⟩ := Failure.exitStatus_eq_101_iff.mp (hf.trans hstatus)
    exact breaksOff_of_plan_eq hplan
  · intro hbreaks
    obtain ⟨message, hplan⟩ := hbreaks.exists_plan_eq
    exact exitStatus_of_plan_eq_fail hplan

/-- Only a command that hosts changes files, once every stage before it has
gone well. -/
theorem files_run_eq_or (r : Readers Φ) (i : Invocation) :
    (r.run i).files = i.files ∨
      ∃ kind settings filter, r.requestOf i = .ok (.run (.host kind)) ∧
        r.settingsOf i = .ok settings ∧ r.filter settings.logFilter = .ok filter := by
  have hplanned := r.planned_plan i
  cases hplan : r.plan i with
  | display text =>
      unfold run
      rw [hplan]
      exact .inl rfl
  | fail f =>
      rw [run_of_plan_eq_fail hplan]
      exact .inl rfl
  | run command settings filter =>
      rw [hplan] at hplanned
      rw [run_of_plan_eq_run hplan]
      cases hplanned with
      | run hrequest hsettings hfilter =>
          cases command with
          | read => exact .inl ((Command.run_ends .read _ _ i).1 rfl)
          | host kind => exact .inr ⟨kind, settings, filter, hrequest, hsettings, hfilter⟩

/-- However a run ends, whatever the readers answer.  The status is 0, 1 or 2
unless a reader breaks off, and it is 2 exactly when the arguments are refused,
whatever the settings would be.  With any status but 0 there is no output, and one
failure is told, at the end and, exactly if no reader breaks off, on a line that
names the program; with 0 none is told.  The files are the same as before unless
the command is one that hosts and the request, the settings and the filter were
all good. -/
theorem run_leaves_no_trace {Φ : Type} (r : Readers Φ) (i : Invocation) :
    let result := r.run i
    (result.exitStatus ∈ [0, 1, 2] ↔ ¬ r.BreaksOff i) ∧
    (result.exitStatus = 101 ↔ r.BreaksOff i) ∧
    (result.exitStatus = 2 ↔ ∃ message, r.requestOf i = .error (.refused message)) ∧
    (result.exitStatus ≠ 0 → ∃ f, result.Fails f ∧
      (f.report = "hookline: " ++ f.message ↔ ¬ r.BreaksOff i)) ∧
    (result.exitStatus = 0 → ∀ n ∈ result.notices, n.failure? = none) ∧
    (result.files = i.files ∨
      ∃ kind settings filter, r.requestOf i = .ok (.run (.host kind)) ∧
        r.settingsOf i = .ok settings ∧ r.filter settings.logFilter = .ok filter) := by
  intro result
  have hbreaks : result.exitStatus = 101 ↔ r.BreaksOff i := exitStatus_run_eq_101_iff
  refine ⟨?_, hbreaks, exitStatus_run_eq_two_iff, ?_, ?_, r.files_run_eq_or i⟩
  · have hmem : result.exitStatus ∈ [0, 1, 2, 101] := r.exitStatus_run_mem i
    rw [← hbreaks]
    simp only [List.mem_cons, List.not_mem_nil, or_false] at hmem ⊢
    omega
  · intro hstatus
    rcases r.run_ends i with hsucceeds | ⟨f, hfails, -⟩
    · exact absurd hsucceeds.exitStatus hstatus
    · refine ⟨f, hfails, ?_⟩
      rw [Failure.report_eq_iff, ← hfails.exitStatus]
      exact not_congr hbreaks
  · intro hstatus
    rcases r.run_ends i with hsucceeds | ⟨f, hfails, -⟩
    · exact hsucceeds.notices
    · exact absurd (hfails.exitStatus.symm.trans hstatus) f.exitStatus_ne_zero

end Readers

/-- A filter with a blank in front of its target is refused, but when the target
has a character of several bytes the program breaks off instead. -/
theorem Invocation.run_breaks_off_behind_blank :
    let start (filter : String) : Invocation :=
      ⟨["--log-filter=" ++ filter, "--hooks-home=hh", "host"], [], .empty,
        ⟨[0x7B, 0x7D, Text.lineFeed], none⟩⟩
    (start "\ta=1").run.exitStatus = 1 ∧
    (start "\ta\u65e5=1").run.exitStatus ∉ [0, 1, 2] := by
  decide +kernel

end AgentHooks
