/-
What a sink does to the files.

The file of a sink can be opened or it cannot, and that does not change while
events are handled.  If it can, every call succeeds and adds the line of its
event, if it has one (`Sink.handler_extended`); if it cannot, the calls that
would write fail, and no call changes anything (`Sink.handler_of_not_opens`).
In both cases the files after a call are a function of the events up to it
(`Handler.Leaves`), so what is known of handlers of this kind gives the files
after all events.
-/
import AgentHooks.Proofs.Files.Append
import AgentHooks.Proofs.Host.Deliveries
import AgentHooks.Proofs.Text.Lines
import AgentHooks.Sink

namespace AgentHooks

/-! ## Lines at the end of a file -/

namespace FileTree

/-- The tree after lines were added to the file at a place.  The file is made
with the first of them. -/
def extended (t : FileTree) (place : Location) (lines : List String) : FileTree :=
  if lines = [] then t
  else t.set place (.file (t.bytesAt place ++ lines.flatMap lineBytes))

section Extended

variable {t : FileTree} {text : String} {place : Location}

theorem Opens.extended (h : t.Opens text place) (lines : List String) :
    (t.extended place lines).Opens text place := by
  unfold FileTree.extended
  split
  · exact h
  · exact h.set _

theorem Opens.bytesAt_extended (h : t.Opens text place) (lines : List String) :
    (t.extended place lines).bytesAt place = t.bytesAt place ++ lines.flatMap lineBytes := by
  unfold FileTree.extended
  split
  · rename_i hnil
    rw [hnil, List.flatMap_nil, List.append_nil]
  · exact bytesAt_set_file h.free _

/-- Nothing else changes. -/
theorem Opens.get?_extended (h : t.Opens text place) (lines : List String) {k : Location}
    (hk : k ≠ place) : (t.extended place lines).get? k = t.get? k := by
  unfold FileTree.extended
  split
  · rfl
  · rw [get?_set_file h.free, if_neg hk]

theorem Opens.keepsDirectories_extended (h : t.Opens text place) (lines : List String) :
    t.KeepsDirectories (t.extended place lines) := by
  unfold FileTree.extended
  split
  · exact fun _ hk => hk
  · exact keepsDirectories_set_file h.free _

theorem Opens.contentOf_extended (h : t.Opens text place) (lines : List String) :
    (t.extended place lines).contentOf text = t.contentOf text ++ lines.flatMap lineBytes := by
  rw [(h.extended lines).contentOf_eq, h.bytesAt_extended, h.contentOf_eq]

/-- One more line is added after those that were. -/
theorem Opens.appendLine_extended (h : t.Opens text place) (lines : List String)
    (line : String) :
    (t.extended place lines).appendLine text line = .ok (t.extended place (lines ++ [line])) := by
  have hne : lines ++ [line] ≠ [] := List.append_ne_nil_of_right_ne_nil _ (List.cons_ne_nil _ _)
  have hset (content : Bytes) :
      (t.extended place lines).set place (.file content) = t.set place (.file content) := by
    unfold FileTree.extended
    split
    · rfl
    · exact set_set _ _ _ _
  rw [appendLine, (h.extended lines).append_eq, h.bytesAt_extended, hset]
  rw [FileTree.extended, if_neg hne, List.flatMap_append, List.flatMap_singleton,
    List.append_assoc]
  rfl

end Extended

end FileTree

/-- Between the line feeds of some lines stand these lines, with nothing after the
last one, if none has a line feed of its own and only then. -/
theorem cut_flatMap_lineBytes_iff {lines : List String} :
    Text.cut (· == Text.lineFeed) (lines.flatMap lineBytes) = lines.map Utf8.encode ++ [[]] ↔
      ∀ line ∈ lines, '\n' ∉ line.toList := by
  have hflat :
      lines.flatMap lineBytes = (lines.map Utf8.encode).flatMap fun l => l ++ [Text.lineFeed] := by
    rw [List.flatMap_map]
    rfl
  rw [hflat, Text.cut_lineFeed_flatMap_iff, List.forall_mem_map]
  exact forall₂_congr fun line _ => not_congr Text.lineFeed_mem_encode_iff

/-! ## Sinks -/

namespace Sink

variable (s : Sink)

theorem handler_of_store_ok {event : Record} {w : World Unit} {files : FileTree}
    (h : s.store event w.files = .ok files) :
    (s.handler event w).reply = .done ∧ (s.handler event w).world = ⟨files, ()⟩ := by
  unfold handler
  rw [h]
  exact ⟨rfl, rfl⟩

theorem handler_of_store_error {event : Record} {w : World Unit} {fault : AppendFault}
    (h : s.store event w.files = .error fault) :
    (s.handler event w).reply = .failed fault.chain ∧ (s.handler event w).world = w := by
  unfold handler
  rw [h]
  exact ⟨rfl, rfl⟩

/-- The lines that a sink writes for some events. -/
def lines (events : List Record) : List String := events.filterMap s.line?

theorem lines_concat (events : List Record) (event : Record) :
    s.lines (events ++ [event]) = s.lines events ++ (s.line? event).toList := by
  rw [lines, lines, List.filterMap_append]
  cases hline : s.line? event with
  | none => simp [hline]
  | some line => simp [hline]

section Opens

variable {s} {files : FileTree} {place : Location}

/-- A sink whose file can be opened adds the line of an event, if it has one. -/
theorem handler_extended (h : files.Opens s.path place) (earlier : List Record)
    (event : Record) :
    (s.handler event ⟨files.extended place (s.lines earlier), ()⟩).reply = .done ∧
      (s.handler event ⟨files.extended place (s.lines earlier), ()⟩).world =
        ⟨files.extended place (s.lines (earlier ++ [event])), ()⟩ := by
  refine s.handler_of_store_ok ?_
  rw [lines_concat, store]
  cases hline : s.line? event with
  | none => simp only [Option.toList_none, List.append_nil]
  | some line => exact h.appendLine_extended (s.lines earlier) line

theorem leaves_extended (h : files.Opens s.path place) :
    s.handler.Leaves fun earlier => files.extended place (s.lines earlier) :=
  fun earlier event => (handler_extended h earlier event).2

/-- A sink whose file cannot be opened fails at every line, and changes
nothing. -/
theorem handler_of_not_opens (h : ∀ place, ¬ files.Opens s.path place) (event : Record) :
    ((s.handler event ⟨files, ()⟩).reply = .done ↔ s.line? event = none) ∧
      (s.handler event ⟨files, ()⟩).world = ⟨files, ()⟩ := by
  cases hline : s.line? event with
  | none =>
      have hstore : s.store event files = .ok files := by rw [store, hline]
      obtain ⟨hreply, hworld⟩ := s.handler_of_store_ok (w := ⟨files, ()⟩) hstore
      exact ⟨iff_of_true hreply rfl, hworld⟩
  | some line =>
      obtain ⟨fault, hfault⟩ := FileTree.append_eq_error h (lineBytes line)
      have hstore : s.store event files = .error ⟨s.path, fault⟩ := by
        rw [store, hline]
        simp only [FileTree.appendLine, hfault]
        rfl
      obtain ⟨hreply, hworld⟩ := s.handler_of_store_error (w := ⟨files, ()⟩) hstore
      refine ⟨iff_of_false ?_ (Option.some_ne_none _), hworld⟩
      rw [hreply]
      exact nofun

theorem leaves_of_not_opens (h : ∀ place, ¬ files.Opens s.path place) :
    s.handler.Leaves fun _ => files :=
  fun _ event => (handler_of_not_opens h event).2

/-! ## Events in turn -/

/-- A sink whose file can be opened writes the lines of all events. -/
theorem afterAll_of_opens (h : files.Opens s.path place) (events : List Record) :
    (s.handler.afterAll events ⟨files, ()⟩).files = files.extended place (s.lines events) ∧
      s.handler.succeeded events ⟨files, ()⟩ = events := by
  have hfiles := Handler.afterAll_of_leaves (leaves_extended h) [] events
  have hdone := Handler.succeeded_of_leaves (leaves_extended h) (p := fun _ => true)
    (fun earlier event => iff_of_true (handler_extended h earlier event).1 rfl) [] events
  exact ⟨congrArg World.files hfiles, hdone.trans (List.filter_eq_self.mpr fun _ _ => rfl)⟩

/-- A sink whose file cannot be opened leaves all files as they are, and the
events that it should write fail. -/
theorem afterAll_of_not_opens (h : ∀ place, ¬ files.Opens s.path place) (events : List Record) :
    (s.handler.afterAll events ⟨files, ()⟩).files = files ∧
      s.handler.succeeded events ⟨files, ()⟩ = events.filter fun e => (s.line? e).isNone := by
  have hfiles := Handler.afterAll_of_leaves (leaves_of_not_opens h) [] events
  refine ⟨congrArg World.files hfiles, ?_⟩
  refine Handler.succeeded_of_leaves (leaves_of_not_opens h) (fun _ event => ?_) [] events
  rw [Option.isNone_iff_eq_none]
  exact (handler_of_not_opens h event).1

end Opens

section AfterAll

variable (files : FileTree) (events : List Record)

/-- After all events the file was extended, or no event that has a line was
handled with success and nothing has changed. -/
theorem afterAll_cases :
    (∃ place, files.Opens s.path place ∧
      (s.handler.afterAll events ⟨files, ()⟩).files =
        files.extended place (s.lines (s.handler.succeeded events ⟨files, ()⟩))) ∨
    ((s.handler.afterAll events ⟨files, ()⟩).files = files ∧
      s.lines (s.handler.succeeded events ⟨files, ()⟩) = []) := by
  by_cases hopens : ∃ place, files.Opens s.path place
  · obtain ⟨place, hopens⟩ := hopens
    obtain ⟨hfiles, hdone⟩ := afterAll_of_opens hopens events
    exact .inl ⟨place, hopens, hdone.symm ▸ hfiles⟩
  · obtain ⟨hfiles, hdone⟩ := afterAll_of_not_opens (not_exists.mp hopens) events
    refine .inr ⟨hfiles, ?_⟩
    rw [hdone, lines, List.filterMap_eq_nil_iff]
    intro event hevent
    exact Option.isNone_iff_eq_none.mp (List.mem_filter.mp hevent).2

/-- The file holds what it held, and then the lines of the events that were
handled with success. -/
theorem contentOf_afterAll :
    (s.handler.afterAll events ⟨files, ()⟩).files.contentOf s.path =
      files.contentOf s.path ++
        (s.lines (s.handler.succeeded events ⟨files, ()⟩)).flatMap lineBytes := by
  obtain ⟨place, hopens, hfiles⟩ | ⟨hfiles, hlines⟩ := s.afterAll_cases files events
  · rw [hfiles, hopens.contentOf_extended]
  · rw [hfiles, hlines, List.flatMap_nil, List.append_nil]

end AfterAll

end Sink

end AgentHooks
