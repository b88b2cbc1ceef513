/-
The calls and reports of a run, line by line.

`Segment` says what one line adds to them: nothing, one report, or one call
with the report of its failure directly after it.  `Segments` threads the state
of the handler and the number of the line through the lines of a stream.  The
main result, `run_acts_segments`, says that a run makes exactly the calls and
reports of its segments, one segment for each physical line and in their order,
and after them only the report that the stream could not be read to its end.
-/
import AgentHooks.Proofs.Host.Content
import AgentHooks.Proofs.Text.Lines

namespace AgentHooks.Host

variable {σ : Type}

/-- The calls and reports of the line that has the number `line`, and the state
of the handler after it. -/
inductive Segment (handler : Handler σ) (files : FileTree) (line : Nat) (bytes : Bytes) (s : σ) :
    List Occurrence → σ → Prop
  | blank : Holds files line bytes .blank → Segment handler files line bytes s [] s
  | refused {d : Diagnostic} : Holds files line bytes (.refused d) →
      Segment handler files line bytes s [.reported d] s
  | done {seq : Option Int64} {payload : Record} : Holds files line bytes (.event seq payload) →
      (handler payload ⟨files, s⟩).reply = .done →
      Segment handler files line bytes s [.handled payload]
        (handler payload ⟨files, s⟩).world.state
  | failed {seq : Option Int64} {payload : Record} {chain : List String} :
      Holds files line bytes (.event seq payload) →
      (handler payload ⟨files, s⟩).reply = .failed chain →
      Segment handler files line bytes s
        [.handled payload,
          .reported (.handlerFailure seq payload.discriminant (String.intercalate ": " chain))]
        (handler payload ⟨files, s⟩).world.state
  | panicked {seq : Option Int64} {payload : Record} {text : Option String} :
      Holds files line bytes (.event seq payload) →
      (handler payload ⟨files, s⟩).reply = .panicked text →
      Segment handler files line bytes s
        [.handled payload,
          .reported (.handlerFailure seq payload.discriminant
            ("handler panicked: " ++ text.getD "non-string panic payload"))]
        (handler payload ⟨files, s⟩).world.state

/-- The segments of the lines that follow the first `n`, one for each of them,
and the states of the handler before and after them. -/
inductive Segments (handler : Handler σ) (files : FileTree) :
    (n : Nat) → List Bytes → σ → List (List Occurrence) → σ → Prop
  | nil {n : Nat} {s : σ} : Segments handler files n [] s [] s
  | cons {n : Nat} {l : Bytes} {ls : List Bytes} {s s₁ s₂ : σ} {segment : List Occurrence}
      {segments : List (List Occurrence)} :
      Segment handler files (n + 1) l s segment s₁ →
      Segments handler files (n + 1) ls s₁ segments s₂ →
      Segments handler files n (l :: ls) s (segment :: segments) s₂

/-! ## One line -/

/-- The segment of a line is the handler's answer to what the line holds. -/
theorem Segment.eq_answer {handler : Handler σ} {files : FileTree} {line : Nat} {bytes : Bytes}
    {s s' : σ} {segment : List Occurrence} (h : Segment handler files line bytes s segment s') :
    segment = (answer handler ⟨files, s⟩ (contentOf files line bytes)).trace ∧
      s' = (answer handler ⟨files, s⟩ (contentOf files line bytes)).world.state := by
  cases h with
  | blank hc => rw [← hc.eq_contentOf]; exact ⟨rfl, rfl⟩
  | refused hc => rw [← hc.eq_contentOf]; exact ⟨rfl, rfl⟩
  | done hc hreply =>
      rw [← hc.eq_contentOf]
      simp only [answer, hreply, Reply.failure?, and_self]
  | failed hc hreply =>
      rw [← hc.eq_contentOf]
      simp only [answer, hreply, Reply.failure?, and_self]
  | panicked hc hreply =>
      rw [← hc.eq_contentOf]
      simp only [answer, hreply, Reply.failure?, Reply.noPanicText, and_self]

theorem segment_answer (handler : Handler σ) (files : FileTree) (line : Nat) (bytes : Bytes)
    (s : σ) :
    Segment handler files line bytes s
      (answer handler ⟨files, s⟩ (contentOf files line bytes)).trace
      (answer handler ⟨files, s⟩ (contentOf files line bytes)).world.state := by
  have hc : Holds files line bytes (contentOf files line bytes) := holds_iff.mpr rfl
  cases hcontent : contentOf files line bytes with
  | blank => exact .blank (hcontent ▸ hc)
  | refused d => exact .refused (hcontent ▸ hc)
  | event seq payload =>
      rw [hcontent] at hc
      cases hreply : (handler payload ⟨files, s⟩).reply with
      | done =>
          simp only [answer, hreply, Reply.failure?]
          exact .done hc hreply
      | failed chain =>
          simp only [answer, hreply, Reply.failure?]
          exact .failed hc hreply
      | panicked text =>
          simp only [answer, hreply, Reply.failure?]
          exact .panicked hc hreply

/-! ## The lines of a run -/

theorem exists_segments (handler : Handler σ) (files : FileTree) (n : Nat) (ls : List Bytes)
    (s : σ) : ∃ segments s', Segments handler files n ls s segments s' := by
  induction ls generalizing n s with
  | nil => exact ⟨_, _, .nil⟩
  | cons l ls ih =>
      obtain ⟨segments, s', hrest⟩ := ih (n + 1) _
      exact ⟨_, _, .cons (segment_answer handler files (n + 1) l s) hrest⟩

/-- Lines make the calls and reports of their segments.  The induction is on
the segments; the files stay what they were, so every line is read against the
same ones. -/
theorem takeLines_acts_segments {handler : Handler σ} (keeps : handler.KeepsFiles)
    {files : FileTree} {n : Nat} {ls : List Bytes} {st st' : σ}
    {segments : List (List Occurrence)} (h : Segments handler files n ls st segments st')
    (s : Summary) (hn : s.linesRead = n) :
    Trace.acts (takeLines handler ls s ⟨files, st⟩).trace = segments.flatten ∧
      (takeLines handler ls s ⟨files, st⟩).world = ⟨files, st'⟩ := by
  induction h generalizing s with
  | nil => exact ⟨rfl, rfl⟩
  | @cons n l ls st st₁ st₂ segment segments hfirst _ ih =>
      subst hn
      obtain ⟨rfl, hstate⟩ := hfirst.eq_answer
      have hworld : (takeLine handler (s.linesRead + 1) l ⟨files, st⟩).world = ⟨files, st₁⟩ := by
        rw [takeLine_world_of_keepsFiles keeps, hstate]
      obtain ⟨hacts, hrest⟩ :=
        ih (s.count (takeLine handler (s.linesRead + 1) l ⟨files, st⟩).verdict)
          (Summary.linesRead_count _ _)
      simp only [takeLines, hworld, Trace.acts_append, takeLine_acts, hacts, hrest,
        List.flatten_cons, and_self]

/-- A run makes, in stream order, the calls and reports of one segment for each
physical line, and then reports the fault of the stream if it has one. -/
theorem run_acts_segments (handler : Handler σ) (keeps : handler.KeepsFiles) (input : Stream)
    (w : World σ) :
    (∃ lines segments final, Stream.LinesOf input.fault input.bytes lines ∧
      Segments handler w.files 0 lines w.state segments final) ∧
    ∀ lines segments final, Stream.LinesOf input.fault input.bytes lines →
      Segments handler w.files 0 lines w.state segments final →
      Trace.acts (run handler input w).trace = segments.flatten ++ faultReport input.fault ∧
        (run handler input w).world = ⟨w.files, final⟩ := by
  constructor
  · obtain ⟨segments, final, hsegments⟩ :=
      exists_segments handler w.files 0 input.lines w.state
    exact ⟨_, segments, final, Stream.linesOf_iff.mpr rfl, hsegments⟩
  · intro lines segments final hlines hsegments
    obtain rfl := Stream.linesOf_iff.mp hlines
    obtain ⟨hacts, hworld⟩ := takeLines_acts_segments keeps hsegments .zero rfl
    exact ⟨by rw [acts_run, hacts], hworld⟩

/-- A line that is no text, an event that fails, and the start of a line that
the stream does not finish. -/
theorem run_acts_segments_failing_stream :
    Handler.scripted.KeepsFiles ∧
    Trace.acts (run .scripted
        ⟨[0xFF, 0x0A] ++ eventLine 7 (.object [("type", .string "boom")]) ++ [0x5B],
          some "stream closed"⟩
        ⟨.empty, [.failed ["could not notify", "rejected"]]⟩).trace =
      [.reported (.malformedLine 1
          "invalid UTF-8: invalid utf-8 sequence of 1 bytes from index 0" "\uFFFD"),
        .handled (.ofMembers [("type", .string "boom")]),
        .reported (.handlerFailure (some 7) "boom" "could not notify: rejected"),
        .reported (.unreadableInput "stream closed")] := by
  refine ⟨Handler.scripted_keepsFiles, ?_⟩
  have hbroken : Holds .empty 1 [0xFF, 0x0A] (.refused (.malformedLine 1
      "invalid UTF-8: invalid utf-8 sequence of 1 bytes from index 0" "\uFFFD")) :=
    holds_iff.mpr (by decide +kernel)
  have hevent : Holds .empty 2 (eventLine 7 (.object [("type", .string "boom")]))
      (.event (some 7) (.ofMembers [("type", .string "boom")])) :=
    holds_iff.mpr (by decide +kernel)
  have hacts := (run_acts_segments .scripted Handler.scripted_keepsFiles
    ⟨[0xFF, 0x0A] ++ eventLine 7 (.object [("type", .string "boom")]) ++ [0x5B],
      some "stream closed"⟩
    ⟨.empty, [.failed ["could not notify", "rejected"]]⟩).2 _ _ _
    (Stream.linesOf_iff.mpr (by decide +kernel))
    (.cons (.refused hbroken) (.cons (.failed hevent rfl) .nil))
  exact hacts.1.trans (by decide +kernel)

end AgentHooks.Host
