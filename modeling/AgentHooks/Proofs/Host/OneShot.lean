/-
Streams of messages against inputs of one payload.

A payload comes to its reader in two ways: as the event of a message on a line
of a stream, or as the whole of an input.  `run_eventLines` says that both ways
give the same.  The line of a message holds what its envelope resolves to
(`steady_contentOf_eventLine`), and the whole text of the envelope is read as
just that envelope (`Payload.ofInput_text`); both rest on texts being read back.
A line feed in an event would end its line too early, but no text holds one.
-/
import AgentHooks.Proofs.Host.Isolation
import AgentHooks.Proofs.Message.RoundTrip
import AgentHooks.Proofs.Payload.Delivery
import AgentHooks.Proofs.Text.Lines
import AgentHooks.Proofs.Text.Trim

namespace AgentHooks

/-- A handler that succeeds at every call. -/
def Handler.Succeeds {σ : Type} (handler : Handler σ) : Prop :=
  ∀ payload w, (handler payload w).reply = .done

/-- A handler that does nothing but succeed. -/
def Handler.accepting : Handler Unit := fun _ w => ⟨.done, w, []⟩

/-! ## Whole inputs -/

/-- The whole text of an envelope is resolved as that envelope. -/
theorem Payload.ofInput_text (files : FileTree) {v : Json} (hsorted : v.Sorted)
    (hfloat : v.FloatFree) (hd : v.depth ≤ Json.depthLimit) :
    ofInput files ⟨Utf8.encode v.text, none⟩ = Envelope.resolve files v :=
  ofInput_of_isTextOf files (Json.isTextOf_text v) hsorted hfloat hd

/-! ## The line of a message -/

namespace Message

theorem exists_toLine_eq (m : Message) :
    ∃ cs, m.toLine.toList = '\x7b' :: (cs ++ ['\x7d']) := by
  rw [toLine, Json.text, String.toList_ofList]
  exact Json.exists_write_object_eq m.members

theorem lineFeed_not_mem_encode_toLine (m : Message) :
    Text.lineFeed ∉ Utf8.encode m.toLine :=
  mt Text.lineFeed_mem_encode_iff.mp (not_mem_toLine_of_lt (by decide) m)

theorem encode_toLine_ne_nil (m : Message) : Utf8.encode m.toLine ≠ [] := by
  obtain ⟨cs, hcs⟩ := exists_toLine_eq m
  rw [Utf8.encode, hcs]
  exact List.cons_ne_nil _ _

end Message

namespace Host

/-- The line of a message holds its text, whatever blanks end the line. -/
theorem holdsText_toLine (m : Message) (ending : List Char)
    (h : ∀ c ∈ ending, Text.isBlank c = true) :
    HoldsText (Utf8.encode m.toLine ++ Utf8.encodeChars ending) m.toLine := by
  obtain ⟨cs, hcs⟩ := m.exists_toLine_eq
  have htrim : Text.trim (m.toLine.toList ++ ending) = m.toLine.toList := by
    rw [Text.trim_append_blanks _ h, hcs]
    exact Text.trim_of_ends cs (by decide) (by decide)
  refine ⟨m.toLine.toList ++ ending, ?_, ?_, ?_⟩
  · rw [Utf8.encode, ← Utf8.encodeChars_append, Utf8.decode_encodeChars]
  · rw [htrim, hcs]
    exact List.cons_ne_nil _ _
  · rw [htrim, String.ofList_toList]

/-- What a result of resolving comes to when the handler succeeds. -/
def resultOccurrence : Except Diagnostic Record → Occurrence
  | .ok payload => .handled payload
  | .error d => .reported d

/-- The line of a message that carries an event holds what its envelope resolves
to. -/
theorem steady_contentOf_eventLine (files : FileTree) (line : Nat) (seq : Int64) {v : Json}
    (hv : v.Sorted ∧ v.FloatFree ∧ v.depth ≤ 126) (ending : List Char)
    (hending : ∀ c ∈ ending, Text.isBlank c = true) :
    (contentOf files line
        (Utf8.encode (Message.ofEvent seq v).toLine ++ Utf8.encodeChars ending)).steady =
      [resultOccurrence (Envelope.resolve files v)] := by
  obtain ⟨hsorted, hfloat, hd⟩ := hv
  have hline : Message.ofLine (Message.ofEvent seq v).toLine line = .ok (.ofEvent seq v) :=
    Message.ofLine_toLine hsorted hfloat hd line
  have hevent : (Message.ofEvent seq v).isEvent = true := isEvent_iff.mpr rfl
  rw [contentOf_of_holdsText files line (holdsText_toLine _ ending hending)]
  simp only [contentOfText, hline, contentOfMessage, if_pos hevent]
  simp only [Message.ofEvent]
  cases Envelope.resolve files v with
  | error d => rfl
  | ok payload => rfl

/-! ## Streams of messages -/

/-- The lines of messages that carry events, with a line feed between them. -/
def eventLines (items : List (Int64 × Json)) : Bytes :=
  [Text.lineFeed].intercalate (items.map fun i => Utf8.encode (Message.ofEvent i.1 i.2).toLine)

theorem lines_eventLines_singleton (i : Int64 × Json) :
    Stream.lines ⟨eventLines [i], none⟩ = [Utf8.encode (Message.ofEvent i.1 i.2).toLine] := by
  rw [eventLines, List.map_singleton, List.intercalate_singleton]
  exact Stream.lines_rest (Message.lineFeed_not_mem_encode_toLine _)
    (Message.encode_toLine_ne_nil _)

theorem lines_eventLines_cons (i j : Int64 × Json) (is : List (Int64 × Json)) :
    Stream.lines ⟨eventLines (i :: j :: is), none⟩ =
      (Utf8.encode (Message.ofEvent i.1 i.2).toLine ++ [Text.lineFeed]) ::
        Stream.lines ⟨eventLines (j :: is), none⟩ := by
  rw [eventLines, List.map_cons, List.map_cons, List.intercalate_cons_cons, List.append_assoc]
  exact Stream.lines_append_lineFeed none _ (Message.lineFeed_not_mem_encode_toLine _)

/-- A stream of messages holds what their envelopes resolve to, in the same
order and with nothing between. -/
theorem steady_contents_eventLines (files : FileTree) (n : Nat) {items : List (Int64 × Json)}
    (h : ∀ i ∈ items, i.2.Sorted ∧ i.2.FloatFree ∧ i.2.depth ≤ 126) :
    (contents files n (Stream.lines ⟨eventLines items, none⟩)).flatMap Content.steady =
      items.map fun i => resultOccurrence (Envelope.resolve files i.2) := by
  induction items generalizing n with
  | nil => rfl
  | cons i is ih =>
      obtain ⟨hi, his⟩ := List.forall_mem_cons.mp h
      cases is with
      | nil =>
          have hlast := steady_contentOf_eventLine files (n + 1) i.1 hi [] nofun
          rw [Utf8.encodeChars_nil, List.append_nil] at hlast
          rw [lines_eventLines_singleton]
          simp only [contents, List.flatMap_cons, List.flatMap_nil, hlast, List.append_nil,
            List.map_cons, List.map_nil]
      | cons j is =>
          have hfirst := steady_contentOf_eventLine files (n + 1) i.1 hi ['\n']
            (List.forall_mem_singleton.mpr rfl)
          have hlf : Utf8.encodeChars ['\n'] = [Text.lineFeed] := rfl
          rw [hlf] at hfirst
          rw [lines_eventLines_cons]
          simp only [contents, List.flatMap_cons, hfirst, ih (n + 1) his, List.singleton_append,
            List.map_cons]

/-! ## Handlers that succeed -/

section Succeeding

variable {σ : Type} {handler : Handler σ} (keeps : handler.KeepsFiles)
  (succeeds : handler.Succeeds)

include succeeds

theorem trace_answer_of_succeeds (w : World σ) (c : Content) :
    (answer handler w c).trace = c.steady := by
  cases c with
  | blank => rfl
  | refused d => rfl
  | event seq payload => simp only [answer, succeeds payload w, Reply.failure?, Content.steady]

include keeps

theorem acts_takeLines_of_succeeds (files : FileTree) (ls : List Bytes) (s : Summary) (st : σ) :
    Trace.acts (takeLines handler ls s ⟨files, st⟩).trace =
      (contents files s.linesRead ls).flatMap Content.steady := by
  induction ls generalizing s st with
  | nil => rfl
  | cons l ls ih =>
      simp only [takeLines, Trace.acts_append, takeLine_acts, trace_answer_of_succeeds succeeds,
        takeLine_world_of_keepsFiles keeps, ih, Summary.linesRead_count, contents,
        List.flatMap_cons]

theorem acts_run_eventLines (files : FileTree) (st : σ) {items : List (Int64 × Json)}
    (h : ∀ i ∈ items, i.2.Sorted ∧ i.2.FloatFree ∧ i.2.depth ≤ 126) :
    Trace.acts (run handler ⟨eventLines items, none⟩ ⟨files, st⟩).trace =
      items.map fun i => resultOccurrence (Envelope.resolve files i.2) := by
  rw [acts_run, acts_takeLines_of_succeeds keeps succeeds]
  exact (List.append_nil _).trans (steady_contents_eventLines files 0 h)

end Succeeding

/-! ## Both ways -/

theorem events_map_resultOccurrence (results : List (Except Diagnostic Record)) :
    Trace.events (results.map resultOccurrence) = results.filterMap (fun r => r.toOption) := by
  rw [Trace.events, List.filterMap_map]
  refine congrArg (List.filterMap · results) (funext fun r => ?_)
  cases r with
  | ok payload => rfl
  | error d => rfl

theorem reports_map_resultOccurrence (results : List (Except Diagnostic Record)) :
    Trace.reports (results.map resultOccurrence) =
      results.filterMap (fun | .ok _ => none | .error d => some d) := by
  rw [Trace.reports, List.filterMap_map]
  refine congrArg (List.filterMap · results) (funext fun r => ?_)
  cases r with
  | ok payload => rfl
  | error d => rfl

/-- A handler that succeeds is given, over a stream of messages, exactly the
payloads that the envelopes give as whole inputs, and what is reported is
exactly why the others give none, in the same order.  The envelopes are values
whose objects are maps, without floats, and less deep than readers allow. -/
theorem run_eventLines {σ : Type} (handler : Handler σ) (keeps : handler.KeepsFiles)
    (succeeds : handler.Succeeds) (files : FileTree) (st : σ) (items : List (Int64 × Json))
    (h : ∀ i ∈ items, i.2.Sorted ∧ i.2.FloatFree ∧ i.2.depth ≤ 126) :
    let trace := (run handler ⟨eventLines items, none⟩ ⟨files, st⟩).trace
    let results := items.map fun i => Payload.ofInput files ⟨Utf8.encode i.2.text, none⟩
    Trace.acts trace = results.map resultOccurrence ∧
    Trace.events trace = results.filterMap (fun r => r.toOption) ∧
    Trace.reports trace = results.filterMap (fun | .ok _ => none | .error d => some d) ∧
    ∀ d, .error d ∈ results → ∃ path detail, d = .payloadUnavailable path detail := by
  intro trace results
  have hresults : results = items.map fun i => Envelope.resolve files i.2 := by
    refine List.map_congr_left fun i hi => ?_
    obtain ⟨hsorted, hfloat, hd⟩ := h i hi
    exact Payload.ofInput_text files hsorted hfloat (Nat.le_trans hd (by decide))
  have hacts : Trace.acts trace = results.map resultOccurrence := by
    rw [hresults, List.map_map]
    exact acts_run_eventLines keeps succeeds files st h
  refine ⟨hacts, ?_, ?_, ?_⟩
  · rw [← Trace.events_acts, hacts, events_map_resultOccurrence]
  · rw [← Trace.reports_acts, hacts, reports_map_resultOccurrence]
  · intro d hd
    rw [hresults] at hd
    obtain ⟨i, -, hi⟩ := List.mem_map.mp hd
    obtain ⟨path, detail, -, heq⟩ := Envelope.resolve_error hi
    exact ⟨path, detail, heq⟩

/-- An array, a file that is there, one that is not, and a payload of its own. -/
theorem run_eventLines_four :
    Handler.accepting.KeepsFiles ∧ Handler.accepting.Succeeds ∧
    Trace.acts (run .accepting ⟨eventLines [(1, .array [.null]),
          (-2, .object [("payload-path", .string "kept")]),
          (3, .object [("payload_path", .string "gone")]),
          (4, .object [("\n", .array [.bool true])])], none⟩
        ⟨⟨[(["kept"], .file (Utf8.encode "\x7b\"a\":1\x7d"))]⟩, ()⟩).trace =
      [.handled .empty, .handled (.ofMembers [("a", .ofInt64 1)]),
        .reported (.payloadUnavailable "gone" "No such file or directory (os error 2)"),
        .handled (.ofMembers [("\n", .array [.bool true])])] := by
  have keeps : Handler.accepting.KeepsFiles := fun _ _ => rfl
  have succeeds : Handler.accepting.Succeeds := fun _ _ => rfl
  have hacts := (run_eventLines .accepting keeps succeeds
    ⟨[(["kept"], .file (Utf8.encode "\x7b\"a\":1\x7d"))]⟩ ()
    [(1, .array [.null]), (-2, .object [("payload-path", .string "kept")]),
      (3, .object [("payload_path", .string "gone")]),
      (4, .object [("\n", .array [.bool true])])] (by decide)).1
  exact ⟨keeps, succeeds, hacts.trans (by decide +kernel)⟩

end Host

end AgentHooks
