/-
What a line holds, apart from what a handler does with it.

`Holds` gives the seven things that a line can be as rules: each rule names the
step at which reading stops (decoding, trimming, parsing, the kind, the
envelope) and the whole report that follows.  `contentOf` finds the content of
a line and `holds_iff` says that the rules leave no other.  Every step of a run
is then split in two (`takeLine_withoutLog`): the content of the line under the
files that are there, and the answer of the handler to it.  All that is proved
of runs goes through these two and never opens a step again.
-/
import AgentHooks.Proofs.Json.Padding
import AgentHooks.Proofs.Payload.Resolution
import AgentHooks.Reporter

namespace AgentHooks

namespace Handler

/-- A handler that leaves the files as they are. -/
def KeepsFiles {σ : Type} (handler : Handler σ) : Prop :=
  ∀ payload w, (handler payload w).world.files = w.files

/-- A handler that gives the replies of a list in turn, and succeeds after
them. -/
def scripted : Handler (List Reply) := fun _ w =>
  match w.state with
  | [] => ⟨.done, w, []⟩
  | r :: rs => ⟨r, { w with state := rs }, []⟩

theorem scripted_keepsFiles : scripted.KeepsFiles := by
  rintro payload ⟨files, replies⟩
  cases replies with
  | nil => rfl
  | cons r rs => rfl

end Handler

namespace Host

/-- The line of a message that carries an event. -/
def eventLine (seq : Int64) (event : Json) : Bytes :=
  Utf8.encode (Message.ofEvent seq event).toLine ++ [Text.lineFeed]

/-- The bytes of a line without the text that they are the bytes of. -/
theorem eventLine_eq (seq : Int64) (event : Json) :
    eventLine seq event = (Json.object (Message.ofEvent seq event).members).bytes ++
      [Text.lineFeed] := by
  rw [eventLine, Message.toLine, Json.encode_text]

/-! ## The content of a line -/

/-- What a line holds. -/
inductive Content where
  /-- Nothing. -/
  | blank
  /-- Something that never reaches a handler, and the report of it. -/
  | refused (diagnostic : Diagnostic)
  /-- An event, with the sequence number of its message. -/
  | event (seq : Option Int64) (payload : Record)
deriving DecidableEq

/-- The text of a line: it is UTF-8, and not blank, and the blanks at its ends
do not count. -/
def HoldsText (bytes : Bytes) (text : String) : Prop :=
  ∃ chars, Utf8.decode bytes = .ok chars ∧ Text.trim chars ≠ [] ∧
    text = String.ofList (Text.trim chars)

/-- The JSON object on a line. -/
def HoldsObject (bytes : Bytes) (members : Record) : Prop :=
  ∃ text v, HoldsText bytes text ∧ Json.parseText text = .ok v ∧ v.asRecord? = some members

/-- What a line holds, rule by rule.  The last three rules are about a message:
its kind and its sequence number are the coerced members of the object. -/
inductive Holds (files : FileTree) (line : Nat) (bytes : Bytes) : Content → Prop
  | blank {chars : List Char} : Utf8.decode bytes = .ok chars → Text.trim chars = [] →
      Holds files line bytes .blank
  | notUtf8 {fault : Utf8.Fault} : Utf8.decode bytes = .error fault →
      Holds files line bytes (.refused (.malformedLine line ("invalid UTF-8: " ++ fault.message)
        (Text.excerpt (String.ofList (Text.trim (Utf8.decodeLossy bytes))))))
  | notJson {text : String} {fault : Json.Fault} : HoldsText bytes text →
      Json.parseText text = .error fault →
      Holds files line bytes (.refused (.malformedLine line fault.message (Text.excerpt text)))
  | notAnObject {text : String} {v : Json} : HoldsText bytes text →
      Json.parseText text = .ok v → v.asRecord? = none →
      Holds files line bytes (.refused (.malformedLine line "host message is not a JSON object"
        (Text.excerpt text)))
  | otherKind {members : Record} : HoldsObject bytes members →
      (Message.ofRecord members).kind ≠ "hook-event" →
      Holds files line bytes (.refused (.unrecognizedKind line (Message.ofRecord members).kind))
  | unavailable {members : Record} {path detail : String} : HoldsObject bytes members →
      (Message.ofRecord members).kind = "hook-event" →
      Envelope.resolve files (Message.ofRecord members).event =
        .error (.payloadUnavailable path detail) →
      Holds files line bytes (.refused (.payloadUnavailable path detail))
  | event {members payload : Record} : HoldsObject bytes members →
      (Message.ofRecord members).kind = "hook-event" →
      Envelope.resolve files (Message.ofRecord members).event = .ok payload →
      Holds files line bytes (.event (Message.ofRecord members).seq payload)

/-- The content of a message. -/
def contentOfMessage (files : FileTree) (line : Nat) (m : Message) : Content :=
  if m.isEvent then
    match Envelope.resolve files m.event with
    | .error d => .refused d
    | .ok payload => .event m.seq payload
  else .refused (.unrecognizedKind line m.kind)

/-- The content of the text of a line. -/
def contentOfText (files : FileTree) (line : Nat) (text : String) : Content :=
  match Message.ofLine text line with
  | .error d => .refused d
  | .ok m => contentOfMessage files line m

/-- The content of a line that has the number `line`. -/
def contentOf (files : FileTree) (line : Nat) (bytes : Bytes) : Content :=
  match Utf8.decode bytes with
  | .error fault => .refused (notUtf8 line fault bytes)
  | .ok chars =>
    if Text.trim chars = [] then .blank
    else contentOfText files line (String.ofList (Text.trim chars))

/-- The contents of the lines that follow the first `n`. -/
def contents (files : FileTree) : (n : Nat) → List Bytes → List Content
  | _, [] => []
  | n, l :: ls => contentOf files (n + 1) l :: contents files (n + 1) ls

/-! ## The rules and the function agree -/

theorem isEvent_iff {m : Message} : m.isEvent = true ↔ m.kind = "hook-event" :=
  beq_iff_eq

theorem contentOf_of_holdsText (files : FileTree) (line : Nat) {bytes : Bytes} {text : String}
    (h : HoldsText bytes text) : contentOf files line bytes = contentOfText files line text := by
  obtain ⟨chars, hdecode, hne, rfl⟩ := h
  simp only [contentOf, hdecode, if_neg hne]

theorem contentOf_of_holdsObject (files : FileTree) (line : Nat) {bytes : Bytes}
    {members : Record} (h : HoldsObject bytes members) :
    contentOf files line bytes = contentOfMessage files line (Message.ofRecord members) := by
  obtain ⟨text, v, htext, hparse, hobject⟩ := h
  rw [contentOf_of_holdsText files line htext]
  simp only [contentOfText, Message.ofLine, hparse, hobject]

theorem Holds.eq_contentOf {files : FileTree} {line : Nat} {bytes : Bytes} {c : Content}
    (h : Holds files line bytes c) : c = contentOf files line bytes := by
  cases h with
  | blank hdecode htrim => simp only [contentOf, hdecode, if_pos htrim]
  | notUtf8 hdecode => simp only [contentOf, hdecode]; rfl
  | notJson htext hparse =>
      rw [contentOf_of_holdsText files line htext]
      simp only [contentOfText, Message.ofLine, hparse]; rfl
  | notAnObject htext hparse hobject =>
      rw [contentOf_of_holdsText files line htext]
      simp only [contentOfText, Message.ofLine, hparse, hobject]; rfl
  | otherKind hobject hkind =>
      rw [contentOf_of_holdsObject files line hobject, contentOfMessage,
        if_neg (mt isEvent_iff.mp hkind)]
  | unavailable hobject hkind hresolve =>
      rw [contentOf_of_holdsObject files line hobject, contentOfMessage,
        if_pos (isEvent_iff.mpr hkind), hresolve]
  | event hobject hkind hresolve =>
      rw [contentOf_of_holdsObject files line hobject, contentOfMessage,
        if_pos (isEvent_iff.mpr hkind), hresolve]

/-- A line that holds an object is a message of another kind, or its envelope
decides. -/
theorem holds_of_holdsObject (files : FileTree) (line : Nat) {bytes : Bytes} {members : Record}
    (h : HoldsObject bytes members) :
    Holds files line bytes (contentOfMessage files line (Message.ofRecord members)) := by
  unfold contentOfMessage
  split
  · rename_i hevent
    have hkind := isEvent_iff.mp hevent
    cases hresolve : Envelope.resolve files (Message.ofRecord members).event with
    | error d =>
        obtain ⟨path, detail, -, rfl⟩ := Envelope.resolve_error hresolve
        exact .unavailable h hkind hresolve
    | ok payload => exact .event h hkind hresolve
  · rename_i hevent
    exact .otherKind h (fun hkind => hevent (isEvent_iff.mpr hkind))

theorem holds_of_holdsText (files : FileTree) (line : Nat) {bytes : Bytes} {text : String}
    (h : HoldsText bytes text) : Holds files line bytes (contentOfText files line text) := by
  unfold contentOfText Message.ofLine
  cases hparse : Json.parseText text with
  | error fault => exact .notJson h hparse
  | ok v =>
      cases hobject : v.asRecord? with
      | none =>
          simp only [hobject]
          exact .notAnObject h hparse hobject
      | some members =>
          simp only [hobject]
          exact holds_of_holdsObject files line ⟨text, v, h, hparse, hobject⟩

/-- The rules cover every line, and `contentOf` follows them. -/
theorem holds_iff {files : FileTree} {line : Nat} {bytes : Bytes} {c : Content} :
    Holds files line bytes c ↔ c = contentOf files line bytes := by
  constructor
  · exact Holds.eq_contentOf
  · rintro rfl
    unfold contentOf
    cases hdecode : Utf8.decode bytes with
    | error fault => exact .notUtf8 hdecode
    | ok chars =>
        by_cases htrim : Text.trim chars = []
        · simp only [if_pos htrim]; exact .blank hdecode htrim
        · simp only [if_neg htrim]
          exact holds_of_holdsText files line ⟨chars, hdecode, htrim, rfl⟩

/-! ## A step is an answer to the content of a line -/

section Answer

variable {σ : Type} (handler : Handler σ)

/-- The outcome of a line without the entries of the log. -/
def LineOutcome.withoutLog (o : LineOutcome σ) : LineOutcome σ :=
  { o with trace := Trace.acts o.trace }

/-- What a handler makes of the content of a line. -/
def answer (w : World σ) : Content → LineOutcome σ
  | .blank => ⟨.blank, w, []⟩
  | .refused d => ⟨.skipped, w, [.reported d]⟩
  | .event seq payload =>
    let c := handler payload w
    match c.reply.failure? with
    | none => ⟨.dispatched, c.world, [.handled payload]⟩
    | some detail =>
      ⟨.handlerFailed, c.world,
        [.handled payload, .reported (.handlerFailure seq payload.discriminant detail)]⟩

theorem call_withoutLog (seq : Option Int64) (payload : Record) (w : World σ) :
    (call handler seq payload w).withoutLog = answer handler w (.event seq payload) := by
  have hbefore : Trace.acts ([.logged (dispatchEntry seq payload.discriminant),
      .handled payload] ++ (handler payload w).log.map .logged) = [.handled payload] := by
    rw [Trace.acts_append, Trace.acts_map_logged]; rfl
  unfold call answer
  cases hreply : (handler payload w).reply.failure? with
  | none => simp only [hreply, LineOutcome.withoutLog, hbefore]
  | some detail =>
      simp only [hreply, LineOutcome.withoutLog, Trace.acts_append, hbefore]; rfl

theorem deliver_withoutLog (line : Nat) (m : Message) (w : World σ) (h : m.isEvent = true) :
    (deliver handler m w).withoutLog = answer handler w (contentOfMessage w.files line m) := by
  unfold deliver contentOfMessage
  rw [if_pos h]
  cases Envelope.resolve w.files m.event with
  | error d =>
      simp only [LineOutcome.withoutLog, Trace.acts_append, Trace.acts_map_logged]; rfl
  | ok payload =>
      simp only [LineOutcome.withoutLog, Trace.acts_append, Trace.acts_map_logged,
        List.nil_append]
      exact call_withoutLog handler m.seq payload w

theorem takeText_withoutLog (line : Nat) (text : String) (w : World σ) :
    (takeText handler line text w).withoutLog =
      answer handler w (contentOfText w.files line text) := by
  unfold takeText contentOfText
  cases Message.ofLine text line with
  | error d => rfl
  | ok m =>
      by_cases hevent : m.isEvent = true
      · simp only [if_pos hevent]
        exact deliver_withoutLog handler line m w hevent
      · simp only [contentOfMessage, if_neg hevent]; rfl

/-- Apart from the log, a line comes to the handler's answer to its content. -/
theorem takeLine_withoutLog (line : Nat) (bytes : Bytes) (w : World σ) :
    (takeLine handler line bytes w).withoutLog =
      answer handler w (contentOf w.files line bytes) := by
  unfold takeLine contentOf
  cases Utf8.decode bytes with
  | error fault => rfl
  | ok chars =>
      by_cases htrim : Text.trim chars = []
      · simp only [if_pos htrim]; rfl
      · simp only [if_neg htrim]
        exact takeText_withoutLog handler line _ w

theorem takeLine_verdict (line : Nat) (bytes : Bytes) (w : World σ) :
    (takeLine handler line bytes w).verdict =
      (answer handler w (contentOf w.files line bytes)).verdict := by
  rw [← takeLine_withoutLog]; rfl

theorem takeLine_world (line : Nat) (bytes : Bytes) (w : World σ) :
    (takeLine handler line bytes w).world =
      (answer handler w (contentOf w.files line bytes)).world := by
  rw [← takeLine_withoutLog]; rfl

theorem takeLine_acts (line : Nat) (bytes : Bytes) (w : World σ) :
    Trace.acts (takeLine handler line bytes w).trace =
      (answer handler w (contentOf w.files line bytes)).trace := by
  rw [← takeLine_withoutLog]; rfl

theorem answer_files {handler : Handler σ} (keeps : handler.KeepsFiles) (w : World σ)
    (c : Content) : (answer handler w c).world.files = w.files := by
  cases c with
  | blank => rfl
  | refused _ => rfl
  | event seq payload =>
      simp only [answer]
      split
      · exact keeps payload w
      · exact keeps payload w

/-- A line changes at most the state of a handler that keeps the files. -/
theorem takeLine_world_of_keepsFiles {handler : Handler σ} (keeps : handler.KeepsFiles)
    (files : FileTree) (line : Nat) (bytes : Bytes) (s : σ) :
    (takeLine handler line bytes ⟨files, s⟩).world =
      ⟨files, (answer handler ⟨files, s⟩ (contentOf files line bytes)).world.state⟩ := by
  have hfiles := answer_files keeps ⟨files, s⟩ (contentOf files line bytes)
  rw [takeLine_world]
  exact congrArg (World.mk · _) hfiles

end Answer

/-! ## The end of a stream -/

/-- The report of a stream that could not be read to its end. -/
def faultReport : Option String → List Occurrence
  | none => []
  | some detail => [.reported (.unreadableInput detail)]

theorem acts_closing (fault : Option String) (s : Summary) :
    Trace.acts (closing fault s) = faultReport fault := by
  cases fault with
  | none => rfl
  | some detail => rfl

theorem acts_run {σ : Type} (handler : Handler σ) (input : Stream) (w : World σ) :
    Trace.acts (run handler input w).trace =
      Trace.acts (takeLines handler input.lines .zero w).trace ++ faultReport input.fault := by
  rw [run, Trace.acts_append, acts_closing]

theorem events_run {σ : Type} (handler : Handler σ) (input : Stream) (w : World σ) :
    Trace.events (run handler input w).trace =
      Trace.events (takeLines handler input.lines .zero w).trace := by
  have hnone : Trace.events (faultReport input.fault) = [] := by
    cases input.fault <;> rfl
  rw [← Trace.events_acts, acts_run, Trace.events_append, hnone, List.append_nil,
    Trace.events_acts]

theorem reports_run {σ : Type} (handler : Handler σ) (input : Stream) (w : World σ) :
    Trace.reports (run handler input w).trace =
      Trace.reports (takeLines handler input.lines .zero w).trace ++
        Trace.reports (faultReport input.fault) := by
  rw [← Trace.reports_acts, acts_run, Trace.reports_append, Trace.reports_acts]

end Host

end AgentHooks
