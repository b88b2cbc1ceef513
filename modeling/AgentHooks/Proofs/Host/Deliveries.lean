/-
The events that a stream delivers.

A handler may change the files while it handles events, and an envelope on a
later line may name a file that was changed.  So whether a line delivers an event
depends on the events before it.  When the files after a call are a function of
the events up to it (`Handler.Leaves`), the events of a stream are given by rules
that never mention the handler's calls: `Deliveries` takes line after line, each
against the files that the earlier events have left.  The main result,
`run_deliveries`, says that a run leaves the files of these events.
-/
import AgentHooks.Proofs.Host.Content
import AgentHooks.Proofs.Text.Lines

namespace AgentHooks

/-! ## Handlers and their events -/

namespace Handler

variable {σ : Type}

/-- The world after a handler was given some events. -/
def afterAll (handler : Handler σ) (events : List Record) (w : World σ) : World σ :=
  events.foldl (fun w event => (handler event w).world) w

/-- Those of some events that a handler handles with success. -/
def succeeded (handler : Handler σ) : List Record → World σ → List Record
  | [], _ => []
  | event :: events, w =>
    let c := handler event w
    if c.reply = .done then event :: succeeded handler events c.world
    else succeeded handler events c.world

/-- Each call leaves the files that `after` gives for the events up to it. -/
def Leaves (handler : Handler Unit) (after : List Record → FileTree) : Prop :=
  ∀ earlier event, (handler event ⟨after earlier, ()⟩).world = ⟨after (earlier ++ [event]), ()⟩

theorem afterAll_of_leaves {handler : Handler Unit} {after : List Record → FileTree}
    (h : handler.Leaves after) (earlier events : List Record) :
    handler.afterAll events ⟨after earlier, ()⟩ = ⟨after (earlier ++ events), ()⟩ := by
  induction events generalizing earlier with
  | nil =>
      rw [List.append_nil]
      rfl
  | cons event events ih =>
      rw [afterAll, List.foldl_cons, h earlier event]
      exact (ih (earlier ++ [event])).trans (by rw [List.append_assoc, List.singleton_append])

theorem succeeded_of_leaves {handler : Handler Unit} {after : List Record → FileTree}
    (h : handler.Leaves after) {p : Record → Bool}
    (hreply : ∀ earlier event,
      (handler event ⟨after earlier, ()⟩).reply = .done ↔ p event = true)
    (earlier events : List Record) :
    handler.succeeded events ⟨after earlier, ()⟩ = events.filter p := by
  induction events generalizing earlier with
  | nil => rfl
  | cons event events ih =>
      simp only [succeeded, h earlier event, ih]
      by_cases hp : p event = true
      · rw [if_pos ((hreply earlier event).mpr hp), List.filter_cons_of_pos hp]
      · rw [if_neg (mt (hreply earlier event).mp hp), List.filter_cons_of_neg hp]

end Handler

namespace Host

/-! ## Lines that deliver an event -/

/-- A line delivers a payload: it holds a message of the kind of events, whose
envelope resolves to the payload. -/
def Delivers (files : FileTree) (bytes : Bytes) (payload : Record) : Prop :=
  ∃ members, HoldsObject bytes members ∧ (Message.ofRecord members).kind = "hook-event" ∧
    Envelope.resolve files (Message.ofRecord members).event = .ok payload

/-- The payload of an event. -/
def Content.payload? : Content → Option Record
  | .event _ payload => some payload
  | _ => none

/-- A line delivers the payload of its content, whatever its number is. -/
theorem delivers_iff {files : FileTree} {bytes : Bytes} {payload : Record} (line : Nat) :
    Delivers files bytes payload ↔ (contentOf files line bytes).payload? = some payload := by
  constructor
  · rintro ⟨members, hobject, hkind, hresolve⟩
    rw [← holds_iff.mp (.event hobject hkind hresolve), Content.payload?]
  · intro hpayload
    have hholds : Holds files line bytes (contentOf files line bytes) := holds_iff.mpr rfl
    cases hcontent : contentOf files line bytes with
    | blank =>
        rw [hcontent] at hpayload
        cases hpayload
    | refused d =>
        rw [hcontent] at hpayload
        cases hpayload
    | event seq p =>
        rw [hcontent] at hpayload hholds
        cases hpayload
        cases hholds with
        | event hobject hkind hresolve => exact ⟨_, hobject, hkind, hresolve⟩

theorem forall_not_delivers_iff {files : FileTree} {bytes : Bytes} (line : Nat) :
    (∀ payload, ¬ Delivers files bytes payload) ↔ (contentOf files line bytes).payload? = none := by
  rw [Option.eq_none_iff_forall_ne_some]
  exact forall_congr' fun payload => not_congr (delivers_iff line)

section Line

variable {σ : Type} (handler : Handler σ) (line : Nat) {bytes : Bytes} {w : World σ}

/-- The payload of a line is handled, and nothing else changes the world. -/
theorem takeLine_world_eq : (takeLine handler line bytes w).world =
    match (contentOf w.files line bytes).payload? with
    | some payload => (handler payload w).world
    | none => w := by
  rw [takeLine_world]
  cases contentOf w.files line bytes with
  | blank => rfl
  | refused d => rfl
  | event seq payload =>
      simp only [answer, Content.payload?]
      cases (handler payload w).reply.failure? with
      | none => rfl
      | some detail => rfl

theorem takeLine_world_of_delivers {payload : Record} (h : Delivers w.files bytes payload) :
    (takeLine handler line bytes w).world = (handler payload w).world := by
  rw [takeLine_world_eq, (delivers_iff line).mp h]

/-- A line that delivers nothing changes nothing. -/
theorem takeLine_world_of_not_delivers (h : ∀ payload, ¬ Delivers w.files bytes payload) :
    (takeLine handler line bytes w).world = w := by
  rw [takeLine_world_eq, (forall_not_delivers_iff line).mp h]

end Line

/-! ## The events of a stream -/

/-- The events that lines deliver, when `after` gives the files for the events
so far. -/
inductive Deliveries (after : List Record → FileTree) :
    (earlier : List Record) → List Bytes → List Record → Prop
  | nil {earlier : List Record} : Deliveries after earlier [] []
  | event {earlier : List Record} {l : Bytes} {ls : List Bytes} {payload : Record}
      {events : List Record} : Delivers (after earlier) l payload →
      Deliveries after (earlier ++ [payload]) ls events →
      Deliveries after earlier (l :: ls) (payload :: events)
  | other {earlier : List Record} {l : Bytes} {ls : List Bytes} {events : List Record} :
      (∀ payload, ¬ Delivers (after earlier) l payload) → Deliveries after earlier ls events →
      Deliveries after earlier (l :: ls) events

theorem exists_deliveries (after : List Record → FileTree) (earlier : List Record)
    (ls : List Bytes) : ∃ events, Deliveries after earlier ls events := by
  induction ls generalizing earlier with
  | nil => exact ⟨[], .nil⟩
  | cons l ls ih =>
      by_cases hline : ∃ payload, Delivers (after earlier) l payload
      · obtain ⟨payload, hline⟩ := hline
        obtain ⟨events, hrest⟩ := ih (earlier ++ [payload])
        exact ⟨payload :: events, .event hline hrest⟩
      · obtain ⟨events, hrest⟩ := ih earlier
        exact ⟨events, .other (not_exists.mp hline) hrest⟩

/-- Lines leave the files of the events that they deliver.  The induction is on
the rules; the events so far are what the files and the next line have in
common. -/
theorem takeLines_world_of_deliveries {handler : Handler Unit} {after : List Record → FileTree}
    (hleaves : handler.Leaves after) {earlier events : List Record} {ls : List Bytes}
    (h : Deliveries after earlier ls events) (s : Summary) :
    (takeLines handler ls s ⟨after earlier, ()⟩).world = ⟨after (earlier ++ events), ()⟩ := by
  induction h generalizing s with
  | nil =>
      rw [List.append_nil]
      rfl
  | @event earlier l ls payload events hline _ ih =>
      have hworld := takeLine_world_of_delivers handler (s.linesRead + 1)
        (w := ⟨after earlier, ()⟩) hline
      rw [hleaves earlier payload] at hworld
      simp only [takeLines, hworld, ih, List.append_assoc, List.singleton_append]
  | @other earlier l ls events hline _ ih =>
      have hworld := takeLine_world_of_not_delivers handler (s.linesRead + 1)
        (w := ⟨after earlier, ()⟩) hline
      simp only [takeLines, hworld, ih]

/-- Every stream delivers some events, and a run leaves the files of the events
that its stream delivers. -/
theorem run_deliveries {handler : Handler Unit} {after : List Record → FileTree}
    (hleaves : handler.Leaves after) (input : Stream) :
    (∃ lines events, Stream.LinesOf input.fault input.bytes lines ∧
      Deliveries after [] lines events) ∧
    ∀ lines events, Stream.LinesOf input.fault input.bytes lines →
      Deliveries after [] lines events →
      (run handler input ⟨after [], ()⟩).world.files = after events := by
  constructor
  · obtain ⟨events, hevents⟩ := exists_deliveries after [] input.lines
    exact ⟨_, events, Stream.linesOf_iff.mpr rfl, hevents⟩
  · intro lines events hlines hevents
    obtain rfl := Stream.linesOf_iff.mp hlines
    have hworld := takeLines_world_of_deliveries hleaves hevents .zero
    exact congrArg World.files hworld

end Host

end AgentHooks
