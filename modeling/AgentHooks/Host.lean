/-
The host: a handler driven by the lines of a stream.

Every line gets a verdict and leaves occurrences: handler calls, reports and
entries of the log, in the order in which they happen.  No line stops the
host.  A run is a recursion over the physical lines that threads the summary
and what the handler may change, and its trace is the lines' occurrences one
after the other.
-/
import AgentHooks.Message
import AgentHooks.Payload.Input

namespace AgentHooks

/-- How a handler answers. -/
inductive Reply where
  | done
  /-- It failed; the texts are the failure's and those of what caused it. -/
  | failed (chain : List String)
  /-- It stopped halfway, with a text or with something that is none. -/
  | panicked (text : Option String)
deriving DecidableEq, Repr

/-- What is said of a panic without a text. -/
def Reply.noPanicText : String := "non-string panic payload"

/-- What a report says of a handler that did not succeed. -/
def Reply.failure? : Reply → Option String
  | .done => none
  | .failed chain => some (String.intercalate ": " chain)
  | .panicked text => some ("handler panicked: " ++ text.getD noPanicText)

/-- What a handler may change: the files and a state of its own. -/
structure World (σ : Type) where
  files : FileTree
  state : σ

/-- What a handler's call comes to. -/
structure Call (σ : Type) where
  reply : Reply
  world : World σ
  log : List Log.Entry

abbrev Handler (σ : Type) := Record → World σ → Call σ

/-- What happens in a run. -/
inductive Occurrence where
  | handled (event : Record)
  | reported (diagnostic : Diagnostic)
  | logged (entry : Log.Entry)
deriving DecidableEq

namespace Occurrence

def event? : Occurrence → Option Record
  | handled event => some event
  | _ => none

def diagnostic? : Occurrence → Option Diagnostic
  | reported d => some d
  | _ => none

/-- What a log shows that also takes the reports. -/
def logEntry? : Occurrence → Option Log.Entry
  | handled _ => none
  | reported d => some d.logEntry
  | logged entry => some entry

end Occurrence

/-- The counts of a run. -/
structure Summary where
  linesRead : Nat
  dispatched : Nat
  skipped : Nat
  handlerFailures : Nat
deriving DecidableEq, Repr

/-- What became of a line. -/
inductive Verdict where
  | blank
  | skipped
  | dispatched
  | handlerFailed
deriving DecidableEq, Repr

namespace Summary

def zero : Summary := ⟨0, 0, 0, 0⟩

def count (s : Summary) (v : Verdict) : Summary :=
  let s := { s with linesRead := s.linesRead + 1 }
  match v with
  | .blank => s
  | .skipped => { s with skipped := s.skipped + 1 }
  | .dispatched => { s with dispatched := s.dispatched + 1 }
  | .handlerFailed =>
    { s with dispatched := s.dispatched + 1, handlerFailures := s.handlerFailures + 1 }

/-- The counts of two parts of a run together. -/
instance : Add Summary where
  add s t := ⟨s.linesRead + t.linesRead, s.dispatched + t.dispatched, s.skipped + t.skipped,
    s.handlerFailures + t.handlerFailures⟩

@[simp] theorem linesRead_add (s t : Summary) :
    (s + t).linesRead = s.linesRead + t.linesRead := rfl

@[simp] theorem dispatched_add (s t : Summary) :
    (s + t).dispatched = s.dispatched + t.dispatched := rfl

@[simp] theorem skipped_add (s t : Summary) : (s + t).skipped = s.skipped + t.skipped := rfl

@[simp] theorem handlerFailures_add (s t : Summary) :
    (s + t).handlerFailures = s.handlerFailures + t.handlerFailures := rfl

theorem add_zero (s : Summary) : s + zero = s := rfl

/-- A line is counted in the part of a run that it belongs to. -/
theorem add_count (s t : Summary) (v : Verdict) : (s + t).count v = s + t.count v := by
  cases v <;> rfl

@[simp] theorem linesRead_count (s : Summary) (v : Verdict) :
    (s.count v).linesRead = s.linesRead + 1 := by
  cases v <;> rfl

/-- The last entry of a run in the log. -/
def logEntry (s : Summary) : Log.Entry :=
  ⟨.debug, Log.hostTarget, "hook input ended",
    [("lines_read", .count s.linesRead), ("dispatched", .count s.dispatched),
      ("skipped", .count s.skipped), ("handler_failures", .count s.handlerFailures)]⟩

end Summary

namespace Host

variable {σ : Type}

/-- What one line comes to. -/
structure LineOutcome (σ : Type) where
  verdict : Verdict
  world : World σ
  trace : List Occurrence

def skip (w : World σ) (d : Diagnostic) : LineOutcome σ := ⟨.skipped, w, [.reported d]⟩

/-- The sequence number as the log shows it. -/
def seqField (seq : Option Int64) : String :=
  match seq with
  | some n => s!"Some({n.toInt})"
  | none => "None"

/-- The entry of the log before a handler call. -/
def dispatchEntry (seq : Option Int64) (eventType : String) : Log.Entry :=
  ⟨.debug, Log.hostTarget, "dispatching hook event",
    [("seq", .text (seqField seq)), ("event_type", .text eventType)]⟩

/-- Calls the handler with the payload of a message. -/
def call (handler : Handler σ) (seq : Option Int64) (payload : Record) (w : World σ) :
    LineOutcome σ :=
  let c := handler payload w
  let eventType := payload.discriminant
  let before := [.logged (dispatchEntry seq eventType), .handled payload] ++ c.log.map .logged
  match c.reply.failure? with
  | none => ⟨.dispatched, c.world, before⟩
  | some detail =>
    ⟨.handlerFailed, c.world, before ++ [.reported (.handlerFailure seq eventType detail)]⟩

/-- Resolves the envelope of a message and calls the handler. -/
def deliver (handler : Handler σ) (m : Message) (w : World σ) : LineOutcome σ :=
  let outcome :=
    match Envelope.resolve w.files m.event with
    | .error d => skip w d
    | .ok payload => call handler m.seq payload w
  { outcome with trace := (Envelope.logEntries m.event).map .logged ++ outcome.trace }

/-- Takes the text of a line that is not blank. -/
def takeText (handler : Handler σ) (line : Nat) (text : String) (w : World σ) : LineOutcome σ :=
  match Message.ofLine text line with
  | .error d => skip w d
  | .ok m => if m.isEvent then deliver handler m w else skip w (.unrecognizedKind line m.kind)

/-- The report of a line that is not UTF-8. -/
def notUtf8 (line : Nat) (fault : Utf8.Fault) (bytes : Bytes) : Diagnostic :=
  .malformed line s!"invalid UTF-8: {fault.message}"
    (String.ofList (Text.trim (Utf8.decodeLossy bytes)))

/-- Takes one physical line, which has the number `line`. -/
def takeLine (handler : Handler σ) (line : Nat) (bytes : Bytes) (w : World σ) : LineOutcome σ :=
  match Utf8.decode bytes with
  | .error fault => skip w (notUtf8 line fault bytes)
  | .ok chars =>
    let text := Text.trim chars
    if text = [] then ⟨.blank, w, []⟩ else takeText handler line (String.ofList text) w

/-- The file that the message on a line names, if it names one. -/
def namedFile? (bytes : Bytes) : Option String :=
  match Utf8.decode bytes with
  | .error _ => none
  | .ok chars =>
    match Message.ofLine (String.ofList (Text.trim chars)) 1 with
    | .error _ => none
    | .ok m => if m.isEvent then Envelope.payloadPath? m.event else none

/-- What a run comes to. -/
structure Outcome (σ : Type) where
  summary : Summary
  world : World σ
  trace : List Occurrence

/-- Takes lines in turn; the summary so far gives each of them its number. -/
def takeLines (handler : Handler σ) : List Bytes → Summary → World σ → Outcome σ
  | [], s, w => ⟨s, w, []⟩
  | l :: ls, s, w =>
    let first := takeLine handler (s.linesRead + 1) l w
    let rest := takeLines handler ls (s.count first.verdict) first.world
    { rest with trace := first.trace ++ rest.trace }

/-- What the end of a stream leaves: a report if it cannot be read any further,
and the summary in the log. -/
def closing (fault : Option String) (s : Summary) : List Occurrence :=
  fault.toList.map (fun detail => .reported (.unreadableInput detail)) ++ [.logged s.logEntry]

def run (handler : Handler σ) (input : Stream) (w : World σ) : Outcome σ :=
  let body := takeLines handler input.lines .zero w
  { body with trace := body.trace ++ closing input.fault body.summary }

end Host

end AgentHooks
