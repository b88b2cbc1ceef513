/-
The program: from arguments, variables, files and input to exit status, output,
notices and files.

Everything is decided before a command starts, and nothing is written until
then: a request that cannot be carried out leaves the files as they are.  What
is decided by libraries enters as the answers of readers.
-/
import AgentHooks.Readers

namespace AgentHooks

/-- What the program is started with. -/
structure Invocation where
  arguments : List String
  environment : Environment
  files : FileTree
  input : Stream

/-- Why the program does not succeed. -/
inductive Failure where
  | arguments (message : String)
  | settings (message : String)
  | filter (message : String)
  | home (fault : HomeFault)
  | payload (diagnostic : Diagnostic)
  /-- A reader broke off. -/
  | brokeOff (message : String)
deriving DecidableEq

/-- The failure that a refusal comes to, of the kind of its reader. -/
def Refusal.failure (kind : String → Failure) : Refusal → Failure
  | refused message => kind message
  | brokeOff message => .brokeOff message

namespace Failure

def message : Failure → String
  | arguments message | brokeOff message => message
  | settings message => "failed to load configuration: " ++ message
  | filter message => "invalid log filter: " ++ message
  | home fault => fault.message
  | payload diagnostic => "failed to read hook payload: " ++ diagnostic.message

def exitStatus : Failure → Nat
  | arguments _ => 2
  | brokeOff _ => 101
  | settings _ | filter _ | home _ | payload _ => 1

/-- What is written of a failure.  When the program breaks off, an empty line
comes before what went wrong, and the program does not name itself; where in the
program that was is left out. -/
def report : Failure → String
  | brokeOff message => "\n" ++ message
  | f => "hookline: " ++ f.message

end Failure

/-- How the log of an invocation is shown. -/
structure LogView where
  shows : Log.Entry → Bool
  format : Log.Format
  /-- The invocation, if it is shown at its entries. -/
  span : Option Log.Span

/-- What is written beside the output. -/
inductive Notice where
  | entry (format : Log.Format) (span : Option Log.Span) (entry : Log.Entry)
  | failure (failure : Failure)
deriving DecidableEq

namespace Notice

def entry? : Notice → Option Log.Entry
  | entry _ _ e => some e
  | failure _ => none

def failure? : Notice → Option Failure
  | entry _ _ _ => none
  | failure f => some f

def line (stamp : Log.Stamp) : Notice → String
  | entry format span e => format.line stamp span e
  | failure f => f.report

end Notice

/-- The notices of the entries that are shown. -/
def LogView.notices (view : LogView) (entries : List Log.Entry) : List Notice :=
  (entries.filter view.shows).map (.entry view.format view.span)

/-- What the program leaves. -/
structure Result where
  exitStatus : Nat
  output : String
  notices : List Notice
  files : FileTree
deriving DecidableEq

/-- The result of a failure, after some notices. -/
def Failure.result (f : Failure) (notices : List Notice) (files : FileTree) : Result :=
  ⟨f.exitStatus, "", notices ++ [.failure f], files⟩

/-! ## Reading -/

/-- What is said of an event that was read: how it is named, how it binds, and
what it holds beyond its kind. -/
def Event.description (e : Event) : Record :=
  .ofMembers
    [("type", .string e.header.eventType), ("kind", .string e.kind.name),
      ("known", .bool e.kind.isKnown), ("extras", .array (e.extras.keys.map .string)),
      ("payload", e.toJson)]

def readOnce (view : LogView) (files : FileTree) (input : Stream) : Result :=
  let notices := view.notices (Payload.logEntries input)
  match Event.ofInput files input with
  | .error d => (Failure.payload d).result notices files
  | .ok e => ⟨0, e.description.toJson.text ++ "\n", notices, files⟩

/-! ## Hosting -/

namespace Hosting

/-- The sink of a kind in a hooks home. -/
def sink (kind : SinkKind) (home : HooksHome) : Sink :=
  match kind with
  | .eventLog => ⟨kind, home.eventLog⟩
  | .toolCalls => ⟨kind, home.toolCalls⟩

def openingEntry (kind : SinkKind) (home : HooksHome) : Log.Entry :=
  ⟨.info, Log.commandLineTarget, "hosting hook events from stdin",
    [("sink", .text kind.logName), ("home", .text home.root)]⟩

def closingEntry (s : Summary) : Log.Entry :=
  ⟨.info, Log.commandLineTarget, "hook input closed",
    [("dispatched", .count s.dispatched), ("skipped", .count s.skipped),
      ("handler_failures", .count s.handlerFailures)]⟩

/-- The entries of the log that a run leaves. -/
def entries (trace : List Occurrence) : List Log.Entry := trace.filterMap Occurrence.logEntry?

theorem entries_append (t u : List Occurrence) : entries (t ++ u) = entries t ++ entries u :=
  List.filterMap_append

def run (view : LogView) (kind : SinkKind) (home : HooksHome) (files : FileTree)
    (input : Stream) : Result :=
  let outcome := Host.run (sink kind home).handler input ⟨files, ()⟩
  let all := openingEntry kind home :: entries outcome.trace ++ [closingEntry outcome.summary]
  ⟨0, "", view.notices all, outcome.world.files⟩

/-! A run can also be followed while it goes on: what is shown before its lines,
what each line leads to, and what is shown at its end. -/

def opening (view : LogView) (kind : SinkKind) (home : HooksHome) : List Notice :=
  view.notices [openingEntry kind home]

/-- Where a run is after some of its lines, and what it has shown of them. -/
structure Progress where
  summary : Summary
  files : FileTree
  notices : List Notice

/-- What one more line leads to, with what is shown of this line. -/
def takeLine (view : LogView) (sink : Sink) (s : Summary) (files : FileTree) (line : Bytes) :
    Progress :=
  let outcome := Host.takeLine sink.handler (s.linesRead + 1) line ⟨files, ()⟩
  ⟨s.count outcome.verdict, outcome.world.files, view.notices (entries outcome.trace)⟩

def ending (view : LogView) (fault : Option String) (s : Summary) : List Notice :=
  view.notices (entries (Host.closing fault s) ++ [closingEntry s])

end Hosting

/-! ## Commands -/

/-- Runs a command, whose log is shown in some way and whose hooks home is to be
at a path. -/
def Command.run (command : Command) (view : LogView) (root : String) (i : Invocation) : Result :=
  match command with
  | .read => readOnce view i.files i.input
  | .host kind =>
    match HooksHome.prepare i.files root with
    | (files, .error fault) => (Failure.home fault).result [] files
    | (files, .ok home) => Hosting.run view kind home files i.input

/-- The path of the hooks home: the one that is set, else one below the home of
the user. -/
def Settings.homeFor (s : Settings) (userHome : Option String) : String :=
  s.hooksHome.getD (HooksHome.defaultRoot userHome)

/-- The path of the hooks home of a user whose account has no home. -/
def Settings.homePath (s : Settings) (env : Environment) : String := s.homeFor (env.userHome none)

/-! ## Whole runs -/

/-- What an invocation comes to before anything is done: a command with its
settings, a text, or a failure. -/
inductive Plan (Φ : Type) where
  | run (command : Command) (settings : Settings) (filter : Φ)
  | display (text : String)
  | fail (failure : Failure)
deriving DecidableEq

namespace Readers

variable {Φ : Type} (r : Readers Φ) (i : Invocation)

/-- What the arguments behind the settings flags ask for. -/
def requestOf : Except Refusal Request := r.request (Settings.split i.arguments).2

/-- The settings that the flags in front of the command, the variables and the
files give. -/
def settingsOf : Except Refusal Settings :=
  r.settings (Settings.split i.arguments).1 i.environment i.files

/-- Plans an invocation: faults of the command come before those of the
settings. -/
def plan : Plan Φ :=
  match r.requestOf i with
  | .error refusal => .fail (refusal.failure .arguments)
  | .ok (.display text) => .display text
  | .ok (.run command) =>
    match r.settingsOf i with
    | .error refusal => .fail (refusal.failure .settings)
    | .ok settings =>
      match r.filter settings.logFilter with
      | .error refusal => .fail (refusal.failure .filter)
      | .ok filter => .run command settings filter

/-- How the log of a command is shown: entries name the command only if the
filter shows its invocation. -/
def logView (filter : Φ) (format : Log.Format) (command : Command) : LogView :=
  let span : Log.Span := ⟨command.name⟩
  ⟨r.shows filter span, format, if r.showsSpan filter span then some span else none⟩

/-- The path of the hooks home that an invocation with some settings uses. -/
def homePath (s : Settings) : String := s.homeFor (r.userHome i.environment)

def run : Result :=
  match r.plan i with
  | .run command settings filter =>
    command.run (r.logView filter settings.logFormat command) (r.homePath i settings) i
  | .display text => ⟨0, text, [], i.files⟩
  | .fail failure => failure.result [] i.files

end Readers

namespace Invocation

/-- The paths of the files that the plan of an invocation may depend on, as far
as its files tell. -/
def settingsFiles (i : Invocation) : List String :=
  Settings.filePaths (Settings.split i.arguments).1 i.environment i.files

/-! What an invocation comes to for a user whose account has no home. -/

def plan (i : Invocation) : Plan Log.Filter := (Readers.own none).plan i

def run (i : Invocation) : Result := (Readers.own none).run i

end Invocation

end AgentHooks
