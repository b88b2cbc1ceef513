/-
The command line: the outside world around the program.

The program is a function of the files that it sees.  Here the places that a
step may touch are looked up first, the step is computed on them, and what it
has added to the files is then added outside, line by line while the input
goes on.  The steps themselves, and that they make up a run, are the program's.
-/
import AgentHooks.Log.Timestamp
import AgentHooks.Program

namespace AgentHooks.Shell

/-- What is at a path outside.  Where only the end of a file counts, its content
is not read. -/
def observe (contents : Bool) (path : String) : IO (Option Entry) := do
  try
    let real ← IO.FS.realPath path
    if ← real.isDir then return some .directory
    if contents then return some (.file (← IO.FS.readBinFile real).toList)
    return some (.file [])
  catch _ => return none

def textOf (l : Location) : String :=
  match l with
  | [] => "."
  | n :: ns => if n = Location.rootName then "/" ++ "/".intercalate ns else "/".intercalate l

def next (l : Location) (name : String) : Location :=
  if name = "." then l else if name = ".." then l.above else l ++ [name]

/-- Looks up the places on the way of a path. -/
def lookUp (contents : Bool) (files : FileTree) (path : String) : IO FileTree := do
  let p := Path.ofText path
  let mut place := Location.start p
  let mut files := files
  for name in p.names do
    place := next place name
    unless place.isGiven do
      if let some entry ← observe contents (textOf place) then
        files := files.set place entry
  return files

/-- Looks up the files at paths that may be read. -/
def lookUpFiles (paths : List String) : IO FileTree := paths.foldlM (lookUp true) .empty

/-- An invocation with the files that its plan may depend on: files that are
looked up may ask for further ones. -/
partial def lookUpSettings (i : Invocation) : IO Invocation := do
  let files ← i.settingsFiles.foldlM (lookUp true) i.files
  if files = i.files then return i
  lookUpSettings { i with files }

/-- Adds to a file outside, which is made when it is missing. -/
def appendOutside (path : String) (bytes : Bytes) : IO Unit := do
  let handle ← IO.FS.Handle.mk path .append
  handle.write ⟨bytes.toArray⟩
  handle.flush

/-- Does outside what a step has done to the files. -/
def commit (before after : FileTree) : IO Unit := do
  for (place, entry) in after.entries do
    match before.get? place, entry with
    | none, .directory => IO.FS.createDir (textOf place)
    | none, .file new => appendOutside (textOf place) new
    | some (.file old), .file new =>
      if old.length < new.length then appendOutside (textOf place) (new.drop old.length)
    | some _, _ => pure ()

/-- The first number after a word in a text. -/
def numberAfter (word text : String) : Nat :=
  let fields := text.splitToList Text.isBlank
  (((fields.dropWhile (· != word)).drop 1).head?.bind (Text.natural? ·.toList)).getD 0

/-- The time: the start of the machine and the hundredths of a second since. -/
def now : IO Log.Timestamp := do
  try
    let started := numberAfter "btime" (← IO.FS.readFile "/proc/stat")
    let running := (← IO.FS.readFile "/proc/uptime").toList.takeWhile (· != ' ')
    let hundredths := Text.digitsValue (running.filter Text.isDigit)
    return ⟨started * 1000000000 + hundredths * 10000000⟩
  catch _ => return ⟨0⟩

def process : IO Nat := do
  try
    let path := (← IO.FS.realPath "/proc/self").toString
    return ((path.splitToList (· == '/')).getLast?.bind (Text.natural? ·.toList)).getD 0
  catch _ => return 0

def surroundings : IO Environment := do
  try
    let entries := Text.cut (· == 0) (← IO.FS.readBinFile "/proc/self/environ").toList
    return entries.filterMap fun entry =>
      let (name, value) := CommandLine.splitAtEquals (Utf8.decodeLossy entry)
      value.map (name, ·)
  catch _ => return []

/-- The home that the database of accounts has for a user, by the user's number. -/
def homeOf (accounts : String) (user : Nat) : Option String :=
  (accounts.splitToList (· == '\n')).findSome? fun account =>
    match account.splitToList (· == ':') with
    | [_, _, number, _, _, home, _] =>
      if Text.natural? number.toList = some user ∧ home ≠ "" then some home else none
    | _ => none

def accountHome : IO (Option String) := do
  try
    let user := numberAfter "Uid:" (← IO.FS.readFile "/proc/self/status")
    return homeOf (← IO.FS.readFile "/etc/passwd") user
  catch _ => return none

def report (process : Nat) (notices : List Notice) : IO Unit := do
  for notice in notices do
    IO.eprintln (notice.line ⟨(← now).toText, process⟩)

/-- Writes what a finished step leaves, and gives its exit status. -/
def finish (process : Nat) (r : Result) : IO UInt32 := do
  report process r.notices
  IO.print r.output
  (← IO.getStdout).flush
  return UInt32.ofNat r.exitStatus

/-- Reads to the end of a line or of the input; without a fault an empty line
is the end. -/
partial def readLine (input : IO.FS.Stream) (line : Array UInt8) : IO (Except String Bytes) := do
  let read ← try pure (Except.ok (← input.read 1)) catch e => pure (Except.error (toString e))
  match read with
  | .error detail => return .error detail
  | .ok bytes =>
    match bytes.toList with
    | [] => return .ok line.toList
    | b :: _ =>
      if b = Text.lineFeed then return .ok (line.push b).toList else readLine input (line.push b)

/-- Reads to the end of the input. -/
partial def readAll (input : IO.FS.Stream) (bytes : Bytes) : IO Stream := do
  match ← readLine input #[] with
  | .error detail => return ⟨bytes, some detail⟩
  | .ok [] => return ⟨bytes, none⟩
  | .ok line => readAll input (bytes ++ line)

/-- Reads line by line, and does outside what each line leads to. -/
partial def hostLines (process : Nat) (view : LogView) (sink : Sink) (input : IO.FS.Stream)
    (s : Summary) : IO Unit := do
  match ← readLine input #[] with
  | .error detail => report process (Hosting.ending view (some detail) s)
  | .ok [] => report process (Hosting.ending view none s)
  | .ok line =>
    let before ← lookUp false (← lookUpFiles (Host.namedFile? line).toList) sink.path
    let after := Hosting.takeLine view sink s before line
    commit before after.files
    report process after.notices
    hostLines process view sink input after.summary

def host (process : Nat) (view : LogView) (kind : SinkKind) (root : String) : IO UInt32 := do
  let before ← lookUp false .empty root
  match HooksHome.prepare before root with
  | (after, .error fault) =>
    commit before after
    finish process ((Failure.home fault).result [] after)
  | (after, .ok home) =>
    commit before after
    report process (Hosting.opening view kind home)
    hostLines process view (Hosting.sink kind home) (← IO.getStdin) .zero
    return 0

/-- Reads one payload from the input and describes it. -/
def read (process : Nat) (view : LogView) : IO UInt32 := do
  let input ← readAll (← IO.getStdin) []
  let named :=
    match Payload.envelopeOf input with
    | .ok envelope => Envelope.payloadPath? envelope
    | .error _ => none
  finish process (readOnce view (← lookUpFiles named.toList) input)

def run (arguments : List String) : IO UInt32 := do
  let process ← process
  let environment ← surroundings
  let i ← lookUpSettings ⟨arguments, environment, .empty, ⟨[], none⟩⟩
  let readers := Readers.own (← accountHome)
  match readers.plan i with
  | .run command settings filter =>
    let view := readers.logView filter settings.logFormat command
    match command with
    | .read => read process view
    | .host kind => host process view kind (readers.homePath i settings)
  | _ => finish process (readers.run i)

end AgentHooks.Shell

def main (arguments : List String) : IO UInt32 := AgentHooks.Shell.run arguments
