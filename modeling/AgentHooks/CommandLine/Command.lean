/-
The commands of the program, and the texts that describe them.
-/
import AgentHooks.CommandLine.Grammar
import AgentHooks.Sink

namespace AgentHooks

/-- What the program can be asked to do. -/
inductive Command where
  | host (sink : SinkKind)
  | read
deriving DecidableEq, Repr

/-- What the arguments ask for: a command, or a text. -/
inductive Request where
  | run (command : Command)
  | display (text : String)
deriving DecidableEq, Repr

/-- Why the arguments ask for nothing. -/
inductive CommandFault where
  | usage (fault : CommandLine.UsageFault)
  | noCommand
deriving DecidableEq, Repr

namespace Command

open CommandLine

def name : Command → String
  | host _ => "host"
  | read => "read"

def overview : String :=
  "Runs hooks against agent lifecycle events\n\n" ++
  "Usage: hookline <COMMAND>\n\n" ++
  "Commands:\n" ++
  "  host  Reads host messages from stdin until it closes, dispatching each event to a " ++
  "built-in sink\n" ++
  "  read  Reads one payload or envelope from stdin and prints how it binds\n\n" ++
  "Options:\n" ++
  "  -h, --help     Print help\n" ++
  "  -V, --version  Print version\n"

def versionText : String := "hookline 0.1.0\n"

/-- The start of the text that describes `host`. -/
def hostSynopsis : String :=
  "Reads host messages from stdin until it closes, dispatching each event to a built-in sink\n\n" ++
  "Usage: hookline host [OPTIONS]\n\n" ++
  "Options:\n"

/-- The text that describes `host` at length. -/
def hostHelp : String :=
  hostSynopsis ++
  "      --sink <SINK>\n" ++
  "          Sink receiving the events\n\n" ++
  "          Possible values:\n" ++
  "          - jsonl:        Append every resolved payload to the event log as one JSON line\n" ++
  "          - tool-summary: Append a one-line summary of each finished tool call\n" ++
  "          \n" ++
  "          [default: jsonl]\n\n" ++
  "  -h, --help\n" ++
  "          Print help (see a summary with '-h')\n"

/-- The text that describes `host` in short. -/
def hostSummary : String :=
  hostSynopsis ++
  "      --sink <SINK>  Sink receiving the events [default: jsonl] " ++
  "[possible values: jsonl, tool-summary]\n" ++
  "  -h, --help         Print help (see more with '--help')\n"

/-- The text that describes `read`. -/
def readHelp : String :=
  "Reads one payload or envelope from stdin and prints how it binds\n\n" ++
  "Usage: hookline read\n\n" ++
  "Options:\n" ++
  "  -h, --help  Print help\n"

def helpFlag : Flag := ⟨"help", some 'h', .help⟩

def versionFlag : Flag := ⟨"version", some 'V', .version⟩

/-- The name of the flag that chooses a sink. -/
def sinkFlagName : String := "sink"

def sinkFlag : Flag :=
  ⟨sinkFlagName, none, .value ⟨"SINK", .choice (SinkKind.all.map SinkKind.name)⟩⟩

def grammar : Grammar := ⟨[helpFlag, versionFlag], ["host", "read"]⟩

/-- What may follow `host`. -/
def hostGrammar : Grammar := ⟨[sinkFlag, helpFlag], []⟩

/-- What may follow `read`. -/
def readGrammar : Grammar := ⟨[helpFlag], []⟩

def chosenSink (given : Given) : SinkKind :=
  ((given.get? sinkFlagName).bind SinkKind.ofName?).getD .eventLog

/-- What the arguments after `host` ask for; its grammar has no version and no
command. -/
def ofHostArguments (arguments : List String) : Except CommandFault Request :=
  match hostGrammar.read arguments with
  | .error fault => .error (.usage fault)
  | .ok (.flags given) => .ok (.run (host (chosenSink given)))
  | .ok (.help brief) => .ok (.display (if brief then hostSummary else hostHelp))
  | .ok _ => .error .noCommand

/-- What the arguments after `read` ask for; its grammar has no version and no
command. -/
def ofReadArguments (arguments : List String) : Except CommandFault Request :=
  match readGrammar.read arguments with
  | .error fault => .error (.usage fault)
  | .ok (.flags _) => .ok (.run read)
  | .ok (.help _) => .ok (.display readHelp)
  | .ok _ => .error .noCommand

end Command

def Request.ofArguments (arguments : List String) : Except CommandFault Request :=
  match Command.grammar.read arguments with
  | .error fault => .error (.usage fault)
  | .ok (.command name rest) =>
    if name = "host" then Command.ofHostArguments rest else Command.ofReadArguments rest
  | .ok (.help _) => .ok (.display Command.overview)
  | .ok .version => .ok (.display Command.versionText)
  | .ok (.flags _) => .error .noCommand

/-- The text of a fault; without a command it is the description of the
program. -/
def CommandFault.message : CommandFault → String
  | usage fault => fault.message
  | noCommand => Command.overview

end AgentHooks
