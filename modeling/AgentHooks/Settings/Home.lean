/-
The hooks home: the directory that the sinks write to.
-/
import AgentHooks.Files.Tree

namespace AgentHooks

/-- The directory below the user's home that is used unless another is set. -/
def defaultHomeName : String := ".hookline"

def eventLogName : String := "hooks.jsonl"

def toolCallsName : String := "hooks-tool-calls.log"

/-- A hooks home that exists: its path and the paths of the files in it. -/
structure HooksHome where
  root : String
  eventLog : String
  toolCalls : String
deriving DecidableEq, Repr

/-- The hooks home could not be made. -/
structure HomeFault where
  path : String
  fault : FileFault
deriving DecidableEq, Repr

def HomeFault.message (f : HomeFault) : String :=
  s!"failed to prepare hooks home '{f.path}': {f.fault.message}"

namespace HooksHome

def ofRoot (root : String) : HooksHome where
  root
  eventLog := Path.join root eventLogName
  toolCalls := Path.join root toolCallsName

/-- The hooks home at a path, and the files once it exists or once the attempt
has failed. -/
def prepare (files : FileTree) (root : String) : FileTree × Except HomeFault HooksHome :=
  match files.ensureDirectories root with
  | (files, none) => (files, .ok (ofRoot root))
  | (files, some fault) => (files, .error ⟨root, fault⟩)

/-- The path of the hooks home when none is set: below the user's home, or the
current directory when there is no such home. -/
def defaultRoot (userHome : Option String) : String :=
  match userHome with
  | some home => Path.join home defaultHomeName
  | none => "."

end HooksHome

end AgentHooks
