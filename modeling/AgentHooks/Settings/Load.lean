/-
Loading settings: a file under the variables, and these under the flags.

A flag and a variable may name a settings file each, and the first one that can
be used counts.  The file of the flag has to be there, the other one need not.
All that is wrong is gathered before loading fails.
-/
import AgentHooks.Settings.Environment
import AgentHooks.Settings.File
import AgentHooks.Settings.Flags

namespace AgentHooks.Settings

/-- What can be wrong when settings are loaded. -/
inductive LoadFault where
  | badFlags (fault : CommandLine.UsageFault)
  /-- The flags ask for help, which settings have none of. -/
  | helpWanted
  | badFile (fault : SourceFault)
  | badValue (fault : ValueFault)
deriving DecidableEq

def LoadFault.message : LoadFault → String
  | badFlags fault => "Failed to parse command-line arguments: " ++ fault.message
  | helpWanted => "Failed to parse command-line arguments: " ++ synopsis
  | badFile fault => fault.message
  | badValue fault => mergeMessage fault.message

/-- Why settings cannot be loaded. -/
inductive LoadFailure where
  | faults (first : LoadFault) (more : List LoadFault)
  /-- The text of a variable was to be cut inside of a character. -/
  | badCut (fault : Text.CutFault)
deriving DecidableEq

namespace LoadFailure

/-- The failure of some faults with another one after them. -/
def ofLast (all : List LoadFault) (last : LoadFault) : LoadFailure :=
  match all with
  | [] => faults last []
  | first :: more => faults first (more ++ [last])

/-- The text of a failure; several faults stand below a heading, each with its
number. -/
def message : LoadFailure → String
  | faults first [] => first.message
  | faults first more =>
    let lines := (first :: more).mapIdx fun i fault => s!"{i + 1}: {fault.message}"
    String.intercalate "\n" ("multiple configuration errors:" :: lines)
  | badCut fault => fault.message

end LoadFailure

/-! ## All sources -/

/-- The settings files that flags and variables ask for, each once.  A variable
without text asks for none. -/
def sources (given : CommandLine.Given) (env : Environment) : List Source :=
  let byFlag := given.get? fileFlagName
  let byVariable := (env.get? fileVariable).filter fun path => path ≠ "" ∧ byFlag ≠ some path
  byFlag.toList.map (⟨·, true⟩) ++ byVariable.toList.map (⟨·, false⟩)

/-- The values of flags and what is wrong with the flags; then they have no
values. -/
def readFlags (flags : List String) : CommandLine.Given × List LoadFault :=
  match grammar.read flags with
  | .ok (.flags given) => (given, [])
  | .ok _ => ([], [.helpWanted])
  | .error fault => ([], [.badFlags fault])

/-- The paths of the settings files that flags and variables ask for, and of
those that these extend as far as they are known. -/
def filePaths (flags : List String) (env : Environment) (files : FileTree) : List String :=
  (sources (readFlags flags).1 env).flatMap fun s => lineage files s.path

/-- The settings that flags give over variables over the file that is found, if
nothing is wrong with them. -/
def loadOver (flags : List String) (env : Environment) (byVariables : Layer) (files : FileTree) :
    Except LoadFailure Settings :=
  let (given, flagFaults) := readFlags flags
  let search := Search.ofSources files (sources given env)
  let layer := (Layer.ofFlags given).above (byVariables.above (search.layer.getD .empty))
  match layer.settings, flagFaults ++ search.allFaults.map .badFile with
  | .ok settings, [] => .ok settings
  | .ok _, first :: more => .error (.faults first more)
  | .error fault, faults => .error (.ofLast faults (.badValue fault))

/-- The settings that flags, variables and files give.  A variable that cannot
be read ends the loading at once. -/
def load (flags : List String) (env : Environment) (files : FileTree) :
    Except LoadFailure Settings :=
  match Layer.ofEnvironment env with
  | .error fault => .error (.badCut fault)
  | .ok byVariables => loadOver flags env byVariables files

end AgentHooks.Settings
