/-
The flags of the settings.

They stand in front of the command.  `splitBy` takes them off the arguments
without judging them, and their own grammar reads them afterwards.
-/
import AgentHooks.CommandLine.Grammar
import AgentHooks.Settings.Basic

namespace AgentHooks.Settings

open CommandLine

def fileFlagName : String := "config-path"

def filterFlagName : String := "log-filter"

def formatFlagName : String := "log-format"

def homeFlagName : String := "hooks-home"

def flagNames : List String := [fileFlagName, filterFlagName, formatFlagName, homeFlagName]

def grammar : Grammar where
  flags :=
    [⟨fileFlagName, none, .value ⟨"PATH", .path⟩⟩,
      ⟨filterFlagName, some 'l', .value ⟨"LOG_FILTER", .text⟩⟩,
      ⟨formatFlagName, some 'L',
        .value ⟨"LOG_FORMAT", .word Log.Format.names Log.Format.noSuchFormat⟩⟩,
      ⟨homeFlagName, some 'H', .value ⟨"HOOKS_HOME", .text⟩⟩,
      ⟨"help", some 'h', .help⟩]
  commands := []

/-- The first line of the text that describes the flags. -/
def synopsis : String := "CLI parser struct generated by `OrthoConfig` for `Config`"

/-- How an argument begins a command line. -/
inductive Lead where
  | complete
  | awaiting
  | other
deriving DecidableEq, Repr

/-- The text of a flag in an argument. -/
def flagTexts : List String := flagNames.map ("--" ++ ·)

def Lead.ofArgument (text : String) : Lead :=
  let (flag, value) := splitAtEquals text.toList
  if flagTexts.contains flag then (if value.isSome then complete else awaiting) else other

/-- The settings flags in front of the arguments, with their values, and the
arguments from the first other one on.  Of an argument that is no text itself,
`text` is what it is judged by. -/
def splitBy {α : Type} (text : α → String) : List α → List α × List α
  | [] => ([], [])
  | argument :: rest =>
    match Lead.ofArgument (text argument) with
    | .complete => (argument :: (splitBy text rest).1, (splitBy text rest).2)
    | .awaiting =>
      match rest with
      | [] => ([argument], [])
      | value :: rest => (argument :: value :: (splitBy text rest).1, (splitBy text rest).2)
    | .other => ([], argument :: rest)

/-- The same of arguments that are texts. -/
def split (arguments : List String) : List String × List String := splitBy id arguments

/-- A command line that begins with the name of the program, as two such: one
with the settings flags and one with the command. -/
def splitLine {α : Type} (text : α → String) : List α → List α × List α
  | [] => ([], [])
  | program :: rest => (program :: (splitBy text rest).1, program :: (splitBy text rest).2)

/-- The layer of flags.  A format is entered under its own name. -/
def Layer.ofGiven (given : CommandLine.Given) : Layer where
  logFilter := (given.get? filterFlagName).map .string
  logFormat := ((given.get? formatFlagName).bind Log.Format.ofText?).map (.string ·.name)
  hooksHome := (given.get? homeFlagName).map .string

/-- What flags say.  Flags that do no more than repeat the defaults, each of
them, say nothing. -/
def Layer.ofFlags (given : CommandLine.Given) : Layer :=
  let layer := Layer.ofGiven given
  if layer = .ofSettings default ∧ given.get? fileFlagName = none then .empty else layer

end AgentHooks.Settings
