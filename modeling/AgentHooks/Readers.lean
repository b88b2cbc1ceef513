/-
What other parts decide for the program.

Libraries say what arguments ask for, which settings flags, variables and files
give, what a text means as a filter of the log, and where the home of the user
is.  The program is a function of their answers, whatever these are (`Readers`).

`Readers.own` are the readers that the program runs with here.  Of two forms they
read a part alone: a filter has no directives for spans and fields, and a
settings file has no members but texts in plain quotes.
-/
import AgentHooks.CommandLine.Command
import AgentHooks.Log.Filter
import AgentHooks.Log.Layout
import AgentHooks.Settings.Home
import AgentHooks.Settings.Load

namespace AgentHooks

/-- Why a reader gives no answer. -/
inductive Refusal where
  | refused (message : String)
  /-- The reader broke off halfway, and the program with it. -/
  | brokeOff (message : String)
deriving DecidableEq, Repr

/-- The parts that decide before a command starts.  A filter is a `Φ`; what it
shows of an entry may depend on the invocation that the entry belongs to. -/
structure Readers (Φ : Type) where
  request : List String → Except Refusal Request
  settings : List String → Environment → FileTree → Except Refusal Settings
  filter : String → Except Refusal Φ
  /-- Whether a filter shows an invocation. -/
  showsSpan : Φ → Log.Span → Bool
  shows : Φ → Log.Span → Log.Entry → Bool
  /-- The home of the user, if one is known. -/
  userHome : Environment → Option String

/-! ## The readers of this program -/

def CommandFault.refusal (fault : CommandFault) : Refusal := .refused fault.message

/-- A text that cannot be cut at a place breaks its reader off. -/
def Settings.LoadFailure.refusal : Settings.LoadFailure → Refusal
  | .badCut fault => .brokeOff fault.message
  | failure => .refused failure.message

def Log.FilterFault.refusal : Log.FilterFault → Refusal
  | .badCut fault => .brokeOff fault.message
  | fault => .refused fault.message

/-- The home of the user: the one that the variable names, or else the one of
the account.  A variable without text names none. -/
def Environment.userHome (env : Environment) (account : Option String) : Option String :=
  ((env.get? "HOME").filter (· ≠ "")).or account

/-- The readers that the program runs with, for a user whose account has a home
or has none. -/
def Readers.own (account : Option String) : Readers Log.Filter where
  request arguments := (Request.ofArguments arguments).mapError CommandFault.refusal
  settings flags env files := (Settings.load flags env files).mapError Settings.LoadFailure.refusal
  filter text := (Log.Filter.parse text).mapError Log.FilterFault.refusal
  showsSpan filter _ := filter.allows .info Log.invocationTarget
  shows filter _ := filter.shows
  userHome env := env.userHome account

end AgentHooks
