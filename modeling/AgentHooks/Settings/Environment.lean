/-
Environment variables, and the settings in them.

The variable of a setting is its key after a fixed start, in any case of the
letters.  A name may go on after the key: then its further parts, each after a
dot or two underscores, are the keys of tables, one inside the other, and the
text of the variable stands for the innermost value.
-/
import AgentHooks.Settings.Basic
import AgentHooks.Settings.Variable

namespace AgentHooks

abbrev Environment := List (String × String)

namespace Environment

/-- The value of a variable; of two with one name the later one counts. -/
def get? (env : Environment) (name : String) : Option String :=
  (env.reverse.find? (·.1 == name)).map (·.2)

end Environment

namespace Settings

def variableStart : String := "HOOKLINE_"

def fileVariable : String := "HOOKLINE_CONFIG_PATH"

/-- A name with a dot for every two underscores. -/
def withDots : List Char → List Char
  | '_' :: '_' :: cs => '.' :: withDots cs
  | c :: cs => c :: withDots cs
  | [] => []

/-- The keys that the name of a variable spells, if it is that of a setting and
none of them is empty. -/
def keysOfName? (name : String) : Option (List String) :=
  let cs := Text.trim name.toList
  let start := String.ofList (cs.take variableStart.length)
  let keys := Text.cut (· == '.')
    ((Text.trim (withDots (cs.drop variableStart.length))).map Text.lowerAscii)
  if Text.sameIgnoringAsciiCase start variableStart ∧ [] ∉ keys then
    some (keys.map String.ofList)
  else none

/-- The value under some keys, as tables one inside the other. -/
def nest (keys : List String) (v : Json) : Json :=
  keys.foldr (fun key v => (Record.ofMembers [(key, v)]).toJson) v

/-- What a variable says: a value, and the keys that lead to it. -/
structure Assignment where
  keys : List String
  value : Json
deriving DecidableEq

/-- What an assignment gives for a setting, if it is one of that setting. -/
def Assignment.valueFor? (a : Assignment) (key : String) : Option Json :=
  match a.keys with
  | first :: inner => if first = key then some (nest inner a.value) else none
  | [] => none

/-- What all variables with names of settings say, also the ones that say
nothing of a setting that there is. -/
def assignments : Environment → Except Text.CutFault (List Assignment)
  | [] => .ok []
  | (name, text) :: env =>
    match keysOfName? name with
    | none => assignments env
    | some keys => do
      let value ← Variable.value text
      let more ← assignments env
      return ⟨keys, value⟩ :: more

/-- The layer of some assignments; of several for one setting the last one
counts. -/
def Layer.ofAssignments (all : List Assignment) : Layer :=
  .ofLookup fun key => all.reverse.findSome? (·.valueFor? key)

def Layer.ofEnvironment (env : Environment) : Except Text.CutFault Layer :=
  (assignments env).map .ofAssignments

end Settings

end AgentHooks
