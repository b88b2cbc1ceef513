/-
Settings, and the layers that they are made of.

A layer says for each setting what one source gives for it, if anything.  Laid
over another one, a layer decides what it speaks of and leaves the rest to the
other; whether the values are usable is asked of the result alone.
-/
import AgentHooks.Json.Printer
import AgentHooks.Log.Entry
import AgentHooks.Text.Shown

namespace AgentHooks

/-- What the program can be told before it starts. -/
structure Settings where
  logFilter : String
  logFormat : Log.Format
  hooksHome : Option String
deriving DecidableEq, Repr

def Settings.default : Settings := ⟨"info", .json, none⟩

namespace Settings

/-- What one source says. -/
structure Layer where
  logFilter : Option Json
  logFormat : Option Json
  hooksHome : Option Json
deriving DecidableEq

namespace Layer

def empty : Layer := ⟨none, none, none⟩

/-- The layer of a source that is asked for each setting by its key. -/
def ofLookup (get? : String → Option Json) : Layer :=
  ⟨get? "log_filter", get? "log_format", get? "hooks_home"⟩

def ofSettings (s : Settings) : Layer :=
  ⟨some (.string s.logFilter), some (.string s.logFormat.name), s.hooksHome.map .string⟩

def above (upper lower : Layer) : Layer where
  logFilter := upper.logFilter.or lower.logFilter
  logFormat := upper.logFormat.or lower.logFormat
  hooksHome := upper.hooksHome.or lower.hooksHome

end Layer

/-- A value that a setting cannot have. -/
inductive ValueFault where
  /-- A value of another sort than the one wanted. -/
  | wrongSort (found : Json) (wanted : String)
  | unknownFormat (name : String)
  /-- A table with no member, or with several, where its key should be a name. -/
  | notOneName
deriving DecidableEq

def sortOfNumber : Number → String
  | .whole _ _ => "integer"
  | .float _ => "floating point"

def sortOf : Json → String
  | .null => "null"
  | .bool b => "boolean `" ++ (Json.bool b).text ++ "`"
  | .number n => sortOfNumber n ++ " `" ++ (Json.number n).text ++ "`"
  | .string s => "string " ++ Text.quote s
  | .array _ => "sequence"
  | .object _ => "map"

def ValueFault.message : ValueFault → String
  | wrongSort found wanted => s!"invalid type: {sortOf found}, expected {wanted}"
  | unknownFormat name =>
    let names := Log.Format.names.map fun n => "`" ++ n ++ "`"
    "unknown variant `" ++ name ++ "`, expected " ++ String.intercalate " or " names
  | notOneName => "invalid value: map, expected map with a single key"

/-- What is said when what the sources say cannot be put together. -/
def mergeMessage (detail : String) : String :=
  "Failed to merge CLI with configuration: " ++ detail

/-- The path that a value gives for the home; null gives none. -/
def homeOf : Json → Except ValueFault (Option String)
  | .null => .ok none
  | .string path => .ok (some path)
  | v => .error (.wrongSort v "a UTF-8 path string")

def filterOf : Json → Except ValueFault String
  | .string filter => .ok filter
  | v => .error (.wrongSort v "a string")

def formatNamed (name : String) : Except ValueFault Log.Format :=
  match Log.Format.ofName? name with
  | some f => .ok f
  | none => .error (.unknownFormat name)

/-- The format that a value gives: by its name, or by a table whose one key is
the name and holds null. -/
def formatOf : Json → Except ValueFault Log.Format
  | .string name => formatNamed name
  | .object [(name, v)] => do
    let f ← formatNamed name
    if v = .null then return f else throw (.wrongSort v "unit")
  | .object _ => .error .notOneName
  | v => .error (.wrongSort v "string or map")

def Layer.home (l : Layer) : Except ValueFault (Option String) :=
  (l.hooksHome.map homeOf).getD (.ok default.hooksHome)

def Layer.filter (l : Layer) : Except ValueFault String :=
  (l.logFilter.map filterOf).getD (.ok default.logFilter)

def Layer.format (l : Layer) : Except ValueFault Log.Format :=
  (l.logFormat.map formatOf).getD (.ok default.logFormat)

/-- The settings of a layer over the defaults. -/
def Layer.settings (l : Layer) : Except ValueFault Settings := do
  let hooksHome ← l.home
  let logFilter ← l.filter
  let logFormat ← l.format
  return { logFilter, logFormat, hooksHome }

end Settings

end AgentHooks
