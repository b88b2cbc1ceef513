/-
Filters: which entries of the log are shown.

A filter is a list of directives with commas between them.  A directive shows
entries up to a level, for every target or for the targets whose name starts
with a given text; of the directives that cover a target the one with the
longest text decides, and of two for the same text the later one.

Directives for spans and fields, in full `target[span{field=value}]=level`, are
left out: a bracket or a brace is a character like any other here.  How runs end
and what hosting leaves is therefore proved for every reading of filters.
-/
import AgentHooks.Log.Entry
import AgentHooks.Text.Alphanumeric
import AgentHooks.Text.Characters
import AgentHooks.Text.Pieces
import AgentHooks.Text.Utf8

namespace AgentHooks.Log

/-- The last level that is shown; without one nothing is. -/
abbrev Bound := Option Level

namespace Bound

/-- Every bound by its name; its place in the list is its number. -/
def named : List (String × Bound) :=
  [("off", none), ("error", some .error), ("warn", some .warn), ("info", some .info),
    ("debug", some .debug), ("trace", some .trace)]

/-- The number that a text spells; a plus may stand in front. -/
def number? (s : String) : Option Nat :=
  match s.toList with
  | '+' :: cs => Text.natural? cs
  | cs => Text.natural? cs

/-- The bound that a text gives by name, in any case of its letters, or by
number. -/
def ofText? (s : String) : Option Bound :=
  match number? s with
  | some n => named[n]?.map (·.2)
  | none => (named.find? fun b => Text.sameIgnoringAsciiCase b.1 s).map (·.2)

def allows (bound : Bound) (level : Level) : Bool :=
  match bound with
  | none => false
  | some last => level.rank ≤ last.rank

end Bound

/-- What a filter says of the targets that start with a text, or of all, whatever
the span and the fields. -/
structure Directive where
  target : Option String
  bound : Bound
deriving DecidableEq, Repr

/-- Why a text is no filter. -/
inductive FilterFault where
  | notADirective
  | notABound
  /-- A directive was to be cut inside of a character. -/
  | badCut (fault : Text.CutFault)
deriving DecidableEq, Repr

def FilterFault.message : FilterFault → String
  | .notADirective => "invalid filter directive"
  | .notABound =>
    "error parsing level filter: expected one of \"off\", \"error\", \"warn\", \"info\", " ++
      "\"debug\", \"trace\", or a number 0-5"
  | .badCut fault => fault.message

namespace Directive

/-- A character with which a directive may start. -/
def mayStart (c : Char) : Bool := c == '-' || c == ':' || c == '_' || Text.isAlphanumeric c

/-- A directive without an equals sign: a bound for all targets, or a target of
which everything is shown. -/
def ofWord (word : String) : Directive :=
  match Bound.ofText? word with
  | some bound => ⟨none, bound⟩
  | none => ⟨some word, some .trace⟩

/-- A text cut before and after its equals sign, which is at a place. -/
def cutAround (place : Nat) (cs : List Char) : Except Text.CutFault (List Char × List Char) := do
  let (target, _) ← Text.cutAtByte place cs
  let (_, level) ← Text.cutAtByte (place + 1) cs
  return (target, level)

/-- The directive of a target and the text of a bound; without a text everything
is shown. -/
def ofParts (target level : List Char) : Except FilterFault Directive :=
  if level = [] then .ok ⟨some (String.ofList target), some .trace⟩
  else
    match Bound.ofText? (String.ofList level) with
    | some bound => .ok ⟨some (String.ofList target), bound⟩
    | none => .error .notABound

/-- The directive that a text without brackets spells.  Blanks count: they are part of a target
or of a bound.  The place of the equals sign is that in the text without blanks
around it, so behind blanks the text is cut too early. -/
def parse (text : String) : Except FilterFault Directive :=
  let cs := Text.trim text.toList
  if ¬ cs.head?.any mayStart then .error .notADirective
  else if ¬ cs.contains '=' then .ok (ofWord text)
  else
    match cutAround (Utf8.encodeChars (cs.takeWhile (· != '='))).length text.toList with
    | .error fault => .error (.badCut fault)
    | .ok (target, level) => ofParts target level

def covers (d : Directive) (target : String) : Bool :=
  match d.target with
  | none => true
  | some start => start.toList.isPrefixOf target.toList

/-- How closely a directive describes the targets it covers. -/
def weight (d : Directive) : Nat :=
  match d.target with
  | none => 0
  | some start => start.length + 1

/-- Of two directives the one that describes its targets more closely, or the
second. -/
def closer (best : Option Directive) (d : Directive) : Option Directive :=
  match best with
  | some b => if d.weight < b.weight then some b else some d
  | none => some d

end Directive

/-- A filter. -/
structure Filter where
  directives : List Directive
deriving DecidableEq, Repr

namespace Filter

/-- The directives that texts spell, unless one of them spells none. -/
def parseAll : List String → Except FilterFault (List Directive)
  | [] => .ok []
  | t :: ts =>
    match Directive.parse t with
    | .error f => .error f
    | .ok d => (parseAll ts).map (d :: ·)

/-- The filter that a text spells; empty directives are left out, and a text
without other ones shows nothing. -/
def parse (text : String) : Except FilterFault Filter :=
  (parseAll ((Text.cutText ',' text).filter (· ≠ ""))).map Filter.mk

def directiveFor? (f : Filter) (target : String) : Option Directive :=
  (f.directives.filter (·.covers target)).foldl Directive.closer none

/-- Whether entries of a level and a target are shown. -/
def allows (f : Filter) (level : Level) (target : String) : Bool :=
  (f.directiveFor? target).any (·.bound.allows level)

def shows (f : Filter) (e : Entry) : Bool := f.allows e.level e.target

end Filter

end AgentHooks.Log
