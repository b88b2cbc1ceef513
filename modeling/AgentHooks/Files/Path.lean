/-
Paths as they are written, and the places they may lead to.

A path is a text; `Path` is its names in order, with what the first and the
last slash say.  A `Location` is a place without detours: the names from the
current directory, or from the root when the first one is the root's.
-/
import AgentHooks.Text.Pieces

namespace AgentHooks

/-- Why a path cannot be used. -/
inductive FileFault where
  | notFound
  | alreadyExists
  | notADirectory
  | isADirectory
  | nameTooLong
  | nulInPath
  | notUtf8
deriving DecidableEq, Repr

def FileFault.message : FileFault → String
  | .notFound => "No such file or directory (os error 2)"
  | .alreadyExists => "File exists (os error 17)"
  | .notADirectory => "Not a directory (os error 20)"
  | .isADirectory => "Is a directory (os error 21)"
  | .nameTooLong => "File name too long (os error 36)"
  | .nulInPath => "file name contained an unexpected NUL byte"
  | .notUtf8 => "stream did not contain valid UTF-8"

/-- A path: whether it starts at the root, its names, and whether a slash
follows the last of them. -/
structure Path where
  absolute : Bool
  names : List String
  trailingSlash : Bool
deriving DecidableEq, Repr

namespace Path

def lengthLimit : Nat := 4095

def nameLimit : Nat := 255

def ofText (text : String) : Path where
  absolute := text.toList.head? == some '/'
  names := (Text.cutText '/' text).filter (· ≠ "")
  trailingSlash := text.toList.getLast? == some '/'

/-- The path that a text spells, when a text like this can be one. -/
def check (text : String) : Except FileFault Path :=
  if text.toList.contains '\x00' then .error .nulInPath
  else if text = "" then .error .notFound
  else if lengthLimit < text.utf8ByteSize then .error .nameTooLong
  else .ok (ofText text)

/-- The names without those that say "here"; only at the start of a relative
path such a name counts. -/
def plainNames (p : Path) : List String :=
  match p.names with
  | [] => []
  | n :: ns =>
    if n = "." ∧ ¬ p.absolute then n :: ns.filter (· ≠ ".") else (n :: ns).filter (· ≠ ".")

/-- The path itself and then the paths of its parents, each shorter than the
one before, down to a single name. -/
def ancestors (p : Path) : List Path :=
  let plain := p.plainNames
  p :: ((List.range plain.length).reverse.filter (0 < ·)).map fun n =>
    ⟨p.absolute, plain.take n, false⟩

/-- The name of the file that a path ends at, if it ends at a name. -/
def fileName? (p : Path) : Option String :=
  p.plainNames.getLast?.filter fun name => name ≠ "." ∧ name ≠ ".."

/-- The part of a name after its last dot; a dot in front begins no such
part. -/
def ending? (name : String) : Option String :=
  match (Text.cutText '.' name).reverse with
  | last :: rest => if rest = [] ∨ rest = [""] then none else some last
  | [] => none

/-- The text of a path as it is meant in a file at another path: it starts at
the directory of that file. -/
def relativeTo (file text : String) : String :=
  if text.toList.head? = some '/' then text
  else String.ofList (Text.upToLast (· == '/') file.toList) ++ text

/-- The text of a path with one more name. -/
def join (text name : String) : String :=
  if text = "" ∨ text.toList.getLast? = some '/' then text ++ name else text ++ "/" ++ name

end Path

/-- A place: the names that lead to it. -/
abbrev Location := List String

namespace Location

def rootName : String := "/"

def start (p : Path) : Location := if p.absolute then [rootName] else []

/-- The places that exist whatever a tree holds: the current directory, the
root, and what lies above the current directory. -/
def isGiven (l : Location) : Bool := l == [rootName] || l.all (· == "..")

/-- The place above.  Above the root is the root. -/
def above (l : Location) : Location :=
  if l = [rootName] then l else if l.all (· == "..") then l ++ [".."] else l.dropLast

end Location

end AgentHooks
