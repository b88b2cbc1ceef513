/-
Settings files, and the search for the one that counts.

A file may extend another one, which it names by a path from its own directory.
What a file says goes over what the file that it extends says, and so on from
file to file; a file that extends itself on the way cannot be used.
-/
import AgentHooks.Files.Tree
import AgentHooks.Settings.Basic
import AgentHooks.Settings.Document

namespace AgentHooks.Settings

/-- Why a settings file cannot be used. -/
inductive SourceCause where
  /-- The file has to be there and is not. -/
  | missing
  | unnamed
  | irregular
  /-- The path cannot be followed, or the file cannot be read. -/
  | unreadable (fault : FileFault)
  | foreign (format : String)
  | malformed (fault : Document.Fault)
  /-- The file extends one that it gives no path of. -/
  | emptyBase
  | circular
deriving DecidableEq, Repr

/-- A settings file that cannot be used. -/
structure SourceFault where
  path : String
  cause : SourceCause
deriving DecidableEq, Repr

/-- What is said of a place in a file. -/
def placeText (line column : Nat) : String :=
  s!"TOML parse error at line {line}, column {column}"

/-- The key of the path of the file that a file extends. -/
def baseKey : String := "extends"

def SourceCause.message : SourceCause → String
  | missing => "required configuration file not found"
  | unnamed => "cannot determine file name for configuration file path"
  | irregular => "configuration path is not a regular file"
  | unreadable fault => fault.message
  | foreign format =>
    s!"{format} feature disabled: enable the '{format}' feature to support this file format"
  | malformed (.badLine number) => placeText number 1
  | malformed (.newMark line column) => placeText line column
  | emptyBase => s!"'{baseKey}' key must be a non-empty string"
  | circular => s!"cyclic {baseKey} detected"

/-- The text of a fault.  A mark that cannot be used shows when the layers are
laid over each other, where files have no names any more. -/
def SourceFault.message (f : SourceFault) : String :=
  match f.cause with
  | .malformed (.newMark line column) => mergeMessage (placeText line column)
  | cause => s!"Configuration file error in '{f.path}': {cause.message}"

/-! ## One file -/

/-- The other format that the end of a file's name stands for, in small
letters. -/
def foreignFormat? (ending : String) : Option String :=
  if ending = "json" ∨ ending = "json5" then some "json5"
  else if ending = "yaml" ∨ ending = "yml" then some "yaml"
  else none

/-- The other format of the file with a name, if it is in one. -/
def foreignFormatOf? (name : String) : Option String :=
  (Path.ending? name).bind fun ending =>
    foreignFormat? (String.ofList (ending.toList.map Text.lowerAscii))

/-- The document that the bytes of the file with a name hold. -/
def documentOfBytes (name : String) (bytes : Bytes) : Except SourceCause Document :=
  match Utf8.decode bytes, foreignFormatOf? name with
  | .error _, _ => .error (.unreadable .notUtf8)
  | .ok _, some format => .error (.foreign format)
  | .ok chars, none =>
    match Document.read chars with
    | .error fault => .error (.malformed fault)
    | .ok d => .ok d

/-- The document at a path, if there is a file.  A path that ends at no name is
refused before it is followed. -/
def documentAt? (files : FileTree) (path : String) : Except SourceFault (Option Document) :=
  match (Path.ofText path).fileName?, files.read path with
  | none, _ => .error ⟨path, .unnamed⟩
  | some _, .error .notFound => .ok none
  | some _, .error .isADirectory => .error ⟨path, .irregular⟩
  | some _, .error fault => .error ⟨path, .unreadable fault⟩
  | some name, .ok bytes =>
    match documentOfBytes name bytes with
    | .error cause => .error ⟨path, cause⟩
    | .ok d => .ok (some d)

/-- What a document says, without the file that it extends. -/
def Document.layer (d : Document) : Layer := .ofLookup fun key => (d.get? key).map .string

/-! ## A file over the one it extends -/

/-- What the file at a path says over what it extends, if there is a file; none
of at most `fuel` files extends another one after these. -/
def layerWithin? (files : FileTree) : (fuel : Nat) → (path : String) →
    Except SourceFault (Option Layer)
  | 0, path => .error ⟨path, .circular⟩
  | fuel + 1, path =>
    match documentAt? files path with
    | .error fault => .error fault
    | .ok none => .ok none
    | .ok (some d) =>
      match d.get? baseKey with
      | none => .ok (some d.layer)
      | some "" => .error ⟨path, .emptyBase⟩
      | some text =>
        match layerWithin? files fuel (Path.relativeTo path text) with
        | .error fault => .error fault
        | .ok none => .error ⟨Path.relativeTo path text, .missing⟩
        | .ok (some base) => .ok (some (d.layer.above base))

/-- The paths of a file and of the files that it extends, one after the other,
as far as they can be read; at most `fuel` of them. -/
def lineageWithin (files : FileTree) : (fuel : Nat) → (path : String) → List String
  | 0, _ => []
  | fuel + 1, path =>
    match documentAt? files path with
    | .ok (some d) =>
      match d.get? baseKey with
      | some text => path :: lineageWithin files fuel (Path.relativeTo path text)
      | none => [path]
    | _ => [path]

/-- The files of a tree at most, and one more: so many files in a row cannot
all be different ones. -/
def lineageLimit (files : FileTree) : Nat := files.entries.length + 1

/-- What the file at a path says over what it extends, if there is a file. -/
def layerAt? (files : FileTree) (path : String) : Except SourceFault (Option Layer) :=
  layerWithin? files (lineageLimit files) path

/-- The paths of a file and of the files that it extends. -/
def lineage (files : FileTree) (path : String) : List String :=
  lineageWithin files (lineageLimit files) path

/-! ## The search -/

/-- A settings file that is asked for. -/
structure Source where
  path : String
  /-- Whether it has to be there. -/
  required : Bool
deriving DecidableEq, Repr

/-- What looking for a settings file comes to. -/
structure Search where
  /-- What the file says that is found. -/
  layer : Option Layer
  /-- What is wrong with files that have to be there. -/
  faults : List SourceFault
  /-- What is wrong with other files. -/
  doubts : List SourceFault
deriving DecidableEq

namespace Search

/-- The search that a fault of a source precedes. -/
def note (s : Source) (fault : SourceFault) (search : Search) : Search :=
  if s.required then { search with faults := fault :: search.faults }
  else { search with doubts := fault :: search.doubts }

/-- The search for the first of some files that can be used. -/
def ofSources (files : FileTree) : List Source → Search
  | [] => ⟨none, [], []⟩
  | s :: rest =>
    match layerAt? files s.path with
    | .ok (some layer) => ⟨some layer, [], []⟩
    | .ok none =>
      if s.required then (ofSources files rest).note s ⟨s.path, .missing⟩
      else ofSources files rest
    | .error fault => (ofSources files rest).note s fault

/-- What is wrong on the whole: files that need not be there count only if none
is found. -/
def allFaults (search : Search) : List SourceFault :=
  if search.layer.isSome then search.faults else search.faults ++ search.doubts

end Search

end AgentHooks.Settings
