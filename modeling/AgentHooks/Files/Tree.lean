/-
The files that a program sees.

A tree holds a directory or the bytes of a file for every place that it knows.
Every operation follows a path name by name and either changes one place or
fails with the fault of the first name that cannot be followed.
-/
import AgentHooks.Files.Path
import AgentHooks.Text.Utf8

namespace AgentHooks

/-- What is at a place. -/
inductive Entry where
  | directory
  | file (content : Bytes)
deriving DecidableEq, Repr

/-- The known places and what is there, each place once. -/
structure FileTree where
  entries : List (Location × Entry)
deriving DecidableEq, Repr

namespace FileTree

def empty : FileTree := ⟨[]⟩

def get? (t : FileTree) (l : Location) : Option Entry :=
  if l.isGiven then some .directory else (t.entries.find? (·.1 == l)).map (·.2)

/-- Puts an entry at a place, instead of the one that is there if there is one. -/
def place (l : Location) (e : Entry) : List (Location × Entry) → List (Location × Entry)
  | [] => [(l, e)]
  | x :: xs => if x.1 = l then (l, e) :: xs else x :: place l e xs

/-- The tree with an entry at a place. -/
def set (t : FileTree) (l : Location) (e : Entry) : FileTree := ⟨place l e t.entries⟩

theorem find?_place (l : Location) (e : Entry) (xs : List (Location × Entry)) (k : Location) :
    (place l e xs).find? (·.1 == k) = if k = l then some (l, e) else xs.find? (·.1 == k) := by
  induction xs with
  | nil =>
    by_cases h : k = l
    · simp [place, h]
    · simp [place, h, Ne.symm h]
  | cons x xs ih =>
    rw [place]
    split
    · rename_i heq
      by_cases h : k = l
      · simp [h]
      · have : x.1 ≠ k := fun e => h (e ▸ heq)
        simp [h, Ne.symm h, this]
    · rename_i hne
      by_cases h : x.1 = k
      · have : ¬ k = l := fun e => hne (h.trans e)
        simp [h, this]
      · simp [h, ih]

/-- After an entry is put at a place, that place holds it and every other place
what it held before. -/
theorem get?_set (t : FileTree) (l : Location) (e : Entry) (k : Location)
    (h : l.isGiven = false) : (t.set l e).get? k = if k = l then some e else t.get? k := by
  unfold get? set
  rw [find?_place]
  by_cases hk : k = l
  · simp [hk, h]
  · simp [hk]

/-- The place that a name leads to from a directory, which must be a directory
as well. -/
def enter (t : FileTree) (l : Location) (name : String) : Except FileFault Location :=
  if name = "." then .ok l
  else if name = ".." then .ok l.above
  else if Path.nameLimit < name.utf8ByteSize then .error .nameTooLong
  else
    match t.get? (l ++ [name]) with
    | none => .error .notFound
    | some (.file _) => .error .notADirectory
    | some .directory => .ok (l ++ [name])

/-- The directory that names lead to, one after the other. -/
def walk (t : FileTree) (l : Location) : List String → Except FileFault Location
  | [] => .ok l
  | n :: ns =>
    match t.enter l n with
    | .error f => .error f
    | .ok next => t.walk next ns

/-- Where a path ends: at a directory that is there in any case, or at a name in
a directory. -/
inductive Target where
  | here
  | named (place : Location)
deriving DecidableEq, Repr

/-- Follows a path up to its last name. -/
def target (t : FileTree) (p : Path) : Except FileFault Target :=
  match p.names.getLast? with
  | none => .ok .here
  | some last =>
    match t.walk (.start p) p.names.dropLast with
    | .error f => .error f
    | .ok l => .ok (if last = "." ∨ last = ".." then .here else .named (l ++ [last]))

/-- Whether the last name of a place is too long. -/
def lastTooLong (l : Location) : Bool :=
  l.getLast?.any fun name => Path.nameLimit < name.utf8ByteSize

/-- What is at the end of a path. -/
def find (t : FileTree) (p : Path) : Except FileFault Entry :=
  match t.target p with
  | .error f => .error f
  | .ok .here => .ok .directory
  | .ok (.named l) =>
    if lastTooLong l then .error .nameTooLong
    else
      match t.get? l with
      | none => .error .notFound
      | some (.file content) =>
        if p.trailingSlash then .error .notADirectory else .ok (.file content)
      | some .directory => .ok .directory

/-- Whether a directory is at the end of a path. -/
def isDirectory (t : FileTree) (p : Path) : Bool :=
  match t.find p with
  | .ok .directory => true
  | _ => false

/-- The bytes of the file at the end of a path. -/
def contentAt (t : FileTree) (p : Path) : Except FileFault Bytes :=
  match t.find p with
  | .error f => .error f
  | .ok .directory => .error .isADirectory
  | .ok (.file content) => .ok content

/-- The bytes of the file at a path. -/
def read (t : FileTree) (text : String) : Except FileFault Bytes :=
  match Path.check text with
  | .error f => .error f
  | .ok p => t.contentAt p

/-- Appends bytes to the file at a path, which is created when it is missing. -/
def append (t : FileTree) (text : String) (bytes : Bytes) : Except FileFault FileTree :=
  match Path.check text with
  | .error f => .error f
  | .ok p =>
    match t.target p with
    | .error f => .error f
    | .ok .here => .error .isADirectory
    | .ok (.named l) =>
      if p.trailingSlash then .error .isADirectory
      else if lastTooLong l then .error .nameTooLong
      else
        match t.get? l with
        | some .directory => .error .isADirectory
        | some (.file content) => .ok (t.set l (.file (content ++ bytes)))
        | none => .ok (t.set l (.file bytes))

/-- Makes a directory at the end of a path, in a directory that is there. -/
def makeDirectory (t : FileTree) (p : Path) : Except FileFault FileTree :=
  match t.target p with
  | .error f => .error f
  | .ok .here => .error .alreadyExists
  | .ok (.named l) =>
    if lastTooLong l then .error .nameTooLong
    else
      match t.get? l with
      | some _ => .error .alreadyExists
      | none => .ok (t.set l .directory)

def ensureDirectory (t : FileTree) (p : Path) : Except FileFault FileTree :=
  match t.makeDirectory p with
  | .error .alreadyExists => if t.isDirectory p then .ok t else .error .alreadyExists
  | r => r

/-- Makes the first of some paths a directory, each of the others being the
parent of the one before it.  Parents are made only when they are missing, and
stay when a later step fails. -/
def ensureAll : List Path → FileTree → FileTree × Option FileFault
  | [], t => (t, none)
  | p :: parents, t =>
    match t.ensureDirectory p with
    | .ok t₁ => (t₁, none)
    | .error .notFound =>
      match ensureAll parents t with
      | (t₁, some f) => (t₁, some f)
      | (t₁, none) =>
        match t₁.ensureDirectory p with
        | .ok t₂ => (t₂, none)
        | .error f => (t₁, some f)
    | .error f => (t, some f)

/-- Makes the directory at a path and its missing parents.  The empty path is
the current directory. -/
def ensureDirectories (t : FileTree) (text : String) : FileTree × Option FileFault :=
  if text = "" then (t, none)
  else
    match Path.check text with
    | .error f => (t, some f)
    | .ok p => ensureAll p.ancestors t

/-- A tree with an entry at a place and directories above it; a place that is
there in any case stays as it is. -/
def put (t : FileTree) (l : Location) (e : Entry) : FileTree :=
  let parents := (List.range l.length).map l.take
  if l.isGiven then t
  else (parents.foldl (fun t p => if (t.get? p).isSome then t else t.set p .directory) t).set l e

/-- A tree without the entry at a place. -/
def remove (t : FileTree) (l : Location) : FileTree := ⟨t.entries.filter (·.1 != l)⟩

end FileTree

end AgentHooks
