/-
Appending to the file at a path.

`Opens t text place` says that the file at a path can be opened for appending,
and at which place it is.  What is appended is added to the bytes at that place
(`Opens.append_eq`), and nothing is appended otherwise (`append_eq_error`).
Appended bytes do not change where a path leads, so that a file can be opened
again (`Opens.set`), and are what is read there afterwards (`Opens.read_set`).
-/
import AgentHooks.Files.Tree

namespace AgentHooks

theorem Path.eq_ofText_of_check {text : String} {p : Path} (h : check text = .ok p) :
    p = ofText text := by
  unfold check at h
  split at h
  · cases h
  split at h
  · cases h
  split at h
  · cases h
  · cases h
    rfl

namespace FileTree

/-! ## The bytes at a place -/

/-- The bytes of the file at a place; there are none where there is no file. -/
def bytesAt (t : FileTree) (place : Location) : Bytes :=
  match t.get? place with
  | some (.file content) => content
  | _ => []

/-- The bytes of the file at a path; there are none when it cannot be read. -/
def contentOf (t : FileTree) (text : String) : Bytes :=
  match t.read text with
  | .ok content => content
  | .error _ => []

theorem isGiven_eq_false {t : FileTree} {place : Location}
    (h : t.get? place ≠ some .directory) : place.isGiven = false := by
  cases hgiven : place.isGiven with
  | false => rfl
  | true =>
      refine absurd ?_ h
      rw [get?, hgiven]
      rfl

theorem place_place (l : Location) (e e' : Entry) (xs : List (Location × Entry)) :
    FileTree.place l e' (FileTree.place l e xs) = FileTree.place l e' xs := by
  induction xs with
  | nil => simp [FileTree.place]
  | cons x xs ih =>
      rw [FileTree.place]
      split
      · rename_i heq
        simp [FileTree.place, heq]
      · rename_i hne
        simp [FileTree.place, hne, ih]

/-- Of two entries that are put at one place the later one counts. -/
theorem set_set (t : FileTree) (l : Location) (e e' : Entry) : (t.set l e).set l e' = t.set l e' :=
  congrArg FileTree.mk (place_place l e e' t.entries)

/-! ## Opening -/

/-- The file at a path can be opened for appending: the path leads to a place
where there is a file, or nothing yet. -/
structure Opens (t : FileTree) (text : String) (place : Location) : Prop where
  check : Path.check text = .ok (.ofText text)
  target : t.target (.ofText text) = .ok (.named place)
  noSlash : (Path.ofText text).trailingSlash = false
  short : lastTooLong place = false
  free : t.get? place ≠ some .directory

/-- A directory cannot be opened. -/
theorem not_opens_of_directory {t : FileTree} {text : String} {l : Location}
    (htarget : t.target (.ofText text) = .ok (.named l)) (hdirectory : t.get? l = some .directory)
    (place : Location) : ¬ t.Opens text place := by
  intro h
  have heq := htarget.symm.trans h.target
  cases heq
  exact h.free hdirectory

section Opens

variable {t : FileTree} {text : String} {place : Location}

/-- A file that can be opened is there, or there is nothing in its place. -/
theorem Opens.entry (h : t.Opens text place) :
    t.get? place = none ∨ ∃ content, t.get? place = some (.file content) := by
  cases hentry : t.get? place with
  | none => exact .inl rfl
  | some entry =>
      cases entry with
      | directory => exact absurd hentry h.free
      | file content => exact .inr ⟨content, rfl⟩

/-- What is appended is added to the bytes of the file that was opened. -/
theorem Opens.append_eq (h : t.Opens text place) (bytes : Bytes) :
    t.append text bytes = .ok (t.set place (.file (t.bytesAt place ++ bytes))) := by
  simp only [append, h.check, h.target, h.noSlash, h.short, Bool.false_eq_true, if_false]
  rcases h.entry with hentry | ⟨content, hentry⟩
  · simp only [bytesAt, hentry, List.nil_append]
  · simp only [bytesAt, hentry]

/-- Nothing can be appended where no file can be opened. -/
theorem exists_opens_of_append {t' : FileTree} {bytes : Bytes}
    (h : t.append text bytes = .ok t') : ∃ place, t.Opens text place := by
  unfold append at h
  split at h
  · cases h
  rename_i p hcheck
  obtain rfl := Path.eq_ofText_of_check hcheck
  split at h
  · cases h
  · cases h
  rename_i l htarget
  split at h
  · cases h
  rename_i hslash
  split at h
  · cases h
  rename_i hshort
  refine ⟨l, hcheck, htarget, Bool.not_eq_true _ ▸ hslash, Bool.not_eq_true _ ▸ hshort, ?_⟩
  intro hdirectory
  rw [hdirectory] at h
  cases h

theorem append_eq_error (h : ∀ place, ¬ t.Opens text place) (bytes : Bytes) :
    ∃ fault, t.append text bytes = .error fault := by
  cases happend : t.append text bytes with
  | error fault => exact ⟨fault, rfl⟩
  | ok t' =>
      obtain ⟨place, hopens⟩ := exists_opens_of_append happend
      exact absurd hopens (h place)

/-! ## Reading -/

/-- The file that is opened has the bytes that are read at the path. -/
theorem Opens.contentOf_eq (h : t.Opens text place) : t.contentOf text = t.bytesAt place := by
  simp only [contentOf, read, h.check, contentAt, find, h.target, h.short, h.noSlash,
    Bool.false_eq_true, if_false]
  rcases h.entry with hentry | ⟨content, hentry⟩
  · simp only [bytesAt, hentry]
  · simp only [bytesAt, hentry]

end Opens

/-! ## Ways through a tree -/

/-- Every directory of a tree is one of another tree too. -/
def KeepsDirectories (t t' : FileTree) : Prop :=
  ∀ place, t.get? place = some .directory → t'.get? place = some .directory

namespace KeepsDirectories

variable {t t' : FileTree} (h : t.KeepsDirectories t')

include h

theorem enter {l next : Location} {name : String} (hnext : t.enter l name = .ok next) :
    t'.enter l name = .ok next := by
  unfold FileTree.enter at hnext ⊢
  split at hnext
  · rename_i hhere
    rw [if_pos hhere]
    exact hnext
  rename_i hhere
  rw [if_neg hhere]
  split at hnext
  · rename_i habove
    rw [if_pos habove]
    exact hnext
  rename_i habove
  rw [if_neg habove]
  split at hnext
  · cases hnext
  rename_i hlong
  rw [if_neg hlong]
  split at hnext
  · cases hnext
  · cases hnext
  · rename_i hdirectory
    rw [h _ hdirectory]
    exact hnext

theorem walk {names : List String} {l last : Location} (hlast : t.walk l names = .ok last) :
    t'.walk l names = .ok last := by
  induction names generalizing l with
  | nil => exact hlast
  | cons n ns ih =>
      unfold FileTree.walk at hlast ⊢
      cases hnext : t.enter l n with
      | error fault =>
          rw [hnext] at hlast
          cases hlast
      | ok next =>
          rw [hnext] at hlast
          rw [h.enter hnext]
          exact ih hlast

/-- A path leads where it led before. -/
theorem target {p : Path} {target : Target} (htarget : t.target p = .ok target) :
    t'.target p = .ok target := by
  unfold FileTree.target at htarget ⊢
  split at htarget
  · exact htarget
  · rename_i last hlast
    cases hwalk : t.walk (.start p) p.names.dropLast with
    | error fault =>
        rw [hwalk] at htarget
        cases htarget
    | ok l =>
        rw [hwalk] at htarget
        simp only [h.walk hwalk]
        exact htarget

end KeepsDirectories

section Set

variable {t : FileTree} {place : Location} (hfree : t.get? place ≠ some .directory)
  (content : Bytes)

include hfree

theorem get?_set_file (k : Location) :
    (t.set place (.file content)).get? k = if k = place then some (.file content) else t.get? k :=
  get?_set t place (.file content) k (isGiven_eq_false hfree)

theorem bytesAt_set_file : (t.set place (.file content)).bytesAt place = content := by
  rw [bytesAt, get?_set_file hfree, if_pos rfl]

theorem keepsDirectories_set_file : t.KeepsDirectories (t.set place (.file content)) := by
  intro k hk
  have hne : k ≠ place := by
    intro heq
    exact hfree (heq ▸ hk)
  rw [get?_set_file hfree, if_neg hne, hk]

end Set

section Opens

variable {t : FileTree} {text : String} {place : Location}

/-- A file can be opened again, at the same place, after it was written. -/
theorem Opens.set (h : t.Opens text place) (content : Bytes) :
    (t.set place (.file content)).Opens text place where
  check := h.check
  target := (keepsDirectories_set_file h.free content).target h.target
  noSlash := h.noSlash
  short := h.short
  free := by
    rw [get?_set_file h.free, if_pos rfl]
    exact nofun

end Opens

end FileTree

end AgentHooks
