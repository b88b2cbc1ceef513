/-
Making directories.

A directory is made with its missing parents, and nothing else happens: every
place has what it had, or there was nothing and now there is a directory, and
then the path passes this place (`OnlyMakes`), and no name on the way is too long.  So
the bytes of all files stay, and all paths lead where they led.  The main result is
`HooksHome.prepare_makes`.
-/
import AgentHooks.Proofs.Files.Append
import AgentHooks.Settings.Home

namespace AgentHooks

/-! ## The places that a path passes -/

namespace Location

/-- The place that a name leads to. -/
def step (l : Location) (name : String) : Location :=
  if name = "." then l else if name = ".." then l.above else l ++ [name]

/-- The place that names lead to, one after the other. -/
def follow (l : Location) (names : List String) : Location := names.foldl step l

theorem follow_cons (l : Location) (n : String) (ns : List String) :
    l.follow (n :: ns) = (l.step n).follow ns := rfl

theorem follow_concat (l : Location) (ns : List String) (n : String) :
    l.follow (ns ++ [n]) = (l.follow ns).step n := by
  rw [follow, List.foldl_append]
  rfl

/-- Names that say "here" lead nowhere. -/
theorem follow_filter (l : Location) (names : List String) :
    l.follow (names.filter (· ≠ ".")) = l.follow names := by
  induction names generalizing l with
  | nil => rfl
  | cons n ns ih =>
      by_cases hhere : n = "."
      · subst hhere
        exact ih l
      · rw [List.filter_cons_of_pos (by simpa using hhere), follow_cons, follow_cons, ih]

theorem exists_prefix_of_prefix_filter {names ns : List String}
    (h : names <+: ns.filter (· ≠ ".")) :
    ∃ names', names' <+: ns ∧ ∀ l : Location, l.follow names = l.follow names' := by
  obtain ⟨names', hpre, rfl⟩ := List.prefix_filter_iff.mp h
  exact ⟨names', hpre, fun l => l.follow_filter names'⟩

/-- A place that can be there: no name is too long. -/
def Short (l : Location) : Prop := ∀ name ∈ l, name.utf8ByteSize ≤ Path.nameLimit

theorem short_start (p : Path) : (start p).Short := by
  unfold start
  split
  · intro name hname
    rw [List.mem_singleton.mp hname]
    decide
  · exact nofun

theorem short_concat {l : Location} {name : String} (h : l.Short)
    (hname : name.utf8ByteSize ≤ Path.nameLimit) : Short (l ++ [name]) := by
  intro n hn
  rcases List.mem_append.mp hn with hn | hn
  · exact h n hn
  · rwa [List.mem_singleton.mp hn]

theorem short_above {l : Location} (h : l.Short) : l.above.Short := by
  unfold above
  split
  · exact h
  split
  · exact short_concat h (by decide)
  · intro n hn
    exact h n ((List.dropLast_prefix l).subset hn)

end Location

namespace Path

/-- The place at the end of a path. -/
def place (p : Path) : Location := (Location.start p).follow p.names

/-- Whether the last name of a path says "here". -/
def EndsHere (p : Path) : Prop := p.names.getLast? = some "."

instance (p : Path) : Decidable p.EndsHere := inferInstanceAs (Decidable (_ = _))

/-- A place that can be made for a path without its parents: the one at its end. -/
def MakesEnd (p : Path) (l : Location) : Prop := l = p.place ∧ l.Short ∧ ¬ p.EndsHere

/-- A path passes the places that its first names lead to, and the one at its
end. -/
def Passes (p : Path) (l : Location) : Prop :=
  ∃ names, names <+: p.names ∧ l = (Location.start p).follow names

/-- The plain names of a path lead where its names lead, step by step. -/
theorem exists_prefix_of_plainNames {p : Path} {names : List String}
    (h : names <+: p.plainNames) :
    ∃ names', names' <+: p.names ∧
      (Location.start p).follow names = (Location.start p).follow names' := by
  unfold plainNames at h
  split at h
  · rw [List.prefix_nil.mp h]
    exact ⟨[], List.nil_prefix, rfl⟩
  rename_i n ns hnames
  rw [hnames]
  split at h
  · cases names with
    | nil => exact ⟨[], List.nil_prefix, rfl⟩
    | cons m ms =>
        obtain ⟨rfl, hrest⟩ := List.cons_prefix_cons.mp h
        obtain ⟨names', hpre, hfollow⟩ := Location.exists_prefix_of_prefix_filter hrest
        exact ⟨m :: names', List.cons_prefix_cons.mpr ⟨rfl, hpre⟩, hfollow _⟩
  · obtain ⟨names', hpre, hfollow⟩ := Location.exists_prefix_of_prefix_filter h
    exact ⟨names', hpre, hfollow _⟩

/-- A path passes its end and the ends of its parents. -/
theorem passes_of_mem_ancestors {p q : Path} (h : q ∈ p.ancestors) : p.Passes q.place := by
  rcases List.mem_cons.mp h with rfl | h
  · exact ⟨q.names, List.prefix_rfl, rfl⟩
  · obtain ⟨n, -, rfl⟩ := List.mem_map.mp h
    obtain ⟨names, hpre, hfollow⟩ := exists_prefix_of_plainNames (p := p) (List.take_prefix n _)
    exact ⟨names, hpre, hfollow⟩

end Path

namespace FileTree

/-! ## Where a path leads -/

theorem eq_step_of_enter {t : FileTree} {l next : Location} {name : String}
    (h : t.enter l name = .ok next) : next = l.step name := by
  unfold enter at h
  unfold Location.step
  split at h
  · rename_i hhere
    rw [if_pos hhere]
    exact (Except.ok.inj h).symm
  rename_i hhere
  rw [if_neg hhere]
  split at h
  · rename_i habove
    rw [if_pos habove]
    exact (Except.ok.inj h).symm
  rename_i habove
  rw [if_neg habove]
  split at h
  · cases h
  split at h
  · cases h
  · cases h
  · exact (Except.ok.inj h).symm

theorem eq_follow_of_walk {t : FileTree} {names : List String} {l last : Location}
    (h : t.walk l names = .ok last) : last = l.follow names := by
  induction names generalizing l with
  | nil => exact (Except.ok.inj h).symm
  | cons n ns ih =>
      unfold walk at h
      cases hnext : t.enter l n with
      | error fault =>
          rw [hnext] at h
          cases h
      | ok next =>
          rw [hnext] at h
          rw [Location.follow_cons, ← eq_step_of_enter hnext]
          exact ih h

theorem short_of_enter {t : FileTree} {l next : Location} {name : String} (hl : l.Short)
    (h : t.enter l name = .ok next) : next.Short := by
  unfold enter at h
  split at h
  · cases h
    exact hl
  split at h
  · cases h
    exact Location.short_above hl
  split at h
  · cases h
  rename_i hshort
  split at h
  · cases h
  · cases h
  · cases h
    exact Location.short_concat hl (Nat.not_lt.mp hshort)

/-- No name on the way to a directory is too long. -/
theorem short_of_walk {t : FileTree} {names : List String} {l last : Location} (hl : l.Short)
    (h : t.walk l names = .ok last) : last.Short := by
  induction names generalizing l with
  | nil =>
      cases h
      exact hl
  | cons n ns ih =>
      unfold walk at h
      cases hnext : t.enter l n with
      | error fault =>
          rw [hnext] at h
          cases h
      | ok next =>
          rw [hnext] at h
          exact ih (short_of_enter hl hnext) h

/-- If a path leads to a name, this is the name at its end, and only that name can be too
long. -/
theorem makes_of_target {t : FileTree} {p : Path} {l : Location}
    (h : t.target p = .ok (.named l)) (hshort : lastTooLong l = false) : p.MakesEnd l := by
  unfold FileTree.target at h
  split at h
  · cases h
  rename_i last hlast
  obtain ⟨names, hnames⟩ := List.getLast?_eq_some_iff.mp hlast
  cases hwalk : t.walk (.start p) p.names.dropLast with
  | error fault =>
      rw [hwalk] at h
      cases h
  | ok parent =>
      rw [hwalk] at h
      rw [hnames, List.dropLast_concat] at hwalk
      simp only at h
      split at h
      · cases h
      rename_i hplain
      obtain ⟨hhere, habove⟩ := not_or.mp hplain
      cases h
      refine ⟨?_, ?_, ?_⟩
      · rw [Path.place, hnames, Location.follow_concat, ← eq_follow_of_walk hwalk, Location.step,
          if_neg hhere, if_neg habove]
      · refine Location.short_concat (short_of_walk (Location.short_start p) hwalk) ?_
        simpa [lastTooLong] using hshort
      · rw [Path.EndsHere, hlast, Option.some.injEq]
        exact hhere

/-! ## Nothing but new directories -/

/-- A tree after directories were made in it, at places of some kind: every
place has what it had, or it had nothing and has a directory now. -/
def OnlyMakes (made : Location → Prop) (t t' : FileTree) : Prop :=
  ∀ l, t'.get? l = t.get? l ∨ t.get? l = none ∧ t'.get? l = some .directory ∧ made l

namespace OnlyMakes

variable {made : Location → Prop} {t t' t'' : FileTree}

theorem refl (made : Location → Prop) (t : FileTree) : OnlyMakes made t t := fun _ => .inl rfl

theorem trans (h : OnlyMakes made t t') (h' : OnlyMakes made t' t'') :
    OnlyMakes made t t'' := by
  intro l
  rcases h l with hl | ⟨hnone, hdirectory, hmade⟩
  · rw [← hl]
    exact h' l
  · refine .inr ⟨hnone, ?_, hmade⟩
    rcases h' l with hl | ⟨hnone', -, -⟩
    · rw [hl, hdirectory]
    · rw [hdirectory] at hnone'
      cases hnone'

theorem mono {made' : Location → Prop} (h : OnlyMakes made t t') (hle : ∀ l, made l → made' l) :
    OnlyMakes made' t t' := by
  intro l
  rcases h l with hl | ⟨hnone, hdirectory, hmade⟩
  · exact .inl hl
  · exact .inr ⟨hnone, hdirectory, hle l hmade⟩

theorem keepsDirectories (h : OnlyMakes made t t') : t.KeepsDirectories t' := by
  intro l hl
  rcases h l with hsame | ⟨-, hdirectory, -⟩
  · rw [hsame, hl]
  · exact hdirectory

/-- The bytes of all files stay. -/
theorem bytesAt_eq (h : OnlyMakes made t t') (l : Location) : t'.bytesAt l = t.bytesAt l := by
  rcases h l with hsame | ⟨hnone, hdirectory, -⟩
  · rw [bytesAt, bytesAt, hsame]
  · rw [bytesAt, bytesAt, hnone, hdirectory]

end OnlyMakes

/-! ## Directories at paths -/

theorem isDirectory_iff {t : FileTree} {p : Path} :
    t.isDirectory p = true ↔ t.target p = .ok .here ∨
      ∃ l, t.target p = .ok (.named l) ∧ lastTooLong l = false ∧ t.get? l = some .directory := by
  unfold isDirectory find
  cases t.target p with
  | error fault => simp
  | ok target =>
      cases target with
      | here => simp
      | named l =>
          cases hlong : lastTooLong l with
          | true => simp [hlong]
          | false =>
              rcases hentry : t.get? l with _ | _ | content
              · simp [hlong, hentry]
              · simp [hlong, hentry]
              · cases p.trailingSlash <;> simp [hlong, hentry]

theorem KeepsDirectories.isDirectory {t t' : FileTree} (h : t.KeepsDirectories t') {p : Path}
    (hp : t.isDirectory p = true) : t'.isDirectory p = true := by
  rw [isDirectory_iff] at hp ⊢
  rcases hp with hhere | ⟨l, htarget, hshort, hdirectory⟩
  · exact .inl (h.target hhere)
  · exact .inr ⟨l, h.target htarget, hshort, h l hdirectory⟩

theorem makeDirectory_makes {t t' : FileTree} {p : Path} (h : t.makeDirectory p = .ok t') :
    OnlyMakes p.MakesEnd t t' ∧ t'.isDirectory p = true := by
  unfold makeDirectory at h
  split at h
  · cases h
  · cases h
  rename_i l htarget
  split at h
  · cases h
  rename_i hlong
  have hshort : lastTooLong l = false := Bool.not_eq_true _ ▸ hlong
  split at h
  · cases h
  rename_i hfree
  cases h
  have hset (k : Location) :
      (t.set l .directory).get? k = if k = l then some .directory else t.get? k := by
    refine get?_set t l .directory k (isGiven_eq_false (t := t) ?_)
    rw [hfree]
    exact nofun
  have hmakes : OnlyMakes p.MakesEnd t (t.set l .directory) := by
    intro k
    rw [hset]
    split
    · rename_i heq
      exact .inr ⟨heq ▸ hfree, rfl, heq ▸ makes_of_target htarget hshort⟩
    · exact .inl rfl
  have hdirectory : (t.set l .directory).get? l = some .directory := by
    rw [hset, if_pos rfl]
  exact ⟨hmakes, isDirectory_iff.mpr (.inr
    ⟨l, hmakes.keepsDirectories.target htarget, hshort, hdirectory⟩)⟩

theorem ensureDirectory_makes {t t' : FileTree} {p : Path} (h : t.ensureDirectory p = .ok t') :
    OnlyMakes p.MakesEnd t t' ∧ t'.isDirectory p = true := by
  unfold ensureDirectory at h
  split at h
  · split at h
    · rename_i hdirectory
      cases h
      exact ⟨.refl _ t, hdirectory⟩
    · cases h
  · exact makeDirectory_makes h

/-- Directories are made at the ends of the paths and nowhere else, also when a
fault ends the making; without a fault the first path ends at a directory. -/
theorem ensureAll_makes {ps : List Path} {t t' : FileTree} {fault : Option FileFault}
    (h : ensureAll ps t = (t', fault)) :
    OnlyMakes (fun l => ∃ p ∈ ps, p.MakesEnd l) t t' ∧
      (fault = none → ∀ p ∈ ps.head?, t'.isDirectory p = true) := by
  induction ps generalizing t t' fault with
  | nil =>
      cases h
      exact ⟨.refl _ t, fun _ => nofun⟩
  | cons p parents ih =>
      have hone {s s' : FileTree} (hs : s.ensureDirectory p = .ok s') :
          OnlyMakes (fun l => ∃ q ∈ p :: parents, q.MakesEnd l) s s' := by
        refine (ensureDirectory_makes hs).1.mono ?_
        intro l hl
        exact ⟨p, List.mem_cons_self, hl⟩
      have hall {s' : FileTree} {f : Option FileFault} (hs : ensureAll parents t = (s', f)) :
          OnlyMakes (fun l => ∃ q ∈ p :: parents, q.MakesEnd l) t s' := by
        refine (ih hs).1.mono ?_
        rintro l ⟨q, hq, hl⟩
        exact ⟨q, List.mem_cons_of_mem p hq, hl⟩
      have hdirectory {s s' : FileTree} (hs : s.ensureDirectory p = .ok s') :
          ∀ q ∈ (p :: parents).head?, s'.isDirectory q = true := by
        rintro q hq
        cases hq
        exact (ensureDirectory_makes hs).2
      unfold ensureAll at h
      split at h
      · rename_i hp
        cases h
        exact ⟨hone hp, fun _ => hdirectory hp⟩
      · split at h
        · rename_i hparents
          cases h
          exact ⟨hall hparents, nofun⟩
        rename_i t₁ hparents
        split at h
        · rename_i hp
          cases h
          exact ⟨(hall hparents).trans (hone hp), fun _ => hdirectory hp⟩
        · cases h
          exact ⟨hall hparents, nofun⟩
      · cases h
        exact ⟨.refl _ t, nofun⟩

/-- Making a directory with its missing parents makes directories that the path
passes, and nothing else; without a fault there is a directory at its end. -/
theorem ensureDirectories_makes {t t' : FileTree} {text : String} {fault : Option FileFault}
    (h : t.ensureDirectories text = (t', fault)) :
    OnlyMakes (Path.ofText text).Passes t t' ∧
      (fault = none → text = "" ∨ t'.isDirectory (.ofText text) = true) := by
  unfold ensureDirectories at h
  split at h
  · rename_i hempty
    cases h
    exact ⟨.refl _ t, fun _ => .inl hempty⟩
  split at h
  · cases h
    exact ⟨.refl _ t, nofun⟩
  rename_i p hcheck
  obtain rfl := Path.eq_ofText_of_check hcheck
  obtain ⟨hmakes, hdirectory⟩ := ensureAll_makes h
  refine ⟨hmakes.mono ?_, fun hnone => .inr (hdirectory hnone _ rfl)⟩
  rintro l ⟨q, hq, rfl, -, -⟩
  exact Path.passes_of_mem_ancestors hq

end FileTree

/-- A hooks home that could be prepared is a directory, the current one if its
path is empty; it was made with its missing parents, and nothing else was. -/
theorem HooksHome.prepare_makes {files files' : FileTree} {root : String} {home : HooksHome}
    (h : prepare files root = (files', .ok home)) :
    home = ofRoot root ∧ FileTree.OnlyMakes (Path.ofText root).Passes files files' ∧
      (root = "" ∨ files'.isDirectory (.ofText root) = true) := by
  unfold prepare at h
  split at h
  · rename_i hensure
    cases h
    obtain ⟨hmakes, hdirectory⟩ := FileTree.ensureDirectories_makes hensure
    exact ⟨rfl, hmakes, hdirectory rfl⟩
  · cases h

end AgentHooks
