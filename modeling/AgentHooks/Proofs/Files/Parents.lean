/-
Parents that are made one after the other.

`Attempt` says how making one directory ends, by where the names of its path lead.  Where
something is missing on the way, the parents are made first, the shortest path first, and
`MadeTo` says what comes of it when no file is in the way: every place on the way up to the
first name that is too long is a directory.  It holds for a path if it holds for the
parents before it (`madeTo_cons`), so it holds for all of them (`madeTo_chain`).  Where a
file is in the way, nothing is made at all (`ensureAll_of_not_free`).
-/
import AgentHooks.Proofs.Files.Hierarchy

namespace AgentHooks

namespace FileTree

open Location (start)

/-! ## One directory -/

section One

variable {t : FileTree} {p : Path}

theorem target_concat {ns : List String} {last : String} (hnames : p.names = ns ++ [last])
    {l : Location} (hwalk : t.walk (start p) ns = .ok l) :
    t.target p = .ok (if last = "." ∨ last = ".." then .here else .named (l ++ [last])) := by
  simp only [target, hnames, List.getLast?_concat, List.dropLast_concat, hwalk]

theorem lastTooLong_concat (l : Location) (name : String) :
    lastTooLong (l ++ [name]) = decide (Path.nameLimit < name.utf8ByteSize) := by
  simp [lastTooLong]

/-- A path ends at a directory when its names lead to one. -/
theorem isDirectory_iff_walk (hup : ".." ∉ p.names) :
    t.isDirectory p = true ↔ ∃ l, t.walk (start p) p.names = .ok l := by
  rw [isDirectory_iff]
  rcases List.eq_nil_or_concat p.names with hnames | ⟨ns, last, hnames⟩
  · refine iff_of_true (.inl ?_) ⟨start p, by rw [hnames]; rfl⟩
    simp only [target, hnames, List.getLast?_nil]
  rw [List.concat_eq_append] at hnames
  rw [hnames] at hup
  have hlast : last ≠ ".." := fun h => hup (h ▸ List.mem_append_right _ List.mem_cons_self)
  rw [hnames, walk_append]
  cases hwalk : t.walk (start p) ns with
  | error fault => simp [target, hnames, hwalk, Except.bind]
  | ok l =>
      rw [target_concat hnames hwalk]
      simp only [Except.bind, walk_singleton]
      by_cases hhere : last = "."
      · rw [if_pos (.inl hhere), hhere, enter_here]
        exact iff_of_true (.inl rfl) ⟨l, rfl⟩
      · rw [if_neg (not_or.mpr ⟨hhere, hlast⟩), t.enter_plain l hhere hlast]
        by_cases hlong : Path.nameLimit < last.utf8ByteSize
        · simp [lastTooLong_concat, hlong]
        · rcases hentry : t.get? (l ++ [last]) with _ | _ | content <;>
            simp [lastTooLong_concat, hlong, hentry]

theorem ensureDirectory_of_isDirectory (h : t.isDirectory p = true) :
    t.ensureDirectory p = .ok t := by
  have hmake : t.makeDirectory p = .error .alreadyExists := by
    rcases isDirectory_iff.mp h with htarget | ⟨l, htarget, hshort, hdirectory⟩
    · simp only [makeDirectory, htarget]
    · simp only [makeDirectory, htarget, hshort, hdirectory, Bool.false_eq_true, if_false]
  simp only [ensureDirectory, hmake, h, if_true]

/-- A fault on the way to the parent is what making a directory ends with. -/
theorem ensureDirectory_of_parent {fault : FileFault}
    (h : t.walk (start p) p.names.dropLast = .error fault) :
    t.ensureDirectory p = .error fault := by
  have htarget : t.target p = .error fault := by
    unfold target
    split
    · rename_i hnone
      rw [List.getLast?_eq_none_iff.mp hnone] at h
      cases h
    · rw [h]
  have hmake : t.makeDirectory p = .error fault := by simp only [makeDirectory, htarget]
  have hdirectory : t.isDirectory p = false := by simp only [isDirectory, find, htarget]
  rw [ensureDirectory, hmake]
  cases fault with
  | alreadyExists => simp only [hdirectory, Bool.false_eq_true, if_false]
  | _ => rfl

theorem ensureDirectory_of_tooLong {ns : List String} {last : String}
    (hnames : p.names = ns ++ [last]) (hhere : last ≠ ".") (hup : last ≠ "..") {l : Location}
    (hparent : t.walk (start p) ns = .ok l) (hlong : Path.nameLimit < last.utf8ByteSize) :
    t.ensureDirectory p = .error .nameTooLong := by
  have htarget := target_concat hnames hparent
  rw [if_neg (not_or.mpr ⟨hhere, hup⟩)] at htarget
  have hmake : t.makeDirectory p = .error .nameTooLong := by
    simp only [makeDirectory, htarget, lastTooLong_concat, hlong, decide_true, if_true]
  rw [ensureDirectory, hmake]

/-- How making one directory ends, by where the names of its path lead. -/
inductive Attempt (t : FileTree) (p : Path) : Prop
  /-- It is there. -/
  | reached {l : Location} (hwalk : t.walk (start p) p.names = .ok l)
      (hresult : t.ensureDirectory p = .ok t)
  /-- It is missing, and so is a parent. -/
  | orphaned (hwalk : t.walk (start p) p.names = .error .notFound)
      (hparent : t.walk (start p) p.names.dropLast = .error .notFound)
      (hresult : t.ensureDirectory p = .error .notFound)
  /-- It was the only one that is missing. -/
  | made {l : Location} {t' : FileTree} (hwalk : t.walk (start p) p.names = .error .notFound)
      (hparent : t.walk (start p) p.names.dropLast = .ok l) (hhere : ¬ p.EndsHere)
      (hresult : t.ensureDirectory p = .ok t')
  /-- The names do not lead anywhere. -/
  | refused {fault fault' : FileFault} (hwalk : t.walk (start p) p.names = .error fault)
      (hfault : fault ≠ .notFound) (hresult : t.ensureDirectory p = .error fault')
      (hfault' : fault' ≠ .notFound)

/-- Where the parent is a directory, the last name decides. -/
theorem attempt_of_parent {ns : List String} {last : String} (hnames : p.names = ns ++ [last])
    (hhere : last ≠ ".") (hup : last ≠ "..") {l : Location}
    (hparent : t.walk (start p) ns = .ok l) : Attempt t p := by
  have htarget := target_concat hnames hparent
  rw [if_neg (not_or.mpr ⟨hhere, hup⟩)] at htarget
  have hwalk : t.walk (start p) p.names = t.enter l last := by
    rw [hnames, walk_append, hparent]
    exact t.walk_singleton l last
  rw [t.enter_plain l hhere hup] at hwalk
  by_cases hlong : Path.nameLimit < last.utf8ByteSize
  · have hresult := ensureDirectory_of_tooLong hnames hhere hup hparent hlong
    rw [if_pos hlong] at hwalk
    exact .refused hwalk (by decide) hresult (by decide)
  rw [if_neg hlong] at hwalk
  have hshort : lastTooLong (l ++ [last]) = false := by
    rw [lastTooLong_concat]
    exact decide_eq_false hlong
  rcases hentry : t.get? (l ++ [last]) with _ | _ | content
  · have hmake : t.makeDirectory p = .ok (t.set (l ++ [last]) .directory) := by
      simp only [makeDirectory, htarget, hshort, hentry, Bool.false_eq_true, if_false]
    have hdrop : t.walk (start p) p.names.dropLast = .ok l := by
      rwa [hnames, List.dropLast_concat]
    have hends : ¬ p.EndsHere := by
      rw [Path.EndsHere, hnames, List.getLast?_concat, Option.some.injEq]
      exact hhere
    rw [hentry] at hwalk
    exact .made hwalk hdrop hends (by rw [ensureDirectory, hmake])
  · have hdirectory : t.isDirectory p = true :=
      isDirectory_iff.mpr (.inr ⟨_, htarget, hshort, hentry⟩)
    rw [hentry] at hwalk
    exact .reached hwalk (ensureDirectory_of_isDirectory hdirectory)
  · have hmake : t.makeDirectory p = .error .alreadyExists := by
      simp only [makeDirectory, htarget, hshort, hentry, Bool.false_eq_true, if_false]
    have hfile : t.isDirectory p = false := by
      rw [← Bool.not_eq_true, isDirectory_iff, htarget]
      rintro (heq | ⟨k, heq, -, hdirectory⟩)
      · cases heq
      · cases heq
        rw [hentry] at hdirectory
        cases hdirectory
    have hresult : t.ensureDirectory p = .error .alreadyExists := by
      simp only [ensureDirectory, hmake, hfile, Bool.false_eq_true, if_false]
    rw [hentry] at hwalk
    exact .refused hwalk (by decide) hresult (by decide)

theorem attempt (t : FileTree) {p : Path} (hup : ".." ∉ p.names) : Attempt t p := by
  rcases List.eq_nil_or_concat p.names with hnames | ⟨ns, last, hnames⟩
  · have hwalk : t.walk (start p) p.names = .ok (start p) := by
      rw [hnames]
      rfl
    have hdirectory : t.isDirectory p = true := (isDirectory_iff_walk hup).mpr ⟨_, hwalk⟩
    exact .reached hwalk (ensureDirectory_of_isDirectory hdirectory)
  rw [List.concat_eq_append] at hnames
  have hdrop : p.names.dropLast = ns := by rw [hnames, List.dropLast_concat]
  have hlast : last ≠ ".." := by
    rintro rfl
    exact hup (hnames ▸ List.mem_append_right _ List.mem_cons_self)
  cases hparent : t.walk (start p) ns with
  | error fault =>
      have hwalk : t.walk (start p) p.names = .error fault := by
        rw [hnames, walk_append, hparent]
        rfl
      rw [← hdrop] at hparent
      by_cases hfault : fault = .notFound
      · rw [hfault] at hwalk hparent
        exact .orphaned hwalk hparent (ensureDirectory_of_parent hparent)
      · exact .refused hwalk hfault (ensureDirectory_of_parent hparent) hfault
  | ok l =>
      by_cases hhere : last = "."
      · have hwalk : t.walk (start p) p.names = .ok l := by
          rw [hnames, walk_append, hparent, hhere]
          exact (t.walk_singleton l ".").trans (t.enter_here l)
        exact .reached hwalk
          (ensureDirectory_of_isDirectory ((isDirectory_iff_walk hup).mpr ⟨l, hwalk⟩))
      · exact attempt_of_parent hnames hhere hlast hparent

theorem walk_of_ensureDirectory_notFound (hup : ".." ∉ p.names)
    (h : t.ensureDirectory p = .error .notFound) :
    t.walk (start p) p.names = .error .notFound := by
  cases t.attempt hup with
  | reached _ hresult =>
      rw [h] at hresult
      cases hresult
  | orphaned hwalk _ _ => exact hwalk
  | made hwalk _ _ _ => exact hwalk
  | refused _ _ hresult hfault' =>
      rw [h] at hresult
      exact absurd (Except.error.inj hresult).symm hfault'

end One

/-! ## One directory and its parents -/

/-- One more directory, and nothing else: the tree stays when there is a fault. -/
def makeOne (t : FileTree) (p : Path) : FileTree × Option FileFault :=
  match t.ensureDirectory p with
  | .ok t' => (t', none)
  | .error fault => (t, some fault)

theorem get?_start (t : FileTree) (p : Path) : t.get? (start p) = some .directory := by
  refine t.get?_of_isGiven ?_
  unfold start
  split <;> rfl

/-- A path to a directory passes directories alone. -/
theorem get?_of_passes {t : FileTree} {p : Path} (hup : ".." ∉ p.names)
    (h : t.isDirectory p = true) {l : Location} (hl : p.Passes l) :
    t.get? l = some .directory := by
  obtain ⟨names, hpre, rfl⟩ := hl
  obtain ⟨k, hk⟩ := (isDirectory_iff_walk hup).mp h
  exact ((reaches_of_walk hk).initial hpre).get?_follow
    (fun hmem => hup (hpre.subset hmem)) (t.get?_start p)

section All

variable {t : FileTree} {p : Path} {parents : List Path}

theorem ensureAll_of_ne_notFound (h : t.ensureDirectory p ≠ .error .notFound) :
    ensureAll (p :: parents) t = t.makeOne p := by
  rw [ensureAll, makeOne]
  cases hresult : t.ensureDirectory p with
  | ok t' => rfl
  | error fault =>
      cases fault with
      | notFound => exact absurd hresult h
      | _ => rfl

theorem ensureAll_of_notFound (h : t.ensureDirectory p = .error .notFound) :
    ensureAll (p :: parents) t =
      match ensureAll parents t with
      | (t₁, some fault) => (t₁, some fault)
      | (t₁, none) => t₁.makeOne p := by
  rw [ensureAll, h]
  obtain ⟨t₁, fault⟩ := ensureAll parents t
  cases fault with
  | some fault => rfl
  | none => rfl

theorem makeOne_keepsDirectories (t : FileTree) (p : Path) :
    t.KeepsDirectories (t.makeOne p).1 := by
  rw [makeOne]
  cases hresult : t.ensureDirectory p with
  | ok t' => exact (ensureDirectory_makes hresult).1.keepsDirectories
  | error fault => exact fun _ h => h

/-- What the parents came to stays. -/
theorem ensureAll_keepsDirectories (parents : List Path)
    (h : t.ensureDirectory p = .error .notFound) :
    (ensureAll parents t).1.KeepsDirectories (ensureAll (p :: parents) t).1 := by
  rw [ensureAll_of_notFound h]
  obtain ⟨t₁, fault⟩ := ensureAll parents t
  cases fault with
  | some fault => exact fun _ h => h
  | none => exact t₁.makeOne_keepsDirectories p

/-- No file is at any place that a path passes. -/
def FreeOfFiles (t : FileTree) (p : Path) : Prop :=
  ∀ l, p.Passes l → ∀ content, t.get? l ≠ some (.file content)

/-- With a file in the way nothing is made. -/
theorem ensureAll_of_not_free (hrooted : t.Rooted) (hup : ".." ∉ p.names)
    (hfree : ¬ t.FreeOfFiles p) (parents : List Path) :
    ∃ fault, ensureAll (p :: parents) t = (t, some fault) := by
  simp only [FreeOfFiles, not_forall, not_not] at hfree
  obtain ⟨_, ⟨names, hpre, rfl⟩, content, hfile⟩ := hfree
  obtain ⟨fault, hwalk, hfault⟩ := hrooted.walk_of_file hup (t.get?_start p) hpre hfile
  cases t.attempt hup with
  | reached hreached _ =>
      rw [hwalk] at hreached
      cases hreached
  | orphaned hmissing _ _ =>
      rw [hwalk] at hmissing
      exact absurd (Except.error.inj hmissing) hfault
  | made hmissing _ _ _ =>
      rw [hwalk] at hmissing
      exact absurd (Except.error.inj hmissing) hfault
  | @refused _ fault' _ _ hresult hfault' =>
      refine ⟨fault', ?_⟩
      rw [ensureAll_of_ne_notFound, makeOne, hresult]
      rw [hresult]
      exact fun h => hfault' (Except.error.inj h)

end All

/-! ## Where no file is in the way -/

/-- What comes of making the directories on a way: every place up to the first name that is
too long is one, and there is no fault if no name is too long. -/
structure MadeTo (l : Location) (names : List String) (r : FileTree × Option FileFault) :
    Prop where
  reaches : ∀ ns, ns <+: names → (l.follow ns).Short → r.1.Reaches l ns
  fault : r.2 = none ↔ (l.follow names).Short

section Made

variable {t : FileTree} {l : Location} {names : List String} (hl : l.Short)

include hl in
theorem madeTo_of_reaches (h : t.Reaches l names) : MadeTo l names (t, none) :=
  ⟨fun _ hpre _ => h.initial hpre, iff_of_true rfl (h.short hl)⟩

theorem madeTo_of_tooLong (hwalk : t.walk l names = .error .nameTooLong)
    (h : ∀ ns, ns <+: names → (l.follow ns).Short → t.Reaches l ns) (fault : FileFault) :
    MadeTo l names (t, some fault) := by
  refine ⟨h, iff_of_false nofun fun hshort => ?_⟩
  have hreaches := h names List.prefix_rfl hshort
  rw [Reaches, hwalk] at hreaches
  cases hreaches

include hl in
/-- One directory whose parent is not missing. -/
theorem madeTo_makeOne {p : Path} (hup : ".." ∉ names) (hpup : ".." ∉ p.names)
    (hclear : t.Clear l names) (hwalk : ∀ s : FileTree, s.walk (start p) p.names = s.walk l names)
    (hparent : t.walk (start p) p.names.dropLast ≠ .error .notFound) :
    MadeTo l names (t.makeOne p) := by
  cases t.attempt hpup with
  | reached hreached hresult =>
      rw [hwalk] at hreached
      rw [makeOne, hresult]
      exact madeTo_of_reaches hl (reaches_of_walk hreached)
  | orphaned _ hmissing _ => exact absurd hmissing hparent
  | @made _ t' _ _ _ hresult =>
      obtain ⟨k, hk⟩ := (isDirectory_iff_walk hpup).mp (ensureDirectory_makes hresult).2
      rw [hwalk] at hk
      rw [makeOne, hresult]
      exact madeTo_of_reaches hl (reaches_of_walk hk)
  | @refused fault fault' hfaulty hfault hresult _ =>
      rw [hwalk] at hfaulty
      rw [makeOne, hresult]
      rcases walk_of_clear hclear hup with hreaches | hmissing | ⟨hlong, hreaches⟩
      · rw [Reaches, hfaulty] at hreaches
        cases hreaches
      · rw [hfaulty] at hmissing
        exact absurd (Except.error.inj hmissing) hfault
      · exact madeTo_of_tooLong hlong hreaches fault'

include hl in
/-- If the parents are made as far as they can be, so is the path after them. -/
theorem madeTo_cons {p : Path} {ns : List String} {n : String} {parents : List Path}
    (hup : ".." ∉ ns ++ [n]) (hpup : ".." ∉ p.names) (hclear : t.Clear l (ns ++ [n]))
    (hwalk : ∀ s : FileTree, s.walk (start p) p.names = s.walk l (ns ++ [n]))
    (hparent : ∀ s : FileTree, s.walk (start p) p.names.dropLast = s.walk l ns)
    (hparents : MadeTo l ns (ensureAll parents t)) :
    MadeTo l (ns ++ [n]) (ensureAll (p :: parents) t) := by
  by_cases hmissing : t.ensureDirectory p = .error .notFound
  · rw [ensureAll_of_notFound hmissing]
    cases hresult : ensureAll parents t with
    | mk t₁ fault =>
    rw [hresult] at hparents
    cases fault with
    | none =>
        have hreaches : t₁.Reaches l ns :=
          hparents.reaches ns List.prefix_rfl (hparents.fault.mp rfl)
        have hclear₁ := hclear.of_onlyMakes (ensureAll_makes hresult).1
        refine madeTo_makeOne hl hup hpup hclear₁ hwalk ?_
        rw [hparent, hreaches]
        exact nofun
    | some fault =>
        -- A name among those of the parents is too long, so this way ends before its end.
        have hlong : ¬ (l.follow (ns ++ [n])).Short := by
          intro hshort
          rw [Location.follow_append] at hshort
          have hlast : ".." ∉ [n] := fun h => hup (List.mem_append_right ns h)
          cases hparents.fault.mpr (hshort.initial (Location.prefix_follow _ hlast))
        refine ⟨fun ms hms hshort => ?_, iff_of_false nofun hlong⟩
        rcases List.prefix_concat_iff.mp hms with rfl | hms
        · exact absurd hshort hlong
        · exact hparents.reaches ms hms hshort
  · rw [ensureAll_of_ne_notFound hmissing]
    refine madeTo_makeOne hl hup hpup hclear hwalk fun horphaned => ?_
    exact hmissing (ensureDirectory_of_parent horphaned)

end Made

/-! ## A path and its parents -/

/-- Making the parents, where no file is in the way. -/
theorem madeTo_chain {t : FileTree} (p : Path) {names : List String} (hup : ".." ∉ names)
    (hclear : t.Clear (start p) names) :
    MadeTo (start p) names (ensureAll (Path.chain p.absolute names) t) := by
  induction names using List.reverseRecOn with
  | nil => exact madeTo_of_reaches (Location.short_start p) (reaches_nil t _)
  | append_singleton ns n ih =>
      rw [Path.chain_concat]
      have hparents := ih (fun h => hup (List.mem_append_left _ h))
        (hclear.initial (List.prefix_append ns [n]))
      refine madeTo_cons (Location.short_start p) hup hup hclear (fun _ => rfl) ?_ hparents
      intro s
      rw [List.dropLast_concat]
      rfl

/-- The plain names of a path lead where its names lead. -/
theorem walk_plainNames (t : FileTree) (p : Path) :
    t.walk (start p) p.names = t.walk (start p) p.plainNames := by
  rw [← walk_filter, ← Path.filter_plainNames, walk_filter]

theorem prefix_dropLast {ns names : List String} (h : ns <+: names) (hne : ns ≠ names) :
    ns <+: names.dropLast := by
  obtain ⟨rest, rfl⟩ := h
  have hrest : rest ≠ [] := by
    rintro rfl
    exact hne (List.append_nil ns).symm
  rw [List.dropLast_append_of_ne_nil hrest]
  exact List.prefix_append ns _

section Ancestors

variable {t : FileTree} {p : Path} (hup : ".." ∉ p.names)
include hup

theorem ancestors_onlyMake : OnlyMakes p.Makes t (ensureAll p.ancestors t).1 := by
  refine (ensureAll_makes (Prod.eta (ensureAll p.ancestors t)).symm).1.mono ?_
  rintro l ⟨q, hq, rfl, hshort, hhere⟩
  refine ⟨Path.passes_of_mem_ancestors hq, hshort, fun hends => ?_⟩
  rw [Path.ancestors_eq] at hq
  rcases List.mem_cons.mp hq with rfl | hq
  · exact absurd hends hhere
  · exact Path.place_ne_of_mem_chain hup hq

/-- Making a path that ends in a name, where no file is in the way. -/
theorem madeTo_ancestors (hhere : ¬ p.EndsHere) (hclear : t.Clear (start p) p.plainNames) :
    MadeTo (start p) p.plainNames (ensureAll p.ancestors t) := by
  have hplain := Path.not_mem_plainNames hup
  have hwalk (s : FileTree) := s.walk_plainNames p
  rw [Path.ancestors_eq]
  rcases List.eq_nil_or_concat p.plainNames with hnames | ⟨xs, x, hnames⟩
  · rw [hnames] at hwalk ⊢
    have hdirectory : t.isDirectory p = true := (isDirectory_iff_walk hup).mpr ⟨_, hwalk t⟩
    have hresult := ensureDirectory_of_isDirectory hdirectory
    rw [ensureAll_of_ne_notFound, makeOne, hresult]
    · exact madeTo_of_reaches (Location.short_start p) (reaches_nil t _)
    · rw [hresult]
      exact nofun
  · rw [List.concat_eq_append] at hnames
    have hparent (s : FileTree) :
        s.walk (start p) p.names.dropLast = s.walk (start p) xs := by
      rw [← walk_filter, Path.filter_dropLast_names hhere hnames, walk_filter]
    rw [hnames] at hwalk hclear hplain ⊢
    rw [List.dropLast_concat]
    refine madeTo_cons (Location.short_start p) hplain hup hclear hwalk hparent ?_
    exact madeTo_chain p (fun h => hplain (List.mem_append_left _ h))
      (hclear.initial (List.prefix_append xs [x]))

/-- Nothing is made at the end of a path that ends in "here". -/
theorem get?_place_of_endsHere (hhere : p.EndsHere) :
    (ensureAll p.ancestors t).1.get? p.place = t.get? p.place := by
  rcases ancestors_onlyMake (t := t) hup p.place with hsame | ⟨-, -, -, -, hend⟩
  · exact hsame
  · exact absurd rfl (hend hhere)

theorem get?_place_of_ensureDirectory_notFound (hrooted : t.Rooted)
    (h : t.ensureDirectory p = .error .notFound) : t.get? p.place = none := by
  by_contra hthere
  rw [Path.place_eq_follow_plainNames] at hthere
  refine hrooted.walk_ne_notFound (Path.not_mem_plainNames hup) hthere ?_
  rw [← walk_plainNames]
  exact walk_of_ensureDirectory_notFound hup h

/-- Making a path that ends in "here", where no file is in the way: the parents are made,
and the end itself has to be there. -/
theorem madeTo_of_endsHere (hrooted : t.Rooted) (hhere : p.EndsHere)
    (hclear : t.Clear (start p) p.plainNames) :
    (∀ ns, ns <+: p.plainNames → ((start p).follow ns).Short → (start p).follow ns ≠ p.place →
      (ensureAll p.ancestors t).1.Reaches (start p) ns) ∧
    ((ensureAll p.ancestors t).2 = none ↔
      p.place.Short ∧ t.get? p.place = some .directory) := by
  have hplain := Path.not_mem_plainNames hup
  have hkeep := get?_place_of_endsHere (t := t) hup hhere
  have hpasses : p.Passes p.place := ⟨p.names, List.prefix_rfl, rfl⟩
  rw [Path.ancestors_eq] at hkeep ⊢
  by_cases hmissing : t.ensureDirectory p = .error .notFound
  · have hparents := madeTo_chain (t := t) p (fun h => hplain ((List.dropLast_prefix _).subset h))
      (hclear.initial (List.dropLast_prefix _))
    have hkeeps :=
      ensureAll_keepsDirectories (Path.chain p.absolute p.plainNames.dropLast) hmissing
    have hnone := get?_place_of_ensureDirectory_notFound hup hrooted hmissing
    refine ⟨fun ns hpre hshort hne => ?_, iff_of_false (fun hfault => ?_) fun h => ?_⟩
    · have hdrop : ns <+: p.plainNames.dropLast := by
        refine prefix_dropLast hpre ?_
        rintro rfl
        exact hne Path.place_eq_follow_plainNames.symm
      exact hkeeps.walk (hparents.reaches ns hdrop hshort)
    · have hdirectory := (ensureAll_makes (Prod.eta _).symm).2 hfault p rfl
      rw [get?_of_passes hup hdirectory hpasses, hnone] at hkeep
      cases hkeep
    · rw [hnone] at h
      cases h.2
  · have hmade : MadeTo (start p) p.plainNames
        (ensureAll (p :: Path.chain p.absolute p.plainNames.dropLast) t) := by
      rw [ensureAll_of_ne_notFound hmissing]
      exact madeTo_makeOne (Location.short_start p) hplain hup hclear (·.walk_plainNames p)
        fun horphaned => hmissing (ensureDirectory_of_parent horphaned)
    refine ⟨fun ns hpre hshort _ => hmade.reaches ns hpre hshort, ?_⟩
    rw [hmade.fault, ← Path.place_eq_follow_plainNames]
    refine ⟨fun hshort => ⟨hshort, ?_⟩, And.left⟩
    rw [Path.place_eq_follow_plainNames] at hshort hkeep ⊢
    rw [← hkeep]
    exact (hmade.reaches _ List.prefix_rfl hshort).get?_follow hplain (get?_start _ p)

/-- Where no file is in the way, directories are made at all places where they can be
made, and a fault means that a name is too long, or that a path ends in "here" and there is
nothing. -/
theorem ensureAll_ancestors_of_free (hrooted : t.Rooted) (hfree : t.FreeOfFiles p) :
    (∀ l, p.Makes l → (ensureAll p.ancestors t).1.get? l = some .directory) ∧
    ((ensureAll p.ancestors t).2 = none ↔
      p.place.Short ∧ (p.EndsHere → t.get? p.place = some .directory)) := by
  have hplain := Path.not_mem_plainNames hup
  have hway : t.Clear (start p) p.plainNames := fun ns hpre =>
    hfree _ (Path.passes_iff_plainNames.mpr ⟨ns, hpre, rfl⟩)
  have hdirectory {ns : List String} (hpre : ns <+: p.plainNames)
      (h : (ensureAll p.ancestors t).1.Reaches (start p) ns) :
      (ensureAll p.ancestors t).1.get? ((start p).follow ns) = some .directory :=
    h.get?_follow (fun hmem => hplain (hpre.subset hmem)) (get?_start _ p)
  by_cases hhere : p.EndsHere
  · obtain ⟨hreaches, hfault⟩ := madeTo_of_endsHere hup hrooted hhere hway
    refine ⟨?_, hfault.trans (and_congr_right fun _ => ⟨fun h _ => h, fun h => h hhere⟩)⟩
    rintro l ⟨hpasses, hshort, hend⟩
    obtain ⟨ns, hpre, rfl⟩ := Path.passes_iff_plainNames.mp hpasses
    exact hdirectory hpre (hreaches ns hpre hshort (hend hhere))
  · have hmade := madeTo_ancestors hup hhere hway
    refine ⟨?_, ?_⟩
    · rintro l ⟨hpasses, hshort, -⟩
      obtain ⟨ns, hpre, rfl⟩ := Path.passes_iff_plainNames.mp hpasses
      exact hdirectory hpre (hmade.reaches ns hpre hshort)
    · rw [hmade.fault, ← Path.place_eq_follow_plainNames]
      exact (and_iff_left fun h => absurd h hhere).symm

end Ancestors

end FileTree

end AgentHooks
