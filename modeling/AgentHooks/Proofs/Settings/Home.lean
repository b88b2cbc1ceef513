/-
The hooks home, prepared.

`ensureDirectories_eq` and `ensureDirectories_of_not_usable` say what the text of a path has
to do with it: a text that can be no path changes nothing, and any other makes its
directories.  `HooksHome.prepare_exact` says all of what comes of it for a path without
steps upwards: when there is a home, what was made on the way to it, and what a failed
attempt leaves.
-/
import AgentHooks.Proofs.Files.Parents
import AgentHooks.Settings.Home

namespace AgentHooks

namespace FileTree

variable {t : FileTree} {text : String}

/-! ## Directories for the text of a path -/

theorem ensureAll_of_isDirectory {p : Path} (h : t.isDirectory p = true) (parents : List Path) :
    ensureAll (p :: parents) t = (t, none) := by
  have hresult := ensureDirectory_of_isDirectory h
  rw [ensureAll, hresult]

theorem ensureDirectories_eq (h : Path.IsUsable text) :
    t.ensureDirectories text = ensureAll (Path.ofText text).ancestors t := by
  unfold ensureDirectories
  split
  · rename_i hempty
    rw [hempty]
    exact (ensureAll_of_isDirectory (p := .ofText "") rfl _).symm
  · rename_i hne
    rw [Path.check_eq hne h]

theorem ensureDirectories_of_not_usable (h : ¬ Path.IsUsable text) :
    ∃ fault, t.ensureDirectories text = (t, some fault) := by
  obtain ⟨fault, hfault⟩ := Path.exists_fault_of_not_usable h
  refine ⟨fault, ?_⟩
  rw [ensureDirectories, if_neg (Path.not_usable_ne_empty h), hfault]

section Text

variable (hup : ".." ∉ (Path.ofText text).names)
include hup

/-- When the directories for a text are made without a fault. -/
theorem ensureDirectories_eq_none_iff (hrooted : t.Rooted) :
    (t.ensureDirectories text).2 = none ↔
      t.FreeOfFiles (.ofText text) ∧ Path.IsUsable text ∧ (Path.ofText text).place.Short ∧
        ((Path.ofText text).EndsHere → t.get? (Path.ofText text).place = some .directory) := by
  by_cases husable : Path.IsUsable text
  · rw [ensureDirectories_eq husable]
    by_cases hfree : t.FreeOfFiles (.ofText text)
    · rw [(ensureAll_ancestors_of_free hup hrooted hfree).2]
      exact ⟨fun h => ⟨hfree, husable, h⟩, fun h => h.2.2⟩
    · rw [Path.ancestors_eq]
      obtain ⟨fault, hfault⟩ := ensureAll_of_not_free hrooted hup hfree (Path.chain _ _)
      rw [hfault]
      exact iff_of_false nofun fun h => hfree h.1
  · obtain ⟨fault, hfault⟩ := ensureDirectories_of_not_usable (t := t) husable
    rw [hfault]
    exact iff_of_false nofun fun h => husable h.2.1

/-- Where the directories for a text cannot all be made, those are made that can be; none
is, if a file is in the way or the text can be no path. -/
theorem ensureDirectories_fst (hrooted : t.Rooted) :
    (¬ (t.FreeOfFiles (.ofText text) ∧ Path.IsUsable text) → (t.ensureDirectories text).1 = t) ∧
    (t.FreeOfFiles (.ofText text) ∧ Path.IsUsable text →
      OnlyMakes (Path.ofText text).Makes t (t.ensureDirectories text).1 ∧
      ∀ l, (Path.ofText text).Makes l →
        (t.ensureDirectories text).1.get? l = some .directory) := by
  by_cases husable : Path.IsUsable text
  · rw [ensureDirectories_eq husable]
    refine ⟨fun h => ?_, fun h => ⟨ancestors_onlyMake hup,
      (ensureAll_ancestors_of_free hup hrooted h.1).1⟩⟩
    have hfree : ¬ t.FreeOfFiles (.ofText text) := fun hfree => h ⟨hfree, husable⟩
    obtain ⟨fault, hfault⟩ := ensureAll_of_not_free hrooted hup hfree (Path.chain _ _)
    rw [Path.ancestors_eq, hfault]
  · obtain ⟨fault, hfault⟩ := ensureDirectories_of_not_usable (t := t) husable
    rw [hfault]
    exact ⟨fun _ => rfl, fun h => absurd h.2 husable⟩

end Text

/-- A text whose directories were made without a fault is a path to a directory. -/
theorem isDirectory_of_ensureDirectories (h : (t.ensureDirectories text).2 = none) :
    (t.ensureDirectories text).1.isDirectory (.ofText text) = true := by
  rcases (ensureDirectories_makes (Prod.eta _).symm).2 h with rfl | hdirectory
  · rfl
  · exact hdirectory

/-- Directories that were made without a fault are there when they are made again. -/
theorem ensureDirectories_again (h : (t.ensureDirectories text).2 = none) :
    (t.ensureDirectories text).1.ensureDirectories text = ((t.ensureDirectories text).1, none) := by
  have husable : Path.IsUsable text := by
    by_contra husable
    obtain ⟨fault, hfault⟩ := ensureDirectories_of_not_usable (t := t) husable
    rw [hfault] at h
    cases h
  rw [ensureDirectories_eq husable]
  exact ensureAll_of_isDirectory (isDirectory_of_ensureDirectories h) _

/-- In an empty tree, a name that is too long leaves its parent behind. -/
theorem ensureAll_of_tooLong {name : String} (hhere : name ≠ ".") (hup : name ≠ "..")
    (hlong : Path.nameLimit < name.utf8ByteSize) (slash : Bool) :
    ensureAll (Path.ancestors ⟨false, ["n", name], slash⟩) .empty =
      (⟨[(["n"], .directory)]⟩, some .nameTooLong) := by
  have hplain : Path.plainNames ⟨false, ["n", name], slash⟩ = ["n", name] := by
    simp [Path.plainNames, hhere]
  have hmissing : FileTree.empty.ensureDirectory ⟨false, ["n", name], slash⟩ =
      .error .notFound := ensureDirectory_of_parent rfl
  have hparent : ensureAll (Path.chain false ["n"]) .empty =
      (⟨[(["n"], .directory)]⟩, none) := by decide
  have hrefused : FileTree.ensureDirectory ⟨[(["n"], .directory)]⟩ ⟨false, ["n", name], slash⟩ =
      .error .nameTooLong := by
    have hnames : Path.names ⟨false, ["n", name], slash⟩ = ["n"] ++ [name] := rfl
    exact ensureDirectory_of_tooLong hnames hhere hup rfl hlong
  rw [Path.ancestors_eq, ensureAll_of_notFound hmissing, hplain]
  simp only [List.dropLast, hparent, makeOne, hrefused]

end FileTree

namespace HooksHome

/-! ## The home -/

variable {files : FileTree} {root : String}

theorem prepare_of_none (h : (files.ensureDirectories root).2 = none) :
    prepare files root = ((files.ensureDirectories root).1, .ok (ofRoot root)) := by
  unfold prepare
  cases hresult : files.ensureDirectories root with
  | mk files' fault =>
      rw [hresult] at h
      cases h
      rfl

theorem prepare_of_some {fault : FileFault} (h : (files.ensureDirectories root).2 = some fault) :
    prepare files root = ((files.ensureDirectories root).1, .error ⟨root, fault⟩) := by
  unfold prepare
  cases hresult : files.ensureDirectories root with
  | mk files' cause =>
      rw [hresult] at h
      cases h
      rfl

theorem prepare_fst : (prepare files root).1 = (files.ensureDirectories root).1 := by
  cases h : (files.ensureDirectories root).2 with
  | none => rw [prepare_of_none h]
  | some fault => rw [prepare_of_some h]

theorem isFileName_eventLogName : Path.IsFileName eventLogName :=
  ⟨by decide, by decide, by decide, by decide⟩

theorem isFileName_toolCallsName : Path.IsFileName toolCallsName :=
  ⟨by decide, by decide, by decide, by decide⟩

/-- What comes of preparing a hooks home, at a path without steps upwards.  There is a home
exactly when the text can be a path, no place that it passes is a file, no name is too long,
and something is there if the path ends in "here".  Then every place that the path passes is
a directory and nothing else has changed, the files of the home stand directly under it, and
preparing it again changes nothing.  Otherwise the report names the path, and the tree is as
before if a file is in the way or the text can be no path; if a name is too long, or nothing
is where the path says "here", those directories have been made that could be. -/
theorem prepare_exact (hrooted : files.Rooted) (hup : ".." ∉ (Path.ofText root).names) :
    let p := Path.ofText root
    let after := (prepare files root).1
    ((∃ home, (prepare files root).2 = .ok home) ↔
      files.FreeOfFiles p ∧ Path.IsUsable root ∧ p.place.Short ∧
        (p.EndsHere → files.get? p.place = some .directory)) ∧
    (∀ home, (prepare files root).2 = .ok home →
      (∀ l, p.Passes l → after.get? l = some .directory) ∧
      FileTree.OnlyMakes p.Passes files after ∧
      home.root = root ∧
      (Path.ofText home.eventLog).place = p.place ++ [eventLogName] ∧
      (Path.ofText home.toolCalls).place = p.place ++ [toolCallsName] ∧
      prepare after root = (after, .ok home)) ∧
    (∀ fault, (prepare files root).2 = .error fault →
      fault.path = root ∧
      (¬ (files.FreeOfFiles p ∧ Path.IsUsable root) → after = files) ∧
      (files.FreeOfFiles p ∧ Path.IsUsable root →
        FileTree.OnlyMakes p.Makes files after ∧
        ∀ l, p.Makes l → after.get? l = some .directory)) := by
  intro p after
  have hafter : after = (files.ensureDirectories root).1 := prepare_fst
  have hiff := FileTree.ensureDirectories_eq_none_iff hup hrooted
  cases hresult : (files.ensureDirectories root).2 with
  | none =>
      have hmakes :=
        (FileTree.ensureDirectories_makes (Prod.eta (files.ensureDirectories root)).symm).1
      have hdirectory := FileTree.isDirectory_of_ensureDirectories hresult
      have hagain := FileTree.ensureDirectories_again hresult
      rw [prepare_of_none hresult]
      refine ⟨iff_of_true ⟨_, rfl⟩ (hiff.mp hresult), ?_, nofun⟩
      rintro _ ⟨⟩
      rw [hafter]
      refine ⟨fun l => FileTree.get?_of_passes hup hdirectory, hmakes, rfl,
        Path.place_join isFileName_eventLogName root,
        Path.place_join isFileName_toolCallsName root, ?_⟩
      have hnone := congrArg Prod.snd hagain
      rw [prepare_of_none hnone, hagain]
  | some cause =>
      rw [prepare_of_some hresult]
      refine ⟨iff_of_false nofun fun h => ?_, nofun, ?_⟩
      · rw [hiff.mpr h] at hresult
        cases hresult
      · rintro _ ⟨⟩
        rw [hafter]
        exact ⟨rfl, FileTree.ensureDirectories_fst hup hrooted⟩

/-- A directory with a file in it. -/
def occupied : FileTree := ⟨[(["a"], .directory), (["a", "f"], .file [0x78])]⟩

/-- A home beside the file, and one below it. -/
theorem prepare_exact_occupied :
    (prepare occupied "a/./b/c").1.get? ["a", "b"] = some .directory ∧
    prepare (prepare occupied "a/./b/c").1 "a/./b/c" =
      ((prepare occupied "a/./b/c").1, .ok (ofRoot "a/./b/c")) ∧
    (prepare occupied "a/f/c").1 = occupied := by
  have hrooted : occupied.Rooted := by decide
  have hmade : (prepare occupied "a/./b/c").2 = .ok (ofRoot "a/./b/c") := by decide +kernel
  have hfails : (prepare occupied "a/f/c").2 = .error ⟨"a/f/c", .notADirectory⟩ := by
    decide +kernel
  have hpasses : (Path.ofText "a/./b/c").Passes ["a", "b"] :=
    ⟨["a", ".", "b"], by decide +kernel, by decide +kernel⟩
  have hfile : ¬ occupied.FreeOfFiles (.ofText "a/f/c") := fun h =>
    h ["a", "f"] ⟨["a", "f"], by decide +kernel, by decide +kernel⟩ [0x78] (by decide)
  obtain ⟨hdirectories, -, -, -, -, hagain⟩ :=
    (prepare_exact hrooted (by decide +kernel)).2.1 _ hmade
  obtain ⟨-, hsame, -⟩ := (prepare_exact hrooted (by decide +kernel)).2.2 _ hfails
  exact ⟨hdirectories _ hpasses, hagain, hsame fun h => hfile h.1⟩

/-- A name that is too long ends the making of directories where no file is in the way, and
the parents that were made before stay. -/
theorem prepare_fails_at_long_name :
    let root := "n/" ++ String.ofList (List.replicate 256 'x')
    (Path.ofText root).absolute = false ∧ ".." ∉ (Path.ofText root).names ∧
    FileTree.empty.FreeOfFiles (Path.ofText root) ∧
    prepare .empty root = (⟨[(["n"], .directory)]⟩, .error ⟨root, .nameTooLong⟩) := by
  intro root
  let name := String.ofList (List.replicate 256 'x')
  have hname : Path.IsFileName name := by
    refine ⟨?_, by decide +kernel, by decide +kernel, by decide +kernel⟩
    rw [String.toList_ofList]
    decide
  have hroot : root = Path.join "n" name := (if_neg (by decide)).symm
  have hnames : (Path.ofText root).names = ["n", name] := by
    rw [hroot]
    exact Path.names_join hname "n"
  have habsolute : (Path.ofText root).absolute = false := by
    rw [hroot]
    exact Path.absolute_join hname "n"
  -- The characters are looked at in a list, which takes far fewer steps than the text does.
  have htext : root = String.ofList ('n' :: '/' :: List.replicate 256 'x') := by
    decide +kernel
  have husable : Path.IsUsable root := by
    rw [htext]
    exact ⟨by rw [String.toList_ofList]; decide, by decide +kernel⟩
  have hresult : FileTree.empty.ensureDirectories root =
      (⟨[(["n"], .directory)]⟩, some .nameTooLong) := by
    rw [FileTree.ensureDirectories_eq husable]
    generalize Path.ofText root = p at hnames habsolute
    obtain ⟨absolute, names, slash⟩ := p
    rw [← FileTree.ensureAll_of_tooLong hname.ne_here hname.ne_up (by decide +kernel) slash,
      show absolute = false from habsolute, show names = ["n", name] from hnames]
  refine ⟨habsolute, ?_, fun l _ content hfile => ?_, ?_⟩
  · rw [hnames]
    simp [hname.ne_up.symm]
  · unfold FileTree.get? at hfile
    split at hfile
    · cases hfile
    · cases hfile
  · rw [prepare_of_some (congrArg Prod.snd hresult), hresult]

end HooksHome

end AgentHooks
