/-
Flags, variables and a file together.

Settings are loaded from three layers.  When each layer can be loaded by itself, all
of them can be loaded together (`load_of_parts`), and every setting has the value
that the highest layer giving it has by itself.  One rule stands against this: flags
that all together do no more than repeat the defaults are taken for no flags, and
then what is below them shows (`load_flags_give_way`).
-/
import AgentHooks.Proofs.Settings.Flags
import AgentHooks.Proofs.Settings.Sources

namespace AgentHooks.Settings

open CommandLine

/-- The layer that is loaded. -/
def loaded (given : Given) (byVariables : Layer) (env : Environment) (files : FileTree) : Layer :=
  (Layer.ofFlags given).above
    (byVariables.above ((Search.ofSources files (sources given env)).layer.getD .empty))

/-- Settings are loaded when the flags and the variables can be read, no file is at
fault, and the layers together have settings. -/
theorem load_eq_ok_iff {flags : List String} {env : Environment} {files : FileTree}
    {s : Settings} :
    load flags env files = .ok s ↔
      ∃ given byVariables, readFlags flags = (given, []) ∧
        Layer.ofEnvironment env = .ok byVariables ∧
        (Search.ofSources files (sources given env)).allFaults = [] ∧
        (loaded given byVariables env files).settings = .ok s := by
  unfold load
  cases Layer.ofEnvironment env with
  | error fault => simp
  | ok byVariables =>
      rcases hread : readFlags flags with ⟨given, faults⟩
      simp only [loadOver, hread, Prod.mk.injEq, Except.ok.injEq, and_assoc, exists_eq_left',
        exists_and_left]
      rw [← loaded]
      cases hsettings : (loaded given byVariables env files).settings with
      | error fault => simp
      | ok s' =>
          cases faults with
          | cons fault more => simp
          | nil =>
              cases hfaults : (Search.ofSources files (sources given env)).allFaults with
              | nil => simp
              | cons fault more => simp

/-! ## The layers by themselves -/

section Parts

variable {us : List FlagUse} {env : Environment} {files : FileTree} {s : Settings}

theorem sources_congr {given given' : Given} {env env' : Environment}
    (hgiven : given.get? fileFlagName = given'.get? fileFlagName)
    (henv : env.get? fileVariable = env'.get? fileVariable) :
    sources given env = sources given' env' := by
  rw [sources, sources, hgiven, henv]

/-- Without sources, no file has a part in what is loaded. -/
theorem loaded_of_sources_eq_nil {given : Given} (byVariables : Layer)
    (h : sources given env = []) :
    loaded given byVariables env files = (Layer.ofFlags given).above byVariables := by
  rw [loaded, h]
  exact congrArg _ (Layer.above_empty byVariables)

theorem get?_file_entries (us : List FlagUse) (p : FlagKind → Bool) :
    Given.get? ((us.filter (p ·.kind)).map FlagUse.entry) fileFlagName =
      if p .file then Given.get? (us.map FlagUse.entry) fileFlagName else none := by
  have hget (us : List FlagUse) : Given.get? (us.map FlagUse.entry) fileFlagName =
      valueOf? us .file := get?_entries us .file
  rw [hget, hget, valueOf?_filter us p .file]

theorem get?_ofGiven_filter (us : List FlagUse) (p : FlagKind → Bool) (f : Field) :
    (Layer.ofGiven ((us.filter (p ·.kind)).map FlagUse.entry)).get? f =
      if p (.setting f) then (Layer.ofGiven (us.map FlagUse.entry)).get? f else none := by
  rw [get?_ofGiven, get?_ofGiven, valueOf?_filter us p (.setting f)]
  cases p (.setting f) <;> rfl

theorem ofEnvironment_nil {l : Layer} (h : Layer.ofEnvironment [] = .ok l) : l = .empty := by
  ext f : 1
  rw [(ofEnvironment_eq_ok_iff.mp h).2 f, Layer.get?_empty]
  rfl

/-- What the flags of settings load by themselves are the settings of the layer of all
flags. -/
theorem settings_of_load_flags
    (h : load (argumentsOf (us.filter (·.kind != .file))) [] files = .ok s) :
    Readable (us.filter (·.kind != .file)) ∧
      (Layer.ofFlags (us.map FlagUse.entry)).settings = .ok s := by
  obtain ⟨given, byVariables, hflags, hvariables, -, hsettings⟩ := load_eq_ok_iff.mp h
  obtain ⟨hreadable, rfl⟩ := readFlags_iff.mp hflags
  have hsources : sources ((us.filter (·.kind != .file)).map FlagUse.entry) [] = [] := by
    rw [sources, get?_file_entries us (· != .file)]
    rfl
  have hlayer : Layer.ofGiven ((us.filter (·.kind != .file)).map FlagUse.entry) =
      Layer.ofGiven (us.map FlagUse.entry) := by
    ext f : 1
    exact get?_ofGiven_filter us (· != .file) f
  rw [loaded_of_sources_eq_nil byVariables hsources, ofEnvironment_nil hvariables,
    Layer.above_empty, settings_ofFlags, hlayer, ← settings_ofFlags] at hsettings
  exact ⟨hreadable, hsettings⟩

/-- What the variables of settings load by themselves are the settings of their
layer. -/
theorem settings_of_load_variables
    (h : load [] (env.filter (·.1 != fileVariable)) files = .ok s) :
    ∃ l, Layer.ofEnvironment (env.filter (·.1 != fileVariable)) = .ok l ∧ l.settings = .ok s := by
  obtain ⟨given, l, hflags, hvariables, -, hsettings⟩ := load_eq_ok_iff.mp h
  cases (show readFlags [] = ([], []) from rfl).symm.trans hflags
  have hsources : sources [] (env.filter (·.1 != fileVariable)) = [] := by
    rw [sources, get?_filter env (· != fileVariable)]
    rfl
  rw [loaded_of_sources_eq_nil l hsources] at hsettings
  exact ⟨l, hvariables, (congrArg Layer.settings (Layer.empty_above l)).symm.trans hsettings⟩

/-- What the file that flags and variables ask for loads by itself are the settings of
its layer. -/
theorem settings_of_load_file
    (h : load (argumentsOf (us.filter (·.kind == .file))) (env.filter (·.1 == fileVariable)) files =
      .ok s) :
    Readable (us.filter (·.kind == .file)) ∧
      (∃ l, Layer.ofEnvironment (env.filter (·.1 == fileVariable)) = .ok l) ∧
      (Search.ofSources files (sources (us.map FlagUse.entry) env)).allFaults = [] ∧
      ((Search.ofSources files (sources (us.map FlagUse.entry) env)).layer.getD .empty).settings =
        .ok s := by
  obtain ⟨given, l, hflags, hvariables, hfaults, hsettings⟩ := load_eq_ok_iff.mp h
  obtain ⟨hreadable, rfl⟩ := readFlags_iff.mp hflags
  have hsources : sources ((us.filter (·.kind == .file)).map FlagUse.entry)
      (env.filter (·.1 == fileVariable)) = sources (us.map FlagUse.entry) env :=
    sources_congr (get?_file_entries us (· == .file)) (get?_filter env (· == fileVariable) _)
  have hgiven : Layer.ofGiven ((us.filter (·.kind == .file)).map FlagUse.entry) = .empty := by
    ext f : 1
    rw [get?_ofGiven_filter us (· == .file) f, Layer.get?_empty]
    rfl
  have hnone : Layer.ofFlags ((us.filter (·.kind == .file)).map FlagUse.entry) = .empty := by
    simp only [Layer.ofFlags, hgiven, ite_self]
  rw [hsources] at hfaults
  rw [loaded, hnone, eq_empty_of_fileVariable hvariables, hsources, Layer.empty_above,
    Layer.empty_above] at hsettings
  exact ⟨hreadable, ⟨l, hvariables⟩, hfaults, hsettings⟩

end Parts

/-! ## All layers together -/

/-- Whether a setting is given alike, layer by layer. -/
structure Alike (f : Field) (us us' : List FlagUse) (env env' : Environment)
    (files files' : FileTree) : Prop where
  flags : valueOf? us (.setting f) = valueOf? us' (.setting f)
  environment : env.filter (spells f) = env'.filter (spells f)
  file : ∀ text, FileSays files (sources (us.map FlagUse.entry) env) f text ↔
    FileSays files' (sources (us'.map FlagUse.entry) env') f text

theorem ofFlags_of_not_repeatsDefaults {us : List FlagUse} (h : Readable us)
    (hrepeats : ¬ RepeatsDefaults us) :
    Layer.ofFlags (us.map FlagUse.entry) = Layer.ofGiven (us.map FlagUse.entry) :=
  if_neg (mt (repeatsDefaults_iff h).mp hrepeats)

/-- A setting that is given alike comes out alike. -/
theorem get_eq_of_alike {us us' : List FlagUse} {env env' : Environment} {files files' : FileTree}
    {s s' : Settings} (h : load (argumentsOf us) env files = .ok s)
    (h' : load (argumentsOf us') env' files' = .ok s') (hrepeats : ¬ RepeatsDefaults us)
    (hrepeats' : ¬ RepeatsDefaults us') {f : Field} (halike : Alike f us us' env env' files files') :
    s'.get f = s.get f := by
  obtain ⟨given, l, hflags, hl, -, hsettings⟩ := load_eq_ok_iff.mp h
  obtain ⟨given', l', hflags', hl', -, hsettings'⟩ := load_eq_ok_iff.mp h'
  obtain ⟨hreadable, rfl⟩ := readFlags_iff.mp hflags
  obtain ⟨hreadable', rfl⟩ := readFlags_iff.mp hflags'
  have hfile : ((Search.ofSources files (sources (us.map FlagUse.entry) env)).layer.getD
      .empty).get? f = ((Search.ofSources files' (sources (us'.map FlagUse.entry) env')).layer.getD
      .empty).get? f := by
    ext v
    simp only [get?_ofSources_eq_some_iff, halike.file]
  have hlayer : (loaded (us.map FlagUse.entry) l env files).get? f =
      (loaded (us'.map FlagUse.entry) l' env' files').get? f := by
    rw [loaded, loaded, ofFlags_of_not_repeatsDefaults hreadable hrepeats,
      ofFlags_of_not_repeatsDefaults hreadable' hrepeats', Layer.get?_above, Layer.get?_above,
      Layer.get?_above, Layer.get?_above, get?_ofGiven, get?_ofGiven, halike.flags,
      get?_ofEnvironment_filter hl, get?_ofEnvironment_filter hl', halike.environment, hfile]
  have hresolve := Layer.settings_eq_ok_iff.mp hsettings f
  have hresolve' := Layer.settings_eq_ok_iff.mp hsettings' f
  rw [Layer.resolve, hlayer, ← Layer.resolve, hresolve'] at hresolve
  exact Except.ok.inj hresolve

/-- Layers that can be loaded by themselves can be loaded together, and each setting
has the value that the highest layer giving it has by itself: the flags, then the
variables, then the file; without any of them it has its default.  Flags that all
together repeat the defaults give nothing here.  Apart from them, what is given for
one setting has no part in another one. -/
theorem load_of_parts (us : List FlagUse) (env : Environment) (files : FileTree)
    {byFlags byVariables byFile : Settings}
    (hflags : load (argumentsOf (us.filter (·.kind != .file))) [] files = .ok byFlags)
    (hvariables : load [] (env.filter (·.1 != fileVariable)) files = .ok byVariables)
    (hfile : load (argumentsOf (us.filter (·.kind == .file))) (env.filter (·.1 == fileVariable))
      files = .ok byFile) :
    ∃ s, load (argumentsOf us) env files = .ok s ∧
      (∀ f,
        let inFlags := Gives us f ∧ ¬ RepeatsDefaults us
        let inVariables := ∃ e ∈ env, spells f e = true
        let inFile := ∃ text, FileSays files (sources (us.map FlagUse.entry) env) f text
        (inFlags → s.get f = byFlags.get f) ∧
        (¬ inFlags → inVariables → s.get f = byVariables.get f) ∧
        (¬ inFlags → ¬ inVariables → inFile → s.get f = byFile.get f) ∧
        (¬ inFlags → ¬ inVariables → ¬ inFile → s.get f = default.get f)) ∧
      (¬ RepeatsDefaults us → ∀ us' env' files' s', ¬ RepeatsDefaults us' →
        load (argumentsOf us') env' files' = .ok s' → ∀ f, Alike f us us' env env' files files' →
          s'.get f = s.get f) := by
  obtain ⟨hreadable, hupper⟩ := settings_of_load_flags hflags
  obtain ⟨l, hl, hmiddle⟩ := settings_of_load_variables hvariables
  obtain ⟨hnaming, ⟨l', hl'⟩, hfaults, hlower⟩ := settings_of_load_file hfile
  have hall : Readable us := .of_parts (· == .file) hnaming hreadable
  have henv : Layer.ofEnvironment env = .ok l := ofEnvironment_of_parts hl hl'
  obtain ⟨t, hbelow, ht⟩ := Layer.settings_above hmiddle hlower
  obtain ⟨s, hsettings, hs⟩ := Layer.settings_above hupper hbelow
  have hload : load (argumentsOf us) env files = .ok s :=
    load_eq_ok_iff.mpr ⟨_, l, readFlags_iff.mpr ⟨hall, rfl⟩, henv, hfaults, hsettings⟩
  refine ⟨s, hload, fun f => ?_, fun hrepeats us' env' files' s' hrepeats' h' f halike =>
    get_eq_of_alike hload h' hrepeats hrepeats' halike⟩
  intro inFlags inVariables inFile
  have hupper_iff : _ ↔ inFlags := isSome_get?_ofFlags_iff hall
  have hmiddle_iff : _ ↔ inVariables := isSome_get?_ofEnvironment_iff henv
  have hlower_iff : _ ↔ inFile := isSome_get?_ofSources_iff
  refine ⟨fun hyes => ?_, fun hno hyes => ?_, fun hno hno' _ => ?_, fun hno hno' hno'' => ?_⟩
  · rw [hs f, if_pos (hupper_iff.mpr hyes)]
  · rw [hs f, if_neg (mt hupper_iff.mp hno), ht f, if_pos (hmiddle_iff.mpr hyes)]
  · rw [hs f, if_neg (mt hupper_iff.mp hno), ht f, if_neg (mt hmiddle_iff.mp hno')]
  · rw [hs f, if_neg (mt hupper_iff.mp hno), ht f, if_neg (mt hmiddle_iff.mp hno')]
    exact Layer.get_of_settings_of_eq_none hlower
      (Option.not_isSome_iff_eq_none.mp (mt hlower_iff.mp hno''))

/-- Files of which one has settings. -/
def withFile (name text : String) : FileTree := ⟨[([name], .file (Utf8.encode text))]⟩

theorem eq_ok_of_toOption {ε α : Type} {x : Except ε α} {a : α} (h : x.toOption = some a) :
    x = .ok a := by
  cases x with
  | error _ => cases h
  | ok _ => exact congrArg _ (Option.some.inj h)

theorem load_of_parts_three_layers :
    let us : List FlagUse := [⟨.setting .logFilter, "warn", true, false⟩,
      ⟨.file, "c.toml", false, true⟩]
    let env : Environment := [("hookline_log_format", "compact"), ("HOOKLINE_LOG_FILTER", "debug")]
    let files := withFile "c.toml" "hooks_home = \"h\"\nlog_format = \"json\"\n"
    argumentsOf us = ["-l", "warn", "--config-path=c.toml"] ∧
      ∃ s, load (argumentsOf us) env files = .ok s ∧ s.get .logFilter = "warn" ∧
        s.get .logFormat = Log.Format.compact ∧ s.get .hooksHome = some "h" := by
  intro us env files
  have hflags : load (argumentsOf (us.filter (·.kind != .file))) [] files =
      .ok ⟨"warn", .json, none⟩ := eq_ok_of_toOption (by decide +kernel)
  have hvariables : load [] (env.filter (·.1 != fileVariable)) files =
      .ok ⟨"debug", .compact, none⟩ := eq_ok_of_toOption (by decide +kernel)
  have hfile : load (argumentsOf (us.filter (·.kind == .file)))
      (env.filter (·.1 == fileVariable)) files = .ok ⟨"info", .json, some "h"⟩ :=
    eq_ok_of_toOption (by decide +kernel)
  obtain ⟨s, hload, hget, -⟩ := load_of_parts us env files hflags hvariables hfile
  refine ⟨by decide +kernel, s, hload, ?_, ?_, ?_⟩
  · exact (hget .logFilter).1 (by decide +kernel)
  · exact (hget .logFormat).2.1 (by decide +kernel) (by decide +kernel)
  · exact (hget .hooksHome).2.2.1 (by decide +kernel) (by decide +kernel)
      (isSome_get?_ofSources_iff.mp (by decide +kernel))

/-- Flags that repeat the defaults come to them by themselves, but give way to
variables. -/
theorem load_flags_give_way :
    let flags := ["--log-filter=info", "--log-format=json"]
    let env : Environment := [("HOOKLINE_LOG_FILTER", "debug"), ("HOOKLINE_CONFIG_PATH", "c.toml")]
    let files := withFile "c.toml" "hooks_home = \"h\""
    (load flags [] files).toOption = some ⟨"info", .json, none⟩ ∧
    (load [] (env.filter (·.1 != fileVariable)) files).toOption = some ⟨"debug", .json, none⟩ ∧
    (load [] (env.filter (·.1 == fileVariable)) files).toOption = some ⟨"info", .json, some "h"⟩ ∧
    (load flags env files).toOption = some ⟨"debug", .json, some "h"⟩ := by
  decide +kernel

end AgentHooks.Settings
