/-
The format of the log, from each source.

A flag takes a format in any case of its letters.  Variables and files take it by its
own name alone, so a text in other letters gives a format as a flag and cannot be used
elsewhere (`load_of_givesFormat`).
-/
import AgentHooks.Proofs.Settings.Composition
import AgentHooks.Proofs.Settings.Words
import AgentHooks.Proofs.Text.Utf8

namespace AgentHooks

/-- A text with its ASCII letters in lower case. -/
def Text.inSmallLetters (t : String) : String := String.ofList (t.toList.map lowerAscii)

namespace Log.Format

/-! ## Names of formats -/

theorem ofName?_eq_some_iff {t : String} {f : Format} :
    ofName? t = some f ↔ t = f.name := by
  constructor
  · intro h
    rw [ofName?] at h
    have hname := List.find?_some h
    exact (beq_iff_eq.mp hname).symm
  · rintro rfl
    cases f <;> decide

theorem inSmallLetters_name (f : Format) : Text.inSmallLetters f.name = f.name := by
  cases f <;> decide +kernel

theorem sameIgnoringAsciiCase_name (f : Format) (t : String) :
    Text.sameIgnoringAsciiCase f.name t = (f.name == Text.inSmallLetters t) := by
  have hname := congrArg String.toList (inSmallLetters_name f)
  rw [Text.inSmallLetters, String.toList_ofList] at hname
  rw [Text.sameIgnoringAsciiCase, hname, Bool.eq_iff_iff, beq_iff_eq, beq_iff_eq,
    Text.inSmallLetters, ← String.toList_inj, String.toList_ofList]

/-- A text names a format in any case of its letters when it names one in small
letters. -/
theorem ofText?_eq (t : String) : ofText? t = ofName? (Text.inSmallLetters t) := by
  simp only [ofText?, ofName?, sameIgnoringAsciiCase_name]

theorem ofText?_eq_some_iff {t : String} {f : Format} :
    ofText? t = some f ↔ Text.sameIgnoringAsciiCase f.name t = true := by
  rw [ofText?_eq, ofName?_eq_some_iff, sameIgnoringAsciiCase_name, beq_iff_eq, eq_comm]

/-- Both readings agree on a text in small letters and on one that names no format, and
on no other text. -/
theorem ofName?_eq_ofText?_iff {t : String} :
    ofName? t = ofText? t ↔ Text.inSmallLetters t = t ∨ ofText? t = none := by
  constructor
  · intro heq
    cases htext : ofText? t with
    | none => exact .inr rfl
    | some f =>
        rw [ofName?_eq_some_iff.mp (heq.trans htext)]
        exact .inl (inSmallLetters_name f)
  · rintro (hsmall | hnone)
    · rw [ofText?_eq, hsmall]
    · rw [hnone, Option.eq_none_iff_forall_ne_some]
      intro f hf
      rw [ofText?_eq, ofName?_eq_some_iff.mp hf, inSmallLetters_name,
        ofName?_eq_some_iff.mpr rfl] at hnone
      cases hnone

end Log.Format

namespace Settings

open CommandLine

/-! ## What is loaded -/

/-- The variables with names of settings, also of settings that there are not. -/
def ownVariables (env : Environment) : Environment := env.filter fun e => (keysOfName? e.1).isSome

theorem ofEnvironment_ownVariables (env : Environment) :
    Layer.ofEnvironment (ownVariables env) = Layer.ofEnvironment env := by
  have hassignments : assignments (ownVariables env) = assignments env := by
    induction env with
    | nil => rfl
    | cons e env ih =>
        rw [ownVariables, List.filter_cons]
        cases hkeys : keysOfName? e.1 with
        | none =>
            simp only [assignments, hkeys]
            exact ih
        | some keys =>
            simp only [Option.isSome_some, if_true, assignments, hkeys]
            rw [← ih]
            rfl
  rw [Layer.ofEnvironment, hassignments, Layer.ofEnvironment]

/-- Other variables have no part in what is loaded. -/
theorem load_ownVariables (flags : List String) (env : Environment) (files : FileTree) :
    load flags (ownVariables env) files = load flags env files := by
  have hfile : (ownVariables env).get? fileVariable = env.get? fileVariable := by
    rw [ownVariables, get?_filter env (fun name => (keysOfName? name).isSome)]
    exact if_pos (by decide +kernel)
  have hsources (given : Given) : sources given (ownVariables env) = sources given env :=
    sources_congr rfl hfile
  simp only [load, loadOver, ofEnvironment_ownVariables, hsources]

section Loading

variable {flags : List String} {env : Environment} {files : FileTree}

/-- Flags that cannot be read load nothing. -/
theorem toOption_load_eq_none (env : Environment) (files : FileTree)
    (h : ∀ given, readFlags flags ≠ (given, [])) : (load flags env files).toOption = none := by
  cases hload : load flags env files with
  | error failure => rfl
  | ok s =>
      obtain ⟨given, -, hflags, -⟩ := load_eq_ok_iff.mp hload
      exact absurd hflags (h given)

/-- With nothing wrong in flags, variables and files, what is loaded are the settings
of the layer. -/
theorem toOption_load {given : Given} {l : Layer} (hflags : readFlags flags = (given, []))
    (henv : Layer.ofEnvironment env = .ok l)
    (hfaults : (Search.ofSources files (sources given env)).allFaults = []) :
    (load flags env files).toOption = (loaded given l env files).settings.toOption := by
  cases hsettings : (loaded given l env files).settings with
  | ok s => exact congrArg _ (load_eq_ok_iff.mpr ⟨given, l, hflags, henv, hfaults, hsettings⟩)
  | error fault =>
      cases hload : load flags env files with
      | error failure => rfl
      | ok s =>
          obtain ⟨given', l', hflags', henv', -, hsettings'⟩ := load_eq_ok_iff.mp hload
          cases hflags.symm.trans hflags'
          cases henv.symm.trans henv'
          cases hsettings.symm.trans hsettings'

theorem toOption_load_of_sources_eq_nil {given : Given} {l : Layer}
    (hflags : readFlags flags = (given, [])) (henv : Layer.ofEnvironment env = .ok l)
    (hsources : sources given env = []) :
    (load flags env files).toOption = ((Layer.ofFlags given).above l).settings.toOption := by
  have hfaults : (Search.ofSources files (sources given env)).allFaults = [] := by
    rw [hsources]
    rfl
  rw [toOption_load hflags henv hfaults, loaded_of_sources_eq_nil l hsources]

end Loading

/-! ## Layers that give a format alone -/

/-- The defaults with another format. -/
def withFormat (f : Log.Format) : Settings := { default with logFormat := f }

/-- The layer that gives a value for the format alone. -/
def Layer.ofFormat (v : Json) : Layer := ⟨none, some v, none⟩

theorem Layer.eq_ofFormat {l : Layer} {v : Json} (hformat : l.get? .logFormat = some v)
    (hothers : ∀ f, f ≠ .logFormat → l.get? f = none) : l = .ofFormat v := by
  ext f : 1
  cases f with
  | logFormat => exact hformat
  | logFilter => exact hothers .logFilter nofun
  | hooksHome => exact hothers .hooksHome nofun

theorem toOption_settings_ofFormat (v : Json) :
    (Layer.ofFormat v).settings.toOption = (formatOf v).toOption.map withFormat := by
  have hsettings : (Layer.ofFormat v).settings = (formatOf v).map withFormat := by
    cases h : formatOf v <;>
      simp only [Layer.ofFormat, Layer.settings, Layer.home, Layer.filter, Layer.format,
        Option.map_some, Option.getD_some, h] <;> rfl
  rw [hsettings]
  cases formatOf v <;> rfl

theorem toOption_formatOf_string (t : String) :
    (formatOf (.string t)).toOption = Log.Format.ofName? t := by
  rw [formatOf, formatNamed]
  cases Log.Format.ofName? t <;> rfl

/-! ## The format from each source -/

/-- Where a format can be given. -/
inductive Place where
  | flag
  | environment
  | file
deriving DecidableEq, Repr

/-- How a place reads a format. -/
def Place.format? : Place → String → Option Log.Format
  | flag => Log.Format.ofText?
  | environment | file => Log.Format.ofName?

/-- Whether a document gives a format, and says nothing else of the settings. -/
structure Document.GivesFormat (d : Document) (t : String) : Prop where
  format : d.get? Field.logFormat.key = some t
  others : ∀ f : Field, f ≠ .logFormat → d.get? f.key = none
  base : d.get? baseKey = none

/-- Flags, variables and files that give a format in one place, and nothing else.  A
file is named by a flag, or by a variable that can be read. -/
inductive GivesFormat (t : String) : Place → List String → Environment → FileTree → Prop
  | flag {u : FlagUse} {env : Environment} {files : FileTree} :
      u.kind = .setting .logFormat → u.value = t → ownVariables env = [] →
      GivesFormat t .flag u.arguments env files
  | environment {name : String} {env : Environment} {files : FileTree} :
      keysOfName? name = some [Field.logFormat.key] → ownVariables env = [(name, t)] →
      GivesFormat t .environment [] env files
  | fileOfFlag {u : FlagUse} {env : Environment} {files : FileTree} {d : Document} :
      u.kind = .file → u.Spelled → ownVariables env = [] →
      documentAt? files u.value = .ok (some d) → d.GivesFormat t →
      GivesFormat t .file u.arguments env files
  | fileOfVariable {path : String} {v : Json} {env : Environment} {files : FileTree}
      {d : Document} :
      ownVariables env = [(fileVariable, path)] → Variable.value path = .ok v →
      documentAt? files path = .ok (some d) → d.GivesFormat t →
      GivesFormat t .file [] env files

/-! ### A flag -/

theorem readFlags_arguments_iff {u : FlagUse} {given : Given} :
    readFlags u.arguments = (given, []) ↔ u.Fits ∧ given = [u.entry] := by
  have hargs : argumentsOf [u] = u.arguments := List.flatMap_singleton ..
  have hreadable : Readable [u] ↔ u.Fits :=
    ⟨fun h => h.fits u List.mem_cons_self,
      fun h => ⟨List.forall_mem_singleton.mpr h, List.pairwise_singleton ..⟩⟩
  rw [← hargs, readFlags_iff, hreadable]
  rfl

theorem valueOf?_singleton (u : FlagUse) (k : FlagKind) :
    valueOf? [u] k = if u.kind = k then some u.value else none := by
  by_cases hk : u.kind = k <;> simp [valueOf?, hk]

theorem get?_file_entry (u : FlagUse) :
    Given.get? [u.entry] fileFlagName = if u.kind = .file then some u.value else none := by
  have hget : Given.get? ([u].map FlagUse.entry) fileFlagName = valueOf? [u] .file :=
    get?_entries [u] .file
  rwa [valueOf?_singleton] at hget

theorem get?_ofGiven_entry (u : FlagUse) (f : Field) :
    (Layer.ofGiven [u.entry]).get? f =
      if u.kind = .setting f then f.ofFlag? u.value else none := by
  have hget := get?_ofGiven [u] f
  rw [valueOf?_singleton] at hget
  rw [← List.map_singleton, hget]
  split <;> rfl

/-- A format flag can be read when its value names a format in any case. -/
theorem fits_of_ofText? {u : FlagUse} (hkind : u.kind = .setting .logFormat)
    (hspelled : u.Spelled) {f : Log.Format} (hf : Log.Format.ofText? u.value = some f) :
    u.Fits := by
  have hsame := List.find?_some hf
  have hnames : Log.Format.names.any (Text.sameIgnoringAsciiCase · u.value) = true := by
    rw [Log.Format.names, List.any_map, List.any_eq_true]
    exact ⟨f, List.mem_of_find?_eq_some hf, hsame⟩
  refine ⟨hspelled, ?_⟩
  rw [hkind]
  exact if_pos hnames

/-- Letters are read as the value of a flag. -/
theorem spelled_of_letters {u : FlagUse} (h : ∀ c ∈ u.value.toList, c.isAlpha = true) :
    u.Spelled := by
  refine .inr ?_
  cases htext : u.value.toList with
  | nil => simp only [Token.ofText, htext]
  | cons c cs =>
      have hdash : c ≠ '-' := Text.ne_of_class (h c (htext ▸ List.mem_cons_self)) rfl
      simp [Token.ofText, htext, hdash]

theorem toOption_load_flag {u : FlagUse} (hkind : u.kind = .setting .logFormat)
    (hspelled : u.Spelled) (files : FileTree) :
    (load u.arguments [] files).toOption = (Log.Format.ofText? u.value).map withFormat := by
  cases hformat : Log.Format.ofText? u.value with
  | none =>
      refine toOption_load_eq_none [] files ?_
      intro given hflags
      have hfits := (readFlags_arguments_iff.mp hflags).1
      have hsome := isSome_ofFlag?_of_fits hfits hkind
      rw [Field.ofFlag?, hformat] at hsome
      cases hsome
  | some f =>
      have hfits := fits_of_ofText? hkind hspelled hformat
      have hsources : sources [u.entry] [] = [] := by
        rw [sources, get?_file_entry, hkind]
        rfl
      have hlayer : Layer.ofGiven [u.entry] = .ofFormat (.string f.name) := by
        refine Layer.eq_ofFormat ?_ ?_
        · rw [get?_ofGiven_entry, if_pos hkind, Field.ofFlag?, hformat]
          rfl
        · intro g hg
          rw [get?_ofGiven_entry, hkind]
          exact if_neg fun heq => hg (FlagKind.setting.inj heq).symm
      have hread : readFlags u.arguments = ([u.entry], []) :=
        readFlags_arguments_iff.mpr ⟨hfits, rfl⟩
      rw [toOption_load_of_sources_eq_nil (l := .empty) hread rfl hsources, Layer.above_empty,
        settings_ofFlags, hlayer, toOption_settings_ofFormat, toOption_formatOf_string,
        Log.Format.ofName?_eq_some_iff.mpr rfl]

/-! ### A variable -/

/-- No format has a name that stands for true or false. -/
theorem ofName?_of_truth? {t : String} {v : Json} (h : Variable.truth? t.toList = some v) :
    Log.Format.ofName? t = none := by
  refine Option.eq_none_iff_forall_ne_some.mpr fun f hf => ?_
  have hnone : Variable.truth? f.name.toList = none := by cases f <;> decide +kernel
  rw [Log.Format.ofName?_eq_some_iff.mp hf, hnone] at h
  cases h

theorem toOption_formatOf_of_truth? {cs : List Char} {v : Json} (h : Variable.truth? cs = some v) :
    (formatOf v).toOption = none := by
  obtain ⟨w, -, rfl⟩ := Option.map_eq_some_iff.mp h
  rfl

theorem legible_of_mem_singleton {name text : String} {v : Json}
    (hv : Variable.value text = .ok v) : ∀ e ∈ [(name, text)], Legible e := by
  intro e he keys _
  rw [List.mem_singleton.mp he]
  exact ⟨v, hv⟩

section Variable

variable {name t : String} (hname : keysOfName? name = some [Field.logFormat.key])
  (ht : ∀ c ∈ t.toList, c.isAlpha = true)
include hname

theorem ofEnvironment_format {v : Json} (hv : Variable.value t = .ok v) :
    Layer.ofEnvironment [(name, t)] = .ok (.ofFormat v) := by
  refine ofEnvironment_eq_ok_iff.mpr ⟨legible_of_mem_singleton hv, fun f => ?_⟩
  have hassignment : assignment? (name, t) = some ⟨[Field.logFormat.key], v⟩ := by
    simp only [assignment?, hname, hv]
  rw [List.reverse_singleton, List.findSome?_singleton, given?, hassignment]
  cases f <;> rfl

theorem sources_format : sources [] [(name, t)] = [] := by
  have hother : name ≠ fileVariable := by
    rintro rfl
    exact absurd hname (by decide +kernel)
  have hnone : Environment.get? [(name, t)] fileVariable = none := by
    simp [Environment.get?, hother]
  rw [sources, hnone]
  rfl

include ht in
theorem toOption_load_variable (files : FileTree) :
    (load [] [(name, t)] files).toOption = (Log.Format.ofName? t).map withFormat := by
  have hvalue := Variable.value_of_letters ht
  rw [String.ofList_toList] at hvalue
  have hread : readFlags [] = ([], []) := rfl
  have hempty : Layer.ofFlags [] = .empty := rfl
  rw [toOption_load_of_sources_eq_nil hread (ofEnvironment_format hname hvalue)
    (sources_format hname), hempty, Layer.empty_above, toOption_settings_ofFormat]
  cases htruth : Variable.truth? t.toList with
  | none => exact congrArg _ (toOption_formatOf_string t)
  | some v => rw [Option.getD_some, toOption_formatOf_of_truth? htruth, ofName?_of_truth? htruth]

end Variable

/-! ### A file -/

/-- A file that gives a format, when it is found. -/
theorem toOption_load_file {flags : List String} {env : Environment} {files : FileTree}
    {given : Given} {s : Source} {d : Document} {t : String}
    (hflags : readFlags flags = (given, []))
    (hempty : Layer.ofFlags given = .empty) (henv : Layer.ofEnvironment env = .ok .empty)
    (hsources : sources given env = [s]) (hdocument : documentAt? files s.path = .ok (some d))
    (hd : d.GivesFormat t) :
    (load flags env files).toOption = (Log.Format.ofName? t).map withFormat := by
  have hlayer : d.layer = .ofFormat (.string t) := by
    refine Layer.eq_ofFormat ?_ ?_
    · rw [Document.layer, Layer.get?_ofLookup, hd.format]
      rfl
    · intro f hf
      rw [Document.layer, Layer.get?_ofLookup, hd.others f hf]
      rfl
  have hat : layerAt? files s.path = .ok (some (.ofFormat (.string t))) := by
    rw [layerAt?, lineageLimit, layerWithin?, hdocument]
    simp only [hd.base, hlayer]
  have hsearch : Search.ofSources files (sources given env) =
      ⟨some (.ofFormat (.string t)), [], []⟩ := by
    rw [hsources, Search.ofSources, hat]
  have hfaults : (Search.ofSources files (sources given env)).allFaults = [] := by
    rw [hsearch]
    rfl
  rw [toOption_load hflags henv hfaults, loaded, hempty, hsearch, Layer.empty_above,
    Layer.empty_above, Option.getD_some, toOption_settings_ofFormat, toOption_formatOf_string]

theorem ne_empty_of_documentAt? {files : FileTree} {path : String} {d : Document}
    (h : documentAt? files path = .ok (some d)) : path ≠ "" := by
  rintro rfl
  cases h

theorem toOption_load_file_of_flag {u : FlagUse} {files : FileTree} {d : Document} {t : String}
    (hkind : u.kind = .file) (hspelled : u.Spelled)
    (hdocument : documentAt? files u.value = .ok (some d)) (hd : d.GivesFormat t) :
    (load u.arguments [] files).toOption = (Log.Format.ofName? t).map withFormat := by
  have hfits : u.Fits := by
    refine ⟨hspelled, ?_⟩
    rw [hkind]
    exact if_neg (ne_empty_of_documentAt? hdocument)
  have hgiven : Layer.ofGiven [u.entry] = .empty := by
    ext f : 1
    rw [get?_ofGiven_entry, hkind, Layer.get?_empty]
    rfl
  have hempty : Layer.ofFlags [u.entry] = .empty := by
    simp only [Layer.ofFlags, hgiven, ite_self]
  have hsources : sources [u.entry] [] = [⟨u.value, true⟩] := by
    rw [sources, get?_file_entry, if_pos hkind]
    rfl
  exact toOption_load_file (readFlags_arguments_iff.mpr ⟨hfits, rfl⟩) hempty rfl hsources
    hdocument hd

theorem toOption_load_file_of_variable {path : String} {v : Json} {files : FileTree}
    {d : Document} {t : String} (hv : Variable.value path = .ok v)
    (hdocument : documentAt? files path = .ok (some d)) (hd : d.GivesFormat t) :
    (load [] [(fileVariable, path)] files).toOption = (Log.Format.ofName? t).map withFormat := by
  have henv : Layer.ofEnvironment [(fileVariable, path)] = .ok .empty := by
    refine ofEnvironment_eq_ok_iff.mpr ⟨legible_of_mem_singleton hv, fun f => ?_⟩
    rw [List.reverse_singleton, List.findSome?_singleton, Layer.get?_empty,
      given?_of_spells_eq_false (spells_of_eq_fileVariable rfl f)]
  have hsources : sources [] [(fileVariable, path)] = [⟨path, false⟩] := by
    have hget : Environment.get? [(fileVariable, path)] fileVariable = some path := by
      simp [Environment.get?]
    have hne := ne_empty_of_documentAt? hdocument
    simp [sources, hget, Given.get?, hne]
  have hread : readFlags [] = ([], []) := rfl
  exact toOption_load_file hread rfl henv hsources hdocument hd

/-- A file of one line gives its format. -/
theorem documentAt?_of_line {files : FileTree} {path name t : String}
    (ht : ∀ c ∈ t.toList, c.isAlpha = true) (hname : (Path.ofText path).fileName? = some name)
    (hformat : foreignFormatOf? name = none)
    (hread : files.read path = .ok (Utf8.encode ("log_format = \"" ++ t ++ "\"\n"))) :
    documentAt? files path = .ok (some [(Field.logFormat.key, t)]) := by
  have htext : ("log_format = \"" ++ t ++ "\"\n").toList =
      Document.memberLine Field.logFormat.key.toList t.toList ++ ['\n'] := by
    simp [Document.memberLine, Field.key]
  have hdocument : documentOfBytes name (Utf8.encode ("log_format = \"" ++ t ++ "\"\n")) =
      .ok [(Field.logFormat.key, t)] := by
    have hkey : ∀ c ∈ Field.logFormat.key.toList, Text.isKeyChar c = true :=
      List.all_eq_true.mp (by decide +kernel)
    have hline := Document.read_memberLine hkey (by decide +kernel) ht
    rw [String.ofList_toList, String.ofList_toList] at hline
    rw [documentOfBytes, Utf8.encode, Utf8.decode_encodeChars, hformat, htext]
    simp only [hline]
  rw [documentAt?, hname, hread]
  simp only [hdocument]

/-! ### All places -/

theorem format?_eq_ofText?_iff (t : String) :
    (∀ place : Place, place.format? t = Log.Format.ofText? t) ↔
      Text.inSmallLetters t = t ∨ Log.Format.ofText? t = none := by
  rw [← Log.Format.ofName?_eq_ofText?_iff]
  constructor
  · intro hall
    exact hall .file
  · intro heq place
    cases place with
    | flag => rfl
    | environment | file => exact heq

/-- When a text of letters is given as the format in one place, what is loaded are the
defaults with the format that the place reads, or nothing when it reads none.  A flag
reads a name in any case of its letters, variables and files read the name itself; so
the places agree on texts in small letters and on texts that name no format.  A file
gives a text with one line. -/
theorem load_of_givesFormat {t : String} (ht : ∀ c ∈ t.toList, c.isAlpha = true) :
    (∀ place flags env files, GivesFormat t place flags env files →
      (load flags env files).toOption = (place.format? t).map withFormat) ∧
    (∀ files path name, (Path.ofText path).fileName? = some name → foreignFormatOf? name = none →
      files.read path = .ok (Utf8.encode ("log_format = \"" ++ t ++ "\"\n")) →
      ∃ d, documentAt? files path = .ok (some d) ∧ d.GivesFormat t) ∧
    (∀ f, (Place.flag.format? t = some f ↔ Text.sameIgnoringAsciiCase f.name t = true) ∧
      (Place.environment.format? t = some f ↔ t = f.name) ∧
      (Place.file.format? t = some f ↔ t = f.name)) ∧
    ((∀ place : Place, place.format? t = Log.Format.ofText? t) ↔
      Text.inSmallLetters t = t ∨ Log.Format.ofText? t = none) := by
  refine ⟨?_, ?_, ?_, format?_eq_ofText?_iff t⟩
  · intro place flags env files hgives
    rw [← load_ownVariables]
    cases hgives with
    | flag hkind hvalue henv =>
        subst hvalue
        rw [henv]
        exact toOption_load_flag hkind (spelled_of_letters ht) files
    | environment hname henv =>
        rw [henv]
        exact toOption_load_variable hname ht files
    | fileOfFlag hkind hspelled henv hdocument hd =>
        rw [henv]
        exact toOption_load_file_of_flag hkind hspelled hdocument hd
    | fileOfVariable henv hv hdocument hd =>
        rw [henv]
        exact toOption_load_file_of_variable hv hdocument hd
  · intro files path name hname hformat hread
    refine ⟨_, documentAt?_of_line ht hname hformat hread, ?_, ?_, ?_⟩
    · rfl
    · intro f hf
      cases f with
      | logFormat => exact absurd rfl hf
      | logFilter | hooksHome => rfl
    · rfl
  · intro f
    exact ⟨Log.Format.ofText?_eq_some_iff, Log.Format.ofName?_eq_some_iff,
      Log.Format.ofName?_eq_some_iff⟩

theorem load_of_givesFormat_capital :
    let files := withFile "c.toml" "log_format = \"Compact\"\n"
    (∀ c ∈ "Compact".toList, c.isAlpha = true) ∧
      (load ["-L", "Compact"] [("PATH", "/bin")] files).toOption =
        some (withFormat .compact) ∧
      (load [] [("PATH", "/bin"), ("hookline_Log_Format", "Compact")] files).toOption = none ∧
      (load ["--config-path", "c.toml"] [] files).toOption = none ∧
      (load [] [(fileVariable, "c.toml")] files).toOption = none ∧
      ¬ ∀ place : Place, place.format? "Compact" = Log.Format.ofText? "Compact" := by
  intro files
  have ht : ∀ c ∈ "Compact".toList, c.isAlpha = true := List.all_eq_true.mp (by decide +kernel)
  obtain ⟨hload, hline, -, hagree⟩ := load_of_givesFormat ht
  obtain ⟨d, hdocument, hd⟩ := hline files "c.toml" "c.toml" (by decide +kernel)
    (by decide +kernel) (eq_ok_of_toOption (by decide +kernel))
  refine ⟨ht, ?_, ?_, ?_, ?_, ?_⟩
  · exact hload .flag _ _ files
      (.flag (u := ⟨.setting .logFormat, "Compact", true, false⟩) rfl rfl (by decide +kernel))
  · have hname : keysOfName? "hookline_Log_Format" = some [Field.logFormat.key] := by
      decide +kernel
    exact hload .environment _ _ files (.environment hname (by decide +kernel))
  · exact hload .file _ _ files
      (.fileOfFlag (u := ⟨.file, "c.toml", false, false⟩) rfl (.inr (by decide +kernel))
        (by decide +kernel) hdocument hd)
  · exact hload .file _ _ files
      (.fileOfVariable (v := .string "c.toml") (by decide +kernel)
        (eq_ok_of_toOption (by decide +kernel)) hdocument hd)
  · rw [hagree]
    decide +kernel

/-- A format in capitals is read as a flag, and refused in a variable and in a file. -/
theorem load_format_in_capitals :
    let files := withFile "c.toml" "log_format = \"JSON\"\n"
    Log.Format.ofText? "JSON" = some .json ∧
      (load ["--log-format=JSON"] [] files).toOption = some (withFormat .json) ∧
      (load [] [("HOOKLINE_LOG_FORMAT", "JSON")] files).toOption = none ∧
      (load [] [(fileVariable, "c.toml")] files).toOption = none := by
  decide +kernel

end Settings

end AgentHooks
