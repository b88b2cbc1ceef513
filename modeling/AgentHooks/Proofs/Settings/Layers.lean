/-
Layers, field by field.

A layer is judged as a whole, but each setting is decided by itself: `resolve` is
what one field of a layer comes to, and a layer has settings exactly when each of
its fields comes to a value (`settings_eq_ok_iff`).  A layer above another one
takes over the fields that it sets, and nothing else (`settings_above`).
-/
import AgentHooks.Settings.Basic

namespace AgentHooks.Settings

/-- What is looked up by its key is still found when items of some other keys are
left out. -/
theorem find?_filter_key {α κ : Type} [BEq κ] [LawfulBEq κ] (key : α → κ) (p : κ → Bool) (k : κ)
    (xs : List α) :
    (xs.filter fun x => p (key x)).find? (fun x => key x == k) =
      if p k then xs.find? (fun x => key x == k) else none := by
  have hboth (x : α) :
      decide (p (key x) = true ∧ (key x == k) = true) = (p k && key x == k) := by
    by_cases hk : key x = k <;> simp [hk]
  simp only [List.find?_filter, hboth]
  cases p k with
  | true => rfl
  | false => simp

/-- A setting. -/
inductive Field where
  | logFilter
  | logFormat
  | hooksHome
deriving DecidableEq, Repr

namespace Field

/-- The key of a setting in files and, after the start of the name, in variables. -/
def key : Field → String
  | logFilter => "log_filter"
  | logFormat => "log_format"
  | hooksHome => "hooks_home"

/-- The name of the flag of a setting. -/
def flagName : Field → String
  | logFilter => "log-filter"
  | logFormat => "log-format"
  | hooksHome => "hooks-home"

/-- What a setting may be. -/
def Value : Field → Type
  | logFilter => String
  | logFormat => Log.Format
  | hooksHome => Option String

/-- What a setting makes of the value that a source gives for it. -/
def read : (f : Field) → Json → Except ValueFault f.Value
  | logFilter => filterOf
  | logFormat => formatOf
  | hooksHome => homeOf

end Field

/-- The value of a setting. -/
def get (s : Settings) : (f : Field) → f.Value
  | .logFilter => s.logFilter
  | .logFormat => s.logFormat
  | .hooksHome => s.hooksHome

/-- Settings with given values. -/
def ofValues (values : (f : Field) → f.Value) : Settings :=
  ⟨values .logFilter, values .logFormat, values .hooksHome⟩

@[simp] theorem get_ofValues (values : (f : Field) → f.Value) (f : Field) :
    (ofValues values).get f = values f := by
  cases f <;> rfl

namespace Layer

/-- What a layer gives for a setting. -/
def get? (l : Layer) : Field → Option Json
  | .logFilter => l.logFilter
  | .logFormat => l.logFormat
  | .hooksHome => l.hooksHome

@[ext] theorem ext {l l' : Layer} (h : ∀ f, l.get? f = l'.get? f) : l = l' := by
  obtain ⟨filter, format, home⟩ := l
  obtain ⟨filter', format', home'⟩ := l'
  have hfilter : filter = filter' := h .logFilter
  have hformat : format = format' := h .logFormat
  have hhome : home = home' := h .hooksHome
  rw [hfilter, hformat, hhome]

@[simp] theorem get?_empty (f : Field) : empty.get? f = none := by cases f <;> rfl

@[simp] theorem get?_above (upper lower : Layer) (f : Field) :
    (upper.above lower).get? f = (upper.get? f).or (lower.get? f) := by
  cases f <;> rfl

@[simp] theorem get?_ofLookup (find? : String → Option Json) (f : Field) :
    (ofLookup find?).get? f = find? f.key := by
  cases f <;> rfl

@[simp] theorem above_empty (l : Layer) : l.above empty = l := by
  ext f; simp

@[simp] theorem empty_above (l : Layer) : empty.above l = l := by
  ext f; simp

/-- What one field of a layer comes to. -/
def resolve (l : Layer) (f : Field) : Except ValueFault f.Value :=
  ((l.get? f).map f.read).getD (.ok (default.get f))

theorem resolve_of_eq_none {l : Layer} {f : Field} (h : l.get? f = none) :
    l.resolve f = .ok (default.get f) := by
  rw [resolve, h]; rfl

/-- A field that is set above hides the one below. -/
theorem resolve_above_of_isSome {upper : Layer} (lower : Layer) {f : Field}
    (h : (upper.get? f).isSome) : (upper.above lower).resolve f = upper.resolve f := by
  obtain ⟨v, hv⟩ := Option.isSome_iff_exists.mp h
  rw [resolve, resolve, get?_above, hv, Option.some_or]

/-- A field that is not set above is the one below. -/
theorem resolve_above_of_eq_none {upper : Layer} (lower : Layer) {f : Field}
    (h : upper.get? f = none) : (upper.above lower).resolve f = lower.resolve f := by
  rw [resolve, resolve, get?_above, h, Option.none_or]

theorem settings_eq (l : Layer) : l.settings = do
    let hooksHome ← l.resolve .hooksHome
    let logFilter ← l.resolve .logFilter
    let logFormat ← l.resolve .logFormat
    return ⟨logFilter, logFormat, hooksHome⟩ := rfl

/-- The settings of a layer are what its fields come to. -/
theorem settings_eq_ok_iff {l : Layer} {s : Settings} :
    l.settings = .ok s ↔ ∀ f, l.resolve f = .ok (s.get f) := by
  rw [settings_eq]
  constructor
  · intro h
    cases hhome : l.resolve .hooksHome with
    | error fault => rw [hhome] at h; cases h
    | ok home =>
        cases hfilter : l.resolve .logFilter with
        | error fault => rw [hhome, hfilter] at h; cases h
        | ok filter =>
            cases hformat : l.resolve .logFormat with
            | error fault => rw [hhome, hfilter, hformat] at h; cases h
            | ok format =>
                rw [hhome, hfilter, hformat] at h
                cases h
                intro f
                cases f with
                | logFilter => exact hfilter
                | logFormat => exact hformat
                | hooksHome => exact hhome
  · intro h
    rw [h .hooksHome, h .logFilter, h .logFormat]
    rfl

/-- A layer above another one gives the fields that it sets, and leaves the others
to the one below. -/
theorem settings_above {upper lower : Layer} {s s' : Settings} (hupper : upper.settings = .ok s)
    (hlower : lower.settings = .ok s') :
    ∃ t, (upper.above lower).settings = .ok t ∧
      ∀ f, t.get f = if (upper.get? f).isSome then s.get f else s'.get f := by
  refine ⟨ofValues fun f => if (upper.get? f).isSome then s.get f else s'.get f,
    settings_eq_ok_iff.mpr fun f => ?_, fun f => get_ofValues ..⟩
  rw [get_ofValues]
  split
  · rename_i hset
    rw [resolve_above_of_isSome lower hset]
    exact settings_eq_ok_iff.mp hupper f
  · rename_i hunset
    rw [resolve_above_of_eq_none lower (Option.not_isSome_iff_eq_none.mp hunset)]
    exact settings_eq_ok_iff.mp hlower f

/-- A field that a layer does not set keeps its default. -/
theorem get_of_settings_of_eq_none {l : Layer} {s : Settings} (h : l.settings = .ok s) {f : Field}
    (hf : l.get? f = none) : s.get f = default.get f := by
  have hresolve := settings_eq_ok_iff.mp h f
  rw [resolve_of_eq_none hf] at hresolve
  exact (Except.ok.inj hresolve).symm

end Layer

end AgentHooks.Settings
