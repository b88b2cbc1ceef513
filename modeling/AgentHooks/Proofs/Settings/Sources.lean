/-
Variables and files as sources of settings.

Each variable is read by itself, so variables can be read together when parts of
them can be, and the one that names a settings file gives no setting
(`ofEnvironment_of_parts`).  What a file gives is said by rules (`Says`): under a
key it has its own text, or else the one of the file that it extends.
-/
import AgentHooks.Proofs.Json.Produced
import AgentHooks.Proofs.Settings.Layers
import AgentHooks.Settings.Load

namespace AgentHooks.Settings

/-! ## Variables -/

/-- Whether a variable can be read, if its name is that of a setting. -/
def Legible (e : String × String) : Prop :=
  ∀ keys, keysOfName? e.1 = some keys → ∃ v, Variable.value e.2 = .ok v

/-- What a variable says, if it says something. -/
def assignment? (e : String × String) : Option Assignment :=
  match keysOfName? e.1, Variable.value e.2 with
  | some keys, .ok v => some ⟨keys, v⟩
  | _, _ => none

theorem assignments_eq_ok_iff {env : Environment} {all : List Assignment} :
    assignments env = .ok all ↔ (∀ e ∈ env, Legible e) ∧ all = env.filterMap assignment? := by
  induction env generalizing all with
  | nil => simp [assignments, eq_comm]
  | cons e env ih =>
      simp only [assignments, List.forall_mem_cons, Legible, List.filterMap_cons, assignment?]
      cases keysOfName? e.1 with
      | none => simp [ih, Legible]
      | some keys =>
          cases Variable.value e.2 with
          | error fault => simp [Bind.bind, Except.bind]
          | ok v =>
              refine (map_eq_ok_iff (f := (Assignment.mk keys v :: ·))).trans ?_
              simp only [ih, Option.some.injEq, forall_eq', Except.ok.injEq, exists_eq', true_and,
                and_assoc, exists_and_left, exists_eq_left, Legible]
              rw [eq_comm]

/-- What a variable gives for a setting. -/
def given? (f : Field) (e : String × String) : Option Json :=
  (assignment? e).bind (·.valueFor? f.key)

theorem findSome?_filterMap_reverse {α β γ : Type} (g : α → Option β) (h : β → Option γ)
    (xs : List α) :
    (xs.filterMap g).reverse.findSome? h = xs.reverse.findSome? fun x => (g x).bind h := by
  rw [← List.filterMap_reverse]
  induction xs.reverse with
  | nil => rfl
  | cons x xs ih =>
      rw [List.filterMap_cons, List.findSome?_cons]
      cases g x with
      | none => exact ih
      | some y => rw [List.findSome?_cons, ih]; rfl

/-- Of the variables that give a setting the last one counts. -/
theorem ofEnvironment_eq_ok_iff {env : Environment} {l : Layer} :
    Layer.ofEnvironment env = .ok l ↔
      (∀ e ∈ env, Legible e) ∧ ∀ f, l.get? f = env.reverse.findSome? (given? f) := by
  rw [Layer.ofEnvironment, map_eq_ok_iff]
  simp only [assignments_eq_ok_iff, and_assoc, exists_and_left, exists_eq_left, Layer.ext_iff,
    Layer.ofAssignments, Layer.get?_ofLookup, findSome?_filterMap_reverse]
  exact and_congr_right fun _ => forall_congr' fun _ => eq_comm

theorem get?_filter (env : Environment) (p : String → Bool) (name : String) :
    Environment.get? (env.filter (p ·.1)) name = if p name then env.get? name else none := by
  rw [Environment.get?, ← List.filter_reverse, find?_filter_key Prod.fst p name env.reverse]
  cases p name <;> rfl

theorem findSome?_filter_of_eq_none {α β : Type} {p : α → Bool} {g : α → Option β}
    (h : ∀ x, p x = false → g x = none) (xs : List α) :
    (xs.filter p).findSome? g = xs.findSome? g := by
  induction xs with
  | nil => rfl
  | cons x xs ih =>
      rw [List.filter_cons, List.findSome?_cons]
      split
      · rw [List.findSome?_cons, ih]
      · rename_i hp
        rw [h x (Bool.not_eq_true _ ▸ hp), ih]

/-- Whether a variable is one of a setting: its name spells the key of the setting,
perhaps with more keys behind it. -/
def spells (f : Field) (e : String × String) : Bool :=
  (keysOfName? e.1).any (·.head? == some f.key)

theorem given?_of_spells_eq_false {f : Field} {e : String × String} (h : spells f e = false) :
    given? f e = none := by
  unfold spells at h
  unfold given? assignment?
  cases hkeys : keysOfName? e.1 with
  | none => rfl
  | some keys =>
      cases Variable.value e.2 with
      | error fault => rfl
      | ok v =>
          cases keys with
          | nil => rfl
          | cons first inner =>
              rw [hkeys] at h
              have hfirst : first ≠ f.key := by simpa using h
              exact if_neg hfirst

theorem isSome_given?_iff {e : String × String} (h : Legible e) {f : Field} :
    (given? f e).isSome ↔ spells f e = true := by
  unfold given? assignment? spells
  cases hkeys : keysOfName? e.1 with
  | none => simp
  | some keys =>
      obtain ⟨v, hv⟩ := h keys hkeys
      rw [hv]
      cases keys with
      | nil => simp [Assignment.valueFor?]
      | cons first inner =>
          by_cases hfirst : first = f.key <;> simp [Assignment.valueFor?, hfirst]

theorem spells_of_eq_fileVariable {e : String × String} (h : e.1 = fileVariable) (f : Field) :
    spells f e = false := by
  unfold spells
  rw [h]
  cases f <;> decide +kernel

theorem eq_empty_of_fileVariable {env : Environment} {l : Layer}
    (h : Layer.ofEnvironment (env.filter (·.1 == fileVariable)) = .ok l) : l = .empty := by
  ext f : 1
  rw [(ofEnvironment_eq_ok_iff.mp h).2 f, Layer.get?_empty, List.findSome?_eq_none_iff]
  intro e he
  have hname := (List.mem_filter.mp (List.mem_reverse.mp he)).2
  exact given?_of_spells_eq_false (spells_of_eq_fileVariable (beq_iff_eq.mp hname) f)

/-- Variables can be read when the one that names a file can be and the others can be,
and these decide what is given. -/
theorem ofEnvironment_of_parts {env : Environment} {l l' : Layer}
    (h : Layer.ofEnvironment (env.filter (·.1 != fileVariable)) = .ok l)
    (h' : Layer.ofEnvironment (env.filter (·.1 == fileVariable)) = .ok l') :
    Layer.ofEnvironment env = .ok l := by
  obtain ⟨hlegible, hl⟩ := ofEnvironment_eq_ok_iff.mp h
  obtain ⟨hlegible', -⟩ := ofEnvironment_eq_ok_iff.mp h'
  refine ofEnvironment_eq_ok_iff.mpr ⟨fun e he => ?_, fun f => ?_⟩
  · by_cases hname : e.1 = fileVariable
    · exact hlegible' e (List.mem_filter.mpr ⟨he, beq_iff_eq.mpr hname⟩)
    · exact hlegible e (List.mem_filter.mpr ⟨he, bne_iff_ne.mpr hname⟩)
  · rw [hl f, ← List.filter_reverse]
    refine findSome?_filter_of_eq_none (fun e he => ?_) env.reverse
    exact given?_of_spells_eq_false (spells_of_eq_fileVariable (bne_eq_false_iff_eq.mp he) f)

theorem isSome_get?_ofEnvironment_iff {env : Environment} {l : Layer}
    (h : Layer.ofEnvironment env = .ok l) {f : Field} :
    (l.get? f).isSome ↔ ∃ e ∈ env, spells f e = true := by
  obtain ⟨hlegible, hl⟩ := ofEnvironment_eq_ok_iff.mp h
  rw [hl f, List.findSome?_isSome_iff]
  constructor
  · rintro ⟨e, he, hgiven⟩
    have hmem := List.mem_reverse.mp he
    exact ⟨e, hmem, (isSome_given?_iff (hlegible e hmem)).mp hgiven⟩
  · rintro ⟨e, he, hkeys⟩
    exact ⟨e, List.mem_reverse.mpr he, (isSome_given?_iff (hlegible e he)).mpr hkeys⟩

/-- What variables give for a setting depends on those of that setting. -/
theorem get?_ofEnvironment_filter {env : Environment} {l : Layer}
    (h : Layer.ofEnvironment env = .ok l) (f : Field) :
    l.get? f = (env.filter (spells f)).reverse.findSome? (given? f) := by
  rw [(ofEnvironment_eq_ok_iff.mp h).2 f, ← List.filter_reverse]
  exact (findSome?_filter_of_eq_none (fun _ => given?_of_spells_eq_false) env.reverse).symm

/-! ## Files -/

/-- What a file says under a key. -/
inductive Says (files : FileTree) (key : String) : (path text : String) → Prop
  | itself {path text : String} {d : Document} : documentAt? files path = .ok (some d) →
      d.get? key = some text → Says files key path text
  | extended {path base text : String} {d : Document} : documentAt? files path = .ok (some d) →
      d.get? key = none → d.get? baseKey = some base →
      Says files key (Path.relativeTo path base) text → Says files key path text

theorem says_iff {files : FileTree} {key path text : String} {d : Document}
    (hd : documentAt? files path = .ok (some d)) :
    Says files key path text ↔ d.get? key = some text ∨
      d.get? key = none ∧ ∃ base, d.get? baseKey = some base ∧
        Says files key (Path.relativeTo path base) text := by
  constructor
  · rintro (⟨hd', htext⟩ | ⟨hd', hnone, hbase, hsays⟩)
    · cases hd.symm.trans hd'
      exact .inl htext
    · cases hd.symm.trans hd'
      exact .inr ⟨hnone, _, hbase, hsays⟩
  · rintro (htext | ⟨hnone, base, hbase, hsays⟩)
    · exact .itself hd htext
    · exact .extended hd hnone hbase hsays

/-- The layer of a file has for a setting what the file says under its key. -/
theorem get?_of_layerWithin? {files : FileTree} {fuel : Nat} {path : String} {l : Layer}
    (h : layerWithin? files fuel path = .ok (some l)) {f : Field} {v : Json} :
    l.get? f = some v ↔ ∃ text, Says files f.key path text ∧ v = .string text := by
  induction fuel generalizing path l with
  | zero => cases h
  | succ fuel ih =>
      rw [layerWithin?] at h
      cases hdocument : documentAt? files path with
      | error fault => rw [hdocument] at h; cases h
      | ok found =>
          cases found with
          | none => rw [hdocument] at h; cases h
          | some d =>
              simp only [hdocument] at h
              simp only [says_iff hdocument]
              split at h
              · rename_i hbase
                cases h
                simp only [Document.layer, Layer.get?_ofLookup, hbase]
                cases d.get? f.key <;> simp [eq_comm]
              · cases h
              · rename_i base _ hbase
                split at h
                · cases h
                · cases h
                · rename_i below hbelow
                  cases h
                  simp only [Layer.get?_above, Document.layer, Layer.get?_ofLookup, hbase,
                    Option.some.injEq, exists_eq_left']
                  cases d.get? f.key with
                  | none => simp [ih hbelow]
                  | some text => simp [eq_comm]

/-- The file that counts of those that are asked for, and its layer: the first one
that can be used. -/
inductive Found (files : FileTree) : List Source → (path : String) → Layer → Prop
  | first {s : Source} {rest : List Source} {l : Layer} :
      layerAt? files s.path = .ok (some l) → Found files (s :: rest) s.path l
  | later {s : Source} {rest : List Source} {path : String} {l : Layer} :
      (∀ l, layerAt? files s.path ≠ .ok (some l)) → Found files rest path l →
      Found files (s :: rest) path l

theorem Found.layerAt? {files : FileTree} {sources : List Source} {path : String} {l : Layer}
    (h : Found files sources path l) : Settings.layerAt? files path = .ok (some l) := by
  induction h with
  | first h => exact h
  | later _ _ ih => exact ih

@[simp] theorem layer_note (s : Source) (fault : SourceFault) (search : Search) :
    (search.note s fault).layer = search.layer := by
  unfold Search.note
  split <;> rfl

theorem found_cons_iff {files : FileTree} {s : Source} {rest : List Source} {path : String}
    {l : Layer} (h : ∀ l, layerAt? files s.path ≠ .ok (some l)) :
    Found files (s :: rest) path l ↔ Found files rest path l := by
  constructor
  · rintro (hs | ⟨-, hfound⟩)
    · exact absurd hs (h l)
    · exact hfound
  · exact .later h

/-- The layer of a search is that of the file that is found. -/
theorem layer_ofSources_eq_some_iff {files : FileTree} {sources : List Source} {l : Layer} :
    (Search.ofSources files sources).layer = some l ↔ ∃ path, Found files sources path l := by
  induction sources with
  | nil => exact ⟨nofun, nofun⟩
  | cons s rest ih =>
      rw [Search.ofSources]
      cases hs : layerAt? files s.path with
      | error fault =>
          have hcons (path : String) : Found files (s :: rest) path l ↔ Found files rest path l :=
            found_cons_iff fun l h => nomatch hs.symm.trans h
          simp only [layer_note, ih, hcons]
      | ok found =>
          cases found with
          | none =>
              have hcons (path : String) :
                  Found files (s :: rest) path l ↔ Found files rest path l :=
                found_cons_iff fun l h => nomatch hs.symm.trans h
              simp only [hcons]
              split
              · rw [layer_note, ih]
              · exact ih
          | some l' =>
              constructor
              · intro h
                cases h
                exact ⟨s.path, .first hs⟩
              · rintro ⟨path, hfound⟩
                cases hfound with
                | first h => exact Except.ok.inj (hs.symm.trans h)
                | later hnot _ => exact absurd hs (hnot l')

/-- The text that the file that is found gives for a setting. -/
def FileSays (files : FileTree) (sources : List Source) (f : Field) (text : String) : Prop :=
  ∃ path l, Found files sources path l ∧ Says files f.key path text

theorem get?_ofSources_eq_some_iff {files : FileTree} {sources : List Source} {f : Field}
    {v : Json} :
    ((Search.ofSources files sources).layer.getD .empty).get? f = some v ↔
      ∃ text, FileSays files sources f text ∧ v = .string text := by
  constructor
  · intro hv
    cases hlayer : (Search.ofSources files sources).layer with
    | none => simp [hlayer] at hv
    | some l =>
        obtain ⟨path, hfound⟩ := layer_ofSources_eq_some_iff.mp hlayer
        rw [hlayer, Option.getD_some] at hv
        obtain ⟨text, hsays, rfl⟩ := (get?_of_layerWithin? hfound.layerAt?).mp hv
        exact ⟨text, ⟨path, l, hfound, hsays⟩, rfl⟩
  · rintro ⟨text, ⟨path, l, hfound, hsays⟩, rfl⟩
    rw [layer_ofSources_eq_some_iff.mpr ⟨path, hfound⟩, Option.getD_some]
    exact (get?_of_layerWithin? hfound.layerAt?).mpr ⟨text, hsays, rfl⟩

theorem isSome_get?_ofSources_iff {files : FileTree} {sources : List Source} {f : Field} :
    (((Search.ofSources files sources).layer.getD .empty).get? f).isSome ↔
      ∃ text, FileSays files sources f text := by
  simp only [Option.isSome_iff_exists, get?_ofSources_eq_some_iff]
  exact ⟨fun ⟨_, text, h, _⟩ => ⟨text, h⟩, fun ⟨text, h⟩ => ⟨_, text, h, rfl⟩⟩

end AgentHooks.Settings
