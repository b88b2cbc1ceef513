/-
Ways through a hierarchy.

In a tree in which every entry stands in a directory (`Rooted`), names without steps upwards
lead to a directory, or to the first name that is missing, too long or a file.  Where no file
is in the way (`Clear`), a way that does not end in a directory ends at something missing or
at a name that is too long (`walk_of_clear`); a file on the way ends it, and not as something
missing does (`Rooted.walk_of_file`).
-/
import AgentHooks.Proofs.Files.Paths

namespace AgentHooks

namespace FileTree

open Location (start)

/-! ## Trees in which every entry stands in a directory -/

/-- Every entry stands in a directory. -/
def Rooted (t : FileTree) : Prop := ∀ e ∈ t.entries, t.get? e.1.dropLast = some .directory

instance (t : FileTree) : Decidable t.Rooted := inferInstanceAs (Decidable (∀ _ ∈ _, _))

theorem get?_of_isGiven (t : FileTree) {l : Location} (h : l.isGiven = true) :
    t.get? l = some .directory := if_pos h

theorem isGiven_of_isGiven_concat {l : Location} {name : String}
    (h : Location.isGiven (l ++ [name]) = true) : l.isGiven = true := by
  rw [Location.isGiven, Bool.or_eq_true, beq_iff_eq] at h ⊢
  rcases h with h | h
  · cases l with
    | nil => exact .inr rfl
    | cons n ns => cases ns <;> cases h
  · rw [List.all_append, Bool.and_eq_true] at h
    exact .inr h.1

namespace Rooted

variable {t : FileTree} (h : t.Rooted)
include h

theorem get?_parent {l : Location} {name : String} (hne : t.get? (l ++ [name]) ≠ none) :
    t.get? l = some .directory := by
  by_cases hgiven : Location.isGiven (l ++ [name]) = true
  · exact t.get?_of_isGiven (isGiven_of_isGiven_concat hgiven)
  · rw [get?, if_neg hgiven, ne_eq, Option.map_eq_none_iff] at hne
    obtain ⟨e, he⟩ := Option.ne_none_iff_exists'.mp hne
    have hkey := List.find?_some he
    have hparent := h e (List.mem_of_find?_eq_some he)
    rwa [beq_iff_eq.mp hkey, List.dropLast_concat] at hparent

/-- Something is at every place on the way to something. -/
theorem get?_ne_none_on_way {l k : Location} (hpre : l <+: k) (hk : t.get? k ≠ none) :
    t.get? l ≠ none := by
  obtain ⟨names, rfl⟩ := hpre
  induction names using List.reverseRecOn with
  | nil => rwa [List.append_nil] at hk
  | append_singleton names name ih =>
      rw [← List.append_assoc] at hk
      refine ih ?_
      rw [h.get?_parent hk]
      exact nofun

end Rooted

/-! ## Walking -/

section Walk

variable (t : FileTree) (l : Location)

theorem enter_here : t.enter l "." = .ok l := if_pos rfl

theorem enter_plain {name : String} (hhere : name ≠ ".") (hup : name ≠ "..") :
    t.enter l name =
      if Path.nameLimit < name.utf8ByteSize then .error .nameTooLong
      else
        match t.get? (l ++ [name]) with
        | none => .error .notFound
        | some (.file _) => .error .notADirectory
        | some .directory => .ok (l ++ [name]) :=
  (if_neg hhere).trans (if_neg hup)

theorem walk_append (ns ms : List String) :
    t.walk l (ns ++ ms) = (t.walk l ns).bind fun k => t.walk k ms := by
  induction ns generalizing l with
  | nil => rfl
  | cons n ns ih =>
      rw [List.cons_append, walk, walk]
      cases t.enter l n with
      | error fault => rfl
      | ok next => exact ih next

theorem walk_singleton (name : String) : t.walk l [name] = t.enter l name := by
  rw [walk]
  cases t.enter l name with
  | error fault => rfl
  | ok next => rfl

/-- Names that say "here" do not matter. -/
theorem walk_filter (names : List String) :
    t.walk l (names.filter (· ≠ ".")) = t.walk l names := by
  induction names generalizing l with
  | nil => rfl
  | cons n ns ih =>
      by_cases hhere : n = "."
      · rw [hhere, walk, enter_here]
        exact ih l
      · rw [List.filter_cons_of_pos (by simpa using hhere), walk, walk]
        cases t.enter l n with
        | error fault => rfl
        | ok next => exact ih next

end Walk

/-- Names lead to a directory. -/
def Reaches (t : FileTree) (l : Location) (names : List String) : Prop :=
  t.walk l names = .ok (l.follow names)

section Reaches

variable {t : FileTree} {l : Location} {names : List String}

theorem reaches_of_walk {k : Location} (h : t.walk l names = .ok k) : t.Reaches l names := by
  rw [Reaches, h, eq_follow_of_walk h]

theorem reaches_nil (t : FileTree) (l : Location) : t.Reaches l [] := rfl

theorem reaches_cons {n : String} (h : t.enter l n = .ok (l.step n)) :
    t.Reaches l (n :: names) ↔ t.Reaches (l.step n) names := by
  rw [Reaches, walk, h, Location.follow_cons]
  exact Iff.rfl

theorem Reaches.initial {ns : List String} (h : t.Reaches l names) (hpre : ns <+: names) :
    t.Reaches l ns := by
  obtain ⟨ms, rfl⟩ := hpre
  rw [Reaches, walk_append] at h
  cases hns : t.walk l ns with
  | error fault =>
      rw [hns] at h
      cases h
  | ok k => exact reaches_of_walk hns

theorem Reaches.short (h : t.Reaches l names) (hl : l.Short) : (l.follow names).Short :=
  short_of_walk hl h

/-- There is a directory where names lead without steps upwards. -/
theorem Reaches.get?_follow (h : t.Reaches l names) (hup : ".." ∉ names)
    (hl : t.get? l = some .directory) : t.get? (l.follow names) = some .directory := by
  induction names generalizing l with
  | nil => exact hl
  | cons n ns ih =>
      have hn : n ≠ ".." := (List.ne_of_not_mem_cons hup).symm
      have hfirst : t.Reaches l [n] :=
        h.initial (List.cons_prefix_cons.mpr ⟨rfl, List.nil_prefix⟩)
      rw [Reaches, walk_singleton] at hfirst
      refine ih ((reaches_cons hfirst).mp h) (List.not_mem_of_not_mem_cons hup) ?_
      by_cases hhere : n = "."
      · rwa [hhere, Location.step_here]
      · rw [t.enter_plain l hhere hn] at hfirst
        split at hfirst
        · cases hfirst
        split at hfirst
        · cases hfirst
        · cases hfirst
        · rename_i hdirectory
          rwa [Location.step_plain l hhere hn]

end Reaches

/-! ## Ways without files -/

/-- No file is in the way of names: what is at each place on the way is a directory, or
there is nothing. -/
def Clear (t : FileTree) (l : Location) (names : List String) : Prop :=
  ∀ ns, ns <+: names → ∀ content, t.get? (l.follow ns) ≠ some (.file content)

section Clear

variable {t : FileTree} {l : Location} {names : List String}

theorem Clear.initial {ns : List String} (h : t.Clear l names) (hpre : ns <+: names) :
    t.Clear l ns := fun ms hms => h ms (hms.trans hpre)

theorem Clear.tail {n : String} (h : t.Clear l (n :: names)) : t.Clear (l.step n) names :=
  fun ns hns => h (n :: ns) (List.cons_prefix_cons.mpr ⟨rfl, hns⟩)

/-- New directories are in nobody's way. -/
theorem Clear.of_onlyMakes {t' : FileTree} {made : Location → Prop} (h : t.Clear l names)
    (hmakes : OnlyMakes made t t') : t'.Clear l names := by
  intro ns hns content hfile
  rcases hmakes (l.follow ns) with hsame | ⟨-, hdirectory, -⟩
  · exact h ns hns content (hsame.symm.trans hfile)
  · rw [hdirectory] at hfile
    cases hfile

/-- What becomes of a name where no file is in the way. -/
theorem enter_of_clear {n : String} (hup : n ≠ "..")
    (hclear : ∀ content, t.get? (l.step n) ≠ some (.file content)) :
    t.enter l n = .ok (l.step n) ∨ t.enter l n = .error .notFound ∨
      t.enter l n = .error .nameTooLong ∧ n ≠ "." ∧ Path.nameLimit < n.utf8ByteSize := by
  by_cases hhere : n = "."
  · rw [hhere, enter_here, Location.step_here]
    exact .inl rfl
  · rw [Location.step_plain l hhere hup] at hclear ⊢
    rw [t.enter_plain l hhere hup]
    split
    · rename_i hlong
      exact .inr (.inr ⟨rfl, hhere, hlong⟩)
    · split
      · exact .inr (.inl rfl)
      · rename_i content hfile
        exact absurd hfile (hclear content)
      · exact .inl rfl

/-- Where no file is in the way, names lead to a directory, or to something missing, or to
the first name that is too long.  The induction is on the names; each of them leads on, or
ends the way by itself. -/
theorem walk_of_clear (hclear : t.Clear l names) (hup : ".." ∉ names) :
    t.Reaches l names ∨ t.walk l names = .error .notFound ∨
      t.walk l names = .error .nameTooLong ∧
        ∀ ns, ns <+: names → (l.follow ns).Short → t.Reaches l ns := by
  induction names generalizing l with
  | nil => exact .inl (reaches_nil t l)
  | cons n ns ih =>
      have hn : n ≠ ".." := (List.ne_of_not_mem_cons hup).symm
      have hrest : ".." ∉ ns := List.not_mem_of_not_mem_cons hup
      have hfirst := hclear [n] (List.cons_prefix_cons.mpr ⟨rfl, List.nil_prefix⟩)
      rcases enter_of_clear hn hfirst with henter | henter | ⟨henter, hhere, hlong⟩
      · have hwalk : t.walk l (n :: ns) = t.walk (l.step n) ns := by rw [walk, henter]
        rw [reaches_cons henter, hwalk]
        refine (ih hclear.tail hrest).imp_right (Or.imp_right ?_)
        rintro ⟨hfault, hreaches⟩
        refine ⟨hfault, fun ms hms hshort => ?_⟩
        rcases List.prefix_cons_iff.mp hms with rfl | ⟨ms, rfl, hpre⟩
        · exact reaches_nil t l
        · exact (reaches_cons henter).mpr (hreaches ms hpre hshort)
      · exact .inr (.inl (by rw [walk, henter]))
      · refine .inr (.inr ⟨by rw [walk, henter], fun ms hms hshort => ?_⟩)
        rcases List.prefix_cons_iff.mp hms with rfl | ⟨ms, rfl, hpre⟩
        · exact reaches_nil t l
        · -- The name that is too long is one of the place.
          have hmem : n ∈ l.follow (n :: ms) := by
            rw [Location.follow_cons, Location.step_plain l hhere hn]
            exact (Location.prefix_follow _ fun h => hrest (hpre.subset h)).subset
              (List.mem_append_right l List.mem_cons_self)
          exact absurd (hshort n hmem) (Nat.not_le.mpr hlong)

end Clear

/-! ## Files in the way -/

section Blocked

variable {t : FileTree} (h : t.Rooted) {l : Location} {names : List String}
  (hup : ".." ∉ names)
include h hup

/-- On the way to something that is there nothing is missing. -/
theorem Rooted.walk_ne_notFound (hne : t.get? (l.follow names) ≠ none) :
    t.walk l names ≠ .error .notFound := by
  induction names generalizing l with
  | nil => exact nofun
  | cons n ns ih =>
      have hn : n ≠ ".." := (List.ne_of_not_mem_cons hup).symm
      have hrest : ".." ∉ ns := List.not_mem_of_not_mem_cons hup
      have hthere : t.get? (l.step n) ≠ none :=
        h.get?_ne_none_on_way (Location.prefix_follow _ hrest) hne
      rw [walk]
      cases henter : t.enter l n with
      | ok next =>
          rw [eq_step_of_enter henter]
          exact ih hrest hne
      | error fault =>
          rintro heq
          cases heq
          by_cases hhere : n = "."
          · rw [hhere, enter_here] at henter
            cases henter
          · rw [Location.step_plain l hhere hn] at hthere
            rw [t.enter_plain l hhere hn] at henter
            split at henter
            · cases henter
            split at henter
            · rename_i hnone
              exact hthere hnone
            · cases henter
            · cases henter

/-- A file ends a way, and not as something missing does. -/
theorem Rooted.walk_of_file (hl : t.get? l = some .directory) {ns : List String}
    (hpre : ns <+: names) {content : Bytes}
    (hfile : t.get? (l.follow ns) = some (.file content)) :
    ∃ fault, t.walk l names = .error fault ∧ fault ≠ .notFound := by
  have hns : ".." ∉ ns := fun hmem => hup (hpre.subset hmem)
  have hthere : t.get? (l.follow ns) ≠ none := by
    rw [hfile]
    exact nofun
  obtain ⟨ms, rfl⟩ := hpre
  cases hwalk : t.walk l ns with
  | ok k =>
      have hdirectory := (reaches_of_walk hwalk).get?_follow hns hl
      rw [hfile] at hdirectory
      cases hdirectory
  | error fault =>
      refine ⟨fault, ?_, ?_⟩
      · rw [walk_append, hwalk]
        rfl
      · rintro rfl
        exact h.walk_ne_notFound hns hthere hwalk

end Blocked

end FileTree

end AgentHooks
