/-
Paths without steps upwards, and their parents.

Each name of such a path leads further down, but for those that say "here"
(`Location.follow_eq_append`), and these are not plain names, unless in front.  The parents
of a path are made of its plain names, one fewer each time (`Path.ancestors_eq`); each of
them ends before the path does (`Path.place_ne_of_mem_chain`).  The last section is about
texts: a name joined to the text of a path stands directly under it (`Path.place_join`).
-/
import AgentHooks.Proofs.Files.Directories
import AgentHooks.Proofs.Text.Lines
import Mathlib.Data.List.Induction

namespace AgentHooks

namespace Location

theorem step_here (l : Location) : l.step "." = l := if_pos rfl

theorem step_plain (l : Location) {name : String} (hhere : name ≠ ".") (hup : name ≠ "..") :
    l.step name = l ++ [name] := by
  rw [step, if_neg hhere, if_neg hup]

/-- Without steps upwards every name leads further down. -/
theorem follow_eq_append (l : Location) {names : List String} (hup : ".." ∉ names) :
    l.follow names = l ++ names.filter (· ≠ ".") := by
  induction names generalizing l with
  | nil => exact (List.append_nil l).symm
  | cons n ns ih =>
      have hn : n ≠ ".." := (List.ne_of_not_mem_cons hup).symm
      rw [follow_cons, ih _ (List.not_mem_of_not_mem_cons hup)]
      by_cases hhere : n = "."
      · rw [hhere, step_here]
        rfl
      · rw [step_plain l hhere hn, List.filter_cons_of_pos (by simpa using hhere),
          List.append_assoc]
        rfl

theorem follow_append (l : Location) (ns ms : List String) :
    l.follow (ns ++ ms) = (l.follow ns).follow ms := List.foldl_append

theorem Short.initial {l k : Location} (h : k.Short) (hpre : l <+: k) : l.Short :=
  fun name hname => h name (hpre.subset hname)

theorem prefix_follow (l : Location) {names : List String} (hup : ".." ∉ names) :
    l <+: l.follow names := by
  rw [follow_eq_append l hup]
  exact List.prefix_append l _

end Location

namespace Path

/-! ## Plain names -/

section Plain

variable {p : Path}

/-- Only the first plain name can say "here". -/
theorem not_mem_tail_plainNames (p : Path) : "." ∉ p.plainNames.tail := by
  have hfilter (names : List String) : "." ∉ names.filter (· ≠ ".") := fun h =>
    of_decide_eq_true (List.mem_filter.mp h).2 rfl
  unfold plainNames
  split
  · exact List.not_mem_nil
  split
  · exact hfilter _
  · exact fun h => hfilter _ (List.mem_of_mem_tail h)

theorem filter_plainNames (p : Path) :
    p.plainNames.filter (· ≠ ".") = p.names.filter (· ≠ ".") := by
  unfold plainNames
  split
  · rename_i hnames
    rw [hnames]
  rename_i n ns hnames
  rw [hnames]
  split
  · rename_i hhere
    rw [List.filter_cons, List.filter_filter, List.filter_cons]
    simp
  · rw [List.filter_filter]
    simp

theorem place_eq_follow_plainNames : p.place = (Location.start p).follow p.plainNames := by
  rw [place, ← Location.follow_filter, ← filter_plainNames, Location.follow_filter]

theorem not_mem_plainNames (hup : ".." ∉ p.names) : ".." ∉ p.plainNames := by
  intro h
  have hfilter : ".." ∈ p.plainNames.filter (· ≠ ".") :=
    List.mem_filter.mpr ⟨h, decide_eq_true (by decide)⟩
  rw [filter_plainNames] at hfilter
  exact hup (List.mem_filter.mp hfilter).1

/-- The places that a path passes are those that its plain names lead to. -/
theorem passes_iff_plainNames {l : Location} :
    p.Passes l ↔ ∃ ns, ns <+: p.plainNames ∧ l = (Location.start p).follow ns := by
  constructor
  · rintro ⟨names, hpre, rfl⟩
    have hplain : names.filter (· ≠ ".") <+: p.plainNames.filter (· ≠ ".") := by
      rw [filter_plainNames]
      exact hpre.filter _
    obtain ⟨ns, hns, hfollow⟩ := Location.exists_prefix_of_prefix_filter hplain
    exact ⟨ns, hns, by rw [← hfollow, Location.follow_filter]⟩
  · rintro ⟨ns, hpre, rfl⟩
    obtain ⟨names, hnames, hfollow⟩ := exists_prefix_of_plainNames hpre
    exact ⟨names, hnames, hfollow⟩

/-- The names before the last one of a path that ends in a name. -/
theorem filter_dropLast_names (hhere : ¬ p.EndsHere) {xs : List String} {x : String}
    (hplain : p.plainNames = xs ++ [x]) :
    p.names.dropLast.filter (· ≠ ".") = xs.filter (· ≠ ".") := by
  have hname {n : String} (h : n ≠ ".") : [n].filter (· ≠ ".") = [n] :=
    List.filter_cons_of_pos (decide_eq_true h)
  have hfilter := p.filter_plainNames
  rw [hplain, List.filter_append] at hfilter
  rcases List.eq_nil_or_concat p.names with hnames | ⟨ys, y, hnames⟩
  · rw [plainNames, hnames] at hplain
    exact absurd hplain.symm (List.concat_ne_nil x xs)
  rw [List.concat_eq_append] at hnames
  have hy : y ≠ "." := by
    rintro rfl
    exact hhere (by rw [EndsHere, hnames, List.getLast?_concat])
  rw [hnames, List.filter_append, hname hy] at hfilter
  rw [hnames, List.dropLast_concat]
  by_cases hx : x = "."
  · -- Then it is the only plain name, but the path has another one.
    cases xs with
    | nil =>
        rw [hx] at hfilter
        exact absurd hfilter.symm (List.concat_ne_nil y _)
    | cons z zs =>
        refine absurd ?_ p.not_mem_tail_plainNames
        rw [hplain, hx]
        exact List.mem_append_right zs List.mem_cons_self
  · rw [hname hx] at hfilter
    exact (List.append_inj_left' hfilter rfl).symm

end Plain

/-! ## Parents -/

/-- The paths of some names and of their parents, each shorter than the one before. -/
def chain (absolute : Bool) (names : List String) : List Path :=
  ((List.range (names.length + 1)).reverse.filter (0 < ·)).map fun n =>
    ⟨absolute, names.take n, false⟩

/-- A name at the end is not in the paths of the names before it. -/
theorem map_take_concat (absolute : Bool) (ns : List String) (n : String) :
    (((List.range (ns.length + 1)).reverse.filter (0 < ·)).map fun k =>
      (⟨absolute, (ns ++ [n]).take k, false⟩ : Path)) = chain absolute ns := by
  refine List.map_congr_left fun k hk => ?_
  have hmem := (List.mem_filter.mp hk).1
  rw [List.mem_reverse, List.mem_range] at hmem
  rw [List.take_append_of_le_length (Nat.le_of_lt_succ hmem)]

theorem chain_concat (absolute : Bool) (ns : List String) (n : String) :
    chain absolute (ns ++ [n]) = ⟨absolute, ns ++ [n], false⟩ :: chain absolute ns := by
  have hlength : (ns ++ [n]).length = ns.length + 1 := List.length_append
  have hlongest (rest : List Nat) : ((ns.length + 1) :: rest).filter (0 < ·) =
      (ns.length + 1) :: rest.filter (0 < ·) := List.filter_cons_of_pos (by simp)
  rw [chain, hlength, List.range_succ, List.reverse_concat, hlongest, List.map_cons,
    map_take_concat, ← hlength, List.take_length]

/-- The parents of a path are made of its plain names. -/
theorem ancestors_eq (p : Path) :
    p.ancestors = p :: chain p.absolute p.plainNames.dropLast := by
  rw [ancestors]
  rcases List.eq_nil_or_concat p.plainNames with hnames | ⟨ns, n, hnames⟩
  · rw [hnames]
    rfl
  · rw [List.concat_eq_append] at hnames
    rw [hnames, List.dropLast_concat, List.length_append, ← map_take_concat p.absolute ns n]
    rfl

theorem mem_chain {absolute : Bool} {names : List String} {q : Path}
    (h : q ∈ chain absolute names) :
    ∃ ns, ns ≠ [] ∧ ns <+: names ∧ q = ⟨absolute, ns, false⟩ := by
  induction names using List.reverseRecOn with
  | nil => cases h
  | append_singleton ns n ih =>
      rw [chain_concat] at h
      rcases List.mem_cons.mp h with rfl | h
      · exact ⟨ns ++ [n], List.concat_ne_nil n ns, List.prefix_rfl, rfl⟩
      · obtain ⟨ms, hne, hpre, rfl⟩ := ih h
        exact ⟨ms, hne, hpre.trans (List.prefix_append ns [n]), rfl⟩

/-- The parents of a path end before it does. -/
theorem place_ne_of_mem_chain {p q : Path} (hup : ".." ∉ p.names)
    (h : q ∈ chain p.absolute p.plainNames.dropLast) : q.place ≠ p.place := by
  obtain ⟨ns, hne, hpre, rfl⟩ := mem_chain h
  rcases List.eq_nil_or_concat p.plainNames with hnames | ⟨xs, x, hnames⟩
  · rw [hnames] at hpre
    exact absurd (List.prefix_nil.mp hpre) hne
  rw [List.concat_eq_append] at hnames
  rw [hnames, List.dropLast_concat] at hpre
  obtain ⟨rest, rfl⟩ := hpre
  rw [List.append_assoc] at hnames
  have hhere : "." ∉ rest ++ [x] := by
    intro hmem
    refine p.not_mem_tail_plainNames ?_
    rw [hnames, List.tail_append_of_ne_nil hne]
    exact List.mem_append_right _ hmem
  have hplain : (rest ++ [x]).filter (· ≠ ".") = rest ++ [x] := by
    refine List.filter_eq_self.mpr fun name hname => decide_eq_true ?_
    rintro rfl
    exact hhere hname
  have hrest : ".." ∉ rest ++ [x] := by
    intro hmem
    refine not_mem_plainNames hup ?_
    rw [hnames]
    exact List.mem_append_right ns hmem
  rw [place_eq_follow_plainNames (p := p), hnames, Location.follow_append,
    Location.follow_eq_append _ hrest, hplain]
  intro heq
  exact List.concat_ne_nil x rest (List.self_eq_append_right.mp heq)

/-- The places where directories can be made for a path and its parents: those that it
passes, as long as no name is too long.  A path that ends in "here" is made by its parents
alone, so nothing is made at its own end. -/
def Makes (p : Path) (l : Location) : Prop :=
  p.Passes l ∧ l.Short ∧ (p.EndsHere → l ≠ p.place)

/-! ## Texts of paths -/

/-- Whether a text can be the path of something, or of the current directory. -/
def IsUsable (text : String) : Prop :=
  '\x00' ∉ text.toList ∧ text.utf8ByteSize ≤ lengthLimit

instance (text : String) : Decidable (IsUsable text) := inferInstanceAs (Decidable (_ ∧ _))

theorem check_eq {text : String} (hne : text ≠ "") (h : IsUsable text) :
    check text = .ok (ofText text) := by
  have hnul : ¬ text.toList.contains '\x00' = true := fun hnul =>
    h.1 (List.contains_iff_mem.mp hnul)
  rw [check, if_neg hnul, if_neg hne, if_neg (Nat.not_lt.mpr h.2)]

theorem exists_fault_of_not_usable {text : String} (h : ¬ IsUsable text) :
    ∃ fault, check text = .error fault := by
  unfold check
  split
  · exact ⟨_, rfl⟩
  rename_i hnul
  split
  · exact ⟨_, rfl⟩
  split
  · exact ⟨_, rfl⟩
  rename_i hlong
  exact absurd ⟨fun hmem => hnul (List.contains_iff_mem.mpr hmem), Nat.not_lt.mp hlong⟩ h

theorem not_usable_ne_empty {text : String} (h : ¬ IsUsable text) : text ≠ "" := by
  rintro rfl
  exact h (by decide)

/-! ## One more name -/

/-- A name that a file can have in a directory. -/
structure IsFileName (name : String) : Prop where
  no_slash : '/' ∉ name.toList
  ne_empty : name ≠ ""
  ne_here : name ≠ "."
  ne_up : name ≠ ".."

theorem names_append_slash (a b : List Char) :
    (ofText (String.ofList (a ++ '/' :: b))).names =
      (ofText (String.ofList a)).names ++ (ofText (String.ofList b)).names := by
  have hpieces : Text.cut (· == '/') (a ++ '/' :: b) =
      Text.cut (· == '/') a ++ Text.cut (· == '/') b :=
    Text.cut_append_sep (by rfl) a b
  simp only [ofText, Text.cutText, String.toList_ofList]
  rw [hpieces, List.map_append, List.filter_append]

variable {name : String} (h : IsFileName name)
include h

theorem names_of_isFileName : (ofText name).names = [name] := by
  have hpieces : Text.cut (· == '/') name.toList = [name.toList] := by
    refine Text.cut_of_forall fun c hc => beq_eq_false_iff_ne.mpr ?_
    rintro rfl
    exact h.no_slash hc
  simp only [ofText, Text.cutText, hpieces, List.map_cons, List.map_nil, String.ofList_toList]
  exact List.filter_cons_of_pos (decide_eq_true h.ne_empty)

theorem absolute_of_isFileName : (ofText name).absolute = false := by
  refine beq_eq_false_iff_ne.mpr fun hhead => ?_
  exact h.no_slash (List.mem_of_mem_head? hhead)

/-- A text with one more name: its names and that one, after a slash that may be there. -/
theorem names_join (text : String) :
    (ofText (join text name)).names = (ofText text).names ++ [name] := by
  have hslash (cs : List Char) : (ofText (String.ofList (cs ++ '/' :: name.toList))).names =
      (ofText (String.ofList cs)).names ++ [name] := by
    rw [names_append_slash, String.ofList_toList, names_of_isFileName h]
  unfold join
  split
  · rename_i hend
    rcases hend with rfl | hend
    · rw [String.empty_append, names_of_isFileName h]
      rfl
    · obtain ⟨cs, hcs⟩ := List.getLast?_eq_some_iff.mp hend
      have htext : text = String.ofList (cs ++ ['/']) := by rw [← hcs, String.ofList_toList]
      have hjoined : text ++ name = String.ofList (cs ++ '/' :: name.toList) := by
        rw [← String.toList_inj, String.toList_append, hcs, String.toList_ofList,
          List.append_assoc]
        rfl
      rw [hjoined, hslash, htext, names_append_slash]
      exact congrArg (· ++ [name]) (List.append_nil _).symm
  · have hjoined : text ++ "/" ++ name = String.ofList (text.toList ++ '/' :: name.toList) := by
      simp only [← String.toList_inj, String.toList_append, String.toList_ofList,
        List.append_assoc]
      rfl
    rw [hjoined, hslash, String.ofList_toList]

theorem absolute_join (text : String) :
    (ofText (join text name)).absolute = (ofText text).absolute := by
  by_cases hempty : text = ""
  · rw [hempty]
    exact absolute_of_isFileName h
  · have hhead (rest : String) : (ofText (text ++ rest)).absolute = (ofText text).absolute := by
      have hne : text.toList ≠ [] := fun hnil => hempty (String.toList_eq_nil_iff.mp hnil)
      obtain ⟨c, cs, htext⟩ := List.exists_cons_of_ne_nil hne
      simp only [ofText, String.toList_append, htext]
      rfl
    unfold join
    split
    · exact hhead name
    · rw [String.append_assoc]
      exact hhead _

/-- A name joined to a path stands directly under the place of the path. -/
theorem place_join (text : String) :
    (ofText (join text name)).place = (ofText text).place ++ [name] := by
  have hstart : Location.start (ofText (join text name)) = Location.start (ofText text) := by
    rw [Location.start, Location.start, absolute_join h text]
  rw [place, place, hstart, names_join h text, Location.follow_concat,
    Location.step_plain _ h.ne_here h.ne_up]

end Path

end AgentHooks
