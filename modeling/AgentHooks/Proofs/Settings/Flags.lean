/-
Flags of the settings, one use after the other.

A use of a flag is written in one argument or in two, and the grammar judges a
value that stands by itself only when it meets what follows.  `Enters` says what
uses come to without that delay, and `readFrom_iff` that the grammar reads uses to
nothing else.  So uses can be read when each of them can be and none is repeated
(`readFlags_iff`), in whatever order they stand, and parts of them can be put together
(`Readable.of_parts`).
-/
import AgentHooks.Proofs.Settings.Layers
import AgentHooks.Settings.Load

namespace AgentHooks.Settings

open CommandLine

/-! ## Uses of flags -/

/-- A flag with a value. -/
inductive FlagKind where
  /-- The flag that names a settings file. -/
  | file
  | setting (f : Field)
deriving DecidableEq, Repr

namespace FlagKind

def name : FlagKind → String
  | file => "config-path"
  | setting f => f.flagName

def short? : FlagKind → Option Char
  | file => none
  | setting .logFilter => some 'l'
  | setting .logFormat => some 'L'
  | setting .hooksHome => some 'H'

def operand : FlagKind → Operand
  | file => ⟨"PATH", .path⟩
  | setting .logFilter => ⟨"LOG_FILTER", .text⟩
  | setting .logFormat => ⟨"LOG_FORMAT", .word Log.Format.names Log.Format.noSuchFormat⟩
  | setting .hooksHome => ⟨"HOOKS_HOME", .text⟩

/-- The flag in the grammar. -/
def flag (k : FlagKind) : Flag := ⟨k.name, k.short?, .value k.operand⟩

theorem name_inj {k k' : FlagKind} : k.name = k'.name ↔ k = k' := by
  rcases k with _ | _ | _ | _ <;> rcases k' with _ | _ | _ | _ <;> decide

theorem flagOfLong? (k : FlagKind) : grammar.flagOfLong? k.name = some k.flag := by
  rcases k with _ | _ | _ | _ <;> decide

theorem flagOfShort? {k : FlagKind} {c : Char} (h : k.short? = some c) :
    grammar.flagOfShort? c = some k.flag := by
  rcases k with _ | _ | _ | _ <;> cases h <;> decide

theorem equals_not_mem_name (k : FlagKind) : '=' ∉ k.name.toList := by
  rcases k with _ | _ | _ | _ <;> decide +kernel

theorem name_ne_empty (k : FlagKind) : k.name ≠ "" := by
  rcases k with _ | _ | _ | _ <;> decide

theorem short?_ne_dash {k : FlagKind} {c : Char} (h : k.short? = some c) : c ≠ '-' := by
  rcases k with _ | _ | _ | _ <;> cases h <;> decide

end FlagKind

/-- A use of a flag. -/
structure FlagUse where
  kind : FlagKind
  value : String
  /-- Whether the flag is written in its short form, when it has one. -/
  short : Bool
  /-- Whether the value stands in the argument of the flag, after an equals sign. -/
  joined : Bool
deriving DecidableEq, Repr

namespace FlagUse

/-- How the flag is written. -/
def lead (u : FlagUse) : String :=
  match u.short, u.kind.short? with
  | true, some c => String.ofList ['-', c]
  | _, _ => "--" ++ u.kind.name

/-- The arguments of a use. -/
def arguments (u : FlagUse) : List String :=
  if u.joined then [u.lead ++ "=" ++ u.value] else [u.lead, u.value]

end FlagUse

theorem splitAtEquals_of_not_mem {cs : List Char} (h : '=' ∉ cs) :
    splitAtEquals cs = (String.ofList cs, none) := by
  have hall : ∀ c ∈ cs, (c != '=') = true := fun c hc => bne_iff_ne.mpr (ne_of_mem_of_not_mem hc h)
  have htake : (cs ++ []).takeWhile (· != '=') = cs ++ [] := List.takeWhile_append_of_pos hall
  have hdrop : (cs ++ []).dropWhile (· != '=') = [] := List.dropWhile_append_of_pos hall
  rw [List.append_nil] at htake hdrop
  rw [splitAtEquals, htake, hdrop]

theorem splitAtEquals_append {cs : List Char} (h : '=' ∉ cs) (value : List Char) :
    splitAtEquals (cs ++ '=' :: value) = (String.ofList cs, some (String.ofList value)) := by
  have hall : ∀ c ∈ cs, (c != '=') = true := fun c hc => bne_iff_ne.mpr (ne_of_mem_of_not_mem hc h)
  have htake : (cs ++ '=' :: value).takeWhile (· != '=') = cs := by
    rw [List.takeWhile_append_of_pos hall]
    simp
  have hdrop : (cs ++ '=' :: value).dropWhile (· != '=') = '=' :: value := by
    rw [List.dropWhile_append_of_pos hall]
    simp
  rw [splitAtEquals, htake, hdrop]

theorem ofText_long {name : String} (hname : name ≠ "") (heq : '=' ∉ name.toList) :
    Token.ofText ("--" ++ name) = .long name none := by
  have hsplit := splitAtEquals_of_not_mem heq
  rw [String.ofList_toList] at hsplit
  obtain ⟨c, cs, hcs⟩ : ∃ c cs, name.toList = c :: cs :=
    List.exists_cons_of_ne_nil (mt String.toList_eq_nil_iff.mp hname)
  rw [hcs] at hsplit
  simp [Token.ofText, hcs, hsplit]

theorem ofText_long_joined {name : String} (heq : '=' ∉ name.toList) (value : String) :
    Token.ofText ("--" ++ name ++ "=" ++ value) = .long name (some value) := by
  have hsplit := splitAtEquals_append heq value.toList
  rw [String.ofList_toList, String.ofList_toList] at hsplit
  simp [Token.ofText, hsplit]

theorem ofText_short {c : Char} (hc : c ≠ '-') :
    Token.ofText (String.ofList ['-', c]) = .short c [] := by
  simp [Token.ofText, hc]

theorem ofText_short_joined {c : Char} (hc : c ≠ '-') (value : String) :
    Token.ofText (String.ofList ['-', c] ++ "=" ++ value) = .short c ('=' :: value.toList) := by
  simp [Token.ofText]

/-! ## Reading uses -/

section Reading

variable (u : FlagUse) (given : Given) (pending : Option Pending) (rest : List String)

theorem lead_cases : u.lead = "--" ++ u.kind.name ∨
    ∃ c, u.kind.short? = some c ∧ u.lead = String.ofList ['-', c] := by
  unfold FlagUse.lead
  split
  · rename_i c _ hc
    exact .inr ⟨c, hc, rfl⟩
  · exact .inl rfl

/-- A flag in an argument of its own waits for its value. -/
theorem take_lead : grammar.take given pending u.lead rest =
    (settle given pending).map fun g => .more g (some ⟨u.kind.name, u.kind.operand, none⟩) := by
  rcases lead_cases u with hlead | ⟨c, hc, hlead⟩
  · simp only [hlead, Grammar.take, ofText_long u.kind.name_ne_empty u.kind.equals_not_mem_name,
      u.kind.flagOfLong?]
    rfl
  · simp only [hlead, Grammar.take, ofText_short (FlagKind.short?_ne_dash hc),
      FlagKind.flagOfShort? hc]
    rfl

/-- A value in the argument of its flag is entered at once. -/
theorem take_joined : grammar.take given pending (u.lead ++ "=" ++ u.value) rest =
    (settle given pending).bind fun g =>
      (enter g u.kind.name u.kind.operand u.value).map fun g => .more g none := by
  rcases lead_cases u with hlead | ⟨c, hc, hlead⟩
  · simp only [hlead, Grammar.take, ofText_long_joined u.kind.equals_not_mem_name,
      u.kind.flagOfLong?]
    rfl
  · simp only [hlead, Grammar.take, ofText_short_joined (FlagKind.short?_ne_dash hc),
      FlagKind.flagOfShort? hc, FlagKind.flag, Use.attached, attachedValue, String.ofList_toList]
    rfl

/-- A word is taken for the value that a flag waits for. -/
theorem take_word (long : String) (o : Operand) {text : String}
    (h : Token.ofText text = .word) : grammar.take given (some ⟨long, o, none⟩) text rest =
      .ok (.more given (some ⟨long, o, some text⟩)) := by
  simp only [Grammar.take, h, Grammar.takeWord]

/-- Nothing else can follow a flag that waits for its value. -/
theorem take_not_word (long : String) (o : Operand) {text : String}
    (h : Token.ofText text ≠ .word) :
    ∃ fault, grammar.take given (some ⟨long, o, none⟩) text rest = .error fault := by
  have htake (f : Flag) (brief : Bool) (attached : Option String) :
      ∃ fault, takeFlag given (some ⟨long, o, none⟩) f brief attached = .error fault := by
    unfold takeFlag
    cases f.use <;> cases attached <;> exact ⟨_, rfl⟩
  unfold Grammar.take
  cases htoken : Token.ofText text with
  | word => exact absurd htoken h
  | dashes => cases rest <;> exact ⟨_, rfl⟩
  | long name value =>
      simp only
      split
      · exact ⟨_, rfl⟩
      · exact htake ..
  | short c more =>
      simp only
      split
      · exact ⟨_, rfl⟩
      · exact htake ..

theorem readFrom_joined {u : FlagUse} (hjoined : u.joined = true) {r : Reading} :
    grammar.readFrom (u.arguments ++ rest) given pending = .ok r ↔
      ∃ g, settle given pending = .ok g ∧
        ∃ g', enter g u.kind.name u.kind.operand u.value = .ok g' ∧
          grammar.readFrom rest g' none = .ok r := by
  simp only [FlagUse.arguments, hjoined, if_true, List.singleton_append, Grammar.readFrom,
    take_joined]
  cases settle given pending with
  | error fault => simp [Except.bind]
  | ok g =>
      cases henter : enter g u.kind.name u.kind.operand u.value with
      | error fault => simp [Except.bind, Except.map, henter]
      | ok g' => simp [Except.bind, Except.map, henter]

theorem readFrom_apart {u : FlagUse} (hjoined : u.joined = false) {r : Reading} :
    grammar.readFrom (u.arguments ++ rest) given pending = .ok r ↔
      ∃ g, settle given pending = .ok g ∧ Token.ofText u.value = .word ∧
        grammar.readFrom rest g (some ⟨u.kind.name, u.kind.operand, some u.value⟩) = .ok r := by
  simp only [FlagUse.arguments, hjoined, Bool.false_eq_true, if_false, List.cons_append,
    List.nil_append, Grammar.readFrom, take_lead]
  cases settle given pending with
  | error fault => simp [Except.map]
  | ok g =>
      by_cases hword : Token.ofText u.value = .word
      · simp [Except.map, take_word g rest _ _ hword, hword]
      · obtain ⟨fault, htake⟩ := take_not_word g rest u.kind.name u.kind.operand hword
        simp [Except.map, htake, hword]

end Reading

/-- Whether the value of a use is read as a value: in an argument of its own it has
to be a word. -/
def FlagUse.Spelled (u : FlagUse) : Prop := u.joined = true ∨ Token.ofText u.value = .word

/-- What uses come to when each value is entered at once. -/
inductive Enters : Given → List FlagUse → Given → Prop
  | nil {given : Given} : Enters given [] given
  | cons {given given' given'' : Given} {u : FlagUse} {us : List FlagUse} : u.Spelled →
      enter given u.kind.name u.kind.operand u.value = .ok given' → Enters given' us given'' →
      Enters given (u :: us) given''

theorem enters_cons_iff {given given' : Given} {u : FlagUse} {us : List FlagUse} :
    Enters given (u :: us) given' ↔
      u.Spelled ∧ ∃ g, enter given u.kind.name u.kind.operand u.value = .ok g ∧
        Enters g us given' := by
  constructor
  · rintro (_ | ⟨hspelled, henter, hus⟩)
    exact ⟨hspelled, _, henter, hus⟩
  · rintro ⟨hspelled, g, henter, hus⟩
    exact .cons hspelled henter hus

/-- The grammar reads uses as if each value were entered at once. -/
theorem readFrom_iff {us : List FlagUse} {given given' : Given} {pending : Option Pending} :
    grammar.readFrom (us.flatMap FlagUse.arguments) given pending = .ok (.flags given') ↔
      ∃ g, settle given pending = .ok g ∧ Enters g us given' := by
  induction us generalizing given pending with
  | nil =>
      simp only [List.flatMap_nil, Grammar.readFrom]
      constructor
      · intro h
        cases hsettle : settle given pending with
        | error fault => rw [hsettle] at h; cases h
        | ok g =>
            rw [hsettle] at h
            cases h
            exact ⟨_, rfl, .nil⟩
      · rintro ⟨g, hsettle, hus⟩
        cases hus
        rw [hsettle]
        rfl
  | cons u us ih =>
      simp only [List.flatMap_cons, enters_cons_iff, FlagUse.Spelled]
      cases hjoined : u.joined with
      | true => simp [readFrom_joined _ _ _ hjoined, ih, settle]
      | false => simp [readFrom_apart _ _ _ hjoined, ih, settle]

/-! ## Uses that can be read -/

namespace FlagUse

/-- What a use gives. -/
def entry (u : FlagUse) : String × String := (u.kind.name, u.value)

/-- Whether a use can be read by itself. -/
structure Fits (u : FlagUse) : Prop where
  spelled : u.Spelled
  value : u.kind.operand.fault? u.kind.name u.value = none

end FlagUse

theorem enter_eq_ok_iff {given given' : Given} {long value : String} {o : Operand} :
    enter given long o value = .ok given' ↔
      long ∉ given.map (·.1) ∧ o.fault? long value = none ∧ given' = given ++ [(long, value)] := by
  have hany : given.any (·.1 == long) = true ↔ long ∈ given.map (·.1) := by
    simp [List.any_eq_true, List.mem_map]
  unfold enter
  split
  · rename_i h
    exact ⟨nofun, fun hok => absurd (hany.mp h) hok.1⟩
  · rename_i h
    have hmem := mt hany.mpr h
    split
    · rename_i fault hfault
      simp [hfault]
    · rename_i hfault
      simp only [Except.ok.injEq, hmem, hfault, not_false_eq_true, true_and]
      exact eq_comm

theorem enters_iff {us : List FlagUse} {given given' : Given} :
    Enters given us given' ↔
      (∀ u ∈ us, u.Fits ∧ u.kind.name ∉ given.map (·.1)) ∧ (us.map (·.kind)).Nodup ∧
        given' = given ++ us.map FlagUse.entry := by
  induction us generalizing given with
  | nil =>
      constructor
      · intro h
        cases h
        exact ⟨nofun, .nil, (List.append_nil _).symm⟩
      · rintro ⟨-, -, rfl⟩
        rw [List.map_nil, List.append_nil]
        exact .nil
  | cons u us ih =>
      -- A flag that is still new behind `u` is new, and another one than that of `u`.
      have hnew (x : FlagUse) : x.kind.name ∉ (given ++ [u.entry]).map (·.1) ↔
          x.kind.name ∉ given.map (·.1) ∧ x.kind ≠ u.kind := by
        simp only [List.map_append, List.mem_append, List.map_cons, List.map_nil,
          List.mem_singleton, not_or, FlagUse.entry, FlagKind.name_inj, ne_eq]
      have hmem : u.kind ∉ us.map (·.kind) ↔ ∀ x ∈ us, x.kind ≠ u.kind := by
        simp only [List.mem_map, not_exists, not_and, ne_eq]
      simp only [enters_cons_iff, enter_eq_ok_iff, List.forall_mem_cons, List.map_cons,
        List.nodup_cons, hmem]
      constructor
      · rintro ⟨hspelled, g, ⟨hu, hvalue, rfl⟩, hus⟩
        obtain ⟨hfits, hnodup, rfl⟩ := ih.mp hus
        have hothers (x : FlagUse) (hx : x ∈ us) := (hnew x).mp (hfits x hx).2
        refine ⟨⟨⟨⟨hspelled, hvalue⟩, hu⟩, fun x hx => ⟨(hfits x hx).1, (hothers x hx).1⟩⟩,
          ⟨fun x hx => (hothers x hx).2, hnodup⟩, ?_⟩
        rw [List.append_assoc]
        rfl
      · rintro ⟨⟨⟨hu, hunew⟩, hfits⟩, ⟨hothers, hnodup⟩, rfl⟩
        refine ⟨hu.spelled, given ++ [u.entry], ⟨hunew, hu.value, rfl⟩, ih.mpr ⟨fun x hx => ?_,
          hnodup, ?_⟩⟩
        · exact ⟨(hfits x hx).1, (hnew x).mpr ⟨(hfits x hx).2, hothers x hx⟩⟩
        · rw [List.append_assoc]
          rfl

theorem readFlags_eq_iff {flags : List String} {given : Given} :
    readFlags flags = (given, []) ↔ grammar.read flags = .ok (.flags given) := by
  unfold readFlags
  cases grammar.read flags with
  | error fault => simp
  | ok r => cases r <;> simp

/-- The arguments of uses. -/
def argumentsOf (us : List FlagUse) : List String := us.flatMap FlagUse.arguments

/-- Whether uses can be read: each of them by itself, and no flag twice. -/
structure Readable (us : List FlagUse) : Prop where
  fits : ∀ u ∈ us, u.Fits
  nodup : (us.map (·.kind)).Nodup

/-- Uses that are read give their values. -/
theorem readFlags_iff {us : List FlagUse} {given : Given} :
    readFlags (argumentsOf us) = (given, []) ↔ Readable us ∧ given = us.map FlagUse.entry := by
  rw [readFlags_eq_iff, Grammar.read, argumentsOf, readFrom_iff]
  simp only [settle, Except.ok.injEq, exists_eq_left', enters_iff, List.map_nil,
    List.not_mem_nil, not_false_eq_true, and_true, List.nil_append]
  exact ⟨fun ⟨hfits, hnodup, hgiven⟩ => ⟨⟨hfits, hnodup⟩, hgiven⟩,
    fun ⟨h, hgiven⟩ => ⟨h.fits, h.nodup, hgiven⟩⟩

/-- Uses can be read when those of some flags and those of the others can be. -/
theorem Readable.of_parts {us : List FlagUse} (p : FlagKind → Bool)
    (h : Readable (us.filter (p ·.kind))) (h' : Readable (us.filter (!p ·.kind))) :
    Readable us where
  fits u hu := by
    cases hp : p u.kind with
    | true => exact h.fits u (List.mem_filter.mpr ⟨hu, hp⟩)
    | false => exact h'.fits u (List.mem_filter.mpr ⟨hu, by rw [hp]; rfl⟩)
  nodup := by
    have hpart := h.nodup
    have hrest := h'.nodup
    simp only [List.Nodup, List.pairwise_map, List.pairwise_filter] at hpart hrest ⊢
    refine (hpart.and hrest).imp ?_
    rintro u u' ⟨hboth, hneither⟩ heq
    rw [← heq] at hboth hneither
    cases hp : p u.kind with
    | true => exact hboth hp hp rfl
    | false => exact hneither (by rw [hp]; rfl) (by rw [hp]; rfl) rfl

/-! ## The layer of uses -/

/-- The value that uses give for a flag. -/
def valueOf? (us : List FlagUse) (k : FlagKind) : Option String :=
  (us.find? (·.kind == k)).map (·.value)

theorem get?_entries (us : List FlagUse) (k : FlagKind) :
    Given.get? (us.map FlagUse.entry) k.name = valueOf? us k := by
  have hkind (u : FlagUse) : (u.entry.1 == k.name) = (u.kind == k) := by
    rw [FlagUse.entry, Bool.eq_iff_iff, beq_iff_eq, beq_iff_eq, FlagKind.name_inj]
  simp only [Given.get?, valueOf?, List.find?_map, Option.map_map, Function.comp_def, hkind]
  rfl

theorem valueOf?_filter (us : List FlagUse) (p : FlagKind → Bool) (k : FlagKind) :
    valueOf? (us.filter (p ·.kind)) k = if p k then valueOf? us k else none := by
  rw [valueOf?, find?_filter_key FlagUse.kind p k us]
  cases p k <;> rfl

theorem valueOf?_eq_none_iff {us : List FlagUse} {k : FlagKind} :
    valueOf? us k = none ↔ ∀ u ∈ us, u.kind ≠ k := by
  simp [valueOf?]

theorem valueOf?_eq_some_iff {us : List FlagUse} (h : Readable us) {k : FlagKind}
    {value : String} :
    valueOf? us k = some value ↔ ∃ u ∈ us, u.kind = k ∧ u.value = value := by
  constructor
  · intro hvalue
    obtain ⟨u, hfind, rfl⟩ := Option.map_eq_some_iff.mp hvalue
    have hkind := List.find?_some hfind
    exact ⟨u, List.mem_of_find?_eq_some hfind, beq_iff_eq.mp hkind, rfl⟩
  · rintro ⟨u, hu, rfl, rfl⟩
    obtain ⟨before, after, rfl⟩ := List.append_of_mem hu
    -- No use before this one is of the same flag, so this one is found.
    have hnodup := h.nodup
    rw [List.Nodup, List.pairwise_map, List.pairwise_append] at hnodup
    have hbefore : before.find? (·.kind == u.kind) = none := by
      refine List.find?_eq_none.mpr fun x hx => ?_
      rw [beq_iff_eq]
      exact hnodup.2.2 x hx u List.mem_cons_self
    rw [valueOf?, List.find?_append, hbefore, Option.none_or, List.find?_cons_of_pos (by simp)]
    rfl

/-- What the value of a flag gives for a setting; a format is given by its own
name. -/
def Field.ofFlag? : Field → String → Option Json
  | .logFormat, text => (Log.Format.ofText? text).map fun f => .string f.name
  | _, text => some (.string text)

theorem get?_ofGiven (us : List FlagUse) (f : Field) :
    (Layer.ofGiven (us.map FlagUse.entry)).get? f =
      (valueOf? us (.setting f)).bind f.ofFlag? := by
  rw [← get?_entries]
  cases f with
  | logFilter | hooksHome => exact Option.map_eq_bind ..
  | logFormat => exact Option.map_bind ..

/-- Whether uses give a setting. -/
def Gives (us : List FlagUse) (f : Field) : Prop := ∃ u ∈ us, u.kind = .setting f

instance (us : List FlagUse) (f : Field) : Decidable (Gives us f) :=
  inferInstanceAs (Decidable (∃ u ∈ us, u.kind = .setting f))

theorem isSome_ofFlag?_of_fits {u : FlagUse} (h : u.Fits) {f : Field} (hf : u.kind = .setting f) :
    (f.ofFlag? u.value).isSome := by
  cases f with
  | logFilter | hooksHome => rfl
  | logFormat =>
      have hvalue := h.value
      rw [hf] at hvalue
      simp only [FlagKind.operand, Operand.fault?] at hvalue
      split at hvalue
      · rename_i hany
        rw [Field.ofFlag?, Option.isSome_map, Log.Format.ofText?, List.find?_isSome]
        simpa [Log.Format.names] using hany
      · cases hvalue

theorem isSome_get?_ofGiven_iff {us : List FlagUse} (h : Readable us) {f : Field} :
    ((Layer.ofGiven (us.map FlagUse.entry)).get? f).isSome ↔ Gives us f := by
  rw [get?_ofGiven]
  cases hvalue : valueOf? us (.setting f) with
  | none => simpa [Gives] using valueOf?_eq_none_iff.mp hvalue
  | some value =>
      obtain ⟨u, hu, hkind, rfl⟩ := (valueOf?_eq_some_iff h).mp hvalue
      exact iff_of_true (isSome_ofFlag?_of_fits (h.fits u hu) hkind) ⟨u, hu, hkind⟩

/-- Whether uses, all together, do no more than repeat the defaults. -/
def RepeatsDefaults (us : List FlagUse) : Prop :=
  (∃ u ∈ us, u.kind = .setting .logFilter ∧ u.value = "info") ∧
  (∃ u ∈ us, u.kind = .setting .logFormat ∧
    Text.sameIgnoringAsciiCase "json" u.value = true) ∧
  ∀ u ∈ us, u.kind ≠ .setting .hooksHome ∧ u.kind ≠ .file

instance (us : List FlagUse) : Decidable (RepeatsDefaults us) :=
  inferInstanceAs (Decidable (_ ∧ _ ∧ _))

theorem ofFlag?_logFormat_eq_json_iff {text : String} :
    Field.logFormat.ofFlag? text = some (.string "json") ↔
      Text.sameIgnoringAsciiCase "json" text = true := by
  simp only [Field.ofFlag?, Log.Format.ofText?, Log.Format.all, List.find?_cons, List.find?_nil,
    Log.Format.name]
  cases Text.sameIgnoringAsciiCase "json" text with
  | true => exact iff_of_true rfl rfl
  | false => cases Text.sameIgnoringAsciiCase "compact" text <;> decide

/-- A setting has a value in the layer of uses when a use gives it that value. -/
theorem get?_ofGiven_eq_some_iff {us : List FlagUse} (h : Readable us) {f : Field} {v : Json} :
    (Layer.ofGiven (us.map FlagUse.entry)).get? f = some v ↔
      ∃ u ∈ us, u.kind = .setting f ∧ f.ofFlag? u.value = some v := by
  rw [get?_ofGiven, Option.bind_eq_some_iff]
  constructor
  · rintro ⟨value, hvalue, hv⟩
    obtain ⟨u, hu, hkind, rfl⟩ := (valueOf?_eq_some_iff h).mp hvalue
    exact ⟨u, hu, hkind, hv⟩
  · rintro ⟨u, hu, hkind, hv⟩
    exact ⟨u.value, (valueOf?_eq_some_iff h).mpr ⟨u, hu, hkind, rfl⟩, hv⟩

/-- Uses that repeat the defaults are those whose layer is that of the defaults, and
that name no file. -/
theorem repeatsDefaults_iff {us : List FlagUse} (h : Readable us) :
    Layer.ofGiven (us.map FlagUse.entry) = .ofSettings default ∧
      Given.get? (us.map FlagUse.entry) fileFlagName = none ↔ RepeatsDefaults us := by
  have hfilter : (Layer.ofGiven (us.map FlagUse.entry)).get? .logFilter = some (.string "info") ↔
      ∃ u ∈ us, u.kind = .setting .logFilter ∧ u.value = "info" := by
    simp only [get?_ofGiven_eq_some_iff h, Field.ofFlag?, Option.some.injEq, Json.string.injEq]
  have hformat : (Layer.ofGiven (us.map FlagUse.entry)).get? .logFormat = some (.string "json") ↔
      ∃ u ∈ us, u.kind = .setting .logFormat ∧
        Text.sameIgnoringAsciiCase "json" u.value = true := by
    simp only [get?_ofGiven_eq_some_iff h, ofFlag?_logFormat_eq_json_iff]
  have hhome : (Layer.ofGiven (us.map FlagUse.entry)).get? .hooksHome = none ↔
      ∀ u ∈ us, u.kind ≠ .setting .hooksHome := by
    rw [← Option.not_isSome_iff_eq_none, isSome_get?_ofGiven_iff h]
    simp only [Gives, not_exists, not_and, ne_eq]
  have hfile : Given.get? (us.map FlagUse.entry) fileFlagName = none ↔ ∀ u ∈ us, u.kind ≠ .file :=
    get?_entries us .file ▸ valueOf?_eq_none_iff
  have hlayer : Layer.ofGiven (us.map FlagUse.entry) = .ofSettings default ↔
      (Layer.ofGiven (us.map FlagUse.entry)).get? .logFilter = some (.string "info") ∧
      (Layer.ofGiven (us.map FlagUse.entry)).get? .logFormat = some (.string "json") ∧
      (Layer.ofGiven (us.map FlagUse.entry)).get? .hooksHome = none := by
    rw [Layer.ext_iff]
    exact ⟨fun hall => ⟨hall .logFilter, hall .logFormat, hall .hooksHome⟩,
      fun ⟨hfilter, hformat, hhome⟩ f => by cases f <;> assumption⟩
  rw [hlayer, hfilter, hformat, hhome, hfile, and_assoc, and_assoc, RepeatsDefaults]
  simp only [forall_and]

/-- The layer of flags has a setting when a use gives it, unless all uses together do
no more than repeat the defaults. -/
theorem isSome_get?_ofFlags_iff {us : List FlagUse} (h : Readable us) {f : Field} :
    ((Layer.ofFlags (us.map FlagUse.entry)).get? f).isSome ↔ Gives us f ∧ ¬ RepeatsDefaults us := by
  simp only [Layer.ofFlags, repeatsDefaults_iff h]
  split
  · rename_i hrepeats
    simp [hrepeats]
  · rename_i hrepeats
    simp [hrepeats, isSome_get?_ofGiven_iff h]

/-- Flags that repeat the defaults are left out, but by themselves they come to the
same. -/
theorem settings_ofFlags (given : Given) :
    (Layer.ofFlags given).settings = (Layer.ofGiven given).settings := by
  simp only [Layer.ofFlags]
  split
  · rename_i hrepeats
    rw [hrepeats.1]
    rfl
  · rfl

end AgentHooks.Settings
