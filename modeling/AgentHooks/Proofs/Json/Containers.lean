/-
Arrays and objects, read from their bytes.

A reader of parts is a parameter here, as it is of the readers of containers.
`Reads` says that it gives a value back from the bytes of its text, whatever
follows them, and `Refuses` that it finds the value nested too deep.  The lemmas
carry both from the parts to the containers, by induction on the items or
members that follow the first one.
-/
import AgentHooks.Proofs.Json.Records
import AgentHooks.Proofs.Json.Scalars
import AgentHooks.Proofs.Json.Written

namespace AgentHooks.Json

open Utf8

/-- The bytes of the text of a value. -/
def bytes (v : Json) : Bytes := encodeChars v.write

/-! ## How the bytes of a value begin -/

theorem toNat_of_isOpening {c : Char} (h : IsOpening c) :
    0x20 < c.toNat ∧ c.toNat < 0x80 ∧ c ≠ ']' := by
  have hlist : ∀ c ∈ ['-', '.', 'e', '+', 'n', 't', 'f', '"', '[', '\x7b'],
      0x20 < c.toNat ∧ c.toNat < 0x80 ∧ c ≠ ']' := forall_mem_of_all (by decide)
  rcases h with (h | h) | h
  · have hc := Char.isDigit_iff_toNat.mp h
    refine ⟨Nat.lt_of_lt_of_le (by decide) hc.1, Nat.lt_of_le_of_lt hc.2 (by decide), ?_⟩
    rintro rfl
    exact absurd hc.2 (by decide)
  · exact hlist c (List.mem_append_left ['n', 't', 'f', '"', '[', '\x7b'] h)
  · exact hlist c (List.mem_append_right ['-', '.', 'e', '+'] h)

theorem exists_bytes_eq_cons (v : Json) :
    ∃ b bs, v.bytes = b :: bs ∧ 0x20 < b.toNat ∧ b ≠ ']'.toUInt8 := by
  obtain ⟨c, cs, hcs, hc⟩ := exists_write_eq_cons v
  obtain ⟨hspace, hascii, hne⟩ := toNat_of_isOpening hc
  have hvalue := UInt8.toNat_ofNat_of_lt' (Nat.lt_trans hascii (by decide))
  refine ⟨UInt8.ofNat c.toNat, encodeChars cs, ?_, ?_, ?_⟩
  · rw [bytes, hcs, encodeChars_cons, encodeChar_ascii hascii]
    rfl
  · rw [hvalue]
    exact hspace
  · intro h
    have h' := congrArg UInt8.toNat h
    rw [hvalue] at h'
    exact hne (Char.toNat_inj.mp h')

theorem ne_of_space_lt {b x : UInt8} (h : 0x20 < b.toNat) (hx : x.toNat ≤ 0x20) : b ≠ x := by
  rintro rfl
  exact absurd h (Nat.not_lt.mpr hx)

theorem isSpace_of_lt {b : UInt8} (h : 0x20 < b.toNat) : isSpace b = false := by
  simp [isSpace, ne_of_space_lt h]

theorem skipSpace_cons {b : UInt8} (h : isSpace b = false) (r : Bytes) :
    skipSpace (b :: r) = b :: r := by
  simp [skipSpace, h]

theorem endsNumber_cons {b : UInt8}
    (h : isDigit b = false ∧ b ≠ '.'.toUInt8 ∧ isExponentMark b = false) (r : Bytes) :
    EndsNumber (b :: r) := by
  rintro x ⟨⟩
  exact h

theorem endsNumber_nil : EndsNumber [] := nofun

/-! ## Readers and single values -/

/-- A reader gives a value back from its bytes, and what follows them. -/
def Reads (item : Bytes → Reading Json) (v : Json) : Prop :=
  ∀ r, EndsNumber r → item (v.bytes ++ r) = .ok (v, r)

/-- A reader finds that a value is nested too deep. -/
def Refuses (item : Bytes → Reading Json) (v : Json) : Prop :=
  ∀ r, EndsNumber r → ∃ left, item (v.bytes ++ r) = .error ⟨.nestedTooDeep, left⟩

theorem Reads.not_refuses {item : Bytes → Reading Json} {v : Json} (h : Reads item v) :
    ¬ Refuses item v := by
  intro hrefuses
  obtain ⟨left, hleft⟩ := hrefuses [] endsNumber_nil
  rw [h [] endsNumber_nil] at hleft
  cases hleft

/-- What is refused after a part that is read is one of the later parts. -/
theorem Reads.exists_mem_tail {item : Bytes → Reading Json} {α : Type} {f : α → Json} {a : α}
    {as : List α} (ha : Reads item (f a)) (h : ∃ b ∈ a :: as, Refuses item (f b)) :
    ∃ b ∈ as, Refuses item (f b) := by
  obtain ⟨b, hb, hrefuses⟩ := h
  rcases List.mem_cons.mp hb with rfl | hb
  · exact absurd hrefuses ha.not_refuses
  · exact ⟨b, hb, hrefuses⟩

/-! ## Items -/

/-- The bytes of the items after the first one, and of the end of the array. -/
def itemsBytes (vs : List Json) : Bytes := encodeChars (writeItems vs)

theorem itemsBytes_cons (v : Json) (vs : List Json) :
    itemsBytes (v :: vs) = ','.toUInt8 :: (v.bytes ++ itemsBytes vs) := by
  simp only [itemsBytes, bytes, writeItems, List.cons_append, encodeChars_cons, encodeChars_append]
  rfl

theorem endsNumber_itemsBytes (vs : List Json) (r : Bytes) : EndsNumber (itemsBytes vs ++ r) := by
  cases vs with
  | nil => exact endsNumber_cons (by decide) r
  | cons v vs =>
      rw [itemsBytes_cons]
      exact endsNumber_cons (by decide) _

theorem readItems_nil (item : Bytes → Reading Json) (fuel : Nat) (r : Bytes) :
    readItems item (fuel + 1) (itemsBytes [] ++ r) = .ok ([], r) := rfl

theorem readItems_cons (item : Bytes → Reading Json) (fuel : Nat) (v : Json) (vs : List Json)
    (r : Bytes) :
    readItems item (fuel + 1) (itemsBytes (v :: vs) ++ r) = (do
      let (w, s₁) ← item (v.bytes ++ (itemsBytes vs ++ r))
      let (ws, s₂) ← readItems item fuel s₁
      return (w :: ws, s₂)) := by
  obtain ⟨b, bs, hb, hspace, hne⟩ := exists_bytes_eq_cons v
  have hcomma : skipSpace (','.toUInt8 :: (b :: bs ++ (itemsBytes vs ++ r))) =
      ','.toUInt8 :: (b :: bs ++ (itemsBytes vs ++ r)) := skipSpace_cons (by decide) _
  have hfirst : skipSpace (b :: bs ++ (itemsBytes vs ++ r)) = b :: (bs ++ (itemsBytes vs ++ r)) :=
    skipSpace_cons (isSpace_of_lt hspace) _
  have hbracket : ','.toUInt8 ≠ ']'.toUInt8 := by decide
  rw [itemsBytes_cons, hb, List.cons_append, List.append_assoc, readItems]
  simp only [hcomma, if_neg hbracket, if_true, hfirst, if_neg hne]
  rfl

/-- There are more bytes left than items, so that counting bytes ends no array
too early. -/
theorem length_lt_itemsBytes (vs : List Json) (r : Bytes) :
    vs.length < (itemsBytes vs ++ r).length := by
  induction vs with
  | nil => exact Nat.succ_pos _
  | cons v vs ih =>
      rw [itemsBytes_cons]
      simp only [List.cons_append, List.append_assoc, List.length_cons, List.length_append] at ih ⊢
      omega

section Items

variable {item : Bytes → Reading Json} {vs : List Json}

theorem readItems_of_reads (h : ∀ v ∈ vs, Reads item v) {fuel : Nat} (hfuel : vs.length < fuel)
    (r : Bytes) : readItems item fuel (itemsBytes vs ++ r) = .ok (vs, r) := by
  induction vs generalizing fuel with
  | nil =>
      obtain ⟨fuel, rfl⟩ := Nat.exists_eq_succ_of_ne_zero (Nat.ne_zero_of_lt hfuel)
      exact readItems_nil item fuel r
  | cons v vs ih =>
      obtain ⟨hv, hvs⟩ := List.forall_mem_cons.mp h
      obtain ⟨fuel, rfl⟩ := Nat.exists_eq_succ_of_ne_zero (Nat.ne_zero_of_lt hfuel)
      rw [readItems_cons, hv _ (endsNumber_itemsBytes vs r)]
      have hrest := ih hvs (Nat.lt_of_succ_lt_succ hfuel)
      simp only [bind, Except.bind, hrest, pure, Except.pure]

theorem readItems_of_refuses (h : ∀ v ∈ vs, Reads item v ∨ Refuses item v)
    (hdeep : ∃ v ∈ vs, Refuses item v) {fuel : Nat} (hfuel : vs.length < fuel) (r : Bytes) :
    ∃ left, readItems item fuel (itemsBytes vs ++ r) = .error ⟨.nestedTooDeep, left⟩ := by
  induction vs generalizing fuel with
  | nil =>
      obtain ⟨v, hv, -⟩ := hdeep
      exact absurd hv List.not_mem_nil
  | cons v vs ih =>
      obtain ⟨hv, hvs⟩ := List.forall_mem_cons.mp h
      obtain ⟨fuel, rfl⟩ := Nat.exists_eq_succ_of_ne_zero (Nat.ne_zero_of_lt hfuel)
      have hends := endsNumber_itemsBytes vs r
      rw [readItems_cons]
      rcases hv with hv | hv
      · obtain ⟨left, hrest⟩ :=
          ih hvs (hv.exists_mem_tail (f := id) hdeep) (Nat.lt_of_succ_lt_succ hfuel)
        exact ⟨left, by simp only [hv _ hends, bind, Except.bind, hrest]⟩
      · obtain ⟨left, hleft⟩ := hv _ hends
        exact ⟨left, by simp only [hleft, bind, Except.bind]⟩

theorem readArray_cons (v : Json) (r : Bytes) :
    readArray item (v.bytes ++ r) = (do
      let (w, s₁) ← item (v.bytes ++ r)
      let (ws, s₂) ← readItems item s₁.length s₁
      return (w :: ws, s₂)) := by
  obtain ⟨b, bs, hb, hspace, hne⟩ := exists_bytes_eq_cons v
  have hfirst : skipSpace (b :: bs ++ r) = b :: (bs ++ r) := skipSpace_cons (isSpace_of_lt hspace) _
  rw [hb, readArray]
  simp only [hfirst, if_neg hne]
  rfl

theorem bytes_array_cons (v : Json) :
    (array (v :: vs)).bytes = '['.toUInt8 :: (v.bytes ++ itemsBytes vs) := by
  simp only [itemsBytes, bytes, write, List.cons_append, encodeChars_cons, encodeChars_append]
  rfl

theorem readValueWith_bracket (nested : NestedReader) (r : Bytes) :
    readValueWith nested ('['.toUInt8 :: r) = nested true r := rfl

theorem reads_array (h : ∀ v ∈ vs, Reads item v) :
    Reads (readValueWith (readNested item)) (.array vs) := by
  intro r _
  cases vs with
  | nil => rfl
  | cons v vs =>
      obtain ⟨hv, hvs⟩ := List.forall_mem_cons.mp h
      rw [bytes_array_cons, List.cons_append, List.append_assoc, readValueWith_bracket]
      simp only [readNested, if_true, readArray_cons, hv _ (endsNumber_itemsBytes vs r), bind,
        Except.bind, readItems_of_reads hvs (length_lt_itemsBytes vs r), pure, Except.pure,
        Except.map]

theorem refuses_array (h : ∀ v ∈ vs, Reads item v ∨ Refuses item v)
    (hdeep : ∃ v ∈ vs, Refuses item v) :
    Refuses (readValueWith (readNested item)) (.array vs) := by
  intro r _
  cases vs with
  | nil =>
      obtain ⟨v, hv, -⟩ := hdeep
      exact absurd hv List.not_mem_nil
  | cons v vs =>
      obtain ⟨hv, hvs⟩ := List.forall_mem_cons.mp h
      have hends := endsNumber_itemsBytes vs r
      rw [bytes_array_cons, List.cons_append, List.append_assoc, readValueWith_bracket]
      simp only [readNested, if_true, readArray_cons]
      rcases hv with hv | hv
      · obtain ⟨left, hrest⟩ := readItems_of_refuses hvs (hv.exists_mem_tail (f := id) hdeep)
          (length_lt_itemsBytes vs r) r
        exact ⟨left, by simp only [hv _ hends, bind, Except.bind, hrest, Except.map]⟩
      · obtain ⟨left, hleft⟩ := hv _ hends
        exact ⟨left, by simp only [hleft, bind, Except.bind, Except.map]⟩

end Items

/-! ## Members -/

/-- The bytes of a member after the opening quote of its key. -/
def memberBytes (m : String × Json) : Bytes :=
  encodeChars (m.1.toList.flatMap writeChar) ++ '"'.toUInt8 :: ':'.toUInt8 :: m.2.bytes

/-- The bytes of the members after the first one, and of the end of the object. -/
def membersBytes (ms : List (String × Json)) : Bytes := encodeChars (writeMembers ms)

theorem encodeChars_writeMember (m : String × Json) :
    encodeChars (writeString m.1 ++ ':' :: m.2.write) = '"'.toUInt8 :: memberBytes m := by
  simp only [memberBytes, bytes, writeString, List.cons_append, List.append_assoc,
    encodeChars_cons, encodeChars_append]
  rfl

theorem membersBytes_cons (m : String × Json) (ms : List (String × Json)) :
    membersBytes (m :: ms) =
      ','.toUInt8 :: '"'.toUInt8 :: (memberBytes m ++ membersBytes ms) := by
  have hwrite : writeMembers (m :: ms) =
      ',' :: ((writeString m.1 ++ ':' :: m.2.write) ++ writeMembers ms) := by
    simp only [writeMembers, List.cons_append, List.append_assoc]
  rw [membersBytes, hwrite, encodeChars_cons, encodeChars_append, encodeChars_writeMember]
  rfl

theorem endsNumber_membersBytes (ms : List (String × Json)) (r : Bytes) :
    EndsNumber (membersBytes ms ++ r) := by
  cases ms with
  | nil => exact endsNumber_cons (by decide) r
  | cons m ms =>
      rw [membersBytes_cons]
      exact endsNumber_cons (by decide) _

theorem length_lt_membersBytes (ms : List (String × Json)) (r : Bytes) :
    ms.length < (membersBytes ms ++ r).length := by
  induction ms with
  | nil => exact Nat.succ_pos _
  | cons m ms ih =>
      rw [membersBytes_cons]
      simp only [List.cons_append, List.append_assoc, List.length_cons, List.length_append] at ih ⊢
      omega

theorem readMember_memberBytes (item : Bytes → Reading Json) (m : String × Json) (r : Bytes) :
    readMember item (memberBytes m ++ r) = (do
      let (v, s) ← item (m.2.bytes ++ r)
      return ((m.1, v), s)) := by
  have hkey := readString_writeString m.1 (':'.toUInt8 :: (m.2.bytes ++ r))
  have hcolon : skipSpace (':'.toUInt8 :: (m.2.bytes ++ r)) = ':'.toUInt8 :: (m.2.bytes ++ r) :=
    skipSpace_cons (by decide) _
  rw [memberBytes, List.append_assoc, List.cons_append, List.cons_append, readMember, hkey]
  simp only [bind, Except.bind, hcolon, if_true]

theorem readMembers_nil (item : Bytes → Reading Json) (fuel : Nat) (r : Bytes) :
    readMembers item (fuel + 1) (membersBytes [] ++ r) = .ok ([], r) := rfl

theorem readMembers_cons (item : Bytes → Reading Json) (fuel : Nat) (m : String × Json)
    (ms : List (String × Json)) (r : Bytes) :
    readMembers item (fuel + 1) (membersBytes (m :: ms) ++ r) = (do
      let (n, s₁) ← readMember item (memberBytes m ++ (membersBytes ms ++ r))
      let (ns, s₂) ← readMembers item fuel s₁
      return (n :: ns, s₂)) := by
  have hcomma (s : Bytes) : skipSpace (','.toUInt8 :: s) = ','.toUInt8 :: s :=
    skipSpace_cons (by decide) s
  have hquote (s : Bytes) : skipSpace ('"'.toUInt8 :: s) = '"'.toUInt8 :: s :=
    skipSpace_cons (by decide) s
  have hbrace : ','.toUInt8 ≠ '\x7d'.toUInt8 := by decide
  rw [membersBytes_cons, List.cons_append, List.cons_append, List.append_assoc, readMembers]
  simp only [hcomma, if_neg hbrace, if_true, hquote]

section Members

variable {item : Bytes → Reading Json} {ms : List (String × Json)}

theorem readMembers_of_reads (h : ∀ m ∈ ms, Reads item m.2) {fuel : Nat}
    (hfuel : ms.length < fuel) (r : Bytes) :
    readMembers item fuel (membersBytes ms ++ r) = .ok (ms, r) := by
  induction ms generalizing fuel with
  | nil =>
      obtain ⟨fuel, rfl⟩ := Nat.exists_eq_succ_of_ne_zero (Nat.ne_zero_of_lt hfuel)
      exact readMembers_nil item fuel r
  | cons m ms ih =>
      obtain ⟨hm, hms⟩ := List.forall_mem_cons.mp h
      obtain ⟨fuel, rfl⟩ := Nat.exists_eq_succ_of_ne_zero (Nat.ne_zero_of_lt hfuel)
      rw [readMembers_cons, readMember_memberBytes, hm _ (endsNumber_membersBytes ms r)]
      have hrest := ih hms (Nat.lt_of_succ_lt_succ hfuel)
      simp only [bind, Except.bind, hrest, pure, Except.pure]

theorem readMembers_of_refuses (h : ∀ m ∈ ms, Reads item m.2 ∨ Refuses item m.2)
    (hdeep : ∃ m ∈ ms, Refuses item m.2) {fuel : Nat} (hfuel : ms.length < fuel) (r : Bytes) :
    ∃ left, readMembers item fuel (membersBytes ms ++ r) = .error ⟨.nestedTooDeep, left⟩ := by
  induction ms generalizing fuel with
  | nil =>
      obtain ⟨m, hm, -⟩ := hdeep
      exact absurd hm List.not_mem_nil
  | cons m ms ih =>
      obtain ⟨hm, hms⟩ := List.forall_mem_cons.mp h
      obtain ⟨fuel, rfl⟩ := Nat.exists_eq_succ_of_ne_zero (Nat.ne_zero_of_lt hfuel)
      have hends := endsNumber_membersBytes ms r
      rw [readMembers_cons, readMember_memberBytes]
      rcases hm with hm | hm
      · obtain ⟨left, hrest⟩ := ih hms (hm.exists_mem_tail hdeep) (Nat.lt_of_succ_lt_succ hfuel)
        exact ⟨left, by simp only [hm _ hends, bind, Except.bind, hrest, pure, Except.pure]⟩
      · obtain ⟨left, hleft⟩ := hm _ hends
        exact ⟨left, by simp only [hleft, bind, Except.bind]⟩

theorem readObject_cons (m : String × Json) (r : Bytes) :
    readObject item ('"'.toUInt8 :: (memberBytes m ++ r)) = (do
      let (n, s₁) ← readMember item (memberBytes m ++ r)
      let (ns, s₂) ← readMembers item s₁.length s₁
      return (.ofMembers (n :: ns), s₂)) := by
  have hquote (s : Bytes) : skipSpace ('"'.toUInt8 :: s) = '"'.toUInt8 :: s :=
    skipSpace_cons (by decide) s
  have hbrace : '"'.toUInt8 ≠ '\x7d'.toUInt8 := by decide
  rw [readObject]
  simp only [hquote, if_neg hbrace, if_true]

theorem bytes_object_cons (m : String × Json) :
    (object (m :: ms)).bytes =
      '\x7b'.toUInt8 :: '"'.toUInt8 :: (memberBytes m ++ membersBytes ms) := by
  have hwrite : (object (m :: ms)).write =
      '\x7b' :: ((writeString m.1 ++ ':' :: m.2.write) ++ writeMembers ms) := by
    simp only [write, List.cons_append, List.append_assoc]
  rw [bytes, hwrite, encodeChars_cons, encodeChars_append, encodeChars_writeMember]
  rfl

theorem readValueWith_brace (nested : NestedReader) (r : Bytes) :
    readValueWith nested ('\x7b'.toUInt8 :: r) = nested false r := rfl

/-- The members may stand in any order and may repeat keys: what is read is their record. -/
theorem readValueWith_object (h : ∀ m ∈ ms, Reads item m.2) (r : Bytes) :
    readValueWith (readNested item) ((object ms).bytes ++ r) =
      .ok ((Record.ofMembers ms).toJson, r) := by
  cases ms with
  | nil => rfl
  | cons m ms =>
      obtain ⟨hm, hms⟩ := List.forall_mem_cons.mp h
      rw [bytes_object_cons, List.cons_append, List.cons_append, List.append_assoc,
        readValueWith_brace]
      simp only [readNested, Bool.false_eq_true, if_false, readObject_cons,
        readMember_memberBytes, hm _ (endsNumber_membersBytes ms r), bind, Except.bind, pure,
        Except.pure, readMembers_of_reads hms (length_lt_membersBytes ms r), Except.map]

theorem refuses_object (h : ∀ m ∈ ms, Reads item m.2 ∨ Refuses item m.2)
    (hdeep : ∃ m ∈ ms, Refuses item m.2) :
    Refuses (readValueWith (readNested item)) (.object ms) := by
  intro r _
  cases ms with
  | nil =>
      obtain ⟨m, hm, -⟩ := hdeep
      exact absurd hm List.not_mem_nil
  | cons m ms =>
      obtain ⟨hm, hms⟩ := List.forall_mem_cons.mp h
      have hends := endsNumber_membersBytes ms r
      rw [bytes_object_cons, List.cons_append, List.cons_append, List.append_assoc,
        readValueWith_brace]
      simp only [readNested, Bool.false_eq_true, if_false, readObject_cons,
        readMember_memberBytes]
      rcases hm with hm | hm
      · obtain ⟨left, hrest⟩ := readMembers_of_refuses hms (hm.exists_mem_tail hdeep)
          (length_lt_membersBytes ms r) r
        exact ⟨left, by
          simp only [hm _ hends, bind, Except.bind, pure, Except.pure, hrest, Except.map]⟩
      · obtain ⟨left, hleft⟩ := hm _ hends
        exact ⟨left, by simp only [hleft, bind, Except.bind, Except.map]⟩

end Members

end AgentHooks.Json
