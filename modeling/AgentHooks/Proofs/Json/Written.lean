/-
The text of JSON values, character by character.

`isPrintable_of_mem_write` says that no control character stands in the compact
text of a value, whatever its strings hold: they are escaped.  So a text is one
line.  `exists_write_eq_cons` says how a text can begin: a reader that skips
blanks skips nothing of it, and does not take it for the end of an array.  A name
(`IsName`) is the text of no value at all.
-/
import AgentHooks.Json.Printer
import AgentHooks.Proofs.Json.Shape

namespace AgentHooks

/-! ## Numbers -/

/-- The characters of numbers. -/
def IsNumeric (c : Char) : Prop := c.isDigit = true ∨ c ∈ ['-', '.', 'e', '+']

instance (c : Char) : Decidable (IsNumeric c) := inferInstanceAs (Decidable (_ ∨ _))

theorem isNumeric_of_mem_toDigits {n : Nat} : ∀ c ∈ Nat.toDigits 10 n, IsNumeric c :=
  fun _ h => .inl (Nat.isDigit_of_mem_toDigits (by decide) (by decide) h)

theorem isNumeric_zero : IsNumeric '0' := .inl rfl

theorem isNumeric_point : IsNumeric '.' := .inr (by decide)

theorem isNumeric_zeros (n : Nat) : ∀ c ∈ List.replicate n '0', IsNumeric c :=
  fun _ h => List.eq_of_mem_replicate h ▸ isNumeric_zero

namespace Notation

variable {digits : List Char} (hdigits : ∀ c ∈ digits, IsNumeric c)

include hdigits

theorem isNumeric_of_mem_positional (exponent : Int) :
    ∀ c ∈ positional digits exponent, IsNumeric c := by
  simp only [positional]
  split
  · simp only [List.forall_mem_append, List.forall_mem_cons]
    exact ⟨⟨hdigits, isNumeric_zeros _⟩, isNumeric_point, isNumeric_zero, nofun⟩
  · split
    · simp only [List.forall_mem_append, List.forall_mem_cons]
      exact ⟨fun c h => hdigits c (List.mem_of_mem_take h), isNumeric_point,
        fun c h => hdigits c (List.mem_of_mem_drop h)⟩
    · simp only [List.forall_mem_append, List.forall_mem_cons]
      exact ⟨⟨⟨isNumeric_zero, isNumeric_point, nofun⟩, isNumeric_zeros _⟩, hdigits⟩

theorem isNumeric_of_mem_scientific (scale : Int) :
    ∀ c ∈ scientific digits scale, IsNumeric c := by
  have hfraction : ∀ c ∈ if digits.drop 1 = [] then [] else '.' :: digits.drop 1,
      IsNumeric c := by
    split
    · exact nofun
    · exact List.forall_mem_cons.mpr
        ⟨isNumeric_point, fun c h => hdigits c (List.mem_of_mem_drop h)⟩
  have hsign : IsNumeric (if scale < 0 then '-' else '+') := by
    split <;> exact .inr (by decide)
  simp only [scientific, List.forall_mem_append, List.forall_mem_cons]
  exact ⟨⟨⟨fun c h => hdigits c (List.mem_of_mem_take h), hfraction⟩, .inr (by decide), hsign,
    nofun⟩, isNumeric_of_mem_toDigits⟩

end Notation

theorem Notation.isNumeric_of_mem_write (n : Notation) (d : Decimal) :
    ∀ c ∈ n.write d, IsNumeric c := by
  simp only [write]
  split
  · simp only [List.forall_mem_cons]
    exact ⟨isNumeric_zero, isNumeric_point, isNumeric_zero, nofun⟩
  · split
    · exact isNumeric_of_mem_positional isNumeric_of_mem_toDigits _
    · exact isNumeric_of_mem_scientific isNumeric_of_mem_toDigits _

theorem isNumeric_of_mem_sign (negative : Prop) [Decidable negative] :
    ∀ c ∈ (if negative then ['-'] else [] : List Char), IsNumeric c := by
  split
  · exact List.forall_mem_cons.mpr ⟨.inr (by decide), nofun⟩
  · exact nofun

theorem Json.isNumeric_of_mem_writeNumber (n : Number) : ∀ c ∈ writeNumber n, IsNumeric c := by
  cases n with
  | whole i fits =>
      exact List.forall_mem_append.mpr ⟨isNumeric_of_mem_sign _, isNumeric_of_mem_toDigits⟩
  | float x =>
      exact List.forall_mem_append.mpr
        ⟨isNumeric_of_mem_sign _, Notation.isNumeric_of_mem_write _ _⟩

theorem Notation.write_ne_nil (n : Notation) (d : Decimal) : n.write d ≠ [] := by
  simp only [write, positional, scientific]
  split
  · exact List.cons_ne_nil _ _
  · split
    · split
      · simp
      · split <;> simp
    · simp

theorem Json.writeNumber_ne_nil (n : Number) : writeNumber n ≠ [] := by
  cases n with
  | whole i fits =>
      exact List.append_ne_nil_of_right_ne_nil _ Nat.toDigits_ne_nil
  | float x =>
      exact List.append_ne_nil_of_right_ne_nil _ (Notation.write_ne_nil _ _)

namespace Json

/-! ## No control characters -/

/-- A character that is not one of the control characters below the space. -/
def IsPrintable (c : Char) : Prop := 0x20 ≤ c.toNat

instance (c : Char) : Decidable (IsPrintable c) := inferInstanceAs (Decidable (_ ≤ _))

/-- What is decided of each character of a list, and not of all characters. -/
theorem forall_mem_of_all {p : Char → Prop} [DecidablePred p] {cs : List Char}
    (h : cs.all (fun c => p c) = true) : ∀ c ∈ cs, p c :=
  fun c hc => of_decide_eq_true (List.all_eq_true.mp h c hc)

theorem isPrintable_of_isNumeric {c : Char} (h : IsNumeric c) : IsPrintable c := by
  rcases h with h | h
  · have := Char.isDigit_iff_toNat.mp h
    exact Nat.le_trans (by decide) this.1
  · exact forall_mem_of_all (by decide) c h

theorem isPrintable_hexDigit {n : Nat} (h : n < 16) : IsPrintable (hexDigit n) := by
  revert n; decide

theorem isPrintable_of_mem_writeChar (c : Char) : ∀ x ∈ writeChar c, IsPrintable x := by
  unfold writeChar
  -- The characters that have an escape of their own, one after the other.
  iterate 7 (split; · exact forall_mem_of_all (by decide))
  split
  · rename_i hlow
    simp only [List.forall_mem_cons]
    exact ⟨by decide, by decide, by decide, by decide, isPrintable_hexDigit (by omega),
      isPrintable_hexDigit (by omega), nofun⟩
  · rename_i hlow
    exact List.forall_mem_cons.mpr ⟨Nat.not_lt.mp hlow, nofun⟩

theorem isPrintable_of_mem_writeString (s : String) : ∀ c ∈ writeString s, IsPrintable c := by
  simp only [writeString, List.cons_append, List.forall_mem_cons, List.forall_mem_append]
  refine ⟨by decide, fun c h => ?_, by decide, nofun⟩
  obtain ⟨x, -, hx⟩ := List.mem_flatMap.mp h
  exact isPrintable_of_mem_writeChar x c hx

theorem isPrintable_of_mem_writeItems {vs : List Json}
    (h : ∀ v ∈ vs, ∀ c ∈ v.write, IsPrintable c) : ∀ c ∈ writeItems vs, IsPrintable c := by
  induction vs with
  | nil => exact List.forall_mem_cons.mpr ⟨by decide, nofun⟩
  | cons v vs ih =>
      obtain ⟨hv, hvs⟩ := List.forall_mem_cons.mp h
      simp only [writeItems, List.cons_append, List.forall_mem_cons, List.forall_mem_append]
      exact ⟨by decide, hv, ih hvs⟩

theorem isPrintable_of_mem_writeMembers {ms : List (String × Json)}
    (h : ∀ m ∈ ms, ∀ c ∈ m.2.write, IsPrintable c) : ∀ c ∈ writeMembers ms, IsPrintable c := by
  induction ms with
  | nil => exact List.forall_mem_cons.mpr ⟨by decide, nofun⟩
  | cons m ms ih =>
      obtain ⟨hm, hms⟩ := List.forall_mem_cons.mp h
      simp only [writeMembers, List.cons_append, List.forall_mem_cons, List.forall_mem_append]
      exact ⟨by decide, ⟨isPrintable_of_mem_writeString m.1, by decide, hm⟩, ih hms⟩

/-- No control character stands in the text of a value. -/
theorem isPrintable_of_mem_write (v : Json) : ∀ c ∈ v.write, IsPrintable c := by
  induction v with
  | null => exact forall_mem_of_all (by decide)
  | bool b => cases b <;> exact forall_mem_of_all (by decide)
  | number n => exact fun c h => isPrintable_of_isNumeric (isNumeric_of_mem_writeNumber n c h)
  | string s => exact isPrintable_of_mem_writeString s
  | array vs ih =>
      cases vs with
      | nil => exact forall_mem_of_all (by decide)
      | cons v vs =>
          obtain ⟨hv, hvs⟩ := List.forall_mem_cons.mp ih
          simp only [write, List.cons_append, List.forall_mem_cons, List.forall_mem_append]
          exact ⟨by decide, hv, isPrintable_of_mem_writeItems hvs⟩
  | object ms ih =>
      cases ms with
      | nil => exact forall_mem_of_all (by decide)
      | cons m ms =>
          obtain ⟨hm, hms⟩ := List.forall_mem_cons.mp ih
          simp only [write, List.cons_append, List.forall_mem_cons, List.forall_mem_append]
          exact ⟨by decide, ⟨isPrintable_of_mem_writeString m.1, by decide, hm⟩,
            isPrintable_of_mem_writeMembers hms⟩

/-- The text of a value is one line. -/
theorem not_mem_text_of_lt {c : Char} (h : c.toNat < 0x20) (v : Json) : c ∉ v.text.toList := by
  rw [text, String.toList_ofList]
  exact fun hc => absurd (isPrintable_of_mem_write v c hc) (Nat.not_le.mpr h)

/-! ## How a text begins -/

/-- The characters with which a value can begin. -/
def IsOpening (c : Char) : Prop := IsNumeric c ∨ c ∈ ['n', 't', 'f', '"', '[', '\x7b']

theorem exists_write_eq_cons (v : Json) : ∃ c cs, v.write = c :: cs ∧ IsOpening c := by
  cases v with
  | null => exact ⟨_, _, rfl, .inr (by decide)⟩
  | bool b => cases b <;> exact ⟨_, _, rfl, .inr (by decide)⟩
  | number n =>
      obtain ⟨c, cs, hcs⟩ := List.exists_cons_of_ne_nil (writeNumber_ne_nil n)
      refine ⟨c, cs, hcs, .inl (isNumeric_of_mem_writeNumber n c ?_)⟩
      exact hcs ▸ List.mem_cons_self
  | string s => exact ⟨_, _, rfl, .inr (by decide)⟩
  | array vs => cases vs <;> exact ⟨_, _, rfl, .inr (by decide)⟩
  | object ms => cases ms <;> exact ⟨_, _, rfl, .inr (by decide)⟩

theorem exists_writeMembers_eq (ms : List (String × Json)) :
    ∃ cs, writeMembers ms = cs ++ ['\x7d'] := by
  induction ms with
  | nil => exact ⟨[], rfl⟩
  | cons m ms ih =>
      obtain ⟨cs, hcs⟩ := ih
      refine ⟨',' :: writeString m.1 ++ ':' :: m.2.write ++ cs, ?_⟩
      rw [writeMembers, hcs, List.append_assoc _ cs]

/-- The text of an object is between braces. -/
theorem exists_write_object_eq (ms : List (String × Json)) :
    ∃ cs, (object ms).write = '\x7b' :: (cs ++ ['\x7d']) := by
  cases ms with
  | nil => exact ⟨[], rfl⟩
  | cons m ms =>
      obtain ⟨cs, hcs⟩ := exists_writeMembers_eq ms
      refine ⟨writeString m.1 ++ ':' :: m.2.write ++ cs, ?_⟩
      rw [write, hcs, ← List.append_assoc]
      rfl

/-! ## Texts of no value -/

/-- A text that no value has as its compact text: it is none of JSON's words, does not
begin as a string, an array or an object does, and has a character that no number has. -/
def IsName (s : String) : Prop :=
  s ∉ ["null", "true", "false"] ∧
    s.toList.head?.all (fun c => c ∉ ['"', '[', '\x7b']) = true ∧
    s.toList.all (fun c => IsNumeric c) = false

instance (s : String) : Decidable (IsName s) := inferInstanceAs (Decidable (_ ∧ _ ∧ _))

theorem not_isName_text (v : Json) : ¬ IsName v.text := by
  rintro ⟨hword, hopening, hnumeric⟩
  rw [text, String.toList_ofList] at hopening hnumeric
  cases v with
  | null => exact hword (by decide)
  | bool b => cases b <;> exact hword (by decide)
  | number n =>
      have hall : (writeNumber n).all (fun c => IsNumeric c) = true :=
        List.all_eq_true.mpr fun c hc => decide_eq_true (isNumeric_of_mem_writeNumber n c hc)
      rw [write, hall] at hnumeric
      cases hnumeric
  | string s => exact Bool.false_ne_true hopening
  | array vs => cases vs <;> exact Bool.false_ne_true hopening
  | object ms => cases ms <;> exact Bool.false_ne_true hopening

end Json

end AgentHooks
