/-
What a report can show of a text.

A character that breaks a line ends it or steers the terminal that shows it.  None stands
in the quoted form of a text, whatever the text holds (`staysInLine_quote`): the table of
unprintable characters has all of them, and what is written in place of a character of the
table is visible ASCII.
-/
import AgentHooks.Proofs.Json.Written
import AgentHooks.Text.Shown

namespace AgentHooks.Text

/-- A character that does not stay in the line it is shown in: a control character, or the
separator of lines or of paragraphs. -/
def BreaksLine (c : Char) : Prop :=
  c.toNat ≤ 0x1F ∨ (0x7F ≤ c.toNat ∧ c.toNat ≤ 0x9F) ∨ c.toNat = 0x2028 ∨ c.toNat = 0x2029

/-- A text that is shown in one line. -/
def StaysInLine (s : String) : Prop := ∀ c ∈ s.toList, ¬ BreaksLine c

/-- A character of ASCII that shows as itself, or the space. -/
def IsVisible (c : Char) : Prop := 0x20 ≤ c.toNat ∧ c.toNat ≤ 0x7E

instance (c : Char) : Decidable (IsVisible c) := inferInstanceAs (Decidable (_ ∧ _))

theorem not_breaksLine_of_isVisible {c : Char} (h : IsVisible c) : ¬ BreaksLine c := by
  obtain ⟨hlow, hhigh⟩ := h
  rintro (hcontrol | ⟨hdelete, -⟩ | hline | hparagraph)
  · exact absurd (Nat.le_trans hlow hcontrol) (by decide)
  · exact absurd (Nat.le_trans hdelete hhigh) (by decide)
  · exact absurd (hline ▸ hhigh) (by decide)
  · exact absurd (hparagraph ▸ hhigh) (by decide)

theorem staysInLine_of_isVisible {s : String} (h : ∀ c ∈ s.toList, IsVisible c) :
    StaysInLine s := fun c hc => not_breaksLine_of_isVisible (h c hc)

theorem staysInLine_of_all {s : String} (h : s.toList.all (fun c => IsVisible c) = true) :
    StaysInLine s := staysInLine_of_isVisible (Json.forall_mem_of_all h)

theorem StaysInLine.append {s t : String} (hs : StaysInLine s) (ht : StaysInLine t) :
    StaysInLine (s ++ t) := by
  intro c hc
  rw [String.toList_append] at hc
  rcases List.mem_append.mp hc with hc | hc
  · exact hs c hc
  · exact ht c hc

/-- The digits of a number are visible, to any base that has a digit for each of its
numbers below the base. -/
theorem isVisible_of_mem_toDigits {base : Nat} (hbase : 1 < base) (hle : base ≤ 16) (n : Nat) :
    ∀ c ∈ Nat.toDigits base n, IsVisible c := by
  have hdigit : ∀ d < 16, IsVisible d.digitChar := by decide
  induction n using Nat.strongRecOn with
  | ind n ih =>
      intro c hc
      rw [Nat.toDigits_eq_if hbase] at hc
      split at hc
      · rename_i hlt
        rw [List.mem_singleton.mp hc]
        exact hdigit n (Nat.lt_of_lt_of_le hlt hle)
      · rename_i hge
        have hpos : 0 < n := Nat.lt_of_lt_of_le (Nat.zero_lt_of_lt hbase) (Nat.not_lt.mp hge)
        rcases List.mem_append.mp hc with hc | hc
        · exact ih (n / base) (Nat.div_lt_self hpos hbase) c hc
        · rw [List.mem_singleton.mp hc]
          have hmod := Nat.mod_lt n (Nat.zero_lt_of_lt hbase)
          exact hdigit _ (Nat.lt_of_lt_of_le hmod hle)

theorem staysInLine_toString (n : Nat) : StaysInLine (toString n) := by
  refine staysInLine_of_isVisible ?_
  rw [Nat.toString_eq_repr, Nat.toList_repr]
  exact isVisible_of_mem_toDigits (by decide) (by decide) n

/-! ## Quoting -/

/-- The table has the characters that break lines. -/
theorem isUnprintable_of_breaksLine {c : Char} (h : BreaksLine c) : isUnprintable c = true := by
  have hrange {low high : Nat} (hmem : (low, high) ∈ unprintable) (hlow : low ≤ c.toNat)
      (hhigh : c.toNat ≤ high) : isUnprintable c = true := by
    refine List.any_eq_true.mpr ⟨_, hmem, ?_⟩
    rw [Bool.and_eq_true, decide_eq_true_eq, decide_eq_true_eq]
    exact ⟨hlow, hhigh⟩
  have hcontrols : (0x0, 0x1F) ∈ unprintable := by decide +kernel
  have hdelete : (0x7F, 0xA0) ∈ unprintable := by decide +kernel
  have hseparators : (0x2028, 0x202F) ∈ unprintable := by decide +kernel
  rcases h with h | ⟨hlow, hhigh⟩ | h | h
  · exact hrange hcontrols (Nat.zero_le _) h
  · exact hrange hdelete hlow (Nat.le_trans hhigh (by decide))
  · exact hrange hseparators (by omega) (by omega)
  · exact hrange hseparators (by omega) (by omega)

theorem isVisible_of_mem_codePointForm (c : Char) : ∀ x ∈ codePointForm c, IsVisible x := by
  have hopen : ∀ x ∈ ['\\', 'u', '\x7b'], IsVisible x := Json.forall_mem_of_all (by decide)
  have hclose : ∀ x ∈ ['\x7d'], IsVisible x := Json.forall_mem_of_all (by decide)
  refine List.forall_mem_append.mpr ⟨List.forall_mem_append.mpr ⟨hopen, ?_⟩, hclose⟩
  exact isVisible_of_mem_toDigits (by decide) (by decide) c.toNat

theorem not_breaksLine_of_mem_quoteChar (c : Char) : ∀ x ∈ quoteChar c, ¬ BreaksLine x := by
  have hmarked {y : Char} (hy : IsVisible y) : ∀ x ∈ ['\\', y], ¬ BreaksLine x := by
    intro x hx
    rcases List.mem_cons.mp hx with rfl | hx
    · exact not_breaksLine_of_isVisible (by decide)
    · rw [List.mem_singleton.mp hx]
      exact not_breaksLine_of_isVisible hy
  unfold quoteChar
  -- The characters that are marked with a backslash, one after the other.
  iterate 6 (split; · exact hmarked (by decide))
  split
  · intro x hx
    exact not_breaksLine_of_isVisible (isVisible_of_mem_codePointForm c x hx)
  · rename_i hshown
    intro x hx hbreaks
    rw [List.mem_singleton.mp hx] at hbreaks
    exact hshown (isUnprintable_of_breaksLine hbreaks)

/-- A quoted text stays in its line, whatever the text holds. -/
theorem staysInLine_quote (s : String) : StaysInLine (quote s) := by
  have hmark : ¬ BreaksLine '"' := not_breaksLine_of_isVisible (by decide)
  intro c hc
  rw [quote, String.toList_ofList] at hc
  rcases List.mem_append.mp hc with hc | hc
  · rcases List.mem_cons.mp hc with rfl | hc
    · exact hmark
    · obtain ⟨x, -, hx⟩ := List.mem_flatMap.mp hc
      exact not_breaksLine_of_mem_quoteChar x c hx
  · rw [List.mem_singleton.mp hc]
    exact hmark

end AgentHooks.Text
