/-
Trimming.

Blanks at the ends do not count (`trim_padded`), and they are all that is taken away
(`exists_blanks_trim`).  A text that begins and ends with characters that are not blank
stays as it is (`trim_of_ends`), and so does one without any blank (`trim_of_not_blank`).
What changes characters and leaves blanks blank may be done before or after (`trim_map`).
-/
import AgentHooks.Text.Characters

namespace AgentHooks.Text

theorem dropWhile_of_forall {p : Char → Bool} {cs : List Char} (h : ∀ c ∈ cs, p c = false) :
    cs.dropWhile p = cs := by
  cases cs with
  | nil => rfl
  | cons c cs =>
      rw [List.dropWhile_cons, h c List.mem_cons_self]
      rfl

theorem trimEnd_append_blanks {cs bs : List Char} (h : ∀ b ∈ bs, isBlank b = true) :
    trimEnd (cs ++ bs) = trimEnd cs := by
  have hreverse : ∀ b ∈ bs.reverse, isBlank b = true := fun b hb => h b (List.mem_reverse.mp hb)
  rw [trimEnd, List.reverse_append, List.dropWhile_append_of_pos hreverse]
  rfl

theorem trimEnd_of_last {cs : List Char} {c : Char} (h : isBlank c = false) :
    trimEnd (cs ++ [c]) = cs ++ [c] := by
  simp [trimEnd, h]

theorem trim_append_blanks (cs : List Char) {bs : List Char} (h : ∀ b ∈ bs, isBlank b = true) :
    trim (cs ++ bs) = trim cs := by
  rw [trim, trim, List.dropWhile_append]
  split
  · rename_i hempty
    have hbs : (bs ++ []).dropWhile isBlank = [] := List.dropWhile_append_of_pos h
    rw [List.append_nil] at hbs
    rw [hbs, List.isEmpty_iff.mp hempty]
  · exact trimEnd_append_blanks h

/-- Blanks around a text do not count. -/
theorem trim_padded {before after : List Char} (hbefore : ∀ b ∈ before, isBlank b = true)
    (hafter : ∀ b ∈ after, isBlank b = true) (text : List Char) :
    trim (before ++ text ++ after) = trim text := by
  rw [trim_append_blanks _ hafter, trim, List.dropWhile_append_of_pos hbefore]
  rfl

theorem trim_of_ends {c d : Char} (cs : List Char) (hc : isBlank c = false)
    (hd : isBlank d = false) : trim (c :: (cs ++ [d])) = c :: (cs ++ [d]) := by
  have hfirst : (c :: (cs ++ [d])).dropWhile isBlank = c :: (cs ++ [d]) := by
    rw [List.dropWhile_cons, hc]
    rfl
  rw [trim, hfirst]
  exact (trimEnd_of_last hd : trimEnd (c :: cs ++ [d]) = c :: cs ++ [d])

theorem trim_of_not_blank {cs : List Char} (h : ∀ c ∈ cs, isBlank c = false) : trim cs = cs := by
  have hreverse : ∀ c ∈ cs.reverse, isBlank c = false := fun c hc => h c (List.mem_reverse.mp hc)
  rw [trim, trimEnd, dropWhile_of_forall h, dropWhile_of_forall hreverse, List.reverse_reverse]

theorem trim_map {f : Char → Char} (hf : ∀ c, isBlank (f c) = isBlank c) (cs : List Char) :
    trim (cs.map f) = (trim cs).map f := by
  have hblank : isBlank ∘ f = isBlank := funext hf
  rw [trim, trimEnd, trim, trimEnd, List.dropWhile_map, hblank, ← List.map_reverse,
    List.dropWhile_map, hblank, List.map_reverse]

/-- What is taken away are blanks at the ends. -/
theorem exists_blanks_trim (cs : List Char) :
    ∃ before after, (∀ b ∈ before, isBlank b = true) ∧ (∀ b ∈ after, isBlank b = true) ∧
      cs = before ++ trim cs ++ after := by
  have hblank (ds : List Char) : ∀ b ∈ ds.takeWhile isBlank, isBlank b = true :=
    List.all_eq_true.mp List.all_takeWhile
  have hend (ds : List Char) : ds = trimEnd ds ++ (ds.reverse.takeWhile isBlank).reverse := by
    rw [trimEnd, ← List.reverse_append, List.takeWhile_append_dropWhile, List.reverse_reverse]
  refine ⟨cs.takeWhile isBlank, ((cs.dropWhile isBlank).reverse.takeWhile isBlank).reverse,
    hblank cs, fun b hb => hblank _ b (List.mem_reverse.mp hb), ?_⟩
  rw [trim, List.append_assoc, ← hend, List.takeWhile_append_dropWhile]

end AgentHooks.Text
