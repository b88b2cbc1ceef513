/-
Texts of letters in variables and files.

A variable whose text is of letters stands for that text, unless it is true or false
(`Variable.value_of_letters`).  A file with one line, of a key and a text of letters,
gives that text under that key and nothing else (`Document.read_memberLine`).
-/
import AgentHooks.Proofs.Text.Letters
import AgentHooks.Proofs.Text.Lines
import AgentHooks.Settings.Document
import AgentHooks.Settings.Variable

namespace AgentHooks.Settings

open Text

/-! ## A text of letters in a variable -/

namespace Variable

theorem exists_of_leadingTruth? {cs rest : List Char} {v : Json}
    (h : leadingTruth? cs = some (v, rest)) :
    ∃ word b, (word, b) ∈ truthWords ∧ v = .bool b ∧ cs = word.toList ++ rest := by
  obtain ⟨⟨word, b⟩, hmem, hword⟩ := List.exists_of_findSome?_eq_some h
  simp only at hword
  split at hword
  · rename_i hstart
    obtain ⟨tail, rfl⟩ := List.isPrefixOf_iff_prefix.mp hstart
    cases hword
    refine ⟨word, b, hmem, rfl, ?_⟩
    rw [← String.length_toList, List.drop_left]
  · cases hword

/-- A word for true or false is one in any case. -/
theorem truth?_ne_none {word : String} {b : Bool} (h : (word, b) ∈ truthWords) :
    truth? word.toList ≠ none := by
  simp only [truthWords, List.mem_cons, List.not_mem_nil, or_false, Prod.mk.injEq] at h
  rcases h with ⟨rfl, rfl⟩ | ⟨rfl, rfl⟩ <;> decide +kernel

theorem isSpace_of_isAlpha {c : Char} (h : c.isAlpha = true) : isSpace c = false := by
  simp only [isSpace, Bool.or_eq_false_iff, beq_eq_false_iff_ne]
  exact ⟨⟨⟨⟨ne_of_class h rfl, ne_of_class h rfl⟩, ne_of_class h rfl⟩, ne_of_class h rfl⟩,
    ne_of_class h rfl⟩

theorem isWordChar_of_isAlpha {c : Char} (h : c.isAlpha = true) : isWordChar c = true := by
  simp only [isWordChar, Bool.not_eq_true', Bool.or_eq_false_iff, beq_eq_false_iff_ne]
  exact ⟨⟨⟨⟨ne_of_class h rfl, ne_of_class h rfl⟩, ne_of_class h rfl⟩, ne_of_class h rfl⟩,
    ne_of_class h rfl⟩

section Letters

variable {cs : List Char} (h : ∀ c ∈ cs, c.isAlpha = true)
include h

theorem ofWord_of_letters : ofWord cs = .string (String.ofList cs) := by
  have hpoint : '.' ∉ cs := not_mem_of_letters h rfl
  simp [ofWord, ofNumeral?, hpoint, integer?_of_letters h]

theorem dropWhile_isSpace_of_letters : cs.dropWhile isSpace = cs :=
  dropWhile_of_forall fun c hc => isSpace_of_isAlpha (h c hc)

/-- Letters begin no list, no table and nothing in quotes, and none of them ends a
word. -/
theorem readOther_of_letters (part : Reader Json) :
    readOther part cs = .ok (.string (String.ofList cs), []) := by
  have hword : ∀ c ∈ cs, isWordChar c = true := fun c hc => isWordChar_of_isAlpha (h c hc)
  have htake : (cs ++ []).takeWhile isWordChar = cs ++ [] := List.takeWhile_append_of_pos hword
  have hdrop : (cs ++ []).dropWhile isWordChar = [] := List.dropWhile_append_of_pos hword
  rw [List.append_nil] at htake hdrop
  unfold readOther
  split
  · exact absurd List.mem_cons_self (not_mem_of_letters h rfl)
  · exact absurd List.mem_cons_self (not_mem_of_letters h rfl)
  · exact absurd List.mem_cons_self (not_mem_of_letters h rfl)
  · exact absurd List.mem_cons_self (not_mem_of_letters h rfl)
  · rw [htake, hdrop, trim_of_letters h, ofWord_of_letters h]

/-- What letters spell that are not true or false as a whole: nothing, when only their
start is, or themselves. -/
theorem spelled?_of_letters (htruth : truth? cs = none) :
    spelled? cs = .ok none ∨ spelled? cs = .ok (some (.string (String.ofList cs))) := by
  rw [spelled?, readValue, readValueWith, dropWhile_isSpace_of_letters h]
  cases hlead : leadingTruth? cs with
  | none =>
      refine .inr ?_
      simp only [readOther_of_letters h]
      rfl
  | some found =>
      obtain ⟨v, rest⟩ := found
      obtain ⟨word, b, hmem, rfl, rfl⟩ := exists_of_leadingTruth? hlead
      have hrest : rest.dropWhile isSpace = rest :=
        dropWhile_isSpace_of_letters fun c hc => h c (List.mem_append_right _ hc)
      refine .inl ?_
      simp only [Except.map, hrest]
      cases rest with
      | nil =>
          rw [List.append_nil] at htruth
          exact absurd htruth (truth?_ne_none hmem)
      | cons c rest => rfl

/-- A variable of letters stands for its text, unless it is true or false. -/
theorem value_of_letters :
    value (String.ofList cs) = .ok ((truth? cs).getD (.string (String.ofList cs))) := by
  have hcomma : isBareList cs = false := by
    rw [isBareList, List.contains_eq_mem, decide_eq_false (not_mem_of_letters h rfl)]
    rfl
  simp only [value, String.toList_ofList, trim_of_letters h, hcomma, Bool.false_eq_true, if_false]
  cases htruth : truth? cs with
  | some b => rfl
  | none =>
      rcases spelled?_of_letters h htruth with hspelled | hspelled <;> rw [hspelled] <;> rfl

end Letters

end Variable

/-! ## A text of letters in a file -/

namespace Document

/-- A line that gives a text under a key. -/
def memberLine (key text : List Char) : List Char :=
  key ++ [' ', '=', ' '] ++ '"' :: text ++ ['"']

section Member

variable {key cs : List Char} (hkey : ∀ c ∈ key, isKeyChar c = true) (hne : key ≠ [])
  (h : ∀ c ∈ cs, c.isAlpha = true)

theorem memberLine_eq (key text : List Char) :
    memberLine key text = key ++ ' ' :: '=' :: ' ' :: '"' :: (text ++ ['"']) := by
  simp [memberLine]

include hkey hne in
theorem dropWhile_isGap_memberLine : (memberLine key cs).dropWhile isGap = memberLine key cs := by
  obtain ⟨c, key, rfl⟩ := List.exists_cons_of_ne_nil hne
  have hc := hkey c List.mem_cons_self
  have hgap : isGap c = false := by
    rw [isGap, Bool.or_eq_false_iff, beq_eq_false_iff_ne, beq_eq_false_iff_ne]
    exact ⟨ne_of_class hc rfl, ne_of_class hc rfl⟩
  rw [memberLine_eq, List.cons_append, List.dropWhile_cons, hgap]
  rfl

include hkey hne in
theorem isRest_memberLine : isRest (memberLine key cs) = false := by
  rw [isRest, dropWhile_isGap_memberLine hkey hne]
  obtain ⟨c, key, rfl⟩ := List.exists_cons_of_ne_nil hne
  exact beq_eq_false_iff_ne.mpr (ne_of_class (hkey c List.mem_cons_self) rfl)

include hkey hne h in
theorem readLine_memberLine :
    readLine (memberLine key cs) = some (some (String.ofList key, String.ofList cs)) := by
  have htake : (memberLine key cs).takeWhile isKeyChar = key := by
    rw [memberLine_eq, List.takeWhile_append_of_pos hkey]
    exact List.append_nil key
  have hdrop : ((memberLine key cs).dropWhile isKeyChar).dropWhile isGap =
      '=' :: ' ' :: '"' :: (cs ++ ['"']) := by
    rw [memberLine_eq, List.dropWhile_append_of_pos hkey]
    rfl
  have hquote : (' ' :: '"' :: (cs ++ ['"'])).dropWhile isGap = '"' :: (cs ++ ['"']) := rfl
  have hrest : isRest [] = true := rfl
  simp only [readLine, dropWhile_isGap_memberLine hkey hne, isRest_memberLine hkey hne,
    Bool.false_eq_true, if_false, htake, hdrop, hquote, readQuoted_of_letters h, ne_eq, hne,
    not_false_eq_true, hrest, and_self, if_true]

include hkey h in
theorem newMarkColumn?_memberLine : newMarkColumn? (memberLine key cs) = none := by
  have hkeep : ∀ c ∈ key, (c != '"' && c != '#') = true := by
    intro c hc
    rw [Bool.and_eq_true, bne_iff_ne, bne_iff_ne]
    exact ⟨ne_of_class (hkey c hc) rfl, ne_of_class (hkey c hc) rfl⟩
  have hlead : (memberLine key cs).takeWhile (fun c => c != '"' && c != '#') =
      key ++ [' ', '=', ' '] := by
    rw [memberLine_eq, List.takeWhile_append_of_pos hkeep]
    rfl
  have hdrop : (memberLine key cs).drop (key ++ [' ', '=', ' ']).length =
      '"' :: (cs ++ ['"']) := by
    rw [memberLine, List.append_assoc, List.drop_left]
    rfl
  simp only [newMarkColumn?, hlead, hdrop, upToNewMark?_of_letters h]
  rfl

theorem dropReturn_memberLine : dropReturn (memberLine key cs) = memberLine key cs := by
  rw [dropReturn, memberLine, List.getLast?_concat]
  rfl

include hkey h in
theorem not_mem_memberLine : '\n' ∉ memberLine key cs := by
  have hkey' : '\n' ∉ key := fun hmem => ne_of_class (hkey _ hmem) (d := '\n') rfl rfl
  simp [memberLine, hkey', not_mem_of_letters h (d := '\n') rfl]

include hkey hne h in
/-- A file of one such line gives the text under the key, and nothing else. -/
theorem read_memberLine :
    read (memberLine key cs ++ ['\n']) = .ok [(String.ofList key, String.ofList cs)] := by
  have hlines : linesOf (memberLine key cs ++ ['\n']) = [memberLine key cs, []] := by
    refine cut_append (fun c hc => ?_) (by rfl) []
    rw [beq_eq_false_iff_ne]
    rintro rfl
    exact not_mem_memberLine hkey h hc
  have hmark : dropMark (memberLine key cs ++ ['\n']) = memberLine key cs ++ ['\n'] := by
    obtain ⟨c, key, rfl⟩ := List.exists_cons_of_ne_nil hne
    have hc : some c ≠ some byteOrderMark := fun heq =>
      ne_of_class (hkey c List.mem_cons_self) rfl (Option.some.inj heq)
    rw [dropMark, memberLine_eq]
    exact if_neg hc
  have hread : readLines 1 [] ([memberLine key cs, []].map dropReturn) =
      .ok [(String.ofList key, String.ofList cs)] := by
    simp only [List.map_cons, List.map_nil, dropReturn_memberLine, readLines,
      readLine_memberLine hkey hne h]
    rfl
  have hnew : newMark? 1 [memberLine key cs, []] = none := by
    rw [newMark?, newMarkColumn?_memberLine hkey h]
    rfl
  rw [read, hmark, hlines, hread, hnew]

end Member

end Document

end AgentHooks.Settings
