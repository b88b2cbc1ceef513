/-
The physical lines of a stream, as a grammar.

`LinesOf fault bytes ls` says what the lines of some bytes are without saying
how to find them: every line runs up to its line feed and includes it, and the
rest after the last line feed is one more line exactly when the stream ends
there.  `linesOf_iff` says that `Stream.lines` finds these lines and no others,
and `lines_append` that the lines of two parts are the lines of the whole when
the first part ends a line.  Cutting at every line feed gives back what was ended
by line feeds, as long as there are none inside (`cut_lineFeed_flatMap_iff`).
-/
import AgentHooks.Payload.Input
import AgentHooks.Proofs.Text.Utf8

namespace AgentHooks

namespace Text

/-- Some bytes after which a line begins: none, or the last one is a line
feed. -/
def EndsLine (bytes : Bytes) : Prop := bytes = [] ∨ bytes.getLast? = some lineFeed

theorem EndsLine.of_append_lineFeed {body rest : Bytes}
    (h : EndsLine (body ++ lineFeed :: rest)) : EndsLine rest := by
  cases rest with
  | nil => exact .inl rfl
  | cons b r =>
      rcases h with h | h
      · exact absurd h (by simp)
      · refine .inr ?_
        simpa [List.getLast?_append] using h

theorem EndsLine.eq_nil {bytes : Bytes} (h : EndsLine bytes) (hlf : lineFeed ∉ bytes) :
    bytes = [] := by
  rcases h with h | h
  · exact h
  · exact absurd (List.mem_of_getLast? h) hlf

/-! ## Up to the last line feed -/

theorem exists_eq_upToLast_append {α : Type} (sep : α → Bool) (xs : List α) :
    ∃ rest, xs = upToLast sep xs ++ rest ∧ ∀ x ∈ rest, sep x = false := by
  refine ⟨(xs.reverse.takeWhile fun x => !sep x).reverse, ?_, fun x hx => ?_⟩
  · rw [upToLast, ← List.reverse_append, List.takeWhile_append_dropWhile, List.reverse_reverse]
  · have hall := List.all_eq_true.mp (List.all_takeWhile (p := fun x => !sep x) (l := xs.reverse))
    simpa using hall x (List.mem_reverse.mp hx)

/-- What is up to the last line feed is complete lines. -/
theorem endsLine_upToLast (bytes : Bytes) : EndsLine (upToLast (· == lineFeed) bytes) := by
  cases hrest : bytes.reverse.dropWhile fun b => !(b == lineFeed) with
  | nil => exact .inl (by rw [upToLast, hrest]; rfl)
  | cons b bs =>
      have hb := List.head?_dropWhile_not (fun b => !(b == lineFeed)) bytes.reverse
      rw [hrest] at hb
      refine .inr ?_
      rw [upToLast, hrest, List.reverse_cons, List.getLast?_concat]
      simpa using hb

/-! ## Lines -/

theorem physicalLines_append_lineFeed {body : Bytes} (rest : Bytes) (h : lineFeed ∉ body) :
    physicalLines (body ++ lineFeed :: rest) = (body ++ [lineFeed]) :: physicalLines rest := by
  induction body with
  | nil => simp [physicalLines]
  | cons b r ih =>
      have hb : b ≠ lineFeed := (List.ne_of_not_mem_cons h).symm
      have hr : lineFeed ∉ r := List.not_mem_of_not_mem_cons h
      simp only [List.cons_append, physicalLines, if_neg hb, ih hr]

theorem physicalLines_of_not_mem {body : Bytes} (hne : body ≠ []) (h : lineFeed ∉ body) :
    physicalLines body = [body] := by
  induction body with
  | nil => exact absurd rfl hne
  | cons b r ih =>
      have hb : b ≠ lineFeed := (List.ne_of_not_mem_cons h).symm
      have hr : lineFeed ∉ r := List.not_mem_of_not_mem_cons h
      by_cases hnil : r = []
      · simp [physicalLines, hb, hnil]
      · simp only [physicalLines, if_neg hb, ih hnil hr]

/-! ## Line feeds -/

/-- A text has as many line feeds as its bytes. -/
theorem count_lineFeed_encode (text : String) :
    (Utf8.encode text).count lineFeed = text.toList.count '\n' :=
  Utf8.count_encodeChars (c := '\n') (by decide) text.toList

theorem lineFeed_mem_encode_iff {text : String} :
    lineFeed ∈ Utf8.encode text ↔ '\n' ∈ text.toList := by
  rw [← List.count_pos_iff, count_lineFeed_encode, List.count_pos_iff]

theorem lineFeed_not_mem_encodeChars {cs : List Char} (h : '\n' ∉ cs) :
    lineFeed ∉ Utf8.encodeChars cs := by
  rwa [← Utf8.encode_ofList, lineFeed_mem_encode_iff, String.toList_ofList]

/-- The lines of a text are those of its bytes: the byte of a line feed is always a line
feed of the text. -/
theorem physicalLines_encodeChars_append {cs : List Char} (h : '\n' ∉ cs) (rest : List Char) :
    physicalLines (Utf8.encodeChars (cs ++ '\n' :: rest)) =
      Utf8.encodeChars (cs ++ ['\n']) :: physicalLines (Utf8.encodeChars rest) := by
  have hline := physicalLines_append_lineFeed (Utf8.encodeChars rest)
    (lineFeed_not_mem_encodeChars h)
  rw [Utf8.encodeChars_append, Utf8.encodeChars_append]
  exact hline

theorem physicalLines_encodeChars {cs : List Char} (h : '\n' ∉ cs) (hne : cs ≠ []) :
    physicalLines (Utf8.encodeChars cs) = [Utf8.encodeChars cs] :=
  physicalLines_of_not_mem (Utf8.encodeChars_ne_nil hne) (lineFeed_not_mem_encodeChars h)

theorem cut_ne_nil {α : Type} (sep : α → Bool) (xs : List α) : cut sep xs ≠ [] := by
  cases xs with
  | nil => exact nofun
  | cons x xs =>
      rw [cut]
      split
      · exact nofun
      · split <;> exact nofun

/-- Where there is a separator, the pieces are those before it and those after it. -/
theorem cut_append_sep {α : Type} {sep : α → Bool} {x : α} (hx : sep x = true)
    (xs rest : List α) : cut sep (xs ++ x :: rest) = cut sep xs ++ cut sep rest := by
  induction xs with
  | nil =>
      show cut sep (x :: rest) = [] :: cut sep rest
      rw [cut, if_pos hx]
  | cons b bs ih =>
      rw [List.cons_append, cut, cut, ih]
      cases hpieces : cut sep bs with
      | nil => exact absurd hpieces (cut_ne_nil sep bs)
      | cons p ps => split <;> rfl

/-- Without a separator there is one piece. -/
theorem cut_of_forall {α : Type} {sep : α → Bool} {body : List α}
    (h : ∀ b ∈ body, sep b = false) : cut sep body = [body] := by
  induction body with
  | nil => rfl
  | cons b bs ih =>
      obtain ⟨hb, hbs⟩ := List.forall_mem_cons.mp h
      rw [cut, hb, ih hbs]
      rfl

theorem cut_append {α : Type} {sep : α → Bool} {body : List α} {x : α}
    (hbody : ∀ b ∈ body, sep b = false) (hx : sep x = true) (rest : List α) :
    cut sep (body ++ x :: rest) = body :: cut sep rest := by
  rw [cut_append_sep hx, cut_of_forall hbody]
  rfl

theorem eq_false_of_mem_cut {α : Type} {sep : α → Bool} {xs piece : List α}
    (h : piece ∈ cut sep xs) : ∀ x ∈ piece, sep x = false := by
  induction xs generalizing piece with
  | nil =>
      rw [cut, List.mem_singleton] at h
      rw [h]
      exact nofun
  | cons b bs ih =>
      rw [cut] at h
      split at h
      · rcases List.mem_cons.mp h with rfl | h
        · exact nofun
        · exact ih h
      rename_i hb
      have hb : sep b = false := Bool.not_eq_true _ ▸ hb
      split at h
      · rw [List.mem_singleton] at h
        rw [h, List.forall_mem_singleton]
        exact hb
      · rename_i p ps hcut
        rw [hcut] at ih
        rcases List.mem_cons.mp h with rfl | h
        · exact List.forall_mem_cons.mpr ⟨hb, ih List.mem_cons_self⟩
        · exact ih (List.mem_cons_of_mem p h)

/-- Lines that are ended by line feeds are what is between these, with nothing
after the last one, if none has a line feed inside and only then. -/
theorem cut_lineFeed_flatMap_iff {lines : List Bytes} :
    cut (· == lineFeed) (lines.flatMap fun l => l ++ [lineFeed]) = lines ++ [[]] ↔
      ∀ l ∈ lines, lineFeed ∉ l := by
  constructor
  · intro h l hl hmem
    have hpiece : l ∈ cut (· == lineFeed) (lines.flatMap fun l => l ++ [lineFeed]) :=
      h ▸ List.mem_append_left _ hl
    exact beq_eq_false_iff_ne.mp (eq_false_of_mem_cut hpiece lineFeed hmem) rfl
  · intro h
    induction lines with
    | nil => rfl
    | cons l ls ih =>
        obtain ⟨hl, hls⟩ := List.forall_mem_cons.mp h
        have hbody : ∀ b ∈ l, (b == lineFeed) = false := by
          intro b hb
          refine beq_eq_false_iff_ne.mpr ?_
          rintro rfl
          exact hl hb
        rw [List.flatMap_cons, List.append_assoc, List.singleton_append,
          cut_append hbody (beq_self_eq_true _), ih hls]
        rfl

end Text

namespace Stream

open Text

/-- The physical lines of the bytes that a stream yields before it ends or
fails. -/
inductive LinesOf (fault : Option String) : Bytes → List Bytes → Prop
  | nil : LinesOf fault [] []
  | ended {body rest : Bytes} {ls : List Bytes} : lineFeed ∉ body → LinesOf fault rest ls →
      LinesOf fault (body ++ lineFeed :: rest) ((body ++ [lineFeed]) :: ls)
  | rest {body : Bytes} : lineFeed ∉ body → body ≠ [] → fault = none →
      LinesOf fault body [body]
  | lost {body : Bytes} : lineFeed ∉ body → body ≠ [] → fault ≠ none →
      LinesOf fault body []

theorem lines_nil (fault : Option String) : lines ⟨[], fault⟩ = [] := by
  simp [lines, physicalLines]

/-- A line that is ended can be read whether or not the stream fails later. -/
theorem lines_append_lineFeed (fault : Option String) {body : Bytes} (rest : Bytes)
    (h : lineFeed ∉ body) :
    lines ⟨body ++ lineFeed :: rest, fault⟩ = (body ++ [lineFeed]) :: lines ⟨rest, fault⟩ := by
  cases fault with
  | none => simp [lines, physicalLines_append_lineFeed rest h]
  | some f => simp [lines, physicalLines_append_lineFeed rest h]

theorem lines_rest {body : Bytes} (h : lineFeed ∉ body) (hne : body ≠ []) :
    lines ⟨body, none⟩ = [body] := by
  simp [lines, physicalLines_of_not_mem hne h]

theorem lines_lost {fault : Option String} {body : Bytes} (h : lineFeed ∉ body)
    (hne : body ≠ []) (hf : fault ≠ none) : lines ⟨body, fault⟩ = [] := by
  have hlast : ¬ body.getLast? = some lineFeed := fun hl => h (List.mem_of_getLast? hl)
  simp [lines, physicalLines_of_not_mem hne h, hf, hlast]

theorem LinesOf.eq_lines {fault : Option String} {bytes : Bytes} {ls : List Bytes}
    (h : LinesOf fault bytes ls) : ls = lines ⟨bytes, fault⟩ := by
  induction h with
  | nil => exact (lines_nil fault).symm
  | ended hb _ ih => rw [lines_append_lineFeed fault _ hb, ← ih]
  | rest hb hne hf => subst hf; exact (lines_rest hb hne).symm
  | lost hb hne hf => exact (lines_lost hb hne hf).symm

/-- The grammar covers every stream.  The recursion goes from one line feed to
the next. -/
theorem exists_linesOf (fault : Option String) (bytes : Bytes) :
    ∃ ls, LinesOf fault bytes ls := by
  by_cases hlf : lineFeed ∈ bytes
  · obtain ⟨body, rest, rfl, hb⟩ := List.eq_append_cons_of_mem hlf
    obtain ⟨ls, hls⟩ := exists_linesOf fault rest
    exact ⟨_, .ended hb hls⟩
  · by_cases hne : bytes = []
    · subst hne; exact ⟨_, .nil⟩
    · by_cases hf : fault = none
      · exact ⟨_, .rest hlf hne hf⟩
      · exact ⟨_, .lost hlf hne hf⟩
termination_by bytes.length
decreasing_by subst_vars; simp only [List.length_append, List.length_cons]; omega

/-- The lines that can be read are the ones of the grammar. -/
theorem linesOf_iff {s : Stream} {ls : List Bytes} :
    LinesOf s.fault s.bytes ls ↔ ls = s.lines := by
  constructor
  · exact LinesOf.eq_lines
  · rintro rfl
    obtain ⟨ls, hls⟩ := exists_linesOf s.fault s.bytes
    exact hls.eq_lines ▸ hls

/-- Cut after a line, a stream has the lines of both parts. -/
theorem lines_append {a : Bytes} (h : EndsLine a) (b : Bytes) (fault : Option String) :
    lines ⟨a ++ b, fault⟩ = lines ⟨a, none⟩ ++ lines ⟨b, fault⟩ := by
  obtain ⟨ls, hls⟩ := exists_linesOf none a
  rw [← hls.eq_lines]
  induction hls with
  | nil => rfl
  | ended hb _ ih =>
      rw [List.append_assoc, List.cons_append, lines_append_lineFeed fault _ hb,
        ih h.of_append_lineFeed]
      rfl
  | rest hb hne _ => exact absurd (h.eq_nil hb) hne
  | lost _ _ hf => exact absurd rfl hf

/-- Of a stream that fails those lines can be read that are complete. -/
theorem lines_of_fault (bytes : Bytes) (detail : String) :
    lines ⟨bytes, some detail⟩ = lines ⟨upToLast (· == lineFeed) bytes, none⟩ := by
  obtain ⟨rest, hbytes, hrest⟩ := exists_eq_upToLast_append (· == lineFeed) bytes
  have hnot : lineFeed ∉ rest := fun h => absurd (hrest _ h) (by simp)
  have hlost : lines ⟨rest, some detail⟩ = [] := by
    by_cases hnil : rest = []
    · rw [hnil, lines_nil]
    · exact lines_lost hnot hnil (by simp)
  have happend := lines_append (endsLine_upToLast bytes) rest (some detail)
  rwa [← hbytes, hlost, List.append_nil] at happend

end Stream

end AgentHooks
