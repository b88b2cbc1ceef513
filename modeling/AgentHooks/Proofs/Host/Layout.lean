/-
The layout of a stream.

A run sees a line only through its text without the blanks at its ends.  The lines of
a stream that is a text are texts (`isText_of_mem_lines`), so streams with the same
texts on their lines have the same runs (`serve_of_sameTexts`): it does not matter how
lines are indented, how they are ended, and whether the last one is ended at all.
-/
import AgentHooks.Proofs.Host.Content
import AgentHooks.Proofs.Text.Decoding
import AgentHooks.Proofs.Text.Lines
import AgentHooks.Proofs.Text.Trim

namespace AgentHooks.Host

/-! ## Texts on lines -/

/-- Bytes that are UTF-8 to their end. -/
def IsText (bytes : Bytes) : Prop := ∃ cs, Utf8.decode bytes = .ok cs

/-- As many lines, with the same texts on them in turn but for the blanks at their
ends. -/
structure SameTexts (ls ls' : List Bytes) : Prop where
  length_eq : ls.length = ls'.length
  trim_eq : ∀ (i : Nat) (l l' : Bytes) (cs cs' : List Char), ls[i]? = some l → ls'[i]? = some l' →
    Utf8.decode l = .ok cs → Utf8.decode l' = .ok cs' → Text.trim cs = Text.trim cs'

theorem SameTexts.tail {l l' : Bytes} {ls ls' : List Bytes} (h : SameTexts (l :: ls) (l' :: ls')) :
    SameTexts ls ls' where
  length_eq := Nat.succ.inj h.length_eq
  trim_eq i := h.trim_eq (i + 1)

theorem sameTexts_of_map_trim_eq {ts ts' : List (List Char)}
    (h : ts.map Text.trim = ts'.map Text.trim) :
    SameTexts (ts.map Utf8.encodeChars) (ts'.map Utf8.encodeChars) where
  length_eq := by
    rw [List.length_map, List.length_map, ← List.length_map (f := Text.trim), h, List.length_map]
  trim_eq i l l' cs cs' hl hl' hcs hcs' := by
    rw [List.getElem?_map, Option.map_eq_some_iff] at hl hl'
    obtain ⟨t, ht, rfl⟩ := hl
    obtain ⟨t', ht', rfl⟩ := hl'
    rw [Utf8.decode_encodeChars] at hcs hcs'
    cases hcs
    cases hcs'
    have hi := congrArg (·[i]?) h
    simpa [ht, ht'] using hi

/-- The lines of a text are texts: a byte of a line feed is a line feed of the text.
The recursion goes from one line feed to the next. -/
theorem isText_of_mem_physicalLines (cs : List Char) :
    ∀ l ∈ Text.physicalLines (Utf8.encodeChars cs), IsText l := by
  by_cases hlf : '\n' ∈ cs
  · obtain ⟨line, rest, rfl, hline⟩ := List.eq_append_cons_of_mem hlf
    rw [Text.physicalLines_encodeChars_append hline, List.forall_mem_cons]
    exact ⟨⟨_, Utf8.decode_encodeChars _⟩, isText_of_mem_physicalLines rest⟩
  · by_cases hnil : cs = []
    · rw [hnil]
      exact nofun
    · rw [Text.physicalLines_encodeChars hlf hnil, List.forall_mem_singleton]
      exact ⟨cs, Utf8.decode_encodeChars cs⟩
termination_by cs.length
decreasing_by subst_vars; simp only [List.length_append, List.length_cons]; omega

theorem isText_of_mem_lines {s : Stream} (h : IsText s.bytes) : ∀ l ∈ s.lines, IsText l := by
  obtain ⟨cs, hcs⟩ := h
  have hlines := isText_of_mem_physicalLines cs
  rw [← Utf8.decode_eq_ok_iff.mp hcs] at hlines
  intro l hl
  unfold Stream.lines at hl
  split at hl
  · exact hlines l hl
  · exact hlines l (List.mem_filter.mp hl).1

/-! ## Runs -/

variable {σ δ : Type}

/-- A line is taken by its text without the blanks at its ends. -/
theorem takeLine_of_trim_eq (handler : Handler σ) (line : Nat) (w : World σ) {l l' : Bytes}
    {cs cs' : List Char} (hl : Utf8.decode l = .ok cs) (hl' : Utf8.decode l' = .ok cs')
    (h : Text.trim cs = Text.trim cs') :
    takeLine handler line l w = takeLine handler line l' w := by
  simp only [takeLine, hl, hl', h]

theorem takeLines_of_sameTexts (handler : Handler σ) {ls ls' : List Bytes} (h : SameTexts ls ls')
    (hls : ∀ l ∈ ls, IsText l) (hls' : ∀ l ∈ ls', IsText l) (s : Summary) (w : World σ) :
    takeLines handler ls s w = takeLines handler ls' s w := by
  induction ls generalizing ls' s w with
  | nil =>
      obtain rfl := List.length_eq_zero_iff.mp h.length_eq.symm
      rfl
  | cons l ls ih =>
      cases ls' with
      | nil => cases h.length_eq
      | cons l' ls' =>
          obtain ⟨⟨cs, hcs⟩, hls⟩ := List.forall_mem_cons.mp hls
          obtain ⟨⟨cs', hcs'⟩, hls'⟩ := List.forall_mem_cons.mp hls'
          have htrim := h.trim_eq 0 l l' cs cs' rfl rfl hcs hcs'
          simp only [takeLines, takeLine_of_trim_eq handler _ _ hcs hcs' htrim,
            ih h.tail hls hls']

theorem run_of_sameTexts (handler : Handler σ) {s t : Stream} (hs : IsText s.bytes)
    (ht : IsText t.bytes) (h : SameTexts s.lines t.lines) (hfault : s.fault = t.fault)
    (w : World σ) : run handler s w = run handler t w := by
  simp only [run, hfault, takeLines_of_sameTexts handler h (isText_of_mem_lines hs)
    (isText_of_mem_lines ht)]

/-! ## Layouts -/

/-- Characters that lay texts out on lines: there may be blanks before and after each
text, and a line feed ends each line, but perhaps not the last one. -/
inductive LaysOut : List (List Char) → List Char → Prop
  | nil : LaysOut [] []
  | ended {before text after rest : List Char} {texts : List (List Char)} :
      (∀ b ∈ before, Text.isBlank b = true) → (∀ b ∈ after, Text.isBlank b = true) →
      '\n' ∉ before ++ text ++ after → LaysOut texts rest →
      LaysOut (text :: texts) (before ++ text ++ after ++ '\n' :: rest)
  | last {before text after : List Char} :
      (∀ b ∈ before, Text.isBlank b = true) → (∀ b ∈ after, Text.isBlank b = true) →
      '\n' ∉ before ++ text ++ after → before ++ text ++ after ≠ [] →
      LaysOut [text] (before ++ text ++ after)

/-- The lines of a layout are its texts, blanks at their ends apart. -/
theorem LaysOut.exists_lines {texts : List (List Char)} {cs : List Char} (h : LaysOut texts cs) :
    ∃ lines : List (List Char),
      Stream.lines ⟨Utf8.encodeChars cs, none⟩ = lines.map Utf8.encodeChars ∧
      lines.map Text.trim = texts.map Text.trim := by
  induction h with
  | nil => exact ⟨[], rfl, rfl⟩
  | @ended before text after rest texts hbefore hafter hlf _ ih =>
      obtain ⟨lines, hlines, htexts⟩ := ih
      have hblank : ∀ b ∈ after ++ ['\n'], Text.isBlank b = true :=
        List.forall_mem_append.mpr ⟨hafter, List.forall_mem_singleton.mpr rfl⟩
      refine ⟨(before ++ text ++ after ++ ['\n']) :: lines, ?_, ?_⟩
      · exact (Text.physicalLines_encodeChars_append hlf rest).trans (congrArg _ hlines)
      · rw [List.map_cons, List.map_cons, htexts, List.append_assoc _ after,
          Text.trim_padded hbefore hblank]
  | @last before text after hbefore hafter hlf hne =>
      refine ⟨[before ++ text ++ after], Text.physicalLines_encodeChars hlf hne, ?_⟩
      rw [List.map_singleton, List.map_singleton, Text.trim_padded hbefore hafter]

theorem LaysOut.sameTexts {texts : List (List Char)} {cs ds : List Char} (h : LaysOut texts cs)
    (h' : LaysOut texts ds) :
    SameTexts (Stream.lines ⟨Utf8.encodeChars cs, none⟩)
      (Stream.lines ⟨Utf8.encodeChars ds, none⟩) := by
  obtain ⟨lines, hlines, htexts⟩ := h.exists_lines
  obtain ⟨lines', hlines', htexts'⟩ := h'.exists_lines
  rw [hlines, hlines']
  exact sameTexts_of_map_trim_eq (htexts.trans htexts'.symm)

/-- Two streams that are texts, and that have the same texts on as many lines but for the
blanks at their ends, come to the same: the calls and reports in their order, the
summary, the files, the log and the state of the reporter.  So do two layouts of the
same texts, however the lines are indented and ended. -/
theorem serve_of_sameTexts (r : Reporter δ) (handler : Handler σ) (w : World σ) (state : δ) :
    (∀ s t : Stream, IsText s.bytes → IsText t.bytes → SameTexts s.lines t.lines →
      s.fault = t.fault → serve r handler s w state = serve r handler t w state) ∧
    ∀ texts cs ds, LaysOut texts cs → LaysOut texts ds →
      serve r handler ⟨Utf8.encodeChars cs, none⟩ w state =
        serve r handler ⟨Utf8.encodeChars ds, none⟩ w state := by
  constructor
  · intro s t hs ht h hfault
    rw [serve_eq, serve_eq, run_of_sameTexts handler hs ht h hfault]
  · intro texts cs ds hcs hds
    have hrun := run_of_sameTexts handler ⟨cs, Utf8.decode_encodeChars cs⟩
      ⟨ds, Utf8.decode_encodeChars ds⟩ (hcs.sameTexts hds) rfl w
    rw [serve_eq, serve_eq, hrun]

/-- A line that is no JSON and one of another kind, laid out with a line feed between them
and nothing else, and then with blanks around both and a line feed at the end. -/
theorem serve_of_sameTexts_padded :
    let texts := ["日本".toList, "\x7b\"type\":\"tick\"\x7d".toList]
    let plain := "日本\n\x7b\"type\":\"tick\"\x7d".toList
    let padded := "\u3000日本\r\n\t\x7b\"type\":\"tick\"\x7d \n".toList
    LaysOut texts plain ∧ LaysOut texts padded ∧
    IsText (Utf8.encodeChars plain) ∧ IsText (Utf8.encodeChars padded) ∧
    SameTexts (Stream.lines ⟨Utf8.encodeChars plain, none⟩)
      (Stream.lines ⟨Utf8.encodeChars padded, none⟩) ∧
    serve .keeping .scripted ⟨Utf8.encodeChars plain, none⟩ ⟨.empty, []⟩ [] =
      serve .keeping .scripted ⟨Utf8.encodeChars padded, none⟩ ⟨.empty, []⟩ [] ∧
    (serve .keeping .scripted ⟨Utf8.encodeChars padded, none⟩ ⟨.empty, []⟩ []).state =
      [.malformedLine 1 "expected value at line 1 column 1" "日本", .unrecognizedKind 2 "tick"] := by
  intro texts plain padded
  have hplain : LaysOut texts plain := by
    have hlayout : plain = [] ++ "日本".toList ++ [] ++
        '\n' :: ([] ++ "\x7b\"type\":\"tick\"\x7d".toList ++ []) := by decide +kernel
    rw [hlayout]
    exact .ended nofun nofun (by decide +kernel)
      (.last nofun nofun (by decide +kernel) (by decide +kernel))
  have hpadded : LaysOut texts padded := by
    have hlayout : padded = ['\u3000'] ++ "日本".toList ++ ['\r'] ++
        '\n' :: (['\t'] ++ "\x7b\"type\":\"tick\"\x7d".toList ++ [' '] ++ '\n' :: []) := by
      decide +kernel
    have hblank (b : Char) (hb : Text.isBlank b = true) : ∀ c ∈ [b], Text.isBlank c = true :=
      List.forall_mem_singleton.mpr hb
    rw [hlayout]
    exact .ended (hblank _ rfl) (hblank _ rfl) (by decide +kernel)
      (.ended (hblank _ rfl) (hblank _ rfl) (by decide +kernel) .nil)
  have hsame := hplain.sameTexts hpadded
  obtain ⟨hlines, hlayouts⟩ := serve_of_sameTexts .keeping .scripted ⟨.empty, []⟩ []
  have hserve := hlines _ _ ⟨plain, Utf8.decode_encodeChars plain⟩
    ⟨padded, Utf8.decode_encodeChars padded⟩ hsame rfl
  refine ⟨hplain, hpadded, ⟨plain, Utf8.decode_encodeChars plain⟩,
    ⟨padded, Utf8.decode_encodeChars padded⟩, hsame, hserve, ?_⟩
  rw [← hlayouts texts plain padded hplain hpadded]
  decide +kernel

end AgentHooks.Host
