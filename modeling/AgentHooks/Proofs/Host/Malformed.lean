/-
Reports of lines that are no messages.

Such a report shows bytes that nobody vouches for, together with what a reader said of
them.  `exists_line_of_reported` finds the line behind each report of a run, and
`Holds.of_malformedLine` says what the report then is: the wording of the readers is a
fixed text with numbers in it, and the excerpt is quoted.  So the report is one line of
text and steers no terminal, whatever the bytes are.
-/
import AgentHooks.Proofs.Host.Accounting
import AgentHooks.Proofs.Text.Excerpt
import AgentHooks.Proofs.Text.Quoted

namespace AgentHooks

/-! ## The wording of the readers -/

namespace Json

theorem Cause.staysInLine_message (cause : Cause) : Text.StaysInLine cause.message := by
  refine Text.staysInLine_of_all ?_
  cases cause <;> decide

theorem Fault.staysInLine_message (fault : Fault) : Text.StaysInLine fault.message := by
  have hline : Text.StaysInLine " at line " := Text.staysInLine_of_all (by decide)
  have hcolumn : Text.StaysInLine " column " := Text.staysInLine_of_all (by decide)
  have hcause := fault.cause.staysInLine_message
  have hplace := (hcause.append hline).append (Text.staysInLine_toString fault.line)
  exact (hplace.append hcolumn).append (Text.staysInLine_toString fault.column)

end Json

namespace Utf8

theorem Fault.staysInLine_message (fault : Fault) : Text.StaysInLine fault.message := by
  have hinvalid : Text.StaysInLine "invalid utf-8 sequence of " :=
    Text.staysInLine_of_all (by decide)
  have hbytes : Text.StaysInLine " bytes from index " := Text.staysInLine_of_all (by decide)
  have hincomplete : Text.StaysInLine "incomplete utf-8 byte sequence from index " :=
    Text.staysInLine_of_all (by decide)
  have hindex := Text.staysInLine_toString fault.index
  unfold message
  split
  · rename_i n _
    have hlength := hinvalid.append (Text.staysInLine_toString n)
    exact (hlength.append hbytes).append hindex
  · exact hincomplete.append hindex

/-- A lenient reader reads what a strict one reads, when that reads anything. -/
theorem decodeLossy_of_decode {bytes : Bytes} {chars : List Char}
    (h : decode bytes = .ok chars) : decodeLossy bytes = chars := by
  suffices hpieces : ∀ (pieces : List Piece) (index : Nat) (chars : List Char),
      collect index pieces = .ok chars → pieces.map Piece.lossy = chars from
    hpieces (scan bytes) 0 chars h
  intro pieces
  induction pieces with
  | nil =>
      intro index chars h
      exact Except.ok.inj h
  | cons p ps ih =>
      intro index chars h
      cases p with
      | char c =>
          rw [collect] at h
          cases hrest : collect (index + (encodeChar c).length) ps with
          | error fault => rw [hrest] at h; cases h
          | ok rest =>
              rw [hrest] at h
              rw [List.map_cons, ih _ rest hrest]
              exact Except.ok.inj h
      | broken n => cases h
      | unfinished => cases h

end Utf8

namespace Diagnostic

/-- What is said of a line stays in a line if what the reader said of it does: the excerpt
is quoted. -/
theorem staysInLine_malformedLine (line : Nat) {detail : String} (excerpt : String)
    (h : Text.StaysInLine detail) :
    Text.StaysInLine (malformedLine line detail excerpt).message := by
  have hline : Text.StaysInLine "line " := Text.staysInLine_of_all (by decide)
  have hmalformed : Text.StaysInLine ": malformed envelope: " :=
    Text.staysInLine_of_all (by decide)
  have hinput : Text.StaysInLine "; input: " := Text.staysInLine_of_all (by decide)
  have hplace := (hline.append (Text.staysInLine_toString line)).append hmalformed
  have hsaid := (hplace.append h).append hinput
  exact hsaid.append (Text.staysInLine_quote excerpt)

end Diagnostic

namespace Host

/-! ## The line behind a report -/

/-- The report of a malformed line: its number is that of the line, the wording is a
reader's, and the excerpt is of the characters that a lenient reader finds on the line. -/
theorem Holds.of_malformedLine {files : FileTree} {line n : Nat} {bytes : Bytes}
    {detail excerpt : String}
    (h : Holds files line bytes (.refused (.malformedLine n detail excerpt))) :
    n = line ∧ Text.StaysInLine detail ∧
      excerpt = Text.excerpt (String.ofList (Text.trim (Utf8.decodeLossy bytes))) := by
  have htextual {text : String} (h : HoldsText bytes text) :
      Text.excerpt text =
        Text.excerpt (String.ofList (Text.trim (Utf8.decodeLossy bytes))) := by
    obtain ⟨chars, hdecode, -, rfl⟩ := h
    rw [Utf8.decodeLossy_of_decode hdecode]
  cases h with
  | notUtf8 _ =>
      rename_i fault _
      have hinvalid : Text.StaysInLine "invalid UTF-8: " :=
        Text.staysInLine_of_all (by decide)
      exact ⟨rfl, hinvalid.append fault.staysInLine_message, rfl⟩
  | notJson htext _ =>
      rename_i text fault _
      exact ⟨rfl, fault.staysInLine_message, htextual htext⟩
  | notAnObject htext _ _ =>
      refine ⟨rfl, ?_, htextual htext⟩
      exact Text.staysInLine_of_all (by decide)

variable {σ : Type} (handler : Handler σ)

/-- The report that a line leaves is of what it holds, unless it is the handler's. -/
theorem holds_of_mem_reports_takeLine {line : Nat} {bytes : Bytes} {w : World σ}
    {d : Diagnostic} (h : d ∈ Trace.reports (takeLine handler line bytes w).trace)
    (hd : d.isHandlerFailure = false) : Holds w.files line bytes (.refused d) := by
  have hholds : Holds w.files line bytes (contentOf w.files line bytes) := holds_iff.mpr rfl
  rw [← Trace.reports_acts, takeLine_acts] at h
  cases hcontent : contentOf w.files line bytes with
  | blank =>
      rw [hcontent] at h
      cases h
  | refused d' =>
      rw [hcontent] at h hholds
      have heq : d = d' := List.mem_singleton.mp h
      rw [heq]
      exact hholds
  | event seq payload =>
      rw [hcontent, answer] at h
      split at h
      · cases h
      · have heq := List.mem_singleton.mp h
        rw [heq] at hd
        cases hd

/-- Every report of a run, the handler's apart, is of what one of the lines holds, under
the number of that line. -/
theorem exists_line_of_reported {ls : List Bytes} {s : Summary} {w : World σ}
    {d : Diagnostic} (h : d ∈ Trace.reports (takeLines handler ls s w).trace)
    (hd : d.isHandlerFailure = false) :
    ∃ before bytes after files, ls = before ++ bytes :: after ∧
      Holds files (s.linesRead + before.length + 1) bytes (.refused d) := by
  induction ls generalizing s w with
  | nil => cases h
  | cons l ls ih =>
      rw [takeLines, Trace.reports_append] at h
      rcases List.mem_append.mp h with hfirst | hrest
      · exact ⟨[], l, ls, w.files, rfl, holds_of_mem_reports_takeLine handler hfirst hd⟩
      · obtain ⟨before, bytes, after, files, rfl, hholds⟩ := ih hrest
        refine ⟨l :: before, bytes, after, files, rfl, ?_⟩
        rw [Summary.linesRead_count] at hholds
        rwa [List.length_cons, Nat.add_comm before.length, ← Nat.add_assoc]

/-! ## Runs -/

/-- No line breaks its report out of the line it is shown in: whatever bytes a stream has,
the report of a malformed line names that line by its number, its text has no character
that ends a line or steers a terminal, and its excerpt is the start of what the line holds
and has at most 123 characters. -/
theorem run_malformed_stays_in_line (input : Stream) (w : World σ) (line : Nat)
    (detail excerpt : String)
    (h : .malformedLine line detail excerpt ∈ Trace.reports (run handler input w).trace) :
    Text.StaysInLine (Diagnostic.malformedLine line detail excerpt).message ∧
    excerpt.toList.length ≤ 123 ∧
    ∃ before bytes after, input.lines = before ++ bytes :: after ∧ line = before.length + 1 ∧
      excerpt = Text.excerpt (String.ofList (Text.trim (Utf8.decodeLossy bytes))) := by
  rw [reports_run] at h
  have hlines : .malformedLine line detail excerpt ∈
      Trace.reports (takeLines handler input.lines .zero w).trace := by
    rcases List.mem_append.mp h with h | h
    · exact h
    · cases hfault : input.fault with
      | none => rw [hfault] at h; cases h
      | some _ =>
          rw [hfault] at h
          cases List.mem_singleton.mp h
  obtain ⟨before, bytes, after, files, hsplit, hholds⟩ :=
    exists_line_of_reported handler hlines rfl
  obtain ⟨hnumber, hdetail, hexcerpt⟩ := hholds.of_malformedLine
  refine ⟨Diagnostic.staysInLine_malformedLine line excerpt hdetail, ?_,
    before, bytes, after, hsplit, ?_, hexcerpt⟩
  · rw [hexcerpt]
    exact Text.length_excerpt_le _
  · rw [hnumber]
    show 0 + before.length + 1 = before.length + 1
    rw [Nat.zero_add]

/-- The second line clears a terminal in two ways, ends a line in a third and is no UTF-8. -/
theorem run_malformed_stays_in_line_hostile :
    .malformedLine 2 "invalid UTF-8: invalid utf-8 sequence of 1 bytes from index 9"
        "\u001b[2J\u009b\u2028\ufffd" ∈
      Trace.reports (run .scripted ⟨[0x0A, 0x1B, 0x5B, 0x32, 0x4A, 0xC2, 0x9B, 0xE2, 0x80, 0xA8,
        0xFF, 0x0A], none⟩ ⟨.empty, []⟩).trace ∧
    Text.StaysInLine (Diagnostic.malformedLine 2
      "invalid UTF-8: invalid utf-8 sequence of 1 bytes from index 9"
      "\u001b[2J\u009b\u2028\ufffd").message := by
  have hreported : .malformedLine 2
        "invalid UTF-8: invalid utf-8 sequence of 1 bytes from index 9"
        "\u001b[2J\u009b\u2028\ufffd" ∈
      Trace.reports (run .scripted ⟨[0x0A, 0x1B, 0x5B, 0x32, 0x4A, 0xC2, 0x9B, 0xE2, 0x80, 0xA8,
        0xFF, 0x0A], none⟩ ⟨.empty, []⟩).trace := by
    decide +kernel
  exact ⟨hreported, (run_malformed_stays_in_line .scripted _ _ 2 _ _ hreported).1⟩

end Host

end AgentHooks
