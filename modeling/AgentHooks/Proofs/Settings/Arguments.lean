/-
The flags in front of a command.

A command line is uses of flags, each in one argument or in two, perhaps a flag with
nothing after it, and then the command (`Line`).  Every list of arguments is one
(`exists_line`), and it is split where its command begins (`Line.splitBy_eq`).  So nothing
is lost or moved, neither part is split any further, and the command is the same in
whatever way the uses are written (`splitLine_takes_apart`).
-/
import AgentHooks.Proofs.Settings.Flags

namespace AgentHooks.Settings

open CommandLine

/-! ## Single arguments -/

/-- Whether a text is a flag and its value, with an equals sign between them. -/
def IsJoined (text : String) : Prop := ∃ flag ∈ flagTexts, ∃ value, text = flag ++ "=" ++ value

theorem equals_not_mem_flagTexts : ∀ flag ∈ flagTexts, '=' ∉ flag.toList := by decide +kernel

/-- The parts of a text before and after its first equals sign, put together. -/
theorem toList_of_splitAtEquals {cs : List Char} {flag : String} :
    ∀ {value : Option String}, splitAtEquals cs = (flag, value) →
      cs = flag.toList ++ (value.map fun v => '=' :: v.toList).getD [] := by
  intro value h
  cases h
  have hparts := List.takeWhile_append_dropWhile (p := (· != '=')) (l := cs)
  simp only [String.toList_ofList]
  cases hdrop : cs.dropWhile (· != '=') with
  | nil =>
      rw [hdrop] at hparts
      exact hparts.symm
  | cons c rest =>
      have hequals : c = '=' := by
        have hhead := List.head?_dropWhile_not (· != '=') cs
        rw [hdrop] at hhead
        simpa using hhead
      rw [hdrop, hequals] at hparts
      simpa using hparts.symm

theorem ofArgument_eq_awaiting_iff {text : String} :
    Lead.ofArgument text = .awaiting ↔ text ∈ flagTexts := by
  constructor
  · intro h
    rcases hsplit : splitAtEquals text.toList with ⟨flag, value⟩
    rw [Lead.ofArgument, hsplit] at h
    simp only at h
    split at h
    · rename_i hflag
      cases value with
      | some value => cases h
      | none =>
          have htext := toList_of_splitAtEquals hsplit
          simp only [Option.map_none, Option.getD_none, List.append_nil] at htext
          rw [String.toList_inj.mp htext]
          exact List.contains_iff_mem.mp hflag
    · cases h
  · intro h
    rw [Lead.ofArgument, splitAtEquals_of_not_mem (equals_not_mem_flagTexts text h),
      String.ofList_toList]
    simp only [List.contains_iff_mem.mpr h, if_true]
    rfl

theorem ofArgument_eq_complete_iff {text : String} :
    Lead.ofArgument text = .complete ↔ IsJoined text := by
  constructor
  · intro h
    rcases hsplit : splitAtEquals text.toList with ⟨flag, value⟩
    rw [Lead.ofArgument, hsplit] at h
    simp only at h
    split at h
    · rename_i hflag
      cases value with
      | none => cases h
      | some value =>
          have htext := toList_of_splitAtEquals hsplit
          refine ⟨flag, List.contains_iff_mem.mp hflag, value, String.toList_inj.mp ?_⟩
          simpa using htext
    · cases h
  · rintro ⟨flag, hflag, value, rfl⟩
    have hsplit := splitAtEquals_append (equals_not_mem_flagTexts flag hflag) value.toList
    rw [String.ofList_toList, String.ofList_toList] at hsplit
    rw [Lead.ofArgument, show (flag ++ "=" ++ value).toList = flag.toList ++ '=' :: value.toList by
      simp, hsplit]
    simp only [List.contains_iff_mem.mpr hflag, if_true]
    rfl

instance (text : String) : Decidable (IsJoined text) :=
  decidable_of_iff _ ofArgument_eq_complete_iff

theorem ofArgument_eq_other_iff {text : String} :
    Lead.ofArgument text = .other ↔ text ∉ flagTexts ∧ ¬ IsJoined text := by
  rw [← ofArgument_eq_awaiting_iff, ← ofArgument_eq_complete_iff]
  cases Lead.ofArgument text <;> simp

/-! ## Command lines -/

/-- A use of a flag: with its value in one argument, or followed by its value, which can
be any argument at all. -/
inductive Piece (α : Type) where
  | joined (argument : α)
  | apart (flag value : α)
deriving DecidableEq, Repr

section Lines

variable {α : Type} {text : α → String}

def Piece.arguments : Piece α → List α
  | joined argument => [argument]
  | apart flag value => [flag, value]

variable (text) in
def Piece.IsUse : Piece α → Prop
  | joined argument => IsJoined (text argument)
  | apart flag _ => text flag ∈ flagTexts

instance : (u : Piece α) → Decidable (u.IsUse text)
  | .joined argument => inferInstanceAs (Decidable (IsJoined (text argument)))
  | .apart flag _ => inferInstanceAs (Decidable (text flag ∈ flagTexts))

/-- The arguments of uses and of a flag without a value behind them. -/
def written (uses : List (Piece α)) (last : Option α) : List α :=
  uses.flatMap Piece.arguments ++ last.toList

variable (text) in
/-- Arguments as uses of flags, perhaps a flag that lacks its value, and a command: it
begins with an argument that is no flag, and there is none when a value is missing. -/
structure Line (arguments : List α) (uses : List (Piece α)) (last : Option α)
    (command : List α) : Prop where
  arguments_eq : arguments = written uses last ++ command
  uses : ∀ u ∈ uses, u.IsUse text
  last : ∀ flag ∈ last, text flag ∈ flagTexts ∧ command = []
  command : ∀ argument ∈ command.head?,
    text argument ∉ flagTexts ∧ ¬ IsJoined (text argument)

theorem splitBy_joined {argument : α} (h : IsJoined (text argument)) (rest : List α) :
    splitBy text (argument :: rest) =
      (argument :: (splitBy text rest).1, (splitBy text rest).2) := by
  rw [splitBy.eq_def]
  simp only [ofArgument_eq_complete_iff.mpr h]

theorem splitBy_apart {flag : α} (h : text flag ∈ flagTexts) (value : α) (rest : List α) :
    splitBy text (flag :: value :: rest) =
      (flag :: value :: (splitBy text rest).1, (splitBy text rest).2) := by
  rw [splitBy, ofArgument_eq_awaiting_iff.mpr h]

theorem splitBy_lone {flag : α} (h : text flag ∈ flagTexts) :
    splitBy text [flag] = ([flag], []) := by
  rw [splitBy, ofArgument_eq_awaiting_iff.mpr h]

theorem splitBy_command {command : List α} (h : ∀ argument ∈ command.head?,
    text argument ∉ flagTexts ∧ ¬ IsJoined (text argument)) :
    splitBy text command = ([], command) := by
  cases command with
  | nil => rfl
  | cons argument rest =>
      rw [splitBy.eq_def]
      simp only [ofArgument_eq_other_iff.mpr (h argument rfl)]

/-- A line is split where its command begins. -/
theorem Line.splitBy_eq {arguments : List α} {uses : List (Piece α)} {last : Option α}
    {command : List α} (h : Line text arguments uses last command) :
    splitBy text arguments = (written uses last, command) := by
  obtain ⟨rfl, huses, hlast, hcommand⟩ := h
  induction uses with
  | nil =>
      cases last with
      | none => exact splitBy_command hcommand
      | some flag =>
          obtain ⟨hflag, rfl⟩ := hlast flag rfl
          exact splitBy_lone hflag
  | cons u us ih =>
      obtain ⟨hu, hus⟩ := List.forall_mem_cons.mp huses
      have hrest := ih hus
      cases u with
      | joined argument =>
          show splitBy text (argument :: (written us last ++ command)) = _
          rw [splitBy_joined hu, hrest]
          rfl
      | apart flag value =>
          show splitBy text (flag :: value :: (written us last ++ command)) = _
          rw [splitBy_apart hu, hrest]
          rfl

theorem Line.cons {arguments : List α} {uses : List (Piece α)} {last : Option α}
    {command : List α} (h : Line text arguments uses last command) {u : Piece α}
    (hu : u.IsUse text) : Line text (u.arguments ++ arguments) (u :: uses) last command where
  arguments_eq := by
    rw [h.arguments_eq, written, written, List.flatMap_cons, List.append_assoc, List.append_assoc,
      List.append_assoc]
  uses := List.forall_mem_cons.mpr ⟨hu, h.uses⟩
  last := h.last
  command := h.command

variable (text) in
/-- Every list of arguments is a line. -/
theorem exists_line (arguments : List α) :
    ∃ uses last command, Line text arguments uses last command := by
  fun_induction splitBy text arguments with
  | case1 => exact ⟨[], none, [], rfl, nofun, nofun, nofun⟩
  | case2 argument rest hlead ih =>
      obtain ⟨uses, last, command, hline⟩ := ih
      have hjoined := ofArgument_eq_complete_iff.mp hlead
      exact ⟨_, last, command, hline.cons (u := .joined argument) hjoined⟩
  | case3 flag hlead =>
      refine ⟨[], some flag, [], rfl, nofun, fun other hother => ?_, nofun⟩
      rw [← Option.mem_some_iff.mp hother]
      exact ⟨ofArgument_eq_awaiting_iff.mp hlead, rfl⟩
  | case4 flag hlead value rest ih =>
      obtain ⟨uses, last, command, hline⟩ := ih
      have hflag := ofArgument_eq_awaiting_iff.mp hlead
      exact ⟨_, last, command, hline.cons (u := .apart flag value) hflag⟩
  | case5 argument rest hlead =>
      refine ⟨[], none, argument :: rest, rfl, nofun, nofun, fun other hother => ?_⟩
      rw [← Option.mem_some_iff.mp hother]
      exact ofArgument_eq_other_iff.mp hlead

/-- The flags of a line are a line without a command. -/
theorem Line.flags {arguments : List α} {uses : List (Piece α)} {last : Option α}
    {command : List α} (h : Line text arguments uses last command) :
    Line text (written uses last) uses last [] where
  arguments_eq := (List.append_nil _).symm
  uses := h.uses
  last flag hflag := ⟨(h.last flag hflag).1, rfl⟩
  command := nofun

/-- A use can be written in one argument in place of two. -/
theorem Line.join {arguments : List α} {before after : List (Piece α)} {flag value joined : α}
    {last : Option α} {command : List α}
    (h : Line text arguments (before ++ .apart flag value :: after) last command)
    (hjoined : text joined = text flag ++ "=" ++ text value) :
    Line text (written (before ++ .joined joined :: after) last ++ command)
      (before ++ .joined joined :: after) last command where
  arguments_eq := rfl
  uses := by
    obtain ⟨hbefore, hrest⟩ := List.forall_mem_append.mp h.uses
    obtain ⟨hflag, hafter⟩ := List.forall_mem_cons.mp hrest
    exact List.forall_mem_append.mpr
      ⟨hbefore, List.forall_mem_cons.mpr ⟨⟨text flag, hflag, text value, hjoined⟩, hafter⟩⟩
  last := h.last
  command := h.command

end Lines

/-! ## Splitting a line -/

/-- Splitting loses and moves nothing.  The flags are uses, and only the last may lack its
value, if no command follows; the command begins with an argument that is no flag.
Neither part is split any further.  However one of the uses is written, the command is the
same. -/
theorem splitLine_takes_apart {α : Type} (text : α → String) (program : α) (rest : List α) :
    ∃ flags command, rest = flags ++ command ∧
      splitLine text (program :: rest) = (program :: flags, program :: command) ∧
      (∃ uses last, flags = written uses last ∧ Line text rest uses last command) ∧
      splitLine text (program :: flags) = (program :: flags, [program]) ∧
      splitLine text (program :: command) = ([program], program :: command) ∧
      ∀ before flag value after last joined,
        Line text rest (before ++ .apart flag value :: after) last command →
        text joined = text flag ++ "=" ++ text value →
        splitLine text (program :: (written (before ++ .joined joined :: after) last ++ command)) =
          (program :: written (before ++ .joined joined :: after) last, program :: command) := by
  obtain ⟨uses, last, command, hline⟩ := exists_line text rest
  refine ⟨written uses last, command, hline.arguments_eq, ?_, ⟨uses, last, rfl, hline⟩, ?_, ?_, ?_⟩
  · rw [splitLine, hline.splitBy_eq]
  · rw [splitLine, hline.flags.splitBy_eq]
  · rw [splitLine, splitBy_command hline.command]
  · intro before flag value after last joined hline hjoined
    rw [splitLine, (hline.join hjoined).splitBy_eq]

/-- A value that is the name of a command, a value with an equals sign in it, and a flag
that belongs to the command. -/
theorem splitLine_takes_apart_decoys :
    Line id ["--log-filter", "host", "--hooks-home=a=b", "read", "--log-format"]
      [.apart "--log-filter" "host", .joined "--hooks-home=a=b"] none ["read", "--log-format"] ∧
    splitLine id ["hookline", "--log-filter=host", "--hooks-home=a=b", "read", "--log-format"] =
      (["hookline", "--log-filter=host", "--hooks-home=a=b"],
        ["hookline", "read", "--log-format"]) := by
  have hline : Line id ["--log-filter", "host", "--hooks-home=a=b", "read", "--log-format"]
      [.apart "--log-filter" "host", .joined "--hooks-home=a=b"] none ["read", "--log-format"] :=
    ⟨rfl, by decide +kernel, nofun, by decide +kernel⟩
  obtain ⟨flags, command, -, hsplit, -, -, -, hjoin⟩ := splitLine_takes_apart id "hookline"
    ["--log-filter", "host", "--hooks-home=a=b", "read", "--log-format"]
  have heval : splitLine id
      ["hookline", "--log-filter", "host", "--hooks-home=a=b", "read", "--log-format"] =
      (["hookline", "--log-filter", "host", "--hooks-home=a=b"],
        ["hookline", "read", "--log-format"]) := by decide +kernel
  rw [heval] at hsplit
  cases hsplit
  exact ⟨hline, hjoin [] "--log-filter" "host" [.joined "--hooks-home=a=b"] none
    "--log-filter=host" hline (by decide +kernel)⟩

end AgentHooks.Settings
