/-
Settings files, as far as they are read here.

Settings files are TOML.  Of it only lines with a key, an equals sign and a text
in plain quotes are read; lines may be blank, and a comment may end any of them.
A mark of the byte order may stand in front of the first line.  The new marks
between quotes are part of the form of a file, but no file with one of them can
be used.

Tables, keys in quotes or with dots, literal texts, texts of several lines and
values of other sorts are left out: a file with one of them has no reading here
(`Document.Fault.badLine`).  What is proved of settings files is proved of those
that are read.
-/
import AgentHooks.Text.Pieces
import AgentHooks.Text.Unquoted
import AgentHooks.Text.Utf8

namespace AgentHooks.Settings

abbrev Document := List (String × String)

namespace Document

/-- What can be wrong with a file. -/
inductive Fault where
  /-- A line that is not read as a member, or repeats one. -/
  | badLine (number : Nat)
  /-- A new mark, with the place after its letter. -/
  | newMark (line column : Nat)
deriving DecidableEq, Repr

def isGap (c : Char) : Bool := c == ' ' || c == '\t'

/-- Whether nothing but a comment is left of a line. -/
def isRest (cs : List Char) : Bool :=
  match cs.dropWhile isGap with
  | [] => true
  | c :: _ => c == '#'

/-- The member on a line; there is none on a blank line, and a line of another
form is not read. -/
def readLine (line : List Char) : Option (Option (String × String)) :=
  let cs := line.dropWhile isGap
  if isRest cs then some none
  else
    let key := cs.takeWhile Text.isKeyChar
    match (cs.dropWhile Text.isKeyChar).dropWhile isGap with
    | '=' :: value =>
      match value.dropWhile isGap with
      | '"' :: quoted =>
        match Text.readQuoted true quoted with
        | some (text, rest) =>
          if key ≠ [] ∧ isRest rest then some (some (String.ofList key, String.ofList text))
          else none
        | none => none
      | _ => none
    | _ => none

/-- A line without the carriage return at its end. -/
def dropReturn (line : List Char) : List Char :=
  if line.getLast? = some '\r' then line.dropLast else line

/-- The members on lines, or the number of the first line without a reading;
`number` is that of the first line, and `known` are the members before it. -/
def readLines (number : Nat) (known : Document) : List (List Char) → Except Nat Document
  | [] => .ok known
  | line :: lines =>
    match readLine line with
    | none => .error number
    | some none => readLines (number + 1) known lines
    | some (some member) =>
      if known.any (·.1 == member.1) then .error number
      else readLines (number + 1) (known ++ [member]) lines

def byteOrderMark : Char := '\uFEFF'

/-- A text without the mark of the byte order in front. -/
def dropMark (text : List Char) : List Char :=
  if text.head? = some byteOrderMark then text.tail else text

/-- The column after the start of a line.  It counts characters, but bytes when
the character that follows is one of several bytes. -/
def columnAfter (start rest : List Char) : Nat :=
  if rest.head?.any (0x80 ≤ ·.toNat) then (Utf8.encodeChars start).length + 1
  else start.length + 1

/-- The column after the letter of the first new mark on a line that can be
read. -/
def newMarkColumn? (line : List Char) : Option Nat :=
  let lead := line.takeWhile fun c => c != '"' && c != '#'
  match line.drop lead.length with
  | '"' :: quoted =>
    (Text.upToNewMark? quoted).map fun inside =>
      columnAfter (lead ++ '"' :: inside) (quoted.drop inside.length)
  | _ => none

/-- The line and the column after the first new mark on some lines, of which
the first has the given number. -/
def newMark? (number : Nat) : List (List Char) → Option (Nat × Nat)
  | [] => none
  | line :: lines =>
    match newMarkColumn? line with
    | some column => some (number, column)
    | none => newMark? (number + 1) lines

def linesOf (text : List Char) : List (List Char) := Text.cut (· == '\n') text

/-- The members of a file, or what is wrong with it: the first line that is no
member or repeats one, else the first new mark. -/
def read (text : List Char) : Except Fault Document :=
  match readLines 1 [] ((linesOf (dropMark text)).map dropReturn), newMark? 1 (linesOf text) with
  | .error number, _ => .error (.badLine number)
  | .ok _, some (line, column) => .error (.newMark line column)
  | .ok d, none => .ok d

def get? (d : Document) (key : String) : Option String :=
  (d.find? (·.1 == key)).map (·.2)

end Document

end AgentHooks.Settings
