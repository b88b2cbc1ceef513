/-
The plain part of a text: what a terminal shows of it.

A terminal obeys control characters, and the sequences that an escape
character begins, instead of showing them.  Plain text is what is left without
them; line breaks and tabs stay.  A sequence goes on until its own end, until
another one begins, or until a control character that lays out text is shown.
Characters outside ASCII are shown between sequences only; inside of one they
count for nothing, but their bytes may end a string for the terminal.
-/
import AgentHooks.Text.Utf8

namespace AgentHooks.Text

namespace Plain

/-- What the next character belongs to. -/
inductive Mode where
  | shown
  /-- A sequence of which only the escape character is known. -/
  | escape
  /-- A sequence that the first character above the punctuation ends. -/
  | short
  /-- A control sequence: its parameters and the letter that ends it. -/
  | control
  /-- The title of a window, which a bell ends. -/
  | title
  /-- A string for a device, of which nothing is known yet. -/
  | device
  /-- A string for a device that has parameters in front. -/
  | deviceParameters
  /-- A string for a device whose parameters have ended. -/
  | deviceMarks
  /-- A string for the terminal, which only another sequence or a terminating
  byte ends. -/
  | string
deriving DecidableEq, Repr

def isLayout (c : Char) : Bool := c == '\t' || c == '\n' || c == '\x0c' || c == '\r'

def isControl (c : Char) : Bool := c.toNat < 0x20 || c == '\x7f'

/-- The sequence that a character after the escape character begins or ends. -/
def Mode.begun (c : Char) : Mode :=
  if c ≤ '/' then short
  else if c = '[' then control
  else if c = ']' then title
  else if c = 'P' then device
  else if c = 'X' ∨ c = '^' ∨ c = '_' then string
  else shown

/-- What follows a character of ASCII that is no control character. -/
def Mode.after : Mode → Char → Mode
  | shown, _ => shown
  | escape, c => begun c
  | short, c => if c ≤ '/' then short else shown
  | control, c => if c ≤ '?' then control else shown
  | title, _ => title
  | device, c => if c ≤ '/' then deviceMarks else if c ≤ '?' then deviceParameters else string
  | deviceParameters, c =>
    if c ≤ '/' then deviceMarks else if c ≤ ';' then deviceParameters else string
  | deviceMarks, c => if c ≤ '/' then deviceMarks else string
  | string, _ => string

/-- Whether a control character is obeyed inside a sequence: then one that lays
out text is shown and ends the sequence. -/
def Mode.obeys : Mode → Bool
  | shown | escape | short | control => true
  | title | device | deviceParameters | deviceMarks | string => false

/-- The byte that ends a string for the terminal. -/
def terminator : UInt8 := 0x9C

def Mode.afterWide (mode : Mode) (c : Char) : Mode :=
  if mode = string ∧ (Utf8.encodeChar c).contains terminator then shown else mode

/-- What follows a character, and whether the character itself is shown. -/
def Mode.step (mode : Mode) (c : Char) : Mode × Bool :=
  if c = '\x1b' then (escape, false)
  else if c = '\x18' ∨ c = '\x1a' ∨ (c = '\x07' ∧ mode = title) then (shown, false)
  else if 0x80 ≤ c.toNat then (mode.afterWide c, mode == shown)
  else if isControl c then
    if isLayout c && mode.obeys then (shown, true) else (mode, false)
  else (mode.after c, mode == shown)

def keep (mode : Mode) : List Char → List Char
  | [] => []
  | c :: cs =>
    if (mode.step c).2 then c :: keep (mode.step c).1 cs else keep (mode.step c).1 cs

end Plain

def plain (s : String) : String := String.ofList (Plain.keep .shown s.toList)

end AgentHooks.Text
