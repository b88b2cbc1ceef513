/-
Reading keys and texts in quotes.

A key may stand without quotes.  Between quotes a backslash marks a character
by a letter or by its code point; control characters other than the tab cannot
stand there.  Two of the marks are new, and only some readers know them: one by
letter, for the escape character, and one for code points of two digits.
-/

namespace AgentHooks.Text

def isKeyChar (c : Char) : Bool := c.isAlphanum || c == '_' || c == '-'

def isNewMark (c : Char) : Bool := c == 'e' || c == 'x'

/-- The character that a letter after a backslash stands for; `newMarks` says
whether the new marks are known. -/
def marked? (newMarks : Bool) : Char → Option Char
  | 'e' => if newMarks then some '\x1b' else none
  | 'b' => some '\x08'
  | 't' => some '\t'
  | 'n' => some '\n'
  | 'f' => some '\x0c'
  | 'r' => some '\r'
  | '"' => some '"'
  | '\\' => some '\\'
  | _ => none

def hexDigit? (c : Char) : Option Nat :=
  if '0' ≤ c ∧ c ≤ '9' then some (c.toNat - '0'.toNat)
  else if 'a' ≤ c ∧ c ≤ 'f' then some (c.toNat - 'a'.toNat + 10)
  else if 'A' ≤ c ∧ c ≤ 'F' then some (c.toNat - 'A'.toNat + 10)
  else none

/-- The character with a code point in hexadecimal, if it is one. -/
def codePoint? (cs : List Char) : Option Char := do
  let n ← cs.foldlM (fun n c => (hexDigit? c).map (n * 16 + ·)) 0
  if n.isValidChar then some (Char.ofNat n) else none

/-- Whether a character may stand in quotes as itself. -/
def isUnmarked (c : Char) : Bool := c == '\t' || (0x20 ≤ c.toNat && c.toNat ≠ 0x7F)

/-- The text up to the closing quote, and what follows it. -/
def readQuoted (newMarks : Bool) : List Char → Option (List Char × List Char)
  | [] => none
  | '"' :: rest => some ([], rest)
  | '\\' :: 'u' :: a :: b :: c :: d :: rest => do
    let x ← codePoint? [a, b, c, d]
    let (text, rest) ← readQuoted newMarks rest
    return (x :: text, rest)
  | '\\' :: 'U' :: a :: b :: c :: d :: e :: f :: g :: h :: rest => do
    let x ← codePoint? [a, b, c, d, e, f, g, h]
    let (text, rest) ← readQuoted newMarks rest
    return (x :: text, rest)
  | '\\' :: 'x' :: a :: b :: rest => do
    let x ← if newMarks then codePoint? [a, b] else none
    let (text, rest) ← readQuoted newMarks rest
    return (x :: text, rest)
  | '\\' :: c :: rest => do
    let x ← marked? newMarks c
    let (text, rest) ← readQuoted newMarks rest
    return (x :: text, rest)
  | c :: rest => do
    let (text, rest) ← readQuoted newMarks rest
    if isUnmarked c then some (c :: text, rest) else none

/-- The characters between quotes up to the letter of the first new mark, if
there is one. -/
def upToNewMark? : List Char → Option (List Char)
  | [] => none
  | '"' :: _ => none
  | '\\' :: c :: rest =>
    if isNewMark c then some ['\\', c] else (upToNewMark? rest).map ('\\' :: c :: ·)
  | c :: rest => (upToNewMark? rest).map (c :: ·)

end AgentHooks.Text
