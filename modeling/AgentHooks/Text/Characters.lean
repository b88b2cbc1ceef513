/-
Classes of characters.

A large class is a set of code points, which a table gives elsewhere.  Digits are
the ten of ASCII, and numbers are spelled with them alone.  Blank means the
Unicode property White_Space; trimming takes blanks from both ends of a text and
leaves those in between.
-/

namespace AgentHooks.Text

/-! ## Sets of code points -/

/-- Ranges of code points, ends included, in increasing order. -/
abbrev CodePoints := List (Nat × Nat)

def CodePoints.has (points : CodePoints) (c : Char) : Bool :=
  points.any fun range => range.1 ≤ c.toNat && c.toNat ≤ range.2

/-! ## Digits -/

def isDigit (c : Char) : Bool := '0' ≤ c && c ≤ '9'

/-- The value of decimal digits, most significant first. -/
def digitsValue (cs : List Char) : Nat := cs.foldl (fun n c => n * 10 + (c.toNat - 0x30)) 0

/-- The number that a nonempty sequence of digits stands for. -/
def natural? (cs : List Char) : Option Nat :=
  if cs ≠ [] ∧ cs.all isDigit then some (digitsValue cs) else none

/-- The number that digits with at most one sign in front stand for. -/
def integer? : List Char → Option Int
  | '+' :: cs => (natural? cs).map Int.ofNat
  | '-' :: cs => (natural? cs).map fun n => -(n : Int)
  | cs => (natural? cs).map Int.ofNat

/-! ## Blanks and letters -/

def isBlank (c : Char) : Bool :=
  let n := c.toNat
  (0x09 ≤ n && n ≤ 0x0D) || n == 0x20 || n == 0x85 || n == 0xA0 || n == 0x1680 ||
    (0x2000 ≤ n && n ≤ 0x200A) || n == 0x2028 || n == 0x2029 || n == 0x202F || n == 0x205F ||
    n == 0x3000

/-- The characters without the blanks at their end. -/
def trimEnd (cs : List Char) : List Char := (cs.reverse.dropWhile isBlank).reverse

/-- The characters without the blanks at either end. -/
def trim (cs : List Char) : List Char := trimEnd (cs.dropWhile isBlank)

/-- A letter of ASCII in lower case; any other character as it is. -/
def lowerAscii (c : Char) : Char :=
  if 'A' ≤ c ∧ c ≤ 'Z' then Char.ofNat (c.toNat + 0x20) else c

/-- Two texts that differ at most in the case of ASCII letters. -/
def sameIgnoringAsciiCase (a b : String) : Bool :=
  a.toList.map lowerAscii == b.toList.map lowerAscii

end AgentHooks.Text
