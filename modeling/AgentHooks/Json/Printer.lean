/-
The compact text of a JSON value.

No blank stands between the parts; members are written in the order in which
the object holds them.  A string escapes the quote, the backslash and the
characters below the space, and nothing else.
-/
import AgentHooks.Json.Basic
import AgentHooks.Number.Decimal

namespace AgentHooks

def writeInt (n : Int) : List Char :=
  (if n < 0 then ['-'] else []) ++ Nat.toDigits 10 n.natAbs

namespace Json

/-- Floats are positional from 0.00001 up to sixteen whole digits. -/
def floatNotation : Notation := ⟨-5, 15⟩

def writeNumber : Number → List Char
  | .whole n _ => writeInt n
  | .float x => x.write floatNotation

def hexDigit (n : Nat) : Char := if n < 10 then Char.ofNat (0x30 + n) else Char.ofNat (0x57 + n)

def writeChar (c : Char) : List Char :=
  if c = '"' then ['\\', '"']
  else if c = '\\' then ['\\', '\\']
  else if c = '\x08' then ['\\', 'b']
  else if c = '\t' then ['\\', 't']
  else if c = '\n' then ['\\', 'n']
  else if c = '\x0c' then ['\\', 'f']
  else if c = '\r' then ['\\', 'r']
  else if c.toNat < 0x20 then
    ['\\', 'u', '0', '0', hexDigit (c.toNat / 16), hexDigit (c.toNat % 16)]
  else [c]

def writeString (s : String) : List Char := '"' :: s.toList.flatMap writeChar ++ ['"']

mutual

def write : Json → List Char
  | .null => ['n', 'u', 'l', 'l']
  | .bool true => ['t', 'r', 'u', 'e']
  | .bool false => ['f', 'a', 'l', 's', 'e']
  | .number n => writeNumber n
  | .string s => writeString s
  | .array [] => ['[', ']']
  | .array (v :: vs) => '[' :: v.write ++ writeItems vs
  | .object [] => ['\x7b', '\x7d']
  | .object ((k, v) :: ms) => '\x7b' :: writeString k ++ ':' :: v.write ++ writeMembers ms

/-- The items after the first one, and the end of the array. -/
def writeItems : List Json → List Char
  | [] => [']']
  | v :: vs => ',' :: v.write ++ writeItems vs

/-- The members after the first one, and the end of the object. -/
def writeMembers : List (String × Json) → List Char
  | [] => ['\x7d']
  | (k, v) :: ms => ',' :: writeString k ++ ':' :: v.write ++ writeMembers ms

end

def text (v : Json) : String := String.ofList v.write

end Json

end AgentHooks
