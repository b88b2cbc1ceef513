/-
Loose readings of a JSON value.

Senders disagree on the types of their fields, so a field is read for what it
can mean: each reading gives a result or none, and never a fault.  Null has no
reading at all.
-/
import AgentHooks.Json.Printer
import AgentHooks.Text.Characters

namespace AgentHooks

/-- The whole number as a 64-bit signed one, when it fits. -/
def int64OfInt? (n : Int) : Option Int64 :=
  if -9223372036854775808 ≤ n ∧ n < 9223372036854775808 then some (Int64.ofInt n) else none

/-- Two to the power 63, the least value above the 64-bit signed numbers: the
greatest of them is no binary64 value. -/
def Binary64.int64End : Binary64 := ⟨false, fullMantissa, 11, by decide⟩

/-- Minus two to the power 63, the least of the 64-bit signed numbers. -/
def Binary64.int64Start : Binary64 := ⟨true, fullMantissa, 11, by decide⟩

/-- The value without its fraction as a 64-bit signed number, when it lies
among them. -/
def Binary64.toInt64? (x : Binary64) : Option Int64 :=
  let whole := x.withoutFraction
  if whole < int64Start ∨ int64End ≤ whole then none
  else some (Int64.ofIntClamp whole.truncate)

namespace Text

/-- A number with one more decimal digit, on the side of zero that the sign
says, if it still fits. -/
def appendDigit? (negative : Bool) (n : Int64) (c : Char) : Option Int64 :=
  if isDigit c then do
    let tenfold ← int64OfInt? (n.toInt * 10)
    let digit : Int := (c.toNat - 0x30 : Nat)
    int64OfInt? (if negative then tenfold.toInt - digit else tenfold.toInt + digit)
  else none

/-- The number that a nonempty sequence of digits stands for, read digit by
digit up to the first one with which it no longer fits. -/
def int64OfDigits? (negative : Bool) (cs : List Char) : Option Int64 :=
  if cs = [] then none else cs.foldlM (appendDigit? negative) 0

/-- The 64-bit signed number that digits with at most one sign in front stand
for. -/
def int64? : List Char → Option Int64
  | '+' :: cs => int64OfDigits? false cs
  | '-' :: cs => int64OfDigits? true cs
  | cs => int64OfDigits? false cs

def yesWords : List String := ["true", "1", "yes", "y", "on"]

def noWords : List String := ["false", "0", "no", "n", "off"]

/-- What a word says when its blanks and the case of its letters are ignored. -/
def flag? (s : String) : Option Bool :=
  let word := String.ofList ((trim s.toList).map lowerAscii)
  if word ∈ yesWords then some true
  else if word ∈ noWords then some false
  else none

end Text

namespace Json

/-- A text: a string is itself, any other value its compact text. -/
def asText? : Json → Option String
  | .null => none
  | .string s => some s
  | v => some v.text

/-- A 64-bit integer: a flag counts as 0 or 1, a float loses its fraction, a
string may have blanks around it. -/
def asInteger? : Json → Option Int64
  | .bool b => some (if b then 1 else 0)
  | .number (.whole n _) => int64OfInt? n
  | .number (.float x) => x.toInt64?
  | .string s => Text.int64? (Text.trim s.toList)
  | _ => none

/-- A flag: a whole number is true unless it is zero, a string is a word for
yes or no. -/
def asFlag? : Json → Option Bool
  | .bool b => some b
  | .number (.whole n _) => some (n != 0)
  | .string s => Text.flag? s
  | _ => none

/-- The texts of the items of an array; null items have none. -/
def asTexts? : Json → Option (List String)
  | .array items => some (items.filterMap asText?)
  | _ => none

def asSent? : Json → Option Json
  | .null => none
  | v => some v

end Json

end AgentHooks
