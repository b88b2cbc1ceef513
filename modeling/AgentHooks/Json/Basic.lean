/-
JSON values.

A number is a whole number that fits 64 bits, signed or unsigned, or a finite
binary64 value; the type holds the range.  An object is a list of members;
`Record` is the view of an object as a map, with its members in strictly
increasing key order.
-/
import AgentHooks.Number.Binary64

namespace AgentHooks

/-- The whole numbers that fit 64 bits, signed or unsigned. -/
def Fits64 (n : Int) : Prop := -9223372036854775808 ≤ n ∧ n < 18446744073709551616

instance (n : Int) : Decidable (Fits64 n) := inferInstanceAs (Decidable (_ ∧ _))

/-- A JSON number. -/
inductive Number where
  | whole (value : Int) (fits : Fits64 value)
  | float (value : Binary64)
deriving DecidableEq

/-- The number of a whole value, when it fits 64 bits. -/
def Number.ofInt? (n : Int) : Option Number :=
  if h : Fits64 n then some (.whole n h) else none

/-- A JSON value. -/
inductive Json where
  | null
  | bool (value : Bool)
  | number (value : Number)
  | string (value : String)
  | array (items : List Json)
  | object (members : List (String × Json))

namespace Json

mutual

def decEq : (a b : Json) → Decidable (a = b)
  | .null, .null => isTrue rfl
  | .bool a, .bool b => decidable_of_iff (a = b) (by simp)
  | .number a, .number b => decidable_of_iff (a = b) (by simp)
  | .string a, .string b => decidable_of_iff (a = b) (by simp)
  | .array a, .array b =>
    have := decEqItems a b
    decidable_of_iff (a = b) (by simp)
  | .object a, .object b =>
    have := decEqMembers a b
    decidable_of_iff (a = b) (by simp)
  | .null, .bool _ | .null, .number _ | .null, .string _ | .null, .array _ | .null, .object _
  | .bool _, .null | .bool _, .number _ | .bool _, .string _ | .bool _, .array _
  | .bool _, .object _
  | .number _, .null | .number _, .bool _ | .number _, .string _ | .number _, .array _
  | .number _, .object _
  | .string _, .null | .string _, .bool _ | .string _, .number _ | .string _, .array _
  | .string _, .object _
  | .array _, .null | .array _, .bool _ | .array _, .number _ | .array _, .string _
  | .array _, .object _
  | .object _, .null | .object _, .bool _ | .object _, .number _ | .object _, .string _
  | .object _, .array _ => isFalse nofun

/-- Equality of the items of two arrays is decidable. -/
def decEqItems : (a b : List Json) → Decidable (a = b)
  | [], [] => isTrue rfl
  | [], _ :: _ | _ :: _, [] => isFalse nofun
  | v :: vs, w :: ws =>
    have := decEq v w
    have := decEqItems vs ws
    decidable_of_iff (v = w ∧ vs = ws) (by simp)

/-- Equality of the members of two objects is decidable. -/
def decEqMembers : (a b : List (String × Json)) → Decidable (a = b)
  | [], [] => isTrue rfl
  | [], _ :: _ | _ :: _, [] => isFalse nofun
  | (k, v) :: ms, (l, w) :: ns =>
    have := decEq v w
    have := decEqMembers ms ns
    decidable_of_iff ((k = l ∧ v = w) ∧ ms = ns) (by simp)

end

instance : DecidableEq Json := decEq

def ofInt64 (n : Int64) : Json :=
  .number (.whole n.toInt ⟨n.le_toInt, Int.lt_trans n.toInt_lt (by decide)⟩)

end Json

end AgentHooks
