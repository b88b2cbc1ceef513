/-
Finite binary64 values as exact numbers.

A value is a sign, a whole mantissa and a power of two, in the one form that
the format has for it, so that equal values have equal parts (the two zeros
differ in their sign).  Rounding and truncation are exact arithmetic on
`Nat` and `Int`; no floating-point operation is used.
-/

namespace AgentHooks

/-- The least mantissa with more bits than the format has room for: two to the
power 53. -/
def Binary64.mantissaLimit : Nat := 9007199254740992

/-- The least mantissa that fills the room: two to the power 52. -/
def Binary64.fullMantissa : Nat := 4503599627370496

/-- The parts that the format has room for: 53 bits, exponents -1074 to 971,
and a full mantissa unless the exponent is the least. -/
def Binary64.Admissible (mantissa : Nat) (exponent : Int) : Prop :=
  mantissa < mantissaLimit ∧ -1074 ≤ exponent ∧ exponent ≤ 971 ∧
    (fullMantissa ≤ mantissa ∨ exponent = -1074)

instance (m : Nat) (e : Int) : Decidable (Binary64.Admissible m e) :=
  inferInstanceAs (Decidable (_ ∧ _))

/-- A finite binary64 value: `mantissa * 2 ^ exponent`, negated if `negative`. -/
structure Binary64 where
  negative : Bool
  mantissa : Nat
  exponent : Int
  admissible : Binary64.Admissible mantissa exponent
deriving DecidableEq

namespace Binary64

/-- The value with these parts, when the format has it. -/
def ofParts? (negative : Bool) (mantissa : Nat) (exponent : Int) : Option Binary64 :=
  if h : Admissible mantissa exponent then some ⟨negative, mantissa, exponent, h⟩ else none

def zero (negative : Bool) : Binary64 := ⟨negative, 0, -1074, by decide⟩

/-- The whole number nearest to `num / den`; a tie goes to the even one. -/
def roundQuotient (num den : Nat) : Nat :=
  let q := num / den
  let r := num % den
  if 2 * r < den then q
  else if den < 2 * r then q + 1
  else q + q % 2

/-- The exponent for `num / den` with `den` and `num` positive: the quotient by
that power of two has 53 bits, or the exponent is the least. -/
def exponentFor (num den : Nat) : Int :=
  let e : Int := (num.log2 : Int) - den.log2 - 53
  let wide := mantissaLimit * (den * Nat.pow 2 e.toNat) ≤ num * Nat.pow 2 (-e).toNat
  max (-1074) (if wide then e + 1 else e)

/-- The value nearest to `num / den`, a tie going to the even mantissa; none
when that lies beyond the greatest value. -/
def nearest? (negative : Bool) (num den : Nat) : Option Binary64 :=
  if num = 0 then some (zero negative)
  else
    let e := exponentFor num den
    let m := roundQuotient (num * Nat.pow 2 (-e).toNat) (den * Nat.pow 2 e.toNat)
    if m = mantissaLimit then ofParts? negative fullMantissa (e + 1) else ofParts? negative m e

/-- The value nearest to `mantissa * 2 ^ exponent` for any whole mantissa. -/
def nearestScaled? (negative : Bool) (mantissa : Nat) (exponent : Int) : Option Binary64 :=
  nearest? negative (mantissa * Nat.pow 2 exponent.toNat) (Nat.pow 2 (-exponent).toNat)

/-- The rounded product of two magnitudes; none when it is out of range. -/
def times? (x y : Binary64) : Option Binary64 :=
  nearestScaled? false (x.mantissa * y.mantissa) (x.exponent + y.exponent)

/-- The rounded quotient of two magnitudes, the second one not zero. -/
def over? (x y : Binary64) : Option Binary64 :=
  let e := x.exponent - y.exponent
  nearest? false (x.mantissa * Nat.pow 2 e.toNat) (y.mantissa * Nat.pow 2 (-e).toNat)

def withSign (negative : Bool) (x : Binary64) : Binary64 := { x with negative }

def truncatedMagnitude (x : Binary64) : Nat :=
  x.mantissa * Nat.pow 2 x.exponent.toNat / Nat.pow 2 (-x.exponent).toNat

/-- The value without its fraction: rounded toward zero. -/
def truncate (x : Binary64) : Int :=
  if x.negative then -(x.truncatedMagnitude : Int) else x.truncatedMagnitude

/-- The value without its fraction, as a value of the format.  A mantissa that
loses its last places stays full unless nothing is left of it. -/
def withoutFraction (x : Binary64) : Binary64 :=
  if 0 ≤ x.exponent then x
  else
    let unit := Nat.pow 2 (-x.exponent).toNat
    (ofParts? x.negative (x.mantissa / unit * unit) x.exponent).getD (zero x.negative)

/-- The value counted in units of `2 ^ exponent`, no greater than its last
place. -/
def units (x : Binary64) (exponent : Int) : Int :=
  let n : Int := (x.mantissa * Nat.pow 2 (x.exponent - exponent).toNat : Nat)
  if x.negative then -n else n

/-- The order of the values; the two zeros are alike in it. -/
instance : LE Binary64 where
  le x y := x.units (min x.exponent y.exponent) ≤ y.units (min x.exponent y.exponent)

instance : LT Binary64 where
  lt x y := x.units (min x.exponent y.exponent) < y.units (min x.exponent y.exponent)

instance (x y : Binary64) : Decidable (x ≤ y) := inferInstanceAs (Decidable (_ ≤ (_ : Int)))

instance (x y : Binary64) : Decidable (x < y) := inferInstanceAs (Decidable (_ < (_ : Int)))

end Binary64

end AgentHooks
