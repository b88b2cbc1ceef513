/-
Decimal literals read in binary64 arithmetic.

The digits of a literal are kept as long as they fit 64 bits, that significand
is rounded, and the result is scaled by a rounded power of ten.  Each of the
two or more roundings is to nearest, so the outcome can differ in the last
place from the value nearest to the literal; literals of up to fifteen digits
with a small power of ten are read exactly.
-/
import AgentHooks.Number.Binary64

namespace AgentHooks

/-- The greatest significand: the greatest number of 64 bits. -/
def significandLimit : Nat := 18446744073709551615

/-- Appends decimal digits to a significand up to the first one with which it
would no longer fit; also counts the digits taken. -/
def appendDigits (significand : Nat) : List Nat → Nat × Nat
  | [] => (significand, 0)
  | d :: ds =>
    if significandLimit < significand * 10 + d then (significand, 0)
    else
      let r := appendDigits (significand * 10 + d) ds
      (r.1, r.2 + 1)

/-- A significand times a power of ten. -/
structure Significand where
  digits : Nat
  exponent : Int
deriving DecidableEq, Repr

/-- The significand of the digits before and after a point.  A whole digit that
is left out raises the exponent, a fraction digit that is taken lowers it. -/
def Significand.ofDigits (whole fraction : List Nat) : Significand :=
  let w := appendDigits 0 whole
  let f := appendDigits w.1 fraction
  ⟨f.1, (whole.length : Int) - w.2 - f.2⟩

namespace Binary64

/-- The greatest power of ten that the format has. -/
def greatestPower : Nat := 308

/-- The value nearest to `10 ^ k`. -/
def powerOfTen? (k : Nat) : Option Binary64 := nearest? false (Nat.pow 10 k) 1

/-- A magnitude divided by `10 ^ k`, by the greatest power at a time; zero stays
zero, however much is left. -/
def dividedByPower (x : Binary64) (k : Nat) : Nat → Option Binary64
  | 0 => some x
  | fuel + 1 =>
    if k ≤ greatestPower then (powerOfTen? k).bind x.over?
    else if x.mantissa = 0 then some x
    else do
      let y ← (powerOfTen? greatestPower).bind x.over?
      y.dividedByPower (k - greatestPower) fuel

/-- The magnitude of a significand; none when it is out of range. -/
def ofSignificand? (s : Significand) : Option Binary64 := do
  let x ← nearest? false s.digits 1
  if s.exponent < 0 then
    let k := (-s.exponent).toNat
    x.dividedByPower k (k / greatestPower + 1)
  else if s.exponent ≤ greatestPower then (powerOfTen? s.exponent.toNat).bind x.times?
  else if s.digits = 0 then some x
  else none

end Binary64

end AgentHooks
