/-
Decimal text of binary64 values.

`Binary64.shortest` selects digits: the fewest that read back as the same
value, and of those the nearest.  `Notation` holds a format's decisions on how
digits are laid out, and `Decimal.write` lays them out.
-/
import AgentHooks.Number.Binary64

namespace AgentHooks

/-- The number `digits * 10 ^ exponent`. -/
structure Decimal where
  digits : Nat
  exponent : Int
deriving DecidableEq, Repr

namespace Decimal

def digitChars (d : Decimal) : List Char := Nat.toDigits 10 d.digits

/-- The power of ten of the first digit. -/
def scale (d : Decimal) : Int := d.digitChars.length - 1 + d.exponent

/-- Moves at most `fuel` trailing zeros of the digits into the exponent. -/
def stripZeros : Nat → Decimal → Decimal
  | 0, d => d
  | fuel + 1, d =>
    if d.digits ≠ 0 ∧ d.digits % 10 = 0 then stripZeros fuel ⟨d.digits / 10, d.exponent + 1⟩ else d

end Decimal

/-- How a format lays digits out: the least and the greatest power of ten of
the first digit for which the point is written among the digits.  Outside, the
power is written after `e`, with its sign. -/
structure Notation where
  positionalFrom : Int
  positionalTo : Int
deriving DecidableEq, Repr

namespace Notation

/-- Digits with the point among or after them; there is always a digit on
either side of the point. -/
def positional (digits : List Char) (exponent : Int) : List Char :=
  let whole : Int := digits.length + exponent
  if 0 ≤ exponent then digits ++ List.replicate exponent.toNat '0' ++ ['.', '0']
  else if 0 < whole then digits.take whole.toNat ++ '.' :: digits.drop whole.toNat
  else ['0', '.'] ++ List.replicate (-whole).toNat '0' ++ digits

/-- Digits with the point after the first one, and the power of ten. -/
def scientific (digits : List Char) (scale : Int) : List Char :=
  let fraction := digits.drop 1
  let sign := if scale < 0 then '-' else '+'
  digits.take 1 ++ (if fraction = [] then [] else '.' :: fraction) ++
    ['e', sign] ++ Nat.toDigits 10 scale.natAbs

/-- A positive or zero decimal in this notation. -/
def write (n : Notation) (d : Decimal) : List Char :=
  let s := d.scale
  if d.digits = 0 then ['0', '.', '0']
  else if n.positionalFrom ≤ s ∧ s ≤ n.positionalTo then positional d.digitChars d.exponent
  else scientific d.digitChars s

end Notation

namespace Binary64

/-- The interval of numbers that read as a value, in quarters of its last
place: the ends lie halfway to the neighbours, and the neighbour below a full
mantissa is closer unless the exponent is the least. -/
def quarterBounds (x : Binary64) : Nat × Nat :=
  let below := if x.mantissa = fullMantissa ∧ x.exponent ≠ -1074 then 1 else 2
  (4 * x.mantissa - below, 4 * x.mantissa + 2)

/-- Whether `digits * 10 ^ exponent` reads as the magnitude of `x`.  The ends
of the interval do exactly when the mantissa is even. -/
def readsAs (x : Binary64) (d : Decimal) : Bool :=
  let grid := 4 * d.digits * Nat.pow 10 d.exponent.toNat * Nat.pow 2 (-x.exponent).toNat
  let unit := Nat.pow 2 x.exponent.toNat * Nat.pow 10 (-d.exponent).toNat
  let low := x.quarterBounds.1 * unit
  let high := x.quarterBounds.2 * unit
  if x.mantissa % 2 = 0 then low ≤ grid && grid ≤ high else low < grid && grid < high

/-- The two whole multiples of `10 ^ exponent` around the magnitude, the nearer
one first; from the middle the even one comes first. -/
def neighbours (x : Binary64) (exponent : Int) : List Decimal :=
  let num := x.mantissa * Nat.pow 2 x.exponent.toNat * Nat.pow 10 (-exponent).toNat
  let den := Nat.pow 2 (-x.exponent).toNat * Nat.pow 10 exponent.toNat
  let q := num / den
  let lower : Decimal := ⟨q, exponent⟩
  let upper : Decimal := ⟨q + 1, exponent⟩
  if roundQuotient num den = q then [lower, upper] else [upper, lower]

/-- The power of ten of the first digit of a positive magnitude. -/
def decimalScale (x : Binary64) : Int :=
  let num := x.mantissa * Nat.pow 2 x.exponent.toNat
  let den := Nat.pow 2 (-x.exponent).toNat
  if den ≤ num then (Nat.toDigits 10 (num / den)).length - 1
  else -((Nat.toDigits 10 ((den - 1) / num)).length : Int)

/-- The first decimal that reads back among the neighbours with `count`,
`count + 1`, … digits, `fuel` grids at most. -/
def searchShortest (x : Binary64) : Nat → Nat → Option Decimal
  | 0, _ => none
  | fuel + 1, count =>
    match (x.neighbours (x.decimalScale + 1 - count)).find? x.readsAs with
    | some d => some d
    | none => x.searchShortest fuel (count + 1)

/-- The magnitude with the fewest digits that read back.  Seventeen always
suffice; the last case is the exact value, so that no guess is returned. -/
def shortest (x : Binary64) : Decimal :=
  if x.mantissa = 0 then ⟨0, 0⟩
  else
    match x.searchShortest 17 1 with
    | some d => d.stripZeros 17
    | none =>
      ⟨x.mantissa * Nat.pow 2 x.exponent.toNat * Nat.pow 5 (-x.exponent).toNat, min 0 x.exponent⟩

/-- The text of a value in a notation. -/
def write (n : Notation) (x : Binary64) : List Char :=
  (if x.negative then ['-'] else []) ++ n.write x.shortest

end Binary64

end AgentHooks
