/-
Decimal literals, read exactly.

A literal has digits, perhaps a point among them, and perhaps a power of ten
after the letter e.  It stands for the nearest binary64 value.
-/
import AgentHooks.Number.Decimal
import AgentHooks.Text.Characters

namespace AgentHooks.Decimal

/-- The powers of ten of a first digit that are worth computing with: smaller
decimals round to zero, and greater ones are out of range. -/
def scaleLimit : Int := 400

/-- The value nearest to a decimal, a tie going to the even mantissa; none when
that lies beyond the greatest value. -/
def nearest? (negative : Bool) (d : Decimal) : Option Binary64 :=
  if d.digits = 0 ∨ d.scale < -scaleLimit then some (.zero negative)
  else if scaleLimit < d.scale then none
  else
    Binary64.nearest? negative (d.digits * Nat.pow 10 d.exponent.toNat)
      (Nat.pow 10 (-d.exponent).toNat)

/-- The power of ten that follows the digits of a literal. -/
def powerOfLiteral? : List Char → Option Int
  | [] => some 0
  | c :: cs => if c = 'e' ∨ c = 'E' then Text.integer? cs else none

/-- The decimal of a literal without a sign; one digit is enough, on either
side of the point. -/
def ofLiteral? (cs : List Char) : Option Decimal :=
  let whole := cs.takeWhile Text.isDigit
  let (fraction, power) :=
    match cs.dropWhile Text.isDigit with
    | '.' :: rest => (rest.takeWhile Text.isDigit, rest.dropWhile Text.isDigit)
    | rest => ([], rest)
  if whole ++ fraction = [] then none
  else
    (powerOfLiteral? power).map fun e =>
      ⟨Text.digitsValue (whole ++ fraction), e - fraction.length⟩

/-- The decimal of a literal, and whether a minus stands in front. -/
def ofSignedLiteral? : List Char → Option (Bool × Decimal)
  | '-' :: cs => (ofLiteral? cs).map (true, ·)
  | '+' :: cs => (ofLiteral? cs).map (false, ·)
  | cs => (ofLiteral? cs).map (false, ·)

end AgentHooks.Decimal
