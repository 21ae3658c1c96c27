import SchemaPack.Number.Basic

namespace SchemaPack

structure Decimal where
  digits : Nat
  exponent : Int
  deriving DecidableEq, Repr

namespace Decimal

def trim : Nat → Decimal → Decimal
  | 0, x => x
  | limit + 1, x =>
    if x.digits ≠ 0 ∧ x.digits % 10 = 0 then trim limit ⟨x.digits / 10, x.exponent + 1⟩ else x

end Decimal

/-- The fractions that round to one double: those between `low` and `high` over `denominator`,
    the ends included if `closed`. -/
structure RoundingInterval where
  low : Nat
  middle : Nat
  high : Nat
  denominator : Nat
  closed : Bool

namespace RoundingInterval

/-- Below a power of two the neighbouring double is half as far away as above it. -/
def of (x : Binary64) : RoundingInterval where
  low := (4 * x.significand - (if x.significand = 4503599627370496 ∧ x.shift ≠ 0 then 1 else 2))
    <<< x.shift
  middle := (4 * x.significand) <<< x.shift
  high := (4 * x.significand + 2) <<< x.shift
  denominator := 4 * Binary64.one
  closed := x.significand % 2 = 0

def contains (i : RoundingInterval) (numerator scale : Nat) : Bool :=
  let low := i.low * scale
  let high := i.high * scale
  if i.closed then low ≤ numerator && numerator ≤ high else low < numerator && numerator < high

def magnitude (i : RoundingInterval) : Int :=
  if i.denominator ≤ i.middle then (Nat.toDigits 10 (i.middle / i.denominator)).length
  else -(((List.range 330).find? fun zeros =>
    i.denominator ≤ i.middle * Nat.pow 10 (zeros + 1)).getD 330 : Nat)

/-- The decimal of the interval on the grid of `10 ^ exponent`, if one of the two grid points
    around the middle lies in it. Of two the nearer is taken, in a tie the even one. -/
def onGrid? (i : RoundingInterval) (exponent : Int) : Option Decimal :=
  let scale := Nat.pow 10 (-exponent).toNat
  let step := i.denominator * Nat.pow 10 exponent.toNat
  let below := i.middle * scale / step
  let rest := 2 * (i.middle * scale % step)
  let above := below + 1
  match i.contains (below * step) scale, i.contains (above * step) scale with
  | true, true =>
    some ⟨if rest < step ∨ (rest = step ∧ below % 2 = 0) then below else above, exponent⟩
  | true, false => some ⟨below, exponent⟩
  | false, true => some ⟨above, exponent⟩
  | false, false => none

end RoundingInterval

namespace Binary64

/-- The decimal of fewest digits that rounds to the magnitude of a double other than zero. -/
def shortest (x : Binary64) : Decimal :=
  let interval := RoundingInterval.of x
  let magnitude := interval.magnitude
  let found := (List.range 17).findSome? fun n => interval.onGrid? (magnitude - (n + 1 : Nat))
  (found.getD ⟨x.significand, 0⟩).trim 18

/-- Digits are written positionally from `0.00001` up to `10 ^ 16`, with a fraction of at least one
    digit, and otherwise with one digit before the point and a signed exponent. -/
def render (x : Binary64) : String :=
  let sign := if x.negative then "-" else ""
  if x.isZero then sign ++ "0.0" else
  let decimal := x.shortest
  let digits := toString decimal.digits
  let count : Int := digits.length
  let point := count + decimal.exponent
  let zeros (n : Int) : String := "".pushn '0' n.toNat
  if point < -4 ∨ 16 < point then
    let fraction := if count = 1 then "" else "." ++ digits.drop 1
    let exponent := (if point < 1 then "e-" else "e+") ++ toString (point - 1).natAbs
    sign ++ digits.take 1 ++ fraction ++ exponent
  else if point ≤ 0 then sign ++ "0." ++ zeros (-point) ++ digits
  else if point < count then
    sign ++ digits.take point.toNat ++ "." ++ digits.drop point.toNat
  else sign ++ digits ++ zeros (point - count) ++ ".0"

end Binary64

def Number.render : Number → String
  | .integer n _ => toString n
  | .real x => x.render

end SchemaPack
