import SchemaPack.Number.Basic

namespace SchemaPack

structure Literal where
  negative : Bool
  whole : List Nat
  fraction : Option (List Nat) := none
  exponent : Option Int := none
  deriving DecidableEq, Repr

/-- A significand that fits an unsigned word, and the power of ten it is scaled by. -/
structure Mantissa where
  significand : Nat
  exponent : Int
  deriving DecidableEq, Repr

namespace Mantissa

def fits (significand digit : Nat) : Bool := significand * 10 + digit < 18446744073709551616

/-- From the first digit that does not fit, the digits before the point only scale. -/
def readWhole (significand : Nat) : List Nat → Mantissa
  | [] => ⟨significand, 0⟩
  | digit :: rest =>
    if fits significand digit then readWhole (significand * 10 + digit) rest
    else ⟨significand, rest.length + 1⟩

/-- Digits after the point are read up to the first that does not fit. -/
def readFraction (m : Mantissa) : List Nat → Mantissa
  | [] => m
  | digit :: rest =>
    if fits m.significand digit then
      readFraction ⟨m.significand * 10 + digit, m.exponent - 1⟩ rest
    else m

def powerOfTen? (n : Nat) : Option Binary64 := Binary64.ofNat? (Nat.pow 10 n)

/-- The significand is rounded first, then scaled by a rounded power of ten and rounded again.
    Below `10 ^ -308` the scaling takes two steps. -/
def toBinary64? (m : Mantissa) : Option Binary64 := do
  let significand ← Binary64.ofNat? m.significand
  if significand.isZero then some significand
  else if 308 < m.exponent then none
  else if 0 ≤ m.exponent then significand.mul? (← powerOfTen? m.exponent.toNat)
  else
    let places := (-m.exponent).toNat
    let first ← significand.div? (← powerOfTen? (min places 308))
    if places ≤ 308 then some first
    else first.div? (← powerOfTen? (min (places - 308) 308))

end Mantissa

namespace Literal

def mantissa (l : Literal) : Mantissa :=
  let read := Mantissa.readFraction (Mantissa.readWhole 0 l.whole) (l.fraction.getD [])
  { read with exponent := read.exponent + l.exponent.getD 0 }

def integer? (l : Literal) : Option Int :=
  let m := Mantissa.readWhole 0 l.whole
  if l.fraction.isNone ∧ l.exponent.isNone ∧ m.exponent = 0 then some m.significand else none

/-- A negative zero is a real, and so is an integer that no word holds. A real too large for a
    double is no number. -/
def toNumber? (l : Literal) : Option Number :=
  let real := l.mantissa.toBinary64?.map fun x =>
    Number.real (if l.negative then x.negate else x)
  match l.integer? with
  | none => real
  | some n =>
    if l.negative then
      if n = 0 ∨ ¬ Word (-n) then real else Number.ofInt? (-n)
    else Number.ofInt? n

end Literal

end SchemaPack
