namespace SchemaPack

/-- A finite double of the IEEE 754 format, kept as data. Its magnitude is `significand` shifted
    left by `shift`, counted in units of the smallest positive double. -/
structure Binary64 where
  negative : Bool
  significand : Nat
  shift : Nat
  normal : significand < 9007199254740992 ∧ shift ≤ 2045 ∧
    (4503599627370496 ≤ significand ∨ shift = 0) := by decide
  deriving DecidableEq, Repr

/-- The quotient rounded to the nearest natural number, a tie going to the even one. -/
def roundQuotient (numerator denominator : Nat) : Nat :=
  let quotient := numerator / denominator
  let rest := 2 * (numerator % denominator)
  if rest < denominator then quotient
  else if denominator < rest then quotient + 1
  else quotient + quotient % 2

namespace Binary64

/-- How many smallest units make one: `2 ^ 1074`. -/
def one : Nat := 1 <<< 1074

instance : Inhabited Binary64 := ⟨⟨false, 0, 0, by decide⟩⟩

def units (x : Binary64) : Int :=
  let magnitude : Nat := x.significand <<< x.shift
  if x.negative then -(magnitude : Int) else magnitude

def isZero (x : Binary64) : Bool := x.significand == 0

def negate (x : Binary64) : Binary64 := { x with negative := !x.negative }

def floor (x : Binary64) : Int := x.units.fdiv one

def ceil (x : Binary64) : Int := -(-x.units).fdiv one

def isIntegral (x : Binary64) : Bool := x.units.fmod one == 0

def ofParts? (negative : Bool) (significand shift : Nat) : Option Binary64 :=
  if normal : significand < 9007199254740992 ∧ shift ≤ 2045 ∧
      (4503599627370496 ≤ significand ∨ shift = 0) then
    some { negative, significand, shift, normal }
  else none

/-- The shift at which a magnitude of that many smallest units keeps 53 significant bits. -/
def shiftFor (units : Nat) : Nat := units.log2 - 52

/-- The double nearest to a magnitude given as a fraction of smallest units, a tie going to the
    even significand. There is none beyond the largest double. -/
def ofUnits? (negative : Bool) (numerator denominator : Nat) : Option Binary64 :=
  let shift := shiftFor (numerator / denominator)
  let significand := roundQuotient numerator (denominator <<< shift)
  if significand = 9007199254740992 then ofParts? negative 4503599627370496 (shift + 1)
  else ofParts? negative significand shift

def ofNat? (n : Nat) : Option Binary64 := ofUnits? false (n * one) 1

def mul? (x y : Binary64) : Option Binary64 :=
  ofUnits? (x.negative != y.negative) (x.units.natAbs * y.units.natAbs) one

def div? (x y : Binary64) : Option Binary64 :=
  if y.isZero then none
  else ofUnits? (x.negative != y.negative) (x.units.natAbs * one) y.units.natAbs

end Binary64

/-- An integer rounded to 53 significant bits, a tie going to the even neighbour. -/
def roundToBinary64 (n : Int) : Int :=
  let shift := Binary64.shiftFor n.natAbs
  let magnitude : Nat := roundQuotient n.natAbs (1 <<< shift) <<< shift
  if n < 0 then -(magnitude : Int) else magnitude

end SchemaPack
