import SchemaPack.Number.Binary64

namespace SchemaPack

/-- The integers kept exactly: those of a signed or an unsigned 64-bit word. -/
def Representable (n : Int) : Prop := -9223372036854775808 ≤ n ∧ n < 18446744073709551616

instance (n : Int) : Decidable (Representable n) := inferInstanceAs (Decidable (_ ∧ _))

def Word (n : Int) : Prop := -9223372036854775808 ≤ n ∧ n < 9223372036854775808

instance (n : Int) : Decidable (Word n) := inferInstanceAs (Decidable (_ ∧ _))

def word? (n : Int) : Option Int64 := if Word n then some (Int64.ofInt n) else none

/-- A number of a JSON document, in the spelling it has there: `5` is an integer, `5.0` a real. -/
inductive Number where
  | integer (value : Int) (representable : Representable value := by decide)
  | real (value : Binary64)
  deriving DecidableEq, Repr

inductive Rounding where
  | down
  | up
  deriving DecidableEq, Repr

namespace Number

instance : Inhabited Number := ⟨.integer 0⟩

def zero : Number := .integer 0

def ofInt? (n : Int) : Option Number :=
  if representable : Representable n then some (.integer n representable) else none

theorem representable_int64 (n : Int64) : Representable n.toInt := by
  have := n.le_toInt
  have := n.toInt_lt
  unfold Representable
  omega

theorem representable_uint64 (n : UInt64) : Representable n.toNat := by
  have := n.toNat_lt
  unfold Representable
  omega

def ofInt64 (n : Int64) : Number := .integer n.toInt (representable_int64 n)

def ofUInt64 (n : UInt64) : Number := .integer n.toNat (representable_uint64 n)

/-- The value as a double sees it, in smallest units: integers are rounded first. -/
def units : Number → Int
  | .integer n _ => roundToBinary64 n * Binary64.one
  | .real x => x.units

/-- Two integers compare exactly, any other two numbers as doubles. -/
def compare : Number → Number → Ordering
  | .integer a _, .integer b _ => Ord.compare a b
  | a, b => Ord.compare a.units b.units

def isIntegral : Number → Bool
  | .integer _ _ => true
  | .real x => x.isIntegral

def isZero (x : Number) : Bool := x.compare zero == .eq

def toInt (rounding : Rounding) : Number → Int
  | .integer n _ => n
  | .real x => match rounding with
    | .down => x.floor
    | .up => x.ceil

def round (rounding : Rounding) (x : Number) : Number :=
  (ofInt? (x.toInt rounding)).getD x

def toInt64? (rounding : Rounding) (x : Number) : Option Int64 := word? (x.toInt rounding)

/-- Adds to an integral number. The number and the sum must each fit a signed word. -/
def offset? (x : Number) (delta : Int) : Option Number :=
  if x.isIntegral then do
    let n ← x.toInt64? .down
    (word? (n.toInt + delta)).map ofInt64
  else none

end Number

end SchemaPack
