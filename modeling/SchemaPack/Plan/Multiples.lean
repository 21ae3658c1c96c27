import SchemaPack.Schema.Node
import SchemaPack.Schema.Vocabulary

namespace SchemaPack

inductive Multiplier where
  | absent
  | integral (step : UInt64)
  | unsupported
  deriving DecidableEq, Repr

namespace Multiplier

/-- The sign of `multipleOf` does not matter; zero and fractions are not supported. -/
def of (node : Json) : Multiplier :=
  match node.get? "multipleOf" with
  | none => .absent
  | some value =>
    match value.number?.filter (·.isIntegral) |>.bind (·.toInt64? .down) with
    | some m => if m = 0 then .unsupported else .integral (UInt64.ofNat m.toInt.natAbs)
    | none => .unsupported

end Multiplier

def integerMinimum? (node : Json) : Option Int64 :=
  (node.numberAt? "minimum").bind (·.toInt64? .up)

def integerMaximum? (node : Json) : Option Int64 :=
  (node.numberAt? "maximum").bind (·.toInt64? .down)

/-- The first factor of `step` in a range that starts at `minimum`. -/
def firstFactor (minimum : Int) (step : Nat) : Int := -(-minimum / step)

def lastFactor (maximum : Int) (step : Nat) : Int := maximum / step

def countMultiples (minimum maximum : Int) (step : Nat) : Nat :=
  if step = 0 ∨ maximum < minimum then 0
  else (lastFactor maximum step - firstFactor minimum step + 1).toNat

def fitsInByte (states : Nat) : Bool := states - 1 ≤ 255

def multiples (minimum maximum : Int) (step : Nat) : List Int64 :=
  (List.range (countMultiples minimum maximum step)).filterMap fun (i : Nat) =>
    word? ((firstFactor minimum step + i) * step)

/-- Every integer that the bounds and `multipleOf` of a schema admit, if both bounds are known. -/
def integerStates? (node : Json) (vocabularies : Vocabularies) : Option (List Int64) :=
  if vocabularies.contains Vocabulary.validation then do
    let minimum ← integerMinimum? node
    let maximum ← integerMaximum? node
    match Multiplier.of node with
    | .absent => multiples minimum.toInt maximum.toInt 1
    | .integral step => multiples minimum.toInt maximum.toInt step.toNat
    | .unsupported => none
  else none

end SchemaPack
