import SchemaPack.Plan.Basic
import SchemaPack.Plan.Multiples

namespace SchemaPack

inductive RangeKind where
  | byte
  | wide
  | lower
  | upper
  | unbounded
  deriving DecidableEq, Repr

/-- The multiples of a number between the bounds that are present. -/
structure IntegerDomain where
  minimum : Option Int64
  maximum : Option Int64
  multiplier : UInt64
  deriving DecidableEq, Repr

namespace IntegerDomain

/-- A bound must be one that a word holds, if it is present. -/
def bound? (node : Json) (keyword : String) (value : Option Int64) : Option (Option Int64) :=
  if node.contains keyword then value.map some else some none

def of? (node : Json) (multiplied : Bool) : Option IntegerDomain :=
  if !node.hasType .integer || node.contains "enum" then none
  else do
    let multiplier ← match Multiplier.of node, multiplied with
      | .absent, false => some 1
      | .integral step, true => some step
      | _, _ => none
    let minimum ← bound? node "minimum" (integerMinimum? node)
    let maximum ← bound? node "maximum" (integerMaximum? node)
    return { minimum, maximum, multiplier }

def rangeKind (domain : IntegerDomain) : RangeKind :=
  match domain.minimum, domain.maximum with
  | some minimum, some maximum =>
    if fitsInByte (countMultiples minimum.toInt maximum.toInt domain.multiplier.toNat) then .byte
    else .wide
  | some _, none => .lower
  | none, some _ => .upper
  | none, none => .unbounded

open Encoding in
/-- A range too wide for a byte is written from its lower bound on. -/
def document (domain : IntegerDomain) : Json :=
  let multiplier := ("multiplier", unsigned domain.multiplier)
  match domain.minimum, domain.maximum with
  | some minimum, some maximum =>
    if fitsInByte (countMultiples minimum.toInt maximum.toInt domain.multiplier.toNat) then
      wrap "BOUNDED_MULTIPLE_8BITS_ENUM_FIXED"
        (.object [("minimum", signed minimum), ("maximum", signed maximum), multiplier])
    else
      wrap "FLOOR_MULTIPLE_ENUM_VARINT" (.object [("minimum", signed minimum), multiplier])
  | some minimum, none =>
    wrap "FLOOR_MULTIPLE_ENUM_VARINT" (.object [("minimum", signed minimum), multiplier])
  | none, some maximum =>
    wrap "ROOF_MULTIPLE_MIRROR_ENUM_VARINT" (.object [("maximum", signed maximum), multiplier])
  | none, none => wrap "ARBITRARY_MULTIPLE_ZIGZAG_VARINT" (.object [multiplier])

end IntegerDomain

namespace Integers

def rule (name : String) (kind : RangeKind) (multiplied : Bool) : Rule where
  name
  condition node context :=
    isPlannable node context &&
      (IntegerDomain.of? node multiplied).any fun domain => domain.rangeKind = kind
  transform node :=
    match IntegerDomain.of? node multiplied with
    | some domain => domain.document
    | none => node

def rules : List Rule := [
  rule "integer_bounded_8_bit" .byte false,
  rule "integer_bounded_multiplier_8_bit" .byte true,
  rule "integer_bounded_greater_than_8_bit" .wide false,
  rule "integer_bounded_multiplier_greater_than_8_bit" .wide true,
  rule "integer_lower_bound" .lower false,
  rule "integer_lower_bound_multiplier" .lower true,
  rule "integer_upper_bound" .upper false,
  rule "integer_upper_bound_multiplier" .upper true,
  rule "integer_unbound" .unbounded false,
  rule "integer_unbound_multiplier" .unbounded true]

end Integers

end SchemaPack
