import SchemaPack.Encoding.Basic
import SchemaPack.Proofs.Json.Sameness

namespace SchemaPack

namespace Kind

theorem tag_eq_name (kind : Kind) : kind.tag = kind.name := by
  cases kind <;> rfl

theorem ofTag?_name (kind : Kind) : ofTag? kind.name = some kind := by
  cases kind <;> decide

theorem name_injective {kind other : Kind} (same : kind.name = other.name) : kind = other := by
  have found := ofTag?_name kind
  rw [same, ofTag?_name other] at found
  exact (Option.some.inj found).symm

end Kind

/-- Whether a value is an integer with a property, spelled as an integer or as a real. -/
def Json.IsInteger (property : Int → Prop) (value : Json) : Prop :=
  ∃ number n, value = .number number ∧ number.exact = n * Binary64.one ∧ property n

namespace Encoding

theorem eq_constNone {encoding : Encoding} {value : Json}
    (same : (constNone value).document = encoding.document) : encoding = constNone value := by
  have names := Option.some.inj (congrArg (·.get? "name") same)
  have kinds : Kind.constNone = encoding.kind := Kind.name_injective (Json.string.inj names)
  cases encoding with
  | constNone other =>
    have options := Json.object.inj (Option.some.inj (congrArg (·.get? "options") same))
    have values := (Prod.mk.inj (List.cons.inj options).1).2
    rw [values]
  | _ => cases kinds

def listed : Encoding → List Json
  | .constNone value => [value]
  | .byteChoiceIndex choices | .largeChoiceIndex choices | .topLevelByteChoiceIndex choices =>
    choices
  | _ => []

/-- Whether a value can be written with an encoding, where a measure tells the listed values
    apart. Kinds that no plan uses are taken to write nothing. -/
def Admits (measure : Number → Int) (encoding : Encoding) (value : Json) : Prop :=
  match encoding with
  | .boundedMultiple8BitsEnumFixed minimum maximum multiplier =>
    value.IsInteger fun n =>
      minimum.toInt ≤ n ∧ n ≤ maximum.toInt ∧ (multiplier.toNat : Int) ∣ n
  | .floorMultipleEnumVarint minimum multiplier =>
    value.IsInteger fun n => minimum.toInt ≤ n ∧ (multiplier.toNat : Int) ∣ n
  | .roofMultipleMirrorEnumVarint maximum multiplier =>
    value.IsInteger fun n => n ≤ maximum.toInt ∧ (multiplier.toNat : Int) ∣ n
  | .arbitraryMultipleZigzagVarint multiplier =>
    value.IsInteger fun n => (multiplier.toNat : Int) ∣ n
  | .doubleVarintTuple => ∃ number, value = .number number
  | .byteChoiceIndex choices | .largeChoiceIndex choices | .topLevelByteChoiceIndex choices =>
    ∃ choice ∈ choices, value.SameBy measure choice
  | .constNone constant => value.SameBy measure constant
  | .anyPackedTypeTagBytePrefix => True
  | _ => False

/-- A value is shut out by its listed likeness alone: a value that doubles do not tell from it,
    where the value itself is not listed. -/
theorem admits_exact_iff {encoding : Encoding} {value : Json}
    (admits : encoding.Admits Number.units value) :
    encoding.Admits Number.exact value ↔ ∀ choice ∈ encoding.listed,
      value.SameBy Number.units choice →
        ∃ other ∈ encoding.listed, value.SameBy Number.exact other := by
  cases encoding with
  | constNone constant =>
    constructor
    · exact fun same _ _ _ => ⟨constant, List.mem_singleton_self _, same⟩
    · intro exact
      obtain ⟨other, only, same⟩ := exact constant (List.mem_singleton_self _) admits
      rwa [List.mem_singleton.mp only] at same
  | byteChoiceIndex choices | largeChoiceIndex choices | topLevelByteChoiceIndex choices =>
    obtain ⟨choice, listed, like⟩ := admits
    exact ⟨fun same _ _ _ => same, fun exact => exact choice listed like⟩
  | boundedMultiple8BitsEnumFixed | floorMultipleEnumVarint | roofMultipleMirrorEnumVarint
  | arbitraryMultipleZigzagVarint | doubleVarintTuple | anyPackedTypeTagBytePrefix =>
    refine iff_of_true admits ?_
    intro choice listed
    cases listed
  | utf8StringNoLength | floorVarintPrefixUtf8StringShared | roofVarintPrefixUtf8StringShared
  | bounded8BitPrefixUtf8StringShared | rfc3339DateIntegerTriplet | prefixVarintLengthStringShared
  | fixedTypedArray | bounded8BitsTypedArray | floorTypedArray | roofTypedArray => cases admits

end Encoding

end SchemaPack
