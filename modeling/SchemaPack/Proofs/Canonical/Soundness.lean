import SchemaPack.Proofs.Canonical.Collapse
import SchemaPack.Proofs.Canonical.Keeps
import SchemaPack.Proofs.Schema.Assertion

namespace SchemaPack

def Assertion.decisive : List Assertion := [
  .type, .enum, .const, .minimum, .maximum, .exclusiveMinimum, .exclusiveMaximum, .multipleOf,
  .maxLength, .maxItems, .maxProperties]

/-- Whether a value satisfies the decisive assertions, as far as doubles tell values apart. -/
abbrev Json.Allows (schema value : Json) : Prop :=
  schema.Meets Number.units Assertion.decisive value

def Rule.Loosens (rule : Rule) : Prop :=
  ∀ node context value, rule.condition node context = true → node.Allows value →
    (rule.transform node).Allows value

namespace Json

theorem isInstanceOf_of_hasType {node value : Json} {type : InstanceType}
    (allows : node.Allows value) (declared : node.hasType type = true) :
    value.isInstanceOf type = true := by
  obtain ⟨name, typed, known⟩ := get?_of_declaredType? (beq_iff_eq.mp declared)
  have named : Assertion.types? (.string name) = some [type] := by
    rw [Assertion.types?, known]
    rfl
  obtain ⟨only, listed, instance_of⟩ := allows .type (by decide) _ typed _ named
  rwa [List.mem_singleton.mp listed] at instance_of

theorem eq_number_of_isInstanceOf {value : Json} {type : InstanceType}
    (numeric : type = .integer ∨ type = .number) (instance_of : value.isInstanceOf type = true) :
    ∃ number, value = .number number ∧ (type = .integer → number.isIntegral = true) := by
  cases value with
  | number number =>
    refine ⟨number, rfl, ?_⟩
    rintro rfl
    exact instance_of
  | null | bool | string | array | object => rcases numeric with rfl | rfl <;> cases instance_of

theorem isInstanceOf_number {number : Number} {type : InstanceType}
    (other : type ≠ .integer ∧ type ≠ .number) :
    (Json.number number).isInstanceOf type = false := by
  cases type with
  | integer => exact absurd rfl other.1
  | number => exact absurd rfl other.2
  | null | boolean | string | array | object =>
    simp only [isInstanceOf, typeOf]
    split <;> rfl

end Json

namespace Redundancy

theorem withoutCompanion_loosens {name vocabulary keyword companion : String} :
    (withoutCompanion name vocabulary keyword companion).Loosens :=
  fun _ _ _ _ allows => allows.erase keyword

theorem emptyObject_loosens {name vocabulary keyword : String} :
    (emptyObject name vocabulary keyword).Loosens :=
  fun _ _ _ _ allows => allows.erase keyword

theorem tighterBound_loosens {name inclusive exclusive : String} {tighter : Ordering} :
    (tighterBound name inclusive exclusive tighter).Loosens := by
  intro node context value _ allows
  simp only [tighterBound]
  split
  · exact allows.erase _
  · exact allows

theorem rules_loosen : ∀ rule ∈ rules, rule.Loosens := by
  simp only [rules, List.forall_mem_cons]
  exact ⟨withoutCompanion_loosens, withoutCompanion_loosens, withoutCompanion_loosens,
    fun _ _ _ _ allows => allows.erase _, fun _ _ _ _ allows => allows.erase _,
    fun _ _ _ _ allows => allows.erase _, fun _ _ _ _ allows => allows.eraseAll _,
    emptyObject_loosens, emptyObject_loosens, tighterBound_loosens, tighterBound_loosens,
    fun _ _ _ _ allows => allows.erase _, fun _ _ _ _ allows => allows.erase _,
    fun _ _ _ _ allows => allows.eraseAll _, List.forall_mem_nil _⟩

end Redundancy

namespace Spelling

theorem trueSchema_loosens : trueSchema.Loosens := by
  intro node context value _ _ assertion _ content found
  cases found

theorem enumOfConst_allows {node value : Json} (allows : node.Allows value) :
    (enumOfConst node).Allows value := by
  unfold enumOfConst
  split
  · rename_i constant found
    refine (allows.erase "const").insert_assertion .enum ?_
    intro choices array
    cases array
    exact ⟨constant, List.mem_singleton_self _, allows .const (by decide) constant found⟩
  · exact allows

theorem constAsEnum_loosens : constAsEnum.Loosens :=
  fun _ _ _ _ allows => enumOfConst_allows allows

theorem booleanAsEnum_loosens : booleanAsEnum.Loosens := by
  intro node context value condition allows
  simp only [booleanAsEnum, Bool.and_eq_true] at condition
  have instance_of := Json.isInstanceOf_of_hasType allows condition.1.2
  refine (allows.erase "type").insert_assertion .enum ?_
  intro choices array
  cases array
  cases value with
  | bool truth =>
    refine ⟨.bool truth, ?_, rfl⟩
    cases truth <;> decide
  | number number =>
    rw [Json.isInstanceOf_number (by decide)] at instance_of
    cases instance_of
  | null | string | array | object => cases instance_of

theorem nullAsConst_loosens : nullAsConst.Loosens := by
  intro node context value condition allows
  simp only [nullAsConst, Bool.and_eq_true] at condition
  have instance_of := Json.isInstanceOf_of_hasType allows condition.1.2
  refine (allows.erase "type").insert_assertion .const ?_
  cases value with
  | null => exact rfl
  | number number =>
    rw [Json.isInstanceOf_number (by decide)] at instance_of
    cases instance_of
  | bool | string | array | object => cases instance_of

theorem typeUnion_loosens : typeUnion.Loosens := by
  intro node context value condition allows
  change (splitTypes node).Allows value
  refine allows.of_get? fun assertion listed => ?_
  have moved : ∀ assertion ∈ Assertion.decisive,
      wrapperKeywords.contains assertion.name = false ∧ "anyOf" ≠ assertion.name := by decide
  obtain ⟨dropped, other⟩ := moved assertion listed
  cases node with
  | object members =>
    cases found : (Json.object members).arrayAt? "type" with
    | some types =>
      right
      rw [splitTypes_eq found]
      exact wrapped_get?_none members _ dropped other
    | none =>
      left
      simp only [splitTypes, found]
  | null | bool | number | string | array => exact .inl rfl

theorem inclusiveBound_loosens {name : String} {exclusive inclusive : Assertion}
    {rounding : Rounding} {step : Int} (listed : exclusive ∈ Assertion.decisive)
    (same : ∀ opened closed number : Number, inclusive? rounding step opened = some closed →
      number.isIntegral = true →
        exclusive.Holds Number.units (.number opened) (.number number) →
          inclusive.Holds Number.units (.number closed) (.number number)) :
    (inclusiveBound name exclusive.name inclusive.name rounding step).Loosens := by
  intro node context value condition allows
  simp only [inclusiveBound, Bool.and_eq_true] at condition ⊢
  obtain ⟨closed, given⟩ := Option.isSome_iff_exists.mp condition.2
  obtain ⟨opened, found, folded⟩ := Option.bind_eq_some_iff.mp given
  have instance_of := Json.isInstanceOf_of_hasType allows condition.1.1.2
  obtain ⟨number, rfl, integral⟩ := Json.eq_number_of_isInstanceOf (.inl rfl) instance_of
  have outside := allows exclusive listed _ (Json.get?_of_numberAt? found)
  simp only [given]
  exact (allows.erase _).insert_assertion inclusive
    (same opened closed number folded (integral rfl) outside)

theorem inclusiveMaximum_loosens : inclusiveMaximum.Loosens := by
  refine @inclusiveBound_loosens _ .exclusiveMaximum .maximum .down (-1) (by decide) ?_
  intro opened closed number folded integral outside bound held found same
  cases found
  cases same
  have lt := outside opened number rfl rfl
  -- A whole bound moves by one, and there is no integer between; a fraction is only rounded.
  unfold inclusive? at folded
  split at folded
  · rename_i whole
    have gap := Number.exact_add_one_le integral whole lt
    have sum := Number.offset?_exact folded
    omega
  · rename_i fraction
    rw [Bool.not_eq_true] at fraction
    cases folded
    exact Number.le_round_down integral fraction (Int.le_of_lt lt)

theorem inclusiveMinimum_loosens : inclusiveMinimum.Loosens := by
  refine @inclusiveBound_loosens _ .exclusiveMinimum .minimum .up 1 (by decide) ?_
  intro opened closed number folded integral outside bound held found same
  cases found
  cases same
  have lt := outside opened number rfl rfl
  unfold inclusive? at folded
  split at folded
  · rename_i whole
    have gap := Number.exact_add_one_le whole integral lt
    have sum := Number.offset?_exact folded
    omega
  · rename_i fraction
    rw [Bool.not_eq_true] at fraction
    cases folded
    exact Number.round_up_le integral fraction (Int.le_of_lt lt)

theorem rules_loosen : ∀ rule ∈ rules, rule.Loosens := by
  simp only [rules, List.forall_mem_cons]
  exact ⟨trueSchema_loosens, constAsEnum_loosens, booleanAsEnum_loosens, nullAsConst_loosens,
    typeUnion_loosens, inclusiveMaximum_loosens, inclusiveMinimum_loosens, List.forall_mem_nil _⟩

end Spelling

namespace Collapse

theorem types?_single (type : Json) (string : type.string?.isSome = true) :
    Assertion.types? (.array [type]) = Assertion.types? type := by
  cases type with
  | string name =>
    cases known : InstanceType.ofName? name with
    | none => simp [Assertion.types?, Json.string?, known]
    | some found => simp [Assertion.types?, Json.string?, known]
  | null | bool | number | array | object => cases string

theorem singleType_loosens : singleType.Loosens := by
  intro node context value condition allows
  simp only [singleType, Bool.and_eq_true] at condition ⊢
  have single := condition.2
  split at single
  · rename_i name found
    simp only [found]
    refine allows.insert_assertion .type ?_
    intro types named
    have same := types?_single (.string name) rfl
    exact allows .type (by decide) _ (Json.get?_of_arrayAt? found) types (same.trans named)
  · cases single

theorem constInEnum_loosens : constInEnum.Loosens :=
  fun _ _ _ _ allows => Spelling.enumOfConst_allows allows

theorem equalBounds_loosens : equalBounds.Loosens := by
  intro node context value condition allows
  obtain ⟨minimum, maximum, pinned⟩ := pinned_of_condition condition
  rw [equalBounds_transform pinned]
  have numeric : ∃ number, value = .number number := by
    rcases pinned.numeric with integer | real
    · have instance_of := Json.isInstanceOf_of_hasType allows integer
      obtain ⟨number, rfl, _⟩ := Json.eq_number_of_isInstanceOf (.inl rfl) instance_of
      exact ⟨number, rfl⟩
    · have instance_of := Json.isInstanceOf_of_hasType allows real
      obtain ⟨number, rfl, _⟩ := Json.eq_number_of_isInstanceOf (.inr rfl) instance_of
      exact ⟨number, rfl⟩
  obtain ⟨number, rfl⟩ := numeric
  have above := allows .minimum (by decide) _ (Json.get?_of_numberAt? pinned.lower) _ _ rfl rfl
  have below := allows .maximum (by decide) _ (Json.get?_of_numberAt? pinned.upper) _ _ rfl rfl
  have up := Number.units_mono above
  have down := Number.units_mono below
  have equal := Number.units_eq_of_compare pinned.equal
  refine (allows.eraseAll _).insert_assertion .const (Json.sameBy_number ?_)
  omega

theorem size_eq_zero {node value : Json} {size? : Json → Option Nat} {assertion : Assertion}
    {size : Nat} (allows : node.Allows value) (listed : assertion ∈ Assertion.decisive)
    (bounds : ∀ content, assertion.Holds Number.units content value →
      Assertion.OfSizes size? (· ≥ ·) content value)
    (zero : node.zeroAt assertion.name = true) (measured : size? value = some size) :
    size = 0 := by
  unfold Json.zeroAt at zero
  cases found : node.numberAt? assertion.name with
  | none =>
    rw [found] at zero
    cases zero
  | some bound =>
    rw [found, Option.any_some] at zero
    have none := Number.exact_eq_of_isZero zero
    have whole := (Number.isIntegral_iff bound).mpr (none ▸ Int.dvd_zero _)
    have holds := bounds _ (allows assertion listed _ (Json.get?_of_numberAt? found))
    have le := holds bound size rfl whole (Int.le_of_eq none.symm) measured
    apply Nat.eq_zero_of_not_pos
    intro some
    have positive := Int.mul_pos (Int.natCast_pos.mpr some) Binary64.one_pos
    omega

theorem emptyString_loosens : emptyString.Loosens := by
  intro node context value condition allows
  simp only [emptyString, Bool.and_eq_true] at condition ⊢
  have instance_of := Json.isInstanceOf_of_hasType allows condition.1.1.1.2
  refine (allows.eraseAll _).insert_assertion .const ?_
  cases value with
  | string text =>
    have none := @size_eq_zero _ _ _ .maxLength text.length allows (by decide)
      (fun _ holds => holds) condition.1.1.2 rfl
    rw [String.length_eq_zero_iff.mp none]
    exact rfl
  | number number =>
    rw [Json.isInstanceOf_number (by decide)] at instance_of
    cases instance_of
  | null | bool | array | object => cases instance_of

theorem emptyArray_loosens : emptyArray.Loosens := by
  intro node context value condition allows
  simp only [emptyArray, Bool.and_eq_true] at condition ⊢
  have instance_of := Json.isInstanceOf_of_hasType allows condition.1.1.1.2
  refine (allows.eraseAll _).insert_assertion .const ?_
  cases value with
  | array items =>
    have none := @size_eq_zero _ _ _ .maxItems items.length allows (by decide)
      (fun _ holds => holds) condition.1.1.2 rfl
    rw [List.length_eq_zero_iff.mp none]
    exact rfl
  | number number =>
    rw [Json.isInstanceOf_number (by decide)] at instance_of
    cases instance_of
  | null | bool | string | object => cases instance_of

theorem emptyObject_loosens : emptyObject.Loosens := by
  intro node context value condition allows
  simp only [emptyObject, Bool.and_eq_true] at condition ⊢
  have instance_of := Json.isInstanceOf_of_hasType allows condition.1.1.1.1.2
  refine (allows.eraseAll _).insert_assertion .const ?_
  cases value with
  | object members =>
    have none := @size_eq_zero _ _ _ .maxProperties members.length allows (by decide)
      (fun _ holds => holds) condition.1.1.1.2 rfl
    rw [List.length_eq_zero_iff.mp none]
    exact rfl
  | number number =>
    rw [Json.isInstanceOf_number (by decide)] at instance_of
    cases instance_of
  | null | bool | string | array => cases instance_of

theorem requiredDependencies_loosens : requiredDependencies.Loosens := by
  intro node context value _ allows
  simp only [requiredDependencies]
  split
  · exact (allows.insert_other _ (by decide)).insert_other _ (by decide)
  · exact allows

theorem requiredCount_loosens : requiredCount.Loosens := by
  intro node context value _ allows
  simp only [requiredCount]
  split
  · exact allows.insert_other _ (by decide)
  · exact allows

theorem duplicates_loosens {name keyword vocabulary : String}
    (unrelated : ∀ assertion ∈ Assertion.decisive, assertion.name ≠ keyword) :
    (duplicates name keyword vocabulary).Loosens := by
  intro node context value _ allows
  rcases duplicates_transform name keyword vocabulary node with same | ⟨_, _, _, _, same⟩
  · rwa [same]
  · rw [same]
    exact allows.insert_other _ unrelated

theorem duplicateEnum_loosens : duplicateEnum.Loosens := by
  intro node context value _ allows
  rw [duplicateEnum]
  rcases duplicates_transform "duplicate_enum_values" "enum" Vocabulary.validation node with
    same | ⟨values, kept, found, ran, same⟩
  · rwa [same]
  · rw [same]
    refine allows.insert_assertion .enum ?_
    intro choices array
    cases array
    obtain ⟨choice, listed, same⟩ :=
      allows .enum (by decide) _ (Json.get?_of_arrayAt? found) values rfl
    obtain ⟨other, stays, equal⟩ := Json.exists_mem_sortUnique ran listed
    exact ⟨other, stays, same.trans (Json.sameBy_of_equal equal)⟩

theorem integralBound_loosens {name : String} {assertion : Assertion} {rounding : Rounding}
    (listed : assertion ∈ Assertion.decisive)
    (same : ∀ bound number : Number, bound.isIntegral = false → number.isIntegral = true →
      assertion.Holds Number.units (.number bound) (.number number) →
        assertion.Holds Number.units (.number (bound.round rounding)) (.number number)) :
    (integralBound name assertion.name rounding).Loosens := by
  intro node context value condition allows
  simp only [integralBound, Bool.and_eq_true] at condition ⊢
  have instance_of := Json.isInstanceOf_of_hasType allows condition.1.2
  obtain ⟨number, rfl, integral⟩ := Json.eq_number_of_isInstanceOf (.inl rfl) instance_of
  cases found : node.numberAt? assertion.name with
  | none => exact allows
  | some bound =>
    rw [found, Option.any_some, Bool.not_eq_true'] at condition
    have inside := allows assertion listed _ (Json.get?_of_numberAt? found)
    exact allows.insert_assertion assertion (same bound number condition.2 (integral rfl) inside)

theorem integralMaximum_loosens : integralMaximum.Loosens := by
  refine @integralBound_loosens _ .maximum .down (by decide) ?_
  intro bound number fraction integral inside rounded held found same
  cases found
  cases same
  exact Number.le_round_down integral fraction (inside bound number rfl rfl)

theorem integralMinimum_loosens : integralMinimum.Loosens := by
  refine @integralBound_loosens _ .minimum .up (by decide) ?_
  intro bound number fraction integral inside rounded held found same
  cases found
  cases same
  exact Number.round_up_le integral fraction (inside bound number rfl rfl)

theorem rules_loosen : ∀ rule ∈ rules, rule.Loosens := by
  simp only [rules, List.forall_mem_cons]
  exact ⟨singleType_loosens, constInEnum_loosens, equalBounds_loosens, emptyString_loosens,
    emptyArray_loosens, emptyObject_loosens, requiredDependencies_loosens,
    requiredCount_loosens, duplicates_loosens (by decide), duplicates_loosens (by decide),
    duplicateEnum_loosens, duplicates_loosens (by decide), integralMaximum_loosens,
    integralMinimum_loosens, List.forall_mem_nil _⟩

end Collapse

namespace Pruning

theorem rules_loosen : ∀ rule ∈ rules, rule.Loosens := by
  intro rule listed
  obtain ⟨type, _, listed⟩ := List.mem_flatMap.mp listed
  obtain ⟨family, _, rfl⟩ := List.mem_map.mp listed
  exact fun _ _ _ _ allows => allows.eraseAll _

end Pruning

namespace Defaults

theorem allTypes_loosens : allTypes.Loosens := by
  intro node context value _ allows
  refine allows.insert_assertion .type ?_
  intro types named
  have every : Assertion.types? (.array (InstanceType.all.map fun type => .string type.name)) =
      some InstanceType.all := by decide
  rw [every] at named
  cases named
  cases value with
  | null => exact ⟨.null, by decide, rfl⟩
  | bool => exact ⟨.boolean, by decide, rfl⟩
  | number => exact ⟨.number, by decide, rfl⟩
  | string => exact ⟨.string, by decide, rfl⟩
  | array => exact ⟨.array, by decide, rfl⟩
  | object => exact ⟨.object, by decide, rfl⟩

theorem multipleOf_loosens : multipleOf.Loosens := by
  intro node context value condition allows
  simp only [multipleOf, default, Bool.and_eq_true] at condition ⊢
  have instance_of := Json.isInstanceOf_of_hasType allows condition.1.2
  refine allows.insert_assertion .multipleOf ?_
  intro step number found same _
  cases found
  cases same
  rw [Number.exact, Int.one_mul]
  exact (Number.isIntegral_iff number).mp instance_of

theorem default_loosens {name vocabulary keyword : String} {type : InstanceType} {value : Json}
    (unrelated : ∀ assertion ∈ Assertion.decisive, assertion.name ≠ keyword) :
    (default name type vocabulary keyword value).Loosens :=
  fun _ _ _ _ allows => allows.insert_other _ unrelated

theorem rules_loosen : ∀ rule ∈ rules, rule.Loosens := by
  simp only [rules, List.forall_mem_cons]
  exact ⟨allTypes_loosens, multipleOf_loosens, default_loosens (by decide),
    default_loosens (by decide), default_loosens (by decide), default_loosens (by decide),
    default_loosens (by decide), List.forall_mem_nil _⟩

end Defaults

/-- No canonical rule shuts out a value, as far as doubles tell values apart. -/
theorem canonicalRules_loosen : ∀ rule ∈ canonicalRules, rule.Loosens := by
  intro rule listed
  simp only [canonicalRules, List.mem_append] at listed
  rcases listed with (((listed | listed) | listed) | listed) | listed
  · exact Redundancy.rules_loosen rule listed
  · exact Spelling.rules_loosen rule listed
  · exact Collapse.rules_loosen rule listed
  · exact Pruning.rules_loosen rule listed
  · exact Defaults.rules_loosen rule listed

end SchemaPack
