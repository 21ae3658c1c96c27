import SchemaPack.Proofs.Plan.Table

namespace SchemaPack

/-- The integers that a signed word of 128 bits holds. -/
def DoubleWord (n : Int) : Prop := -2 ^ 127 ≤ n ∧ n < 2 ^ 127

instance (n : Int) : Decidable (DoubleWord n) := inferInstanceAs (Decidable (_ ∧ _))

def doubleWord? (n : Int) : Option Int := if DoubleWord n then some n else none

/- Counting and listing in words of 128 bits: a value that leaves them ends the computation. -/
namespace DoubleWord

def firstFactor? (minimum step : Int) : Option Int := do
  let quotient ← doubleWord? (minimum / step)
  let rest ← doubleWord? (minimum % step)
  doubleWord? (quotient + if rest = 0 then 0 else 1)

def lastFactor? (maximum step : Int) : Option Int := doubleWord? (maximum / step)

def count? (minimum maximum : Int64) (step : UInt64) : Option Nat :=
  if step.toNat = 0 ∨ maximum.toInt < minimum.toInt then some 0
  else do
    let step ← doubleWord? step.toNat
    let first ← firstFactor? minimum.toInt step
    let last ← lastFactor? maximum.toInt step
    if last < first then return 0
    else
      let span ← doubleWord? (last - first)
      let states ← doubleWord? (span + 1)
      return states.toNat

def enumerate? (minimum maximum : Int64) (step : UInt64) : Option (List Int) :=
  if maximum.toInt < minimum.toInt then some []
  else do
    let step ← doubleWord? step.toNat
    let first ← firstFactor? minimum.toInt step
    let last ← lastFactor? maximum.toInt step
    (List.range (last - first + 1).toNat).mapM fun (i : Nat) => do
      let factor ← doubleWord? (first + i)
      doubleWord? (factor * step)

end DoubleWord

theorem word_toInt (n : Int64) : Word n.toInt := by
  have low := n.le_toInt
  have high := n.toInt_lt
  exact ⟨by omega, by omega⟩

theorem Word.doubleWord {n : Int} (word : Word n) : DoubleWord n := by
  obtain ⟨low, high⟩ := word
  exact ⟨by omega, by omega⟩

theorem Word.ediv {n : Int} (word : Word n) {step : Nat} (positive : 0 < step) :
    Word (n / step) := by
  obtain ⟨low, high⟩ := word
  have whole : (1 : Int) ≤ step := Int.natCast_pos.mpr positive
  constructor
  · rw [Int.le_ediv_iff_mul_le (Int.natCast_pos.mpr positive)]
    omega
  · rw [Int.ediv_lt_iff_lt_mul (Int.natCast_pos.mpr positive)]
    omega

theorem doubleWord?_eq {n : Int} (fits : DoubleWord n) : doubleWord? n = some n := if_pos fits

theorem firstFactor_eq (minimum : Int) {step : Nat} (positive : 0 < step) :
    firstFactor minimum step =
      minimum / step + if minimum % (step : Int) = 0 then 0 else 1 := by
  have parts := Int.mul_ediv_add_emod minimum step
  have least := Int.emod_nonneg minimum (Int.natCast_ne_zero.mpr (Nat.ne_of_gt positive))
  have below := Int.emod_lt_of_pos minimum (Int.natCast_pos.mpr positive)
  rw [Int.mul_comm] at parts
  have reached : firstFactor minimum step ≤ minimum / step ↔ minimum ≤ minimum / step * step :=
    firstFactor_le_iff positive
  have next : firstFactor minimum step ≤ minimum / step + 1 ↔
      minimum ≤ (minimum / step + 1) * step :=
    firstFactor_le_iff positive
  have before : firstFactor minimum step ≤ minimum / step - 1 ↔
      minimum ≤ (minimum / step - 1) * step :=
    firstFactor_le_iff positive
  rw [Int.add_mul, Int.one_mul] at next
  rw [Int.sub_mul, Int.one_mul] at before
  split <;> omega

theorem product_mem {minimum maximum : Int} {step i : Nat} (positive : 0 < step)
    (counted : i < countMultiples minimum maximum step) :
    (firstFactor minimum step + i) * step ∈ multiplesIn minimum maximum step := by
  rw [multiplesIn_eq_image _ _ positive]
  refine ⟨_, ⟨?_, ?_⟩, rfl⟩
  · omega
  · unfold countMultiples at counted
    split at counted <;> omega

theorem exists_product {minimum maximum n : Int} {step : Nat} (positive : 0 < step)
    (multiple : n ∈ multiplesIn minimum maximum step) :
    ∃ i < countMultiples minimum maximum step,
      (firstFactor minimum step + (i : Int)) * step = n := by
  have ordered : minimum ≤ maximum := Int.le_trans multiple.1 multiple.2.1
  rw [multiplesIn_eq_image _ _ positive] at multiple
  obtain ⟨factor, ⟨above, below⟩, rfl⟩ := multiple
  refine ⟨(factor - firstFactor minimum step).toNat, ?_, ?_⟩
  · unfold countMultiples
    rw [if_neg (by omega)]
    omega
  · dsimp only
    congr 1
    omega

theorem map_toInt_multiples (minimum maximum : Int64) {step : Nat} (positive : 0 < step) :
    (multiples minimum.toInt maximum.toInt step).map Int64.toInt =
      (List.range (countMultiples minimum.toInt maximum.toInt step)).map fun i : Nat =>
        (firstFactor minimum.toInt step + i) * step := by
  unfold multiples
  rw [List.map_filterMap, List.filterMap_eq_map_iff_forall_eq_some]
  intro i counted
  obtain ⟨above, below, _⟩ := product_mem positive (List.mem_range.mp counted)
  have low := minimum.le_toInt
  have high := maximum.toInt_lt
  have fits : Word ((firstFactor minimum.toInt step + i) * step) := ⟨by omega, by omega⟩
  obtain ⟨word, narrowed⟩ : ∃ word, word? ((firstFactor minimum.toInt step + i) * step) =
      some word := ⟨_, if_pos fits⟩
  rw [narrowed, Option.map_some, toInt_of_word? narrowed]

theorem multiples_ascending (minimum maximum : Int64) {step : Nat} (positive : 0 < step) :
    (multiples minimum.toInt maximum.toInt step).Pairwise (· < ·) := by
  have ascending : ((multiples minimum.toInt maximum.toInt step).map Int64.toInt).Pairwise
      (· < ·) := by
    rw [map_toInt_multiples _ _ positive, List.pairwise_map]
    refine List.pairwise_lt_range.imp fun less => ?_
    exact Int.mul_lt_mul_of_pos_right (by omega) (Int.natCast_pos.mpr positive)
  exact (List.pairwise_map.mp ascending).imp Int64.lt_iff_toInt_lt.mpr

theorem mem_multiples_iff (minimum maximum : Int64) {step : Nat} (positive : 0 < step) (n : Int) :
    n ∈ (multiples minimum.toInt maximum.toInt step).map Int64.toInt ↔
      n ∈ multiplesIn minimum.toInt maximum.toInt step := by
  rw [map_toInt_multiples _ _ positive, List.mem_map]
  constructor
  · rintro ⟨i, counted, rfl⟩
    exact product_mem positive (List.mem_range.mp counted)
  · intro multiple
    obtain ⟨i, counted, rfl⟩ := exists_product positive multiple
    exact ⟨i, List.mem_range.mpr counted, rfl⟩

theorem length_multiples (minimum maximum : Int64) {step : Nat} (positive : 0 < step) :
    (multiples minimum.toInt maximum.toInt step).length =
      countMultiples minimum.toInt maximum.toInt step := by
  have lengths := congrArg List.length (map_toInt_multiples minimum maximum positive)
  rwa [List.length_map, List.length_map, List.length_range] at lengths

namespace DoubleWord

theorem doubleWord?_step (step : UInt64) : doubleWord? step.toNat = some (step.toNat : Int) := by
  have small := step.toNat_lt
  exact doubleWord?_eq ⟨by omega, by omega⟩

theorem mapM_eq_some {α β : Type} {values : List α} {f : α → Option β} {g : α → β}
    (each : ∀ value ∈ values, f value = some (g value)) : values.mapM f = some (values.map g) := by
  induction values with
  | nil => rfl
  | cons value rest ih =>
    rw [List.mapM_cons, each value List.mem_cons_self,
      ih fun other listed => each other (List.mem_cons_of_mem _ listed)]
    rfl

section

variable (minimum maximum : Int64) {step : UInt64} (positive : 0 < step.toNat)

include positive

theorem firstFactor?_eq : firstFactor? minimum.toInt step.toNat =
    some (firstFactor minimum.toInt step.toNat) := by
  have quotient := (word_toInt minimum).ediv positive
  have least := Int.emod_nonneg minimum.toInt (Int.natCast_ne_zero.mpr (Nat.ne_of_gt positive))
  have below := Int.emod_lt_of_pos minimum.toInt (Int.natCast_pos.mpr positive)
  have small := step.toNat_lt
  have rest : DoubleWord (minimum.toInt % step.toNat) := ⟨by omega, by omega⟩
  have sum : DoubleWord (minimum.toInt / step.toNat +
      if minimum.toInt % (step.toNat : Int) = 0 then 0 else 1) := by
    obtain ⟨low, high⟩ := quotient
    split <;> exact ⟨by omega, by omega⟩
  simp only [firstFactor?, doubleWord?_eq quotient.doubleWord, doubleWord?_eq rest,
    Option.bind_eq_bind, Option.bind_some, doubleWord?_eq sum, firstFactor_eq _ positive]

/-- The factors in a range of words are words themselves, but for the first beyond the last. -/
theorem factors_bounded : -2 ^ 63 ≤ firstFactor minimum.toInt step.toNat ∧
    firstFactor minimum.toInt step.toNat ≤ 2 ^ 63 ∧
      Word (lastFactor maximum.toInt step.toNat) := by
  obtain ⟨low, high⟩ := (word_toInt minimum).ediv positive
  refine ⟨?_, ?_, (word_toInt maximum).ediv positive⟩
  · rw [firstFactor_eq _ positive]
    split <;> omega
  · rw [firstFactor_eq _ positive]
    split <;> omega

theorem lastFactor?_eq : lastFactor? maximum.toInt step.toNat =
    some (lastFactor maximum.toInt step.toNat) :=
  doubleWord?_eq ((word_toInt maximum).ediv positive).doubleWord

theorem count?_eq : count? minimum maximum step =
    some (countMultiples minimum.toInt maximum.toInt step.toNat) := by
  obtain ⟨first_low, first_high, last_low, last_high⟩ :=
    factors_bounded minimum maximum positive
  unfold count? countMultiples
  split
  · rfl
  · rw [doubleWord?_step, Option.bind_eq_bind, Option.bind_some, firstFactor?_eq minimum positive,
      Option.bind_some, lastFactor?_eq maximum positive, Option.bind_some]
    split
    · rw [Int.toNat_of_nonpos (by omega)]
      rfl
    · have span : DoubleWord (lastFactor maximum.toInt step.toNat -
          firstFactor minimum.toInt step.toNat) := ⟨by omega, by omega⟩
      have states : DoubleWord (lastFactor maximum.toInt step.toNat -
          firstFactor minimum.toInt step.toNat + 1) := ⟨by omega, by omega⟩
      rw [doubleWord?_eq span, Option.bind_some, doubleWord?_eq states, Option.bind_some]
      rfl

theorem enumerate?_eq : enumerate? minimum maximum step =
    some ((multiples minimum.toInt maximum.toInt step.toNat).map Int64.toInt) := by
  obtain ⟨first_low, first_high, last_low, last_high⟩ :=
    factors_bounded minimum maximum positive
  rw [map_toInt_multiples _ _ positive]
  unfold enumerate?
  split
  · rename_i none
    have empty : countMultiples minimum.toInt maximum.toInt step.toNat = 0 := if_pos (.inr none)
    rw [empty]
    rfl
  · rename_i ordered
    have count : countMultiples minimum.toInt maximum.toInt step.toNat =
        (lastFactor maximum.toInt step.toNat - firstFactor minimum.toInt step.toNat + 1).toNat :=
      if_neg (by omega)
    rw [doubleWord?_step, Option.bind_eq_bind, Option.bind_some, firstFactor?_eq minimum positive,
      Option.bind_some, lastFactor?_eq maximum positive, Option.bind_some, count]
    refine mapM_eq_some fun i counted => ?_
    have counted := List.mem_range.mp counted
    have factor : DoubleWord (firstFactor minimum.toInt step.toNat + i) := ⟨by omega, by omega⟩
    obtain ⟨above, below, _⟩ := product_mem positive (count ▸ counted)
    have low := minimum.le_toInt
    have high := maximum.toInt_lt
    have product : DoubleWord ((firstFactor minimum.toInt step.toNat + i) * step.toNat) :=
      ⟨by omega, by omega⟩
    rw [doubleWord?_eq factor, Option.bind_eq_bind, Option.bind_some, doubleWord?_eq product]

end

end DoubleWord

theorem integerMinimum?_of_boundAt {node : Json} {minimum : Int64}
    (lower : BoundAt node "minimum" .up (some minimum)) : integerMinimum? node = some minimum :=
  IntegerDomain.bound?_some (boundAt_iff.mp lower)

theorem integerMaximum?_of_boundAt {node : Json} {maximum : Int64}
    (upper : BoundAt node "maximum" .down (some maximum)) : integerMaximum? node = some maximum :=
  IntegerDomain.bound?_some (boundAt_iff.mp upper)

theorem integerStates?_eq {node : Json} {vocabularies : Vocabularies} {minimum maximum : Int64}
    {step : UInt64} (validated : Vocabulary.validation ∈ vocabularies)
    (lower : BoundAt node "minimum" .up (some minimum))
    (upper : BoundAt node "maximum" .down (some maximum)) (distance : StepAt node step) :
    integerStates? node vocabularies =
      some (multiples minimum.toInt maximum.toInt step.toNat) := by
  unfold integerStates?
  rw [if_pos (List.contains_iff_mem.mpr validated), integerMinimum?_of_boundAt lower,
    integerMaximum?_of_boundAt upper]
  rcases stepAt_iff.mp distance with ⟨absent, rfl⟩ | integral
  · rw [absent]
    rfl
  · rw [integral]
    rfl

/-- The arithmetic of integer domains is exact. In words of 128 bits nothing overflows, the count
    is the number of multiples between the bounds, and a schema with two known bounds lists each
    of them once, in order. -/
theorem integerStates?_exact (minimum maximum : Int64) (step : UInt64)
    (positive : 1 ≤ step.toNat) :
    (DoubleWord.count? minimum maximum step =
        some (countMultiples minimum.toInt maximum.toInt step.toNat) ∧
      countMultiples minimum.toInt maximum.toInt step.toNat =
        (multiplesIn minimum.toInt maximum.toInt step.toNat).ncard) ∧
    ∀ (node : Json) (vocabularies : Vocabularies), Vocabulary.validation ∈ vocabularies →
      BoundAt node "minimum" .up (some minimum) → BoundAt node "maximum" .down (some maximum) →
      StepAt node step → ∃ states, integerStates? node vocabularies = some states ∧
        DoubleWord.enumerate? minimum maximum step = some (states.map Int64.toInt) ∧
        (∀ n, n ∈ states.map Int64.toInt ↔
          n ∈ multiplesIn minimum.toInt maximum.toInt step.toNat) ∧
        states.Pairwise (· < ·) ∧
        states.length = countMultiples minimum.toInt maximum.toInt step.toNat := by
  refine ⟨⟨DoubleWord.count?_eq minimum maximum positive,
    countMultiples_eq_ncard _ _ positive⟩, ?_⟩
  intro node vocabularies validated lower upper distance
  refine ⟨_, integerStates?_eq validated lower upper distance,
    DoubleWord.enumerate?_eq minimum maximum positive, ?_, ?_, ?_⟩
  · exact mem_multiples_iff minimum maximum positive
  · exact multiples_ascending minimum maximum positive
  · exact length_multiples minimum maximum positive

theorem integerStates?_exact_extremes :
    let node := Json.object [("minimum", .number (.integer (-9223372036854775808))),
      ("maximum", .number (.integer 9223372036854775807)),
      ("multipleOf", .number (.integer (-9223372036854775808)))]
    ∃ states, integerStates? node [Vocabulary.validation] = some states ∧
      states.map Int64.toInt = [-9223372036854775808, 0] := by
  intro node
  have distance : StepAt node 9223372036854775808 :=
    .present rfl (n := Int64.minValue) rfl (by decide) rfl
  have lower : BoundAt node "minimum" .up (some Int64.minValue) :=
    .present rfl (Rounding.gives_iff.mpr rfl)
  have upper : BoundAt node "maximum" .down (some Int64.maxValue) :=
    .present rfl (Rounding.gives_iff.mpr rfl)
  obtain ⟨states, listed, products, _⟩ :=
    (integerStates?_exact Int64.minValue Int64.maxValue 9223372036854775808 (by decide)).2
      node [Vocabulary.validation] (List.mem_singleton_self _) lower upper distance
  have both : DoubleWord.enumerate? Int64.minValue Int64.maxValue 9223372036854775808 =
      some [-9223372036854775808, 0] := by decide
  exact ⟨states, listed, Option.some.inj (products.symm.trans both)⟩

end SchemaPack
