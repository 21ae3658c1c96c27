import Mathlib.Data.Int.Interval
import Mathlib.Data.Set.Card
import SchemaPack.Plan.Multiples
import SchemaPack.Proofs.Number.Value

namespace SchemaPack

theorem firstFactor_le_iff {minimum factor : Int} {step : Nat} (positive : 0 < step) :
    firstFactor minimum step ≤ factor ↔ minimum ≤ factor * step := by
  have negated := Int.le_ediv_iff_mul_le (a := -factor) (b := -minimum)
    (Int.natCast_pos.mpr positive)
  rw [Int.neg_mul] at negated
  unfold firstFactor
  omega

theorem le_lastFactor_iff {maximum factor : Int} {step : Nat} (positive : 0 < step) :
    factor ≤ lastFactor maximum step ↔ factor * step ≤ maximum :=
  Int.le_ediv_iff_mul_le (Int.natCast_pos.mpr positive)

def multiplesIn (minimum maximum : Int) (step : Nat) : Set Int :=
  {n | minimum ≤ n ∧ n ≤ maximum ∧ (step : Int) ∣ n}

theorem multiplesIn_eq_image (minimum maximum : Int) {step : Nat} (positive : 0 < step) :
    multiplesIn minimum maximum step = (fun factor : Int => factor * step) ''
      {factor | firstFactor minimum step ≤ factor ∧ factor ≤ lastFactor maximum step} := by
  ext n
  simp only [multiplesIn, Set.mem_ofPred_eq, Set.mem_image, firstFactor_le_iff positive,
    le_lastFactor_iff positive]
  constructor
  · rintro ⟨lower, upper, factor, rfl⟩
    rw [Int.mul_comm] at lower upper
    exact ⟨factor, ⟨lower, upper⟩, Int.mul_comm _ _⟩
  · rintro ⟨factor, ⟨lower, upper⟩, rfl⟩
    exact ⟨lower, upper, Int.dvd_mul_left _ _⟩

/-- Counting the factors counts the multiples. -/
theorem countMultiples_eq_ncard (minimum maximum : Int) {step : Nat} (positive : 0 < step) :
    countMultiples minimum maximum step = (multiplesIn minimum maximum step).ncard := by
  have injective : Function.Injective fun factor : Int => factor * step :=
    fun _ _ same => Int.eq_of_mul_eq_mul_right (Int.natCast_ne_zero.mpr (by omega)) same
  have interval : ∀ first last : Int,
      {factor : Int | first ≤ factor ∧ factor ≤ last}.ncard = (last + 1 - first).toNat := by
    intro first last
    rw [← Int.card_Icc, ← Set.ncard_coe_finset, Finset.coe_Icc]
    rfl
  unfold countMultiples
  split
  · rename_i none
    have empty : multiplesIn minimum maximum step = ∅ := by
      ext n
      simp only [multiplesIn, Set.mem_ofPred_eq, Set.mem_empty_iff_false, iff_false]
      omega
    rw [empty, Set.ncard_empty]
  · rw [multiplesIn_eq_image _ _ positive, Set.ncard_image_of_injective _ injective, interval]
    congr 1
    omega

theorem fitsInByte_iff {states : Nat} : fitsInByte states = true ↔ states ≤ 256 := by
  simp only [fitsInByte, decide_eq_true_eq]
  omega

namespace Multiplier

theorem of_eq_absent_iff {node : Json} :
    Multiplier.of node = .absent ↔ node.get? "multipleOf" = none := by
  unfold Multiplier.of
  cases found : node.get? "multipleOf" with
  | none => exact iff_of_true rfl rfl
  | some value =>
    refine iff_of_false ?_ nofun
    dsimp only
    split
    · split <;> nofun
    · nofun

theorem toNat_ofNat_natAbs (n : Int64) :
    (UInt64.ofNat n.toInt.natAbs).toNat = n.toInt.natAbs := by
  have low := n.le_toInt
  have high := n.toInt_lt
  have fits : n.toInt.natAbs < UInt64.size := by
    unfold UInt64.size
    omega
  exact UInt64.toNat_ofNat_of_lt' fits

theorem of_eq_integral_iff {node : Json} {step : UInt64} :
    Multiplier.of node = .integral step ↔ ∃ (x : Number) (n : Int64),
      node.get? "multipleOf" = some (.number x) ∧ x.exact = n.toInt * Binary64.one ∧ n ≠ 0 ∧
        step.toNat = n.toInt.natAbs := by
  unfold Multiplier.of
  cases found : node.get? "multipleOf" with
  | none =>
    refine iff_of_false nofun ?_
    rintro ⟨x, n, present, _⟩
    cases present
  | some value =>
    dsimp only
    constructor
    · intro given
      split at given
      · rename_i n word
        obtain ⟨x, filtered, fits⟩ := Option.bind_eq_some_iff.mp word
        obtain ⟨numeric, integral⟩ := Option.filter_eq_some_iff.mp filtered
        cases value <;> cases numeric
        split at given
        · cases given
        · rename_i nonzero
          have whole : x.exact = n.toInt * Binary64.one :=
            Number.exact_eq_mul_iff.mpr ⟨integral, (toInt_of_word? fits).symm⟩
          cases given
          exact ⟨x, n, rfl, whole, nonzero, toNat_ofNat_natAbs n⟩
      · cases given
    · rintro ⟨x, n, numeric, whole, nonzero, absolute⟩
      cases numeric
      obtain ⟨integral, rounded⟩ := Number.exact_eq_mul_iff.mp whole
      have word : ((Json.number x).number?.filter (·.isIntegral)).bind (·.toInt64? .down) =
          some n := by
        simp only [Json.number?, Option.filter_some, integral, if_true, Option.bind_some,
          Number.toInt64?, rounded, word?_toInt]
      rw [word]
      dsimp only
      rw [if_neg nonzero, ← UInt64.toNat_inj.mp (absolute.trans (toNat_ofNat_natAbs n).symm)]

end Multiplier

end SchemaPack
