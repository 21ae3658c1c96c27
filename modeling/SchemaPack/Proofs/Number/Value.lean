import Mathlib.Algebra.Ring.Nat
import SchemaPack.Number.Basic

namespace SchemaPack

theorem toInt_of_word? {n : Int} {word : Int64} (fits : word? n = some word) : word.toInt = n := by
  unfold word? at fits
  split at fits
  · rename_i bounds
    unfold Word at bounds
    cases fits
    exact Int64.toInt_ofInt_of_le (by simpa using bounds.1) (by simpa using bounds.2)
  · cases fits

theorem word?_toInt (n : Int64) : word? n.toInt = some n := by
  have low := n.le_toInt
  have high := n.toInt_lt
  have fits : Word n.toInt := ⟨by omega, by omega⟩
  rw [word?, if_pos fits, Int64.ofInt_toInt]

theorem word?_eq_some_iff {n : Int} {word : Int64} : word? n = some word ↔ word.toInt = n := by
  refine ⟨toInt_of_word?, ?_⟩
  rintro rfl
  exact word?_toInt word

namespace Binary64

theorem exists_one_eq : ∃ places, 52 ≤ places ∧ places ≤ 2045 ∧ one = 2 ^ places := by
  have power : ∀ n, 52 ≤ n → n ≤ 2045 →
      ∃ places, 52 ≤ places ∧ places ≤ 2045 ∧ 1 <<< n = 2 ^ places :=
    fun n low high => ⟨n, low, high, Nat.one_shiftLeft n⟩
  exact power 1074 (by decide) (by decide)

theorem one_pos : 0 < (one : Int) := by
  obtain ⟨places, _, _, unit⟩ := exists_one_eq
  have positive := Nat.two_pow_pos places
  omega

theorem natAbs_units (x : Binary64) : x.units.natAbs = x.significand * 2 ^ x.shift := by
  unfold units
  rw [Nat.shiftLeft_eq]
  dsimp only
  split
  · rw [Int.natAbs_neg, Int.natAbs_natCast]
  · rw [Int.natAbs_natCast]

theorem floor_eq (x : Binary64) : x.floor = x.units / one :=
  Int.fdiv_eq_ediv_of_nonneg _ (Int.le_of_lt one_pos)

theorem ceil_eq (x : Binary64) : x.ceil = -(-x.units / one) := by
  rw [ceil, Int.fdiv_eq_ediv_of_nonneg _ (Int.le_of_lt one_pos)]

theorem isIntegral_iff (x : Binary64) : x.isIntegral = true ↔ (one : Int) ∣ x.units := by
  rw [isIntegral, beq_iff_eq, Int.fmod_eq_emod_of_nonneg _ (Int.le_of_lt one_pos)]
  exact (Int.dvd_iff_emod_eq_zero).symm

theorem natAbs_units_lt {x : Binary64} (fraction : x.isIntegral = false) :
    x.units.natAbs < 2 ^ 52 * one := by
  obtain ⟨places, some_place, _, unit⟩ := exists_one_eq
  obtain ⟨places, rfl⟩ := Nat.exists_eq_add_one.mpr (by omega : 0 < places)
  have short : x.shift ≤ places := by
    apply Nat.le_of_not_lt
    intro long
    have whole : one ∣ x.units.natAbs := by
      rw [natAbs_units, unit]
      exact Nat.dvd_mul_left_of_dvd (Nat.pow_dvd_pow 2 long) _
    have integral := (isIntegral_iff x).mpr (Int.ofNat_dvd_left.mpr whole)
    rw [fraction] at integral
    cases integral
  have bits : x.significand < 2 ^ 53 := x.normal.1
  have le : 2 ^ x.shift ≤ 2 ^ places := Nat.pow_le_pow_right (by decide) short
  rw [natAbs_units, unit]
  calc x.significand * 2 ^ x.shift
      ≤ x.significand * 2 ^ places := Nat.mul_le_mul_left _ le
    _ < 2 ^ 53 * 2 ^ places := Nat.mul_lt_mul_of_pos_right bits (Nat.two_pow_pos _)
    _ = 2 ^ 52 * 2 ^ (places + 1) := by
      rw [← Nat.pow_add, ← Nat.pow_add, ← Nat.add_assoc, Nat.add_right_comm]

theorem shift_le_of_units {x y : Binary64} (same : x.units = y.units) : x.shift ≤ y.shift := by
  have magnitudes := congrArg Int.natAbs same
  rw [natAbs_units, natAbs_units] at magnitudes
  apply Nat.le_of_not_lt
  intro more
  have full : 4503599627370496 ≤ x.significand := by
    have normal := x.normal.2.2
    omega
  have bits : y.significand < 9007199254740992 := y.normal.1
  have split : 2 ^ x.shift = 2 ^ (x.shift - y.shift - 1) * 2 * 2 ^ y.shift := by
    rw [← Nat.pow_succ, ← Nat.pow_add]
    congr 1
    omega
  rw [split, ← Nat.mul_assoc, ← Nat.mul_assoc] at magnitudes
  have significands := Nat.eq_of_mul_eq_mul_right (Nat.two_pow_pos _) magnitudes
  have grows := Nat.le_mul_of_pos_right x.significand (Nat.two_pow_pos (x.shift - y.shift - 1))
  omega

theorem units_neg_iff {x : Binary64} (nonzero : x.units ≠ 0) :
    x.units < 0 ↔ x.negative = true := by
  unfold units at nonzero ⊢
  dsimp only at nonzero ⊢
  generalize x.significand <<< x.shift = magnitude, x.negative = negative at nonzero ⊢
  cases negative with
  | true =>
    rw [if_pos rfl] at nonzero ⊢
    exact ⟨fun _ => rfl, fun _ => by omega⟩
  | false =>
    rw [if_neg Bool.false_ne_true] at nonzero ⊢
    exact ⟨fun below => by omega, nofun⟩

theorem eq_of_units {x y : Binary64} (same : x.units = y.units) (nonzero : x.units ≠ 0) :
    x = y := by
  have shifts := Nat.le_antisymm (shift_le_of_units same) (shift_le_of_units same.symm)
  have magnitudes := congrArg Int.natAbs same
  rw [natAbs_units, natAbs_units, shifts] at magnitudes
  have significands := Nat.eq_of_mul_eq_mul_right (Nat.two_pow_pos _) magnitudes
  have signs : x.negative = y.negative := by
    rw [Bool.eq_iff_iff, ← units_neg_iff nonzero, ← units_neg_iff (same ▸ nonzero), same]
  obtain ⟨_, _, _, _⟩ := x
  obtain ⟨_, _, _, _⟩ := y
  dsimp only at signs significands shifts
  subst signs significands shifts
  rfl

end Binary64

namespace Number

def exact : Number → Int
  | .integer n _ => n * Binary64.one
  | .real x => x.units

theorem isIntegral_iff (x : Number) : x.isIntegral = true ↔ (Binary64.one : Int) ∣ x.exact := by
  cases x with
  | integer n _ =>
    refine iff_of_true rfl ?_
    exact Int.dvd_mul_left _ _
  | real x => exact x.isIntegral_iff

theorem le_toInt_down (x : Number) (n : Int) :
    n ≤ x.toInt .down ↔ n * Binary64.one ≤ x.exact := by
  cases x with
  | integer m _ => exact (Int.mul_le_mul_right Binary64.one_pos).symm
  | real x =>
    simp only [toInt, exact, Binary64.floor_eq]
    exact Int.le_ediv_iff_mul_le Binary64.one_pos

theorem toInt_up_le (x : Number) (n : Int) :
    x.toInt .up ≤ n ↔ x.exact ≤ n * Binary64.one := by
  cases x with
  | integer m _ => exact (Int.mul_le_mul_right Binary64.one_pos).symm
  | real x =>
    simp only [toInt, exact, Binary64.ceil_eq]
    have flipped := @Int.le_ediv_iff_mul_le (-n) (-x.units) _ Binary64.one_pos
    rw [Int.neg_mul] at flipped
    omega

theorem exact_eq_of_isIntegral {x : Number} (integral : x.isIntegral = true)
    (rounding : Rounding) : x.exact = x.toInt rounding * Binary64.one := by
  obtain ⟨n, whole⟩ := (isIntegral_iff x).mp integral
  rw [Int.mul_comm] at whole
  have down := x.le_toInt_down
  have up := x.toInt_up_le
  cases rounding with
  | down =>
    have above := (down n).mpr (by omega)
    have below := (down (x.toInt .down)).mp (Int.le_refl _)
    rw [whole, Int.mul_le_mul_right Binary64.one_pos] at below
    rw [whole, Int.le_antisymm below above]
  | up =>
    have above := (up n).mpr (by omega)
    have below := (up (x.toInt .up)).mp (Int.le_refl _)
    rw [whole, Int.mul_le_mul_right Binary64.one_pos] at below
    rw [whole, Int.le_antisymm above below]

theorem exact_eq_mul_iff {x : Number} {n : Int} :
    x.exact = n * Binary64.one ↔ x.isIntegral = true ∧ x.toInt .down = n := by
  constructor
  · intro whole
    have integral := (isIntegral_iff x).mpr (whole ▸ Int.dvd_mul_left _ _)
    rw [exact_eq_of_isIntegral integral .down] at whole
    have positive := Binary64.one_pos
    exact ⟨integral, Int.eq_of_mul_eq_mul_right (by omega) whole⟩
  · rintro ⟨integral, rfl⟩
    exact exact_eq_of_isIntegral integral .down

theorem natAbs_toInt_le {x : Number} (fraction : x.isIntegral = false) (rounding : Rounding) :
    (x.toInt rounding).natAbs ≤ 2 ^ 52 := by
  cases x with
  | integer n _ => cases fraction
  | real x =>
    have bound := Binary64.natAbs_units_lt fraction
    have low : -2 ^ 52 * (Binary64.one : Int) < x.units := by omega
    have high : x.units < 2 ^ 52 * (Binary64.one : Int) := by omega
    have down := le_toInt_down (.real x)
    have up := toInt_up_le (.real x)
    cases rounding with
    | down =>
      have above := (down (-2 ^ 52)).mpr (Int.le_of_lt low)
      have below : ¬ 2 ^ 52 ≤ (Number.real x).toInt .down :=
        fun le => Int.not_le.mpr high ((down _).mp le)
      omega
    | up =>
      have above : ¬ (Number.real x).toInt .up ≤ -2 ^ 52 :=
        fun le => Int.not_le.mpr low ((up _).mp le)
      have below := (up (2 ^ 52)).mpr (Int.le_of_lt high)
      omega

theorem representable_toInt {x : Number} (fraction : x.isIntegral = false)
    (rounding : Rounding) : Representable (x.toInt rounding) := by
  have few := natAbs_toInt_le fraction rounding
  unfold Representable
  omega

theorem exists_round_eq {x : Number} (fraction : x.isIntegral = false) (rounding : Rounding) :
    ∃ word, x.round rounding = .ofInt64 word := by
  have few := natAbs_toInt_le fraction rounding
  have fits : Word (x.toInt rounding) := by
    unfold Word
    omega
  obtain ⟨word, rounded⟩ : ∃ word, word? (x.toInt rounding) = some word := ⟨_, if_pos fits⟩
  refine ⟨word, ?_⟩
  simp only [round, ofInt?, dif_pos (representable_toInt fraction rounding), Option.getD_some,
    ofInt64, toInt_of_word? rounded]

theorem round_eq {x : Number} (fraction : x.isIntegral = false) (rounding : Rounding) :
    x.round rounding =
      .integer (x.toInt rounding) (representable_toInt fraction rounding) := by
  rw [round, ofInt?, dif_pos (representable_toInt fraction rounding), Option.getD_some]

theorem round_exact {x : Number} (fraction : x.isIntegral = false) (rounding : Rounding) :
    (x.round rounding).exact = x.toInt rounding * Binary64.one := by
  rw [round_eq fraction]
  rfl

theorem offset?_exact {x y : Number} {delta : Int} (moved : x.offset? delta = some y) :
    y.exact = x.exact + delta * Binary64.one := by
  unfold offset? at moved
  split at moved
  · rename_i integral
    obtain ⟨n, fits, later⟩ := Option.bind_eq_some_iff.mp moved
    obtain ⟨word, sum, rfl⟩ := Option.map_eq_some_iff.mp later
    have start : n.toInt = x.toInt .down := toInt_of_word? fits
    have stop : word.toInt = n.toInt + delta := toInt_of_word? sum
    rw [exact_eq_of_isIntegral integral .down, ← Int.add_mul, ← start, ← stop]
    rfl
  · cases moved

theorem exists_offset?_eq {x y : Number} {delta : Int} (moved : x.offset? delta = some y) :
    x.isIntegral = true ∧ ∃ word, y = .ofInt64 word := by
  unfold offset? at moved
  split at moved
  · rename_i integral
    obtain ⟨_, _, later⟩ := Option.bind_eq_some_iff.mp moved
    obtain ⟨word, _, rfl⟩ := Option.map_eq_some_iff.mp later
    exact ⟨integral, word, rfl⟩
  · cases moved

theorem le_round_down {x y : Number} (integral : x.isIntegral = true)
    (fraction : y.isIntegral = false) (le : x.exact ≤ y.exact) :
    x.exact ≤ (y.round .down).exact := by
  rw [exact_eq_of_isIntegral integral .down] at le ⊢
  rw [round_exact fraction, Int.mul_le_mul_right Binary64.one_pos]
  exact (y.le_toInt_down _).mpr le

theorem round_up_le {x y : Number} (integral : x.isIntegral = true)
    (fraction : y.isIntegral = false) (le : y.exact ≤ x.exact) :
    (y.round .up).exact ≤ x.exact := by
  rw [exact_eq_of_isIntegral integral .up] at le ⊢
  rw [round_exact fraction, Int.mul_le_mul_right Binary64.one_pos]
  exact (y.toInt_up_le _).mpr le

theorem exact_add_one_le {x y : Number} (integral : x.isIntegral = true)
    (other : y.isIntegral = true) (lt : x.exact < y.exact) :
    x.exact + Binary64.one ≤ y.exact := by
  rw [exact_eq_of_isIntegral integral .down, exact_eq_of_isIntegral other .down] at lt ⊢
  have integers := Int.lt_of_mul_lt_mul_right lt (Int.le_of_lt Binary64.one_pos)
  have scaled := Int.mul_le_mul_of_nonneg_right (Int.add_one_le_of_lt integers)
    (Int.le_of_lt Binary64.one_pos)
  rwa [Int.add_mul, Int.one_mul] at scaled

end Number

end SchemaPack
