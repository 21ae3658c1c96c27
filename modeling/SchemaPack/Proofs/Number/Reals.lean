import Mathlib.Algebra.Order.Archimedean.Real.Basic
import SchemaPack.Proofs.Number.Value

namespace SchemaPack

/-- The integer next to a real number on one side. A real number that is an integer is its own. -/
noncomputable def Rounding.integer : Rounding → ℝ → ℤ
  | .down, r => ⌊r⌋
  | .up, r => ⌈r⌉

namespace Number

/-- The value of a number as it is written, which need not be a double. -/
noncomputable def toReal (x : Number) : ℝ := x.exact / Binary64.one

theorem one_pos_real : (0 : ℝ) < Binary64.one := by
  exact_mod_cast Binary64.one_pos

theorem toReal_le_toReal {x y : Number} : x.toReal ≤ y.toReal ↔ x.exact ≤ y.exact := by
  rw [toReal, toReal, div_le_div_iff_of_pos_right one_pos_real, Int.cast_le]

theorem toReal_lt_toReal {x y : Number} : x.toReal < y.toReal ↔ x.exact < y.exact := by
  rw [toReal, toReal, div_lt_div_iff_of_pos_right one_pos_real, Int.cast_lt]

theorem intCast_le_toReal {n : ℤ} {x : Number} :
    (n : ℝ) ≤ x.toReal ↔ n * Binary64.one ≤ x.exact := by
  rw [toReal, le_div_iff₀ one_pos_real]
  exact_mod_cast Iff.rfl

theorem toReal_le_intCast {n : ℤ} {x : Number} :
    x.toReal ≤ (n : ℝ) ↔ x.exact ≤ n * Binary64.one := by
  rw [toReal, div_le_iff₀ one_pos_real]
  exact_mod_cast Iff.rfl

theorem intCast_lt_toReal {n : ℤ} {x : Number} :
    (n : ℝ) < x.toReal ↔ n * Binary64.one < x.exact := by
  rw [← not_le, toReal_le_intCast, not_le]

theorem toReal_lt_intCast {n : ℤ} {x : Number} :
    x.toReal < (n : ℝ) ↔ x.exact < n * Binary64.one := by
  rw [← not_le, intCast_le_toReal, not_le]

theorem toReal_eq_intCast {n : ℤ} {x : Number} :
    x.toReal = (n : ℝ) ↔ x.exact = n * Binary64.one := by
  rw [le_antisymm_iff, le_antisymm_iff, toReal_le_intCast, intCast_le_toReal]

theorem toInt_eq (x : Number) (rounding : Rounding) :
    x.toInt rounding = rounding.integer x.toReal := by
  cases rounding with
  | down =>
    apply eq_of_forall_le_iff
    intro n
    rw [le_toInt_down, Rounding.integer, Int.le_floor, intCast_le_toReal]
  | up =>
    apply eq_of_forall_ge_iff
    intro n
    rw [toInt_up_le, Rounding.integer, Int.ceil_le, toReal_le_intCast]

end Number

end SchemaPack
