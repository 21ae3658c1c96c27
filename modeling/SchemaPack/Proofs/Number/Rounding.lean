import SchemaPack.Proofs.Number.Value

namespace SchemaPack

theorem div_le_roundQuotient (n d : Nat) : n / d ≤ roundQuotient n d := by
  unfold roundQuotient
  dsimp only
  split
  · exact Nat.le_refl _
  · split <;> omega

theorem roundQuotient_le_div_succ (n d : Nat) : roundQuotient n d ≤ n / d + 1 := by
  unfold roundQuotient
  dsimp only
  split
  · exact Nat.le_succ _
  · split <;> omega

theorem le_roundQuotient {n k d : Nat} (positive : 0 < d) (le : k * d ≤ n) :
    k ≤ roundQuotient n d :=
  Nat.le_trans ((Nat.le_div_iff_mul_le positive).mpr le) (div_le_roundQuotient n d)

theorem roundQuotient_le {n k d : Nat} (positive : 0 < d) (le : n ≤ k * d) :
    roundQuotient n d ≤ k := by
  have parts := Nat.div_add_mod n d
  rw [Nat.mul_comm] at parts
  by_cases rest : n % d = 0
  · have quotient : n / d * d ≤ k * d := by omega
    rw [roundQuotient, rest, if_pos positive]
    exact Nat.le_of_mul_le_mul_right quotient positive
  · have quotient : n / d * d < k * d := by omega
    have below := Nat.lt_of_mul_lt_mul_right quotient
    exact Nat.le_trans (roundQuotient_le_div_succ n d) below

theorem roundQuotient_mono {n m : Nat} (d : Nat) (le : n ≤ m) :
    roundQuotient n d ≤ roundQuotient m d := by
  have quotients := @Nat.div_le_div_right n m d le
  -- Where the quotients differ, rounding up the smaller one does not pass the larger one.
  by_cases same : n / d = m / d
  · have parts := Nat.div_add_mod n d
    have other_parts := Nat.div_add_mod m d
    rw [same] at parts
    have rests : n % d ≤ m % d := by omega
    unfold roundQuotient
    rw [same]
    dsimp only
    split
    · exact div_le_roundQuotient m d
    · rw [if_neg (by omega : ¬ 2 * (m % d) < d)]
      split
      · rw [if_pos (by omega : d < 2 * (m % d))]
      · split
        · omega
        · exact Nat.le_refl _
  · have above := roundQuotient_le_div_succ n d
    have below := div_le_roundQuotient m d
    omega

def nearest (n : Nat) : Nat :=
  roundQuotient n (1 <<< Binary64.shiftFor n) <<< Binary64.shiftFor n

theorem nearest_eq (n : Nat) :
    nearest n = roundQuotient n (2 ^ Binary64.shiftFor n) * 2 ^ Binary64.shiftFor n := by
  rw [nearest, Nat.shiftLeft_eq, Nat.one_shiftLeft]

theorem shiftFor_mono {n m : Nat} (le : n ≤ m) :
    Binary64.shiftFor n ≤ Binary64.shiftFor m := by
  unfold Binary64.shiftFor
  by_cases zero : n = 0
  · rw [zero, Nat.log2_zero, Nat.zero_sub]
    exact Nat.zero_le _
  · have log := Nat.log2_self_le zero
    have bits := (Nat.le_log2 (by omega : m ≠ 0)).mpr (Nat.le_trans log le)
    omega

theorem lt_of_shiftFor (n : Nat) : n < 2 ^ (53 + Binary64.shiftFor n) := by
  have log := @Nat.lt_log2_self n
  have le : 2 ^ (n.log2 + 1) ≤ 2 ^ (53 + Binary64.shiftFor n) := by
    refine Nat.pow_le_pow_right (by decide) ?_
    unfold Binary64.shiftFor
    omega
  omega

theorem le_of_shiftFor {n : Nat} (shifted : 0 < Binary64.shiftFor n) :
    2 ^ (52 + Binary64.shiftFor n) ≤ n := by
  unfold Binary64.shiftFor at shifted ⊢
  have log : n.log2 ≠ 0 := by omega
  have some_bits : n ≠ 0 := by
    rintro rfl
    exact log Nat.log2_zero
  have le := Nat.log2_self_le some_bits
  rwa [show 52 + (n.log2 - 52) = n.log2 by omega]

theorem nearest_of_unshifted {n : Nat} (unshifted : Binary64.shiftFor n = 0) : nearest n = n := by
  rw [nearest_eq, unshifted, Nat.pow_zero, Nat.mul_one]
  have above := @roundQuotient_le n n 1 (by decide) (by omega)
  have below := @le_roundQuotient n n 1 (by decide) (by omega)
  omega

theorem nearest_le (n : Nat) : nearest n ≤ 2 ^ (53 + Binary64.shiftFor n) := by
  rw [nearest_eq, Nat.pow_add]
  refine Nat.mul_le_mul_right _ (roundQuotient_le (Nat.two_pow_pos _) ?_)
  rw [← Nat.pow_add]
  exact Nat.le_of_lt (lt_of_shiftFor n)

theorem le_nearest {n : Nat} (shifted : 0 < Binary64.shiftFor n) :
    2 ^ (52 + Binary64.shiftFor n) ≤ nearest n := by
  rw [nearest_eq, Nat.pow_add]
  refine Nat.mul_le_mul_right _ (le_roundQuotient (Nat.two_pow_pos _) ?_)
  rw [← Nat.pow_add]
  exact le_of_shiftFor shifted

theorem nearest_mono {n m : Nat} (le : n ≤ m) : nearest n ≤ nearest m := by
  have shifts := shiftFor_mono le
  by_cases same : Binary64.shiftFor n = Binary64.shiftFor m
  · rw [nearest_eq, nearest_eq, same]
    exact Nat.mul_le_mul_right _ (roundQuotient_mono _ le)
  · have below := nearest_le n
    have above := @le_nearest m (by omega)
    have between : 2 ^ (53 + Binary64.shiftFor n) ≤ 2 ^ (52 + Binary64.shiftFor m) :=
      Nat.pow_le_pow_right (by decide) (by omega)
    omega

namespace Binary64

theorem magnitude_cases (x : Binary64) (shift : Nat) :
    (∃ k, x.units.natAbs = k * 2 ^ shift * one) ∨ x.units.natAbs < 2 ^ (52 + shift) * one := by
  obtain ⟨places, some_place, _, unit⟩ := exists_one_eq
  rw [natAbs_units, unit]
  by_cases long : shift + places ≤ x.shift
  · left
    obtain ⟨more, whole⟩ := Nat.exists_eq_add_of_le long
    refine ⟨x.significand * 2 ^ more, ?_⟩
    rw [whole, Nat.mul_assoc, Nat.mul_assoc, ← Nat.pow_add, ← Nat.pow_add, Nat.add_comm]
  · right
    have bits : x.significand < 2 ^ 53 := x.normal.1
    have le : 2 ^ x.shift ≤ 2 ^ (shift + places - 1) :=
      Nat.pow_le_pow_right (by decide) (by omega)
    have exponent : 53 + (shift + places - 1) = 52 + shift + places := by omega
    calc x.significand * 2 ^ x.shift
        ≤ x.significand * 2 ^ (shift + places - 1) := Nat.mul_le_mul_left _ le
      _ < 2 ^ 53 * 2 ^ (shift + places - 1) :=
          Nat.mul_lt_mul_of_pos_right bits (Nat.two_pow_pos _)
      _ = 2 ^ (52 + shift) * 2 ^ places := by
          rw [← Nat.pow_add, ← Nat.pow_add, exponent]

/-- No double lies between an integer and what it rounds to. -/
theorem le_nearest_mul {x : Binary64} {n : Nat} (le : x.units.natAbs ≤ n * one) :
    x.units.natAbs ≤ nearest n * one := by
  by_cases unshifted : shiftFor n = 0
  · rwa [nearest_of_unshifted unshifted]
  · rcases x.magnitude_cases (shiftFor n) with ⟨k, whole⟩ | small
    · rw [whole] at le ⊢
      have below := Nat.le_of_mul_le_mul_right le (Int.natCast_pos.mp one_pos)
      rw [nearest_eq]
      refine Nat.mul_le_mul_right _ (Nat.mul_le_mul_right _ ?_)
      exact le_roundQuotient (Nat.two_pow_pos _) below
    · have large := le_nearest (Nat.pos_of_ne_zero unshifted)
      have scaled := Nat.mul_le_mul_right one large
      omega

theorem nearest_mul_le {x : Binary64} {n : Nat} (le : n * one ≤ x.units.natAbs) :
    nearest n * one ≤ x.units.natAbs := by
  by_cases unshifted : shiftFor n = 0
  · rwa [nearest_of_unshifted unshifted]
  · rcases x.magnitude_cases (shiftFor n) with ⟨k, whole⟩ | small
    · rw [whole] at le ⊢
      have above := Nat.le_of_mul_le_mul_right le (Int.natCast_pos.mp one_pos)
      rw [nearest_eq]
      refine Nat.mul_le_mul_right _ (Nat.mul_le_mul_right _ ?_)
      exact roundQuotient_le (Nat.two_pow_pos _) above
    · have large := le_of_shiftFor (Nat.pos_of_ne_zero unshifted)
      have scaled := Nat.mul_le_mul_right one large
      omega

end Binary64

theorem roundToBinary64_of_nonneg {n : Int} (nonneg : 0 ≤ n) :
    roundToBinary64 n = nearest n.natAbs := by
  have positive : ¬ n < 0 := by omega
  simp only [roundToBinary64, if_neg positive, nearest]

theorem roundToBinary64_of_neg {n : Int} (negative : n < 0) :
    roundToBinary64 n = -(nearest n.natAbs : Int) := by
  simp only [roundToBinary64, if_pos negative, nearest]

theorem roundToBinary64_mono {n m : Int} (le : n ≤ m) :
    roundToBinary64 n ≤ roundToBinary64 m := by
  by_cases below : n < 0
  · rw [roundToBinary64_of_neg below]
    by_cases above : m < 0
    · rw [roundToBinary64_of_neg above]
      have nearer := @nearest_mono m.natAbs n.natAbs (by omega)
      omega
    · rw [roundToBinary64_of_nonneg (by omega)]
      omega
  · rw [roundToBinary64_of_nonneg (by omega), roundToBinary64_of_nonneg (by omega)]
    have nearer := @nearest_mono n.natAbs m.natAbs (by omega)
    omega

theorem natAbs_mul_one (n : Int) : (n * Binary64.one).natAbs = n.natAbs * Binary64.one := by
  rw [Int.natAbs_mul, Int.natAbs_natCast]

theorem Binary64.round_le_units {n : Int} {x : Binary64} (le : n * one ≤ x.units) :
    roundToBinary64 n * one ≤ x.units := by
  have magnitude := natAbs_mul_one n
  by_cases negative : n < 0
  · have below := Int.mul_neg_of_neg_of_pos negative one_pos
    rw [roundToBinary64_of_neg negative, Int.neg_mul]
    by_cases under : x.units < 0
    · have nearer := @le_nearest_mul x n.natAbs (by omega)
      omega
    · have above := Nat.zero_le (nearest n.natAbs * one)
      omega
  · have above := Int.mul_nonneg (by omega : 0 ≤ n) (Int.le_of_lt one_pos)
    rw [roundToBinary64_of_nonneg (by omega)]
    have nearer := @nearest_mul_le x n.natAbs (by omega)
    omega

theorem Binary64.units_le_round {n : Int} {x : Binary64} (le : x.units ≤ n * one) :
    x.units ≤ roundToBinary64 n * one := by
  have magnitude := natAbs_mul_one n
  by_cases negative : n < 0
  · have below := Int.mul_neg_of_neg_of_pos negative one_pos
    rw [roundToBinary64_of_neg negative, Int.neg_mul]
    have nearer := @nearest_mul_le x n.natAbs (by omega)
    omega
  · have above := Int.mul_nonneg (by omega : 0 ≤ n) (Int.le_of_lt one_pos)
    rw [roundToBinary64_of_nonneg (by omega)]
    by_cases under : x.units < 0
    · have nearer := Nat.zero_le (nearest n.natAbs * one)
      omega
    · have nearer := @le_nearest_mul x n.natAbs (by omega)
      omega

namespace Number

/-- Rounding to doubles keeps the order of numbers, though it can make two of them equal. -/
theorem units_mono {a b : Number} (le : a.exact ≤ b.exact) : a.units ≤ b.units := by
  cases a with
  | integer n _ =>
    cases b with
    | integer m _ =>
      have integers : n ≤ m := Int.le_of_mul_le_mul_right le Binary64.one_pos
      exact Int.mul_le_mul_of_nonneg_right (roundToBinary64_mono integers)
        (Int.le_of_lt Binary64.one_pos)
    | real y => exact Binary64.round_le_units le
  | real x =>
    cases b with
    | integer m _ => exact Binary64.units_le_round le
    | real y => exact le

theorem units_eq_of_exact {a b : Number} (same : a.exact = b.exact) : a.units = b.units := by
  have le := units_mono (Int.le_of_eq same)
  have ge := units_mono (Int.le_of_eq same.symm)
  omega

theorem units_eq_of_compare {a b : Number} (same : a.compare b = .eq) : a.units = b.units := by
  cases a with
  | integer n _ =>
    cases b with
    | integer m _ =>
      have integers : n = m := Std.compare_eq_iff_eq.mp same
      simp only [units, integers]
    | real y => exact Std.compare_eq_iff_eq.mp same
  | real x =>
    cases b with
    | integer m _ => exact Std.compare_eq_iff_eq.mp same
    | real y => exact Std.compare_eq_iff_eq.mp same

theorem exact_eq_of_isZero {x : Number} (zero : x.isZero = true) : x.exact = 0 := by
  cases x with
  | integer n _ =>
    have integers : n = 0 := Std.compare_eq_iff_eq.mp (beq_iff_eq.mp zero)
    rw [exact, integers, Int.zero_mul]
  | real x =>
    have same := units_eq_of_compare (beq_iff_eq.mp zero)
    have none : Number.zero.units = 0 := Int.zero_mul _
    rw [none] at same
    exact same

end Number

end SchemaPack
