import SchemaPack.Proofs.Number.Reals

namespace SchemaPack

namespace Binary64

/-- Cut off towards zero. What lies beyond the ends of the word becomes the nearer end. -/
def toInt64 (x : Binary64) : Int64 := Int64.ofIntClamp (x.units.tdiv one)

def toUInt64 (x : Binary64) : UInt64 := UInt64.ofNatClamp (x.units.tdiv one).toNat

/-- Limits that are integers become doubles before a double is compared with them. -/
def Within (low high : Int) (x : Binary64) : Prop :=
  roundToBinary64 low * one ≤ x.units ∧ x.units < roundToBinary64 high * one

instance (low high : Int) (x : Binary64) : Decidable (x.Within low high) :=
  inferInstanceAs (Decidable (_ ∧ _))

/-- The last integer of a word is no double. It is rounded to the first that is beyond the word. -/
def toInt64? (x : Binary64) : Option Int64 :=
  if x.Within (-9223372036854775808) 9223372036854775807 then some x.toInt64 else none

def toNumber (x : Binary64) : Number :=
  match x.toInt64? with
  | some word => .ofInt64 word
  | none => if x.Within 0 18446744073709551615 then .ofUInt64 x.toUInt64 else .real x

section Whole

variable {x : Binary64} {n : Int} (whole : x.units = n * one)

include whole

theorem tdiv_of_whole : x.units.tdiv one = n := by
  have positive := one_pos
  rw [whole, Int.mul_tdiv_cancel n (by omega)]

theorem within_iff {low high : Int} :
    x.Within low high ↔ roundToBinary64 low ≤ n ∧ n < roundToBinary64 high := by
  rw [Within, whole, Int.mul_le_mul_right one_pos, Int.mul_lt_mul_right one_pos]

theorem within_word_iff : x.Within (-9223372036854775808) 9223372036854775807 ↔ Word n := by
  have low : roundToBinary64 (-9223372036854775808) = -9223372036854775808 := by decide
  have high : roundToBinary64 9223372036854775807 = 9223372036854775808 := by decide
  rw [within_iff whole, low, high, Word]

theorem within_unsigned_iff :
    x.Within 0 18446744073709551615 ↔ 0 ≤ n ∧ n < 18446744073709551616 := by
  have low : roundToBinary64 0 = 0 := by decide
  have high : roundToBinary64 18446744073709551615 = 18446744073709551616 := by decide
  rw [within_iff whole, low, high]

theorem toInt64?_eq : x.toInt64? = word? n := by
  rw [toInt64?, word?]
  by_cases fits : Word n
  · rw [if_pos ((within_word_iff whole).mpr fits), if_pos fits, toInt64, tdiv_of_whole whole]
    congr 1
    apply Int64.toInt_inj.mp
    have low : Int64.minValue.toInt ≤ n := fits.1
    have high : n ≤ Int64.maxValue.toInt := Int.le_of_lt_add_one fits.2
    rw [Int64.toInt_ofIntClamp low high, Int64.toInt_ofInt_of_le fits.1 fits.2]
  · rw [if_neg (mt (within_word_iff whole).mp fits), if_neg fits]

theorem toNumber_eq : x.toNumber = (Number.ofInt? n).getD (.real x) := by
  rw [toNumber, toInt64?_eq whole, word?, Number.ofInt?]
  by_cases signed : Word n
  · have fits : Representable n := by
      unfold Representable Word at *
      omega
    rw [if_pos signed, dif_pos fits, Option.getD_some]
    simp only [Number.ofInt64, Int64.toInt_ofInt_of_le signed.1 signed.2]
  · rw [if_neg signed]
    dsimp only
    by_cases unsigned : 0 ≤ n ∧ n < 18446744073709551616
    · have fits : Representable n := ⟨by omega, unsigned.2⟩
      have size : UInt64.size = 18446744073709551616 := rfl
      have word : n.toNat < UInt64.size := by omega
      rw [if_pos ((within_unsigned_iff whole).mpr unsigned), dif_pos fits, Option.getD_some]
      simp only [Number.ofUInt64, toUInt64, tdiv_of_whole whole,
        UInt64.toNat_ofNatClamp_of_lt word, Int.toNat_of_nonneg unsigned.1]
    · have beyond : ¬Representable n := by
        unfold Representable Word at *
        omega
      rw [if_neg (mt (within_unsigned_iff whole).mp unsigned), dif_neg beyond, Option.getD_none]

end Whole

theorem exists_units_eq {n : Int} (few : n.natAbs ≤ 2 ^ 52) :
    ∃ x : Binary64, x.units = n * one := by
  by_cases zero : n = 0
  · exact ⟨⟨false, 0, 0, by decide⟩, by rw [zero, Int.zero_mul]; rfl⟩
  · obtain ⟨places, long, bound, unit⟩ := exists_one_eq
    have nonzero : n.natAbs ≠ 0 := Int.natAbs_ne_zero.mpr zero
    have short : n.natAbs.log2 < 53 := (Nat.log2_lt nonzero).mpr (by omega)
    -- The bits are moved up until the first of 53 is set.
    obtain ⟨up, full⟩ := Nat.exists_eq_add_of_le (Nat.le_of_lt_succ short)
    have low : 2 ^ 52 ≤ n.natAbs * 2 ^ up := by
      rw [full, Nat.pow_add]
      exact Nat.mul_le_mul_right _ (Nat.log2_self_le nonzero)
    have high : n.natAbs * 2 ^ up < 2 ^ 53 := by
      rw [show 53 = n.natAbs.log2 + 1 + up by omega, Nat.pow_add]
      exact Nat.mul_lt_mul_of_pos_right Nat.lt_log2_self (Nat.two_pow_pos up)
    have magnitude : (n.natAbs * 2 ^ up) <<< (places - up) = n.natAbs * one := by
      rw [Nat.shiftLeft_eq, Nat.mul_assoc, ← Nat.pow_add, unit,
        show up + (places - up) = places by omega]
    refine ⟨⟨decide (n < 0), n.natAbs * 2 ^ up, places - up, high, by omega, .inl low⟩, ?_⟩
    simp only [units, magnitude, decide_eq_true_eq, Int.natCast_mul]
    by_cases negative : n < 0
    · rw [if_pos negative, ← Int.neg_mul,
        ← Int.eq_neg_natAbs_of_nonpos (Int.le_of_lt negative)]
    · rw [if_neg negative, Int.natAbs_of_nonneg (Int.not_lt.mp negative)]

end Binary64

namespace Number

/-- What a double is rounded to is a double again. -/
theorem exists_units_eq_toInt (x : Binary64) (rounding : Rounding) :
    ∃ whole : Binary64, whole.units = (real x).toInt rounding * Binary64.one := by
  by_cases integral : x.isIntegral = true
  · exact ⟨x, exact_eq_of_isIntegral (x := real x) integral rounding⟩
  · have fraction : (real x).isIntegral = false := Bool.not_eq_true _ ▸ integral
    exact Binary64.exists_units_eq (natAbs_toInt_le fraction rounding)

theorem round_cases (x : Number) (rounding : Rounding) :
    (∃ fits, x.round rounding = .integer (x.toInt rounding) fits) ∨
      ¬Representable (x.toInt rounding) ∧ x.isIntegral = true ∧ x.round rounding = x := by
  rw [round, ofInt?]
  by_cases fits : Representable (x.toInt rounding)
  · rw [dif_pos fits]
    exact .inl ⟨fits, rfl⟩
  · rw [dif_neg fits]
    refine .inr ⟨fits, ?_, rfl⟩
    rw [← Bool.not_eq_false]
    exact fun fraction => fits (representable_toInt fraction rounding)

theorem round_toReal (x : Number) (rounding : Rounding) :
    (x.round rounding).toReal = rounding.integer x.toReal := by
  rw [toReal_eq_intCast, ← toInt_eq]
  rcases x.round_cases rounding with ⟨fits, rounded⟩ | ⟨_, integral, rounded⟩
  · rw [rounded]
    rfl
  · rw [rounded]
    exact exact_eq_of_isIntegral integral rounding

theorem round_eq_integer_iff (x : Number) (rounding : Rounding) :
    (∃ fits, x.round rounding = .integer (rounding.integer x.toReal) fits) ↔
      Representable (rounding.integer x.toReal) := by
  rw [← toInt_eq]
  constructor
  · rintro ⟨fits, _⟩
    exact fits
  · intro fits
    rcases x.round_cases rounding with spelled | ⟨beyond, _, _⟩
    · exact spelled
    · exact absurd fits beyond

theorem toInt64?_eq_some_iff {x : Number} {rounding : Rounding} {word : Int64} :
    x.toInt64? rounding = some word ↔ word.toInt = rounding.integer x.toReal := by
  rw [toInt64?, word?_eq_some_iff, toInt_eq]

theorem offset?_eq_some_iff {x y : Number} {delta : Int} :
    x.offset? delta = some y ↔ ∃ start stop : Int64,
      x.toReal = start.toInt ∧ stop.toInt = start.toInt + delta ∧ y = .ofInt64 stop := by
  constructor
  · intro moved
    unfold offset? at moved
    split at moved
    · rename_i integral
      obtain ⟨start, fits, later⟩ := Option.bind_eq_some_iff.mp moved
      obtain ⟨stop, sum, rfl⟩ := Option.map_eq_some_iff.mp later
      refine ⟨start, stop, ?_, word?_eq_some_iff.mp sum, rfl⟩
      rw [toReal_eq_intCast, exact_eq_mul_iff]
      exact ⟨integral, (word?_eq_some_iff.mp fits).symm⟩
    · cases moved
  · rintro ⟨start, stop, value, sum, rfl⟩
    rw [toReal_eq_intCast, exact_eq_mul_iff] at value
    have fits : x.toInt64? .down = some start := word?_eq_some_iff.mpr value.2.symm
    rw [offset?, if_pos value.1, fits]
    change (word? (start.toInt + delta)).map ofInt64 = _
    rw [word?_eq_some_iff.mpr sum, Option.map_some]

section Cast

variable {x whole : Binary64} {rounding : Rounding}
  (rounded : whole.units = (real x).toInt rounding * Binary64.one)

include rounded

theorem round_real : (real x).round rounding = whole.toNumber := by
  rw [Binary64.toNumber_eq rounded, ofInt?]
  rcases (real x).round_cases rounding with ⟨fits, spelled⟩ | ⟨beyond, integral, same⟩
  · rw [spelled, dif_pos fits, Option.getD_some]
  · have units : x.units = whole.units :=
      (exact_eq_of_isIntegral integral rounding).trans rounded.symm
    have nonzero : x.units ≠ 0 := by
      intro zero
      rw [← units, zero, zero_eq_mul] at rounded
      have positive := Binary64.one_pos
      rcases rounded with value | unit
      · exact beyond (by rw [value]; decide)
      · omega
    rw [same, dif_neg beyond, Option.getD_none, Binary64.eq_of_units units nonzero]

theorem toInt64?_real : (real x).toInt64? rounding = whole.toInt64? := by
  rw [toInt64?, Binary64.toInt64?_eq rounded]

end Cast

/-- Rounding is exact. What a number is rounded to is the integer next to it on that side, spelled
    as an integer just where a word holds it, and a signed word is given just where one holds it.
    Just the integers of a signed word are moved, to integers of a signed word. All this is what
    doubles and casts compute, though a cast is guarded by limits that are doubles themselves. -/
theorem rounding_exact :
    (∀ (x : Number) (rounding : Rounding),
      (x.round rounding).toReal = rounding.integer x.toReal ∧
        ((∃ fits, x.round rounding = .integer (rounding.integer x.toReal) fits) ↔
          Representable (rounding.integer x.toReal)) ∧
        ∀ word, x.toInt64? rounding = some word ↔ word.toInt = rounding.integer x.toReal) ∧
      (∀ (x y : Number) (delta : Int64), x.offset? delta.toInt = some y ↔
        ∃ start stop : Int64, x.toReal = start.toInt ∧
          stop.toInt = start.toInt + delta.toInt ∧ y = .ofInt64 stop) ∧
      ∀ (x : Binary64) (rounding : Rounding), ∃ whole : Binary64,
        (real whole).toReal = rounding.integer (real x).toReal ∧
          (real x).round rounding = whole.toNumber ∧
          (real x).toInt64? rounding = whole.toInt64? := by
  refine ⟨fun x rounding => ?_, fun x y delta => offset?_eq_some_iff, fun x rounding => ?_⟩
  · exact ⟨x.round_toReal rounding, x.round_eq_integer_iff rounding,
      fun word => toInt64?_eq_some_iff⟩
  · obtain ⟨whole, rounded⟩ := exists_units_eq_toInt x rounding
    refine ⟨whole, ?_, round_real rounded, toInt64?_real rounded⟩
    rw [← toInt_eq, toReal_eq_intCast]
    exact rounded

/-- The double to which the last signed word is rounded is the first unsigned word beyond. -/
example :
    let x : Number := .real ⟨false, 4503599627370496, 1085, by decide⟩
    x.round .up = .integer 9223372036854775808 ∧ x.toInt64? .up = none := by
  decide +kernel

end Number

end SchemaPack
