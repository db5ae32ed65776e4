import LuaMachine.Double.Basic
import LuaMachine.Value.Order
import Mathlib.Tactic.Linarith
import Mathlib.Tactic.Ring

set_option autoImplicit false

namespace LuaMachine.Double

theorem parts_nan_iff (x : Double) : x.parts = .nan ↔ x.isNaN = true := by
  unfold parts isNaN
  by_cases top : x.exponentField = 2047
  · by_cases whole : x.fraction = 0 <;> simp [top, whole]
  · by_cases low : x.exponentField = 0 <;> simp [top, low]

theorem floorOf_nonneg (units : Nat) : 0 ≤ floorOf false units :=
  Int.ediv_nonneg (Int.natCast_nonneg units) (Int.natCast_nonneg one)

theorem floorOf_nonpos (units : Nat) : floorOf true units ≤ 0 :=
  Int.ediv_nonpos_of_nonpos_of_neg (Int.neg_nonpos_of_nonneg (Int.natCast_nonneg units)) (by decide)

theorem ceilOf_eq (negative : Bool) (units : Nat) :
    ceilOf negative units = -floorOf (!negative) units := rfl

theorem signed_not (negative : Bool) (n : Nat) : signed (!negative) n = -signed negative n := by
  cases negative <;> simp [signed]

theorem natAbs_signed (negative : Bool) (n : Nat) : (signed negative n).natAbs = n := by
  cases negative <;> simp [signed]

theorem dvd_signed (negative : Bool) (units : Nat) :
    (one : Int) ∣ signed negative units ↔ units % one = 0 := by
  rw [← Nat.dvd_iff_mod_eq_zero, ← Int.natCast_dvd_natCast]
  cases negative with
  | true => exact Int.dvd_neg
  | false => exact Iff.rfl

theorem floorOf_le_ceilOf (negative : Bool) (units : Nat) :
    floorOf negative units ≤ ceilOf negative units := by
  have positive : 0 < (one : Int) := by decide
  rw [ceilOf, floorOf, signed_not]
  generalize (one : Int) = d at positive
  generalize signed negative units = q
  have below := Int.ediv_mul_le q (Int.ne_of_gt positive)
  have above := Int.ediv_mul_le (-q) (Int.ne_of_gt positive)
  nlinarith

-- They meet just when the number is whole.
theorem ceilOf_le_floorOf_iff (negative : Bool) (units : Nat) :
    ceilOf negative units ≤ floorOf negative units ↔ units % one = 0 := by
  have positive : 0 < (one : Int) := by decide
  rw [← dvd_signed negative, ceilOf, floorOf, signed_not]
  generalize (one : Int) = d at positive
  generalize signed negative units = q
  constructor
  · intro meet
    have below := Int.ediv_mul_le q (Int.ne_of_gt positive)
    have above := Int.ediv_mul_le (-q) (Int.ne_of_gt positive)
    exact ⟨q / d, by nlinarith⟩
  · intro whole
    rw [Int.neg_ediv_of_dvd whole]
    omega

theorem toInt64?_eq_some_iff (x : Double) (n : Int64) :
    x.toInt64? = some n ↔ Order.intLeFloat n x = true ∧ Order.floatLeInt x n = true := by
  unfold toInt64? Order.intLeFloat Order.floatLeInt
  cases x.parts with
  | nan => simp
  | infinite negative => simp
  | finite negative units =>
    have meet := ceilOf_le_floorOf_iff negative units
    have below := floorOf_le_ceilOf negative units
    have := n.le_toInt
    have := n.toInt_lt
    simp only [Option.ite_none_right_eq_some, Option.some.injEq, decide_eq_true_eq]
    constructor
    · rintro ⟨⟨whole, low, high⟩, rfl⟩
      rw [Int64.toInt_ofInt_of_le low high]
      exact ⟨Int.le_refl _, meet.2 whole⟩
    · rintro ⟨le, ge⟩
      have same : floorOf negative units = n.toInt := by omega
      rw [same]
      exact ⟨⟨meet.1 (by omega), by omega, by omega⟩, Int64.ofInt_toInt n⟩

section

variable {m e : Nat} (low : 2 ^ 52 ≤ m) (high : m < 2 ^ 53)
include low high

theorem log2_scaled : (m * 2 ^ e).log2 = 52 + e := by
  have positive := Nat.mul_pos (Nat.lt_of_lt_of_le (Nat.two_pow_pos 52) low) (Nat.two_pow_pos e)
  rw [Nat.log2_eq_iff (Nat.ne_of_gt positive)]
  constructor
  · rw [Nat.pow_add]
    exact Nat.mul_le_mul_right _ low
  · rw [Nat.add_right_comm, Nat.pow_add]
    exact Nat.mul_lt_mul_of_pos_right high (Nat.two_pow_pos e)

-- A number of at most 53 bits is not rounded.
theorem ofRatio_exact (negative : Bool) (few : e + 3 ≤ 2047) :
    ofRatio negative (m * 2 ^ (e + 1)) 1 =
      ⟨.ofNat (signBit negative + ((e + 1) * 2 ^ 52 + m))⟩ := by
  have scale : (m * 2 ^ (e + 1)).log2 - Nat.log2 1 - 53 = e := by
    have unit : Nat.log2 1 = 0 := by decide
    rw [log2_scaled low high, unit]
    omega
  have doubled : m * 2 ^ (e + 1) / 1 <<< e = 2 * m := by
    rw [Nat.one_shiftLeft, Nat.pow_succ, ← Nat.mul_assoc, Nat.mul_right_comm,
      Nat.mul_div_cancel _ (Nat.two_pow_pos e), Nat.mul_comm]
  have whole : divNearest (m * 2 ^ (e + 1)) (1 <<< (e + 1)) = m := by
    have positive := Nat.two_pow_pos (e + 1)
    rw [Nat.one_shiftLeft, divNearest, Nat.mul_div_cancel _ positive, Nat.mul_mod_left]
    exact if_neg (by omega)
  have carried : 2 * m ≥ 2 ^ 53 := by omega
  have fits : (e + 1) <<< 52 + m < 2047 <<< 52 := by
    rw [Nat.shiftLeft_eq, Nat.shiftLeft_eq]
    omega
  simp only [ofRatio, scale, doubled, if_pos carried, whole, if_pos fits]
  rw [Nat.shiftLeft_eq]

theorem parts_normal (negative : Bool) (few : e + 3 ≤ 2047) :
    parts ⟨.ofNat (signBit negative + ((e + 1) * 2 ^ 52 + m))⟩ =
      .finite negative (m * 2 ^ (e + 1)) := by
  let x : Double := ⟨.ofNat (signBit negative + ((e + 1) * 2 ^ 52 + m))⟩
  have sign : signBit negative = 0 ∨ signBit negative = 2 ^ 63 := by
    cases negative <;> simp [signBit]
  have bits : x.bits.toNat = signBit negative + ((e + 1) * 2 ^ 52 + m) :=
    UInt64.toNat_ofNat_of_lt' (by simp only [UInt64.size]; omega)
  have field : x.exponentField = e + 2 := by
    rw [exponentField, bits]
    omega
  have fraction : x.fraction = m - 2 ^ 52 := by
    rw [Double.fraction, bits]
    omega
  have signed : x.negative = negative := by
    rw [Double.negative, bits]
    cases negative
    · simp [signBit]
      omega
    · simp [signBit]
  have spacing : x.spacing = 2 ^ (e + 1) := by
    rw [Double.spacing, field]
    exact Nat.one_shiftLeft (e + 1)
  change x.parts = _
  rw [parts, if_neg (by omega), if_neg (by omega), signed, fraction, spacing,
    Nat.add_sub_cancel' low]

end

-- The 53 bits of a whole number that has no more.
theorem normalize {k : Nat} (nonzero : k ≠ 0) (small : k ≤ 2 ^ 53) :
    ∃ m, 2 ^ 52 ≤ m ∧ m < 2 ^ 53 ∧ m * 2 ^ k.log2 = k * 2 ^ 52 ∧ k.log2 ≤ 53 := by
  rcases Nat.lt_or_eq_of_le small with small | rfl
  · have few : k.log2 < 53 := (Nat.log2_lt nonzero).2 small
    obtain ⟨rest, total⟩ := Nat.exists_eq_add_of_le (Nat.le_of_lt_succ few)
    have low := Nat.mul_le_mul_right (2 ^ rest) (Nat.log2_self_le nonzero)
    have high := Nat.mul_lt_mul_of_pos_right (@Nat.lt_log2_self k) (Nat.two_pow_pos rest)
    rw [← Nat.pow_add, ← total] at low
    rw [← Nat.pow_add, Nat.add_right_comm, ← total] at high
    refine ⟨k * 2 ^ rest, low, high, ?_, Nat.le_of_lt few⟩
    rw [Nat.mul_assoc, ← Nat.pow_add, Nat.add_comm rest, ← total]
  · exact ⟨2 ^ 52, Nat.le_refl _, by decide, by decide, by decide⟩

theorem one_split {a b : Nat} (total : a + b = 1074) : one = 2 ^ a * 2 ^ b := by
  rw [← Nat.pow_add, ← Nat.one_shiftLeft, total]
  rfl

theorem parts_ofInt {i : Int} (small : i.natAbs ≤ 2 ^ 53) :
    (ofInt i).parts = .finite (decide (i < 0)) (i.natAbs * one) := by
  by_cases zero : i = 0
  · subst zero
    decide +kernel
  · obtain ⟨m, low, high, scaled, few⟩ := normalize (Int.natAbs_ne_zero.2 zero) small
    have units : i.natAbs * one = m * 2 ^ (i.natAbs.log2 + 1021 + 1) := by
      -- The exponent is hidden so that nothing starts to compute the power.
      obtain ⟨rest, exponent⟩ : ∃ rest, rest = 1021 + 1 := ⟨_, rfl⟩
      rw [one_split (by omega : 52 + rest = 1074), ← Nat.mul_assoc, ← scaled, Nat.mul_assoc,
        ← Nat.pow_add, Nat.add_assoc, exponent]
    rw [ofInt, units, ofRatio_exact low high _ (by omega), parts_normal low high _ (by omega)]

theorem signed_whole (i : Int) : signed (decide (i < 0)) (i.natAbs * one) = i * one := by
  generalize one = d
  unfold signed
  by_cases below : i < 0
  · simp [below, abs_of_neg below]
  · simp [below, abs_of_nonneg (Int.not_lt.1 below)]

theorem floorOf_whole (i : Int) : floorOf (decide (i < 0)) (i.natAbs * one) = i := by
  have positive : (one : Int) ≠ 0 := by decide
  rw [floorOf, signed_whole, Int.mul_ediv_cancel _ positive]

theorem toInt64?_ofInt {n : Int64} (small : n.toInt.natAbs ≤ 2 ^ 53) :
    (ofInt n.toInt).toInt64? = some n := by
  have floor := floorOf_whole n.toInt
  have ceil := (ceilOf_le_floorOf_iff (decide (n.toInt < 0)) (n.toInt.natAbs * one)).2
    (Nat.mul_mod_left _ one)
  rw [floor] at ceil
  rw [toInt64?_eq_some_iff, Order.intLeFloat, Order.floatLeInt, parts_ofInt small]
  exact ⟨decide_eq_true (Int.le_of_eq floor.symm), decide_eq_true ceil⟩

end LuaMachine.Double
