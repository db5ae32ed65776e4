import LuaMachine.Proofs.Double.Exact
import Mathlib.Data.Rat.Floor

set_option autoImplicit false

namespace LuaMachine

open Extended

namespace Double

section

variable (negative : Bool) (units : Nat)

theorem floorOf_eq_floor : floorOf negative units = ⌊(signed negative units / one : ℚ)⌋ :=
  (Rat.floor_intCast_div_natCast _ _).symm

theorem ceilOf_eq_ceil : ceilOf negative units = ⌈(signed negative units / one : ℚ)⌉ := by
  rw [ceilOf_eq, floorOf_eq_floor, signed_not, Int.cast_neg, neg_div, Int.floor_neg, Int.neg_neg]

end

def ceil (x : Double) : Double :=
  match x.parts with
  | .nan => x.quiet
  | .infinite _ => x
  | .finite negative units =>
    let n := ceilOf negative units
    if n = 0 then zero negative else ofInt n

def Near (n : Int) (q : ℚ) : Prop := (n - 1 : ℚ) < q ∧ q < n + 1

theorem near_floorOf (negative : Bool) (units : Nat) :
    Near (floorOf negative units) (signed negative units / one) := by
  rw [floorOf_eq_floor]
  have low := Int.floor_le (signed negative units / one : ℚ)
  exact ⟨by linarith, Int.lt_floor_add_one _⟩

theorem near_ceilOf (negative : Bool) (units : Nat) :
    Near (ceilOf negative units) (signed negative units / one) := by
  rw [ceilOf_eq_ceil]
  have low := Int.ceil_lt_add_one (signed negative units / one : ℚ)
  have high := Int.le_ceil (signed negative units / one : ℚ)
  exact ⟨by linarith, by linarith⟩

theorem denotes?_finite {x : Double} {negative : Bool} {units : Nat}
    (finite : x.parts = .finite negative units) :
    x.denotes? = some (ofRat (signed negative units / one)) := by
  rw [denotes?_eq, finite]

theorem denotes?_whole {x : Double} {i : Int}
    (finite : x.parts = .finite (decide (i < 0)) (i.natAbs * one)) :
    x.denotes? = some (ofWhole i) := by
  have nonzero : ((one : Nat) : ℚ) ≠ 0 := Nat.cast_ne_zero.2 (by decide)
  rw [denotes?_finite finite, signed_whole, Int.cast_mul, Int.cast_natCast, mul_div_assoc,
    div_self nonzero, mul_one]
  rfl

theorem Near.small {n : Int} {negative : Bool} {units : Nat}
    (near : Near n (signed negative units / one)) (few : units < 2 ^ 52 * one) :
    n.natAbs ≤ 2 ^ 53 := by
  obtain ⟨low, high⟩ := near
  have positive : (0 : ℚ) < (one : Nat) := Nat.cast_pos.2 (by decide)
  have bound : |(signed negative units / one : ℚ)| < 2 ^ 52 := by
    have size : |((signed negative units : Int) : ℚ)| = units := by
      cases negative <;> simp [signed]
    rw [abs_div, abs_of_pos positive, size, div_lt_iff₀ positive]
    exact_mod_cast few
  obtain ⟨below, above⟩ := abs_lt.1 bound
  have upper : (n : ℚ) < (2 ^ 52 + 1 : Int) := by
    push_cast
    linarith
  have lower : ((-2 ^ 52 - 1 : Int) : ℚ) < n := by
    push_cast
    linarith
  rw [Int.cast_lt] at upper lower
  omega

theorem Near.eq {n k : Int} (near : Near n k) : n = k := by
  obtain ⟨low, high⟩ := near
  have below : n - 1 < k := by exact_mod_cast low
  have above : k < n + 1 := by exact_mod_cast high
  omega

-- A number with a part after the point has less than 53 bits before it.
theorem parts_wide {x : Double} {negative : Bool} {units : Nat}
    (finite : x.parts = .finite negative units) (many : 2 ^ 52 * one ≤ units) :
    ∃ m e k, 2 ^ 52 ≤ m ∧ m < 2 ^ 53 ∧ e + 3 ≤ 2047 ∧ units = m * 2 ^ (e + 1) ∧
      2 ^ (e + 1) = 2 ^ k * one := by
  have fraction : x.fraction < 2 ^ 52 := Nat.mod_lt _ (Nat.two_pow_pos 52)
  have field : x.exponentField < 2048 := Nat.mod_lt _ (by decide)
  have least : 2 ^ 52 ≤ 2 ^ 52 * one := Nat.le_mul_of_pos_right _ (by decide)
  unfold parts at finite
  by_cases top : x.exponentField = 2047
  · rw [if_pos top] at finite
    split at finite <;> cases finite
  by_cases low : x.exponentField = 0
  · rw [if_neg top, if_pos low] at finite
    cases finite
    omega
  rw [if_neg top, if_neg low, spacing, Nat.one_shiftLeft] at finite
  cases finite
  rcases Nat.lt_or_ge (x.exponentField - 1) 1074 with narrow | wide
  · obtain ⟨rest, total⟩ := Nat.exists_eq_add_of_lt narrow
    have less : (2 ^ 52 + x.fraction) * 2 ^ (x.exponentField - 1) < 2 ^ 52 * one := calc
      (2 ^ 52 + x.fraction) * 2 ^ (x.exponentField - 1) < 2 ^ 53 * 2 ^ (x.exponentField - 1) :=
        Nat.mul_lt_mul_of_pos_right (by omega) (Nat.two_pow_pos _)
      _ = 2 ^ 52 * 2 ^ (x.exponentField - 1 + 1) := by
        rw [← Nat.pow_add, ← Nat.pow_add, Nat.add_left_comm, Nat.add_comm 53]
      _ ≤ 2 ^ 52 * (2 ^ (x.exponentField - 1 + 1) * 2 ^ rest) :=
        Nat.mul_le_mul_left _ (Nat.le_mul_of_pos_right _ (Nat.two_pow_pos rest))
      _ = 2 ^ 52 * one := by rw [one_split (by omega : x.exponentField - 1 + 1 + rest = 1074)]
    omega
  · obtain ⟨rest, total⟩ := Nat.exists_eq_add_of_le wide
    refine ⟨2 ^ 52 + x.fraction, x.exponentField - 2, rest, by omega, by omega, by omega, ?_, ?_⟩
    · congr 2
      omega
    · -- The exponent is hidden so that nothing starts to compute the power.
      obtain ⟨all, exponent⟩ : ∃ all, all = 1074 := ⟨_, rfl⟩
      rw [one_split (by omega : 0 + all = 1074), Nat.pow_zero, Nat.one_mul, ← Nat.pow_add]
      congr 1
      omega

theorem denotes?_rounded {x : Double} {negative : Bool} {units : Nat}
    (finite : x.parts = .finite negative units) {n : Int}
    (near : Near n (signed negative units / one)) :
    (if n = 0 then zero negative else ofInt n).denotes? = some (ofWhole n) := by
  by_cases zero : n = 0
  · have parts : (Double.zero negative).parts = .finite negative 0 := by
      cases negative <;> decide +kernel
    rw [if_pos zero, denotes?_finite parts, zero]
    cases negative <;> simp [signed, ofWhole]
  rw [if_neg zero]
  by_cases small : n.natAbs ≤ 2 ^ 53
  · exact denotes?_whole (parts_ofInt small)
  -- Such a number is whole, and rounded to itself.
  · have many : 2 ^ 52 * one ≤ units := Nat.not_lt.1 (mt near.small small)
    obtain ⟨m, e, k, low, high, few, rfl, scale⟩ := parts_wide finite many
    have nonzero : ((one : Nat) : ℚ) ≠ 0 := Nat.cast_ne_zero.2 (by decide)
    have whole : m * 2 ^ (e + 1) = m * 2 ^ k * one := by
      rw [scale, Nat.mul_assoc]
    have same : n = signed negative (m * 2 ^ k) := by
      apply Near.eq
      convert near using 1
      rw [whole, eq_div_iff nonzero]
      cases negative <;> simp [signed]
    have sign : decide (n < 0) = negative := by
      have positive : m ≠ 0 := by omega
      rw [same]
      cases negative <;> simp [signed, Nat.pos_iff_ne_zero, positive]
    have size : n.natAbs = m * 2 ^ k := by rw [same, natAbs_signed]
    apply denotes?_whole
    rw [ofInt, size, ← whole, sign, ofRatio_exact low high _ few, parts_normal low high _ few]

structure Rounds (round : Double → Double) (next : Bool → Nat → Int) : Prop where
  nan : ∀ {x : Double}, x.isNaN = true → (round x).isNaN = true
  infinite : ∀ {x : Double} {negative}, x.parts = .infinite negative → round x = x
  finite : ∀ {x : Double} {negative units}, x.parts = .finite negative units →
    (round x).denotes? = some (ofWhole (next negative units))
  near : ∀ negative units, Near (next negative units) (signed negative units / one)

theorem isNaN_quiet {x : Double} (nan : x.isNaN = true) : x.quiet.isNaN = true := by
  obtain ⟨field, fraction⟩ := of_decide_eq_true nan
  have sum : x.quiet.bits.toNat = x.bits.toNat ||| 2 ^ 51 := UInt64.toNat_or _ _
  apply decide_eq_true
  rw [exponentField, Double.fraction, sum]
  constructor
  · rw [← field, Nat.or_div_two_pow]
    simp [exponentField]
  · rw [Ne, Nat.or_mod_two_pow, Nat.or_eq_zero_iff]
    exact fun zero => fraction zero.1

theorem rounds_floor : Rounds floor floorOf where
  nan nan := by
    rw [floor, (parts_nan_iff _).2 nan]
    exact isNaN_quiet nan
  infinite infinite := by simp only [floor, infinite]
  finite finite := by
    simp only [floor, finite]
    exact denotes?_rounded finite (near_floorOf _ _)
  near := near_floorOf

theorem rounds_ceil : Rounds ceil ceilOf where
  nan nan := by
    rw [ceil, (parts_nan_iff _).2 nan]
    exact isNaN_quiet nan
  infinite infinite := by simp only [ceil, infinite]
  finite finite := by
    simp only [ceil, finite]
    exact denotes?_rounded finite (near_ceilOf _ _)
  near := near_ceilOf

theorem denotes?_range :
    (ofInt (-2 ^ 63)).denotes? = some (ofWhole (-2 ^ 63)) ∧
      (ofInt (2 ^ 63)).denotes? = some (ofWhole (2 ^ 63)) :=
  ⟨denotes?_whole (by decide +kernel), denotes?_whole (by decide +kernel)⟩

theorem denotes?_zero : (zero false).denotes? = some (ofRat 0) := by
  have parts : (zero false).parts = .finite false 0 := by decide +kernel
  rw [denotes?_finite parts]
  simp [signed]

end Double

end LuaMachine
