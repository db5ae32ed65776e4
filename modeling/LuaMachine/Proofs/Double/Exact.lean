import LuaMachine.Proofs.Double.Whole
import Mathlib.Algebra.Order.Field.Rat
import Mathlib.Order.Monotone.Basic
import Mathlib.Order.WithBot
import Mathlib.Tactic.FieldSimp
import Mathlib.Tactic.Positivity

set_option autoImplicit false

namespace LuaMachine

abbrev Extended := WithBot (WithTop ℚ)

namespace Extended

def ofRat (q : ℚ) : Extended := ((q : WithTop ℚ) : WithBot (WithTop ℚ))

@[simp] theorem ofRat_lt_ofRat {p q : ℚ} : ofRat p < ofRat q ↔ p < q :=
  WithBot.coe_lt_coe.trans WithTop.coe_lt_coe

@[simp] theorem ofRat_le_ofRat {p q : ℚ} : ofRat p ≤ ofRat q ↔ p ≤ q :=
  WithBot.coe_le_coe.trans WithTop.coe_le_coe

@[simp] theorem ofRat_inj {p q : ℚ} : ofRat p = ofRat q ↔ p = q :=
  WithBot.coe_inj.trans WithTop.coe_inj

@[simp] theorem bot_lt_ofRat (q : ℚ) : (⊥ : Extended) < ofRat q := WithBot.bot_lt_coe _

@[simp] theorem ofRat_lt_top (q : ℚ) : ofRat q < (⊤ : Extended) :=
  WithBot.coe_lt_coe.2 (WithTop.coe_lt_top q)

@[simp] theorem ofRat_ne_bot (q : ℚ) : ofRat q ≠ ⊥ := (bot_lt_ofRat q).ne'

@[simp] theorem ofRat_ne_top (q : ℚ) : ofRat q ≠ ⊤ := (ofRat_lt_top q).ne

def ofWhole (n : Int) : Extended := ofRat n

end Extended

namespace Double

open Extended

/-- The number that the bits denote: a sign, a power of two, and a fraction to which one is added
unless the power is the least. The greatest power is kept for the infinities and for NaN, which
denotes nothing. -/
def denotes? (x : Double) : Option Extended :=
  if x.exponentField = 2047 then
    if x.fraction = 0 then some (if x.negative then ⊥ else ⊤) else none
  else
    let sign : ℚ := if x.negative then -1 else 1
    let size : ℚ :=
      if x.exponentField = 0 then x.fraction / 2 ^ 52 * 2 ^ (-1022 : ℤ)
      else (1 + x.fraction / 2 ^ 52) * 2 ^ ((x.exponentField : ℤ) - 1023)
    some (ofRat (sign * size))

theorem one_cast : ((one : Nat) : ℚ) = 2 ^ (1074 : ℤ) := by
  have shift (n : Nat) : ((1 <<< n : Nat) : ℚ) = 2 ^ (n : ℤ) := by
    rw [Nat.one_shiftLeft, Nat.cast_pow, zpow_natCast, Nat.cast_ofNat]
  exact shift 1074

theorem subnormal_units (f : ℚ) : f / 2 ^ 52 * 2 ^ (-1022 : ℤ) = f / 2 ^ (1074 : ℤ) := by
  have split : (2 : ℚ) ^ (1074 : ℤ) = 2 ^ 52 * 2 ^ (1022 : ℤ) := by
    rw [← zpow_natCast, ← zpow_add₀ two_ne_zero]
    rfl
  rw [split, zpow_neg, div_mul_eq_div_div, div_eq_mul_inv _ ((2 : ℚ) ^ (1022 : ℤ))]

theorem normal_units (f : ℚ) {e : Nat} (positive : e ≠ 0) :
    (1 + f / 2 ^ 52) * 2 ^ ((e : ℤ) - 1023) = (2 ^ 52 + f) * 2 ^ (e - 1) / 2 ^ (1074 : ℤ) := by
  have nonzero : (2 : ℚ) ^ (1074 : ℤ) ≠ 0 := zpow_ne_zero _ two_ne_zero
  have power : (2 : ℚ) ^ ((e : ℤ) - 1023) * 2 ^ (1074 : ℤ) = 2 ^ 52 * 2 ^ (e - 1) := by
    rw [← zpow_natCast, ← zpow_natCast, ← zpow_add₀ two_ne_zero, ← zpow_add₀ two_ne_zero]
    congr 1
    omega
  rw [eq_div_iff nonzero, mul_assoc, power]
  field_simp

-- The units of a finite number are counted from zero on.
theorem denotes?_eq (x : Double) : x.denotes? =
    match x.parts with
    | .nan => none
    | .infinite negative => some (if negative then ⊥ else ⊤)
    | .finite negative units => some (ofRat (signed negative units / one)) := by
  have sign (n : Nat) : ((if x.negative then -1 else 1 : ℚ)) * n = (signed x.negative n : Int) := by
    cases x.negative <;> simp [signed]
  unfold denotes? parts
  by_cases top : x.exponentField = 2047
  · by_cases whole : x.fraction = 0 <;> simp [top, whole]
  · by_cases low : x.exponentField = 0
    · simp only [low, if_true, show (0 : Nat) ≠ 2047 by decide, if_false]
      rw [subnormal_units, ← mul_div_assoc, sign, one_cast]
    · have spacing : x.spacing = 2 ^ (x.exponentField - 1) := Nat.one_shiftLeft _
      have cast : (2 ^ 52 + x.fraction : ℚ) * 2 ^ (x.exponentField - 1) =
          ((2 ^ 52 + x.fraction) * x.spacing : Nat) := by
        rw [spacing]
        push_cast
        rfl
      simp only [top, low, if_false]
      rw [normal_units _ low, cast, ← mul_div_assoc, sign, one_cast]

theorem denotes?_eq_none (x : Double) : x.denotes? = none ↔ x.isNaN = true := by
  rw [denotes?_eq, ← parts_nan_iff]
  cases x.parts <;> simp

def magnitude (x : Double) : Nat := x.bits.toNat % 2 ^ 63

-- The units of the finite number with a given magnitude.
def unitsOf (m : Nat) : Nat :=
  if m / 2 ^ 52 = 0 then m % 2 ^ 52 else (2 ^ 52 + m % 2 ^ 52) * 2 ^ (m / 2 ^ 52 - 1)

theorem unitsOf_zero : unitsOf 0 = 0 := rfl

theorem unitsOf_strictMono : StrictMono unitsOf := by
  intro m n less
  unfold unitsOf
  have split := Nat.div_add_mod m (2 ^ 52)
  have split' := Nat.div_add_mod n (2 ^ 52)
  have small := Nat.mod_lt m (Nat.two_pow_pos 52)
  have small' := Nat.mod_lt n (Nat.two_pow_pos 52)
  generalize m / 2 ^ 52 = e at split ⊢
  generalize n / 2 ^ 52 = e' at split' ⊢
  generalize m % 2 ^ 52 = f at split small ⊢
  generalize n % 2 ^ 52 = f' at split' small' ⊢
  rcases Nat.lt_trichotomy e e' with below | rfl | above
  · rw [if_neg (by omega : e' ≠ 0)]
    by_cases low : e = 0
    · calc
        (if e = 0 then f else (2 ^ 52 + f) * 2 ^ (e - 1)) = f := if_pos low
        _ < 2 ^ 52 + f' := by omega
        _ ≤ (2 ^ 52 + f') * 2 ^ (e' - 1) := Nat.le_mul_of_pos_right _ (Nat.two_pow_pos _)
    · have double : 2 * 2 ^ (e - 1) = 2 ^ e := by
        rw [Nat.mul_comm, ← Nat.pow_succ]
        congr 1
        omega
      calc
        (if e = 0 then f else (2 ^ 52 + f) * 2 ^ (e - 1)) = (2 ^ 52 + f) * 2 ^ (e - 1) :=
          if_neg low
        _ < 2 ^ 52 * 2 * 2 ^ (e - 1) :=
          Nat.mul_lt_mul_of_pos_right (by omega) (Nat.two_pow_pos _)
        _ = 2 ^ 52 * 2 ^ e := by rw [Nat.mul_assoc, double]
        _ ≤ 2 ^ 52 * 2 ^ (e' - 1) :=
          Nat.mul_le_mul_left _ (Nat.pow_le_pow_right (by decide) (by omega))
        _ ≤ (2 ^ 52 + f') * 2 ^ (e' - 1) := Nat.mul_le_mul_right _ (by omega)
  · by_cases low : e = 0
    · rw [if_pos low, if_pos low]
      omega
    · rw [if_neg low, if_neg low]
      exact Nat.mul_lt_mul_of_pos_right (by omega) (Nat.two_pow_pos _)
  · omega

theorem signedUnits_lt {r r' : Int} (less : r < r') :
    signed (decide (r < 0)) (unitsOf r.natAbs) < signed (decide (r' < 0)) (unitsOf r'.natAbs) := by
  have order {m n : Nat} (below : m < n) := unitsOf_strictMono below
  have zero := unitsOf_zero
  by_cases below : r < 0 <;> by_cases below' : r' < 0
  · have := order (by omega : r'.natAbs < r.natAbs)
    simp only [signed, below, below', decide_true, if_true]
    omega
  · have := order (by omega : 0 < r.natAbs)
    simp only [signed, below, below', decide_true, decide_false, if_true, Bool.false_eq_true,
      if_false]
    omega
  · omega
  · have := order (by omega : r.natAbs < r'.natAbs)
    simp only [signed, below, below', decide_false, Bool.false_eq_true, if_false]
    omega

def atRank (r : Int) : Extended :=
  if r.natAbs < 2047 * 2 ^ 52 then ofRat (signed (decide (r < 0)) (unitsOf r.natAbs) / one)
  else if r < 0 then ⊥ else ⊤

theorem atRank_lt {r r' : Int} (within : r.natAbs ≤ 2047 * 2 ^ 52)
    (within' : r'.natAbs ≤ 2047 * 2 ^ 52) (less : r < r') : atRank r < atRank r' := by
  unfold atRank
  by_cases inner : r.natAbs < 2047 * 2 ^ 52 <;> by_cases inner' : r'.natAbs < 2047 * 2 ^ 52
  · have positive : (0 : ℚ) < (one : Nat) := Nat.cast_pos.2 (by decide)
    have order : ((signed (decide (r < 0)) (unitsOf r.natAbs) : Int) : ℚ) <
        (signed (decide (r' < 0)) (unitsOf r'.natAbs) : Int) :=
      Int.cast_lt.2 (signedUnits_lt less)
    rw [if_pos inner, if_pos inner', ofRat_lt_ofRat]
    exact div_lt_div_of_pos_right order positive
  · rw [if_pos inner, if_neg inner', if_neg (by omega)]
    exact ofRat_lt_top _
  · rw [if_neg inner, if_pos inner', if_pos (by omega)]
    exact bot_lt_ofRat _
  · rw [if_neg inner, if_neg inner', if_pos (by omega), if_neg (by omega)]
    exact bot_lt_top

theorem magnitude_split (x : Double) :
    x.exponentField = x.magnitude / 2 ^ 52 ∧ x.fraction = x.magnitude % 2 ^ 52 := by
  have small := x.bits.toNat_lt
  unfold exponentField fraction magnitude
  omega

theorem natAbs_rank (x : Double) : x.rank.natAbs = x.magnitude := natAbs_signed _ _

theorem rank_neg_iff (x : Double) : x.rank < 0 ↔ x.negative = true ∧ x.magnitude ≠ 0 := by
  change signed x.negative x.magnitude < 0 ↔ _
  cases x.negative <;> simp [signed, Nat.pos_iff_ne_zero]

theorem magnitude_le {x : Double} (number : x.isNaN = false) :
    x.magnitude ≤ 2047 * 2 ^ 52 := by
  obtain ⟨field, fraction⟩ := x.magnitude_split
  have small : x.magnitude < 2 ^ 63 := Nat.mod_lt _ (Nat.two_pow_pos 63)
  simp only [isNaN, field, fraction, decide_eq_false_iff_not] at number
  omega

theorem denotes?_rank {x : Double} (number : x.isNaN = false) :
    x.denotes? = some (atRank x.rank) := by
  obtain ⟨field, fraction⟩ := x.magnitude_split
  have small := magnitude_le number
  have sign := x.rank_neg_iff
  rw [denotes?_eq, atRank, x.natAbs_rank]
  by_cases inner : x.magnitude < 2047 * 2 ^ 52
  · have units : x.parts = .finite x.negative (unitsOf x.magnitude) := by
      rw [parts, if_neg (by omega), spacing, Nat.one_shiftLeft, field, fraction]
      unfold unitsOf
      split <;> rfl
    rw [units, if_pos inner]
    by_cases zero : x.magnitude = 0
    · simp [zero, unitsOf_zero, signed]
    · have same : decide (x.rank < 0) = x.negative := by
        rw [Bool.eq_iff_iff, decide_eq_true_eq, sign]
        exact and_iff_left zero
      rw [same]
  · have infinite : x.parts = .infinite x.negative := by
      rw [parts, if_pos (by omega), if_pos (by omega)]
    rw [infinite, if_neg inner]
    have same : x.rank < 0 ↔ x.negative = true := sign.trans (and_iff_left (by omega))
    simp only [same]

theorem compare_exact {x y : Double} {p q : Extended} (left : x.denotes? = some p)
    (right : y.denotes? = some q) :
    (x.lt y = true ↔ p < q) ∧ (x.le y = true ↔ p ≤ q) ∧ (x.eq y = true ↔ p = q) := by
  have number {z : Double} {r : Extended} (some : z.denotes? = some r) : z.isNaN = false := by
    rw [← Bool.not_eq_true, ← denotes?_eq_none, some]
    exact Option.some_ne_none r
  have inside {z : Double} (number : z.isNaN = false) :
      z.rank ∈ {r : Int | r.natAbs ≤ 2047 * 2 ^ 52} := by
    rw [Set.mem_ofPred_eq, z.natAbs_rank]
    exact magnitude_le number
  have numberX := number left
  have numberY := number right
  rw [denotes?_rank numberX, Option.some.injEq] at left
  rw [denotes?_rank numberY, Option.some.injEq] at right
  subst left right
  have order : StrictMonoOn atRank {r | r.natAbs ≤ 2047 * 2 ^ 52} :=
    fun _ within _ within' less => atRank_lt within within' less
  rw [order.lt_iff_lt (inside numberX) (inside numberY),
    order.le_iff_le (inside numberX) (inside numberY),
    order.injOn.eq_iff (inside numberX) (inside numberY)]
  simp [lt, le, eq, numberX, numberY]

end Double

end LuaMachine
