import LuaMachine.Proofs.ForLoop.Count
import LuaMachine.Value.Arith
import Mathlib.Data.Rat.Floor
import Mathlib.Tactic.Linarith
import Mathlib.Tactic.FieldSimp

set_option autoImplicit false

namespace LuaMachine.Arith

section

variable {a b q r : Int}

/-- `a` is `b` times `q`, and what remains is smaller than `b` and has its sign. -/
structure Divides (a b q r : Int) : Prop where
  sum : a = q * b + r
  small : |r| < |b|
  sign : r = 0 ∨ r.sign = b.sign

namespace Divides

theorem range (h : Divides a b q r) : 0 ≤ r ∧ r < b ∨ b < r ∧ r ≤ 0 := by
  have small := h.small
  rcases h.sign with rfl | sign
  · rw [abs_zero, abs_pos] at small
    omega
  · rcases lt_trichotomy b 0 with negative | rfl | positive
    · rw [Int.sign_eq_neg_one_of_neg negative, Int.sign_eq_neg_one_iff_neg] at sign
      rw [abs_of_neg sign, abs_of_neg negative] at small
      omega
    · rw [Int.sign_zero, Int.sign_eq_zero_iff_zero] at sign
      subst sign
      exact absurd small (lt_irrefl _)
    · rw [Int.sign_eq_one_of_pos positive, Int.sign_eq_one_iff_pos] at sign
      rw [abs_of_pos sign, abs_of_pos positive] at small
      omega

theorem of_range (sum : a = q * b + r) (range : 0 ≤ r ∧ r < b ∨ b < r ∧ r ≤ 0) :
    Divides a b q r := by
  refine ⟨sum, ?_, ?_⟩
  · rcases range with ⟨low, high⟩ | ⟨low, high⟩
    · rwa [abs_of_nonneg low, abs_of_pos (by omega)]
    · rw [abs_of_nonpos high, abs_of_neg (by omega)]
      omega
  · by_cases none : r = 0
    · exact .inl none
    · right
      rcases range with ⟨low, high⟩ | ⟨low, high⟩
      · rw [Int.sign_eq_one_of_pos (by omega : 0 < r), Int.sign_eq_one_of_pos (by omega : 0 < b)]
      · rw [Int.sign_eq_neg_one_of_neg (by omega : r < 0),
          Int.sign_eq_neg_one_of_neg (by omega : b < 0)]

theorem floor (h : Divides a b q r) : ⌊(a / b : ℚ)⌋ = q := by
  have range := h.range
  have nonzero : (b : ℚ) ≠ 0 := by
    have : b ≠ 0 := by omega
    exact_mod_cast this
  have split : (a / b : ℚ) = q + r / b := by
    rw [h.sum]
    push_cast
    field_simp
  have rest : ⌊(r / b : ℚ)⌋ = 0 := by
    rw [Int.floor_eq_zero_iff, Set.mem_Ico]
    rcases range with ⟨low, high⟩ | ⟨low, high⟩
    · have least : (0 : ℚ) ≤ r := by exact_mod_cast low
      have below : (r : ℚ) < b := by exact_mod_cast high
      exact ⟨div_nonneg least (by linarith), (div_lt_one (by linarith)).2 below⟩
    · have most : (r : ℚ) ≤ 0 := by exact_mod_cast high
      have above : (b : ℚ) < r := by exact_mod_cast low
      exact ⟨div_nonneg_of_nonpos most (by linarith), (div_lt_one_of_neg (by linarith)).2 above⟩
  rw [split, Int.floor_intCast_add, rest, add_zero]

end Divides

theorem tmod_range (a : Int) (nonzero : b ≠ 0) :
    (0 ≤ a → 0 ≤ a.tmod b) ∧ (a ≤ 0 → a.tmod b ≤ 0) ∧ (a.tmod b).natAbs < b.natAbs := by
  refine ⟨Int.tmod_nonneg b, fun nonpositive => ?_, ?_⟩
  · have mirrored := Int.tmod_nonneg b (Int.neg_nonneg.2 nonpositive)
    rw [Int.neg_tmod] at mirrored
    omega
  · rw [Int.natAbs_tmod]
    exact Nat.mod_lt _ (Int.natAbs_pos.2 nonzero)

-- Rounding toward zero goes wrong by one where the signs differ and something remains.
theorem divides_truncated (a : Int) (nonzero : b ≠ 0) :
    if a.tmod b ≠ 0 ∧ ¬ (a < 0 ↔ b < 0) then Divides a b (a.tdiv b - 1) (a.tmod b + b)
    else Divides a b (a.tdiv b) (a.tmod b) := by
  have sum := Int.tmod_add_mul_tdiv a b
  have product := Int.mul_comm b (a.tdiv b)
  obtain ⟨nonnegative, nonpositive, small⟩ := tmod_range a nonzero
  split
  next wrong =>
    refine .of_range ?_ (by omega)
    rw [Int.sub_mul, Int.one_mul]
    omega
  next right => exact .of_range (by omega) (by omega)

end

section

variable {x y : Int64}

theorem toInt_ne (different : x ≠ y) : x.toInt ≠ y.toInt := fun same =>
  different (Int64.toInt_inj.1 same)

theorem bmod_toInt (z : Int64) : z.toInt.bmod (2 ^ 64) = z.toInt := by
  have := z.le_toInt
  have := z.toInt_lt
  exact Int.bmod_eq_of_le (by omega) (by omega)

theorem toInt_sub_one (room : -2 ^ 63 < x.toInt) : (x - 1).toInt = x.toInt - 1 := by
  have := x.toInt_lt
  rw [Int64.toInt_sub, Int64.toInt_one]
  exact Int.bmod_eq_of_le (by omega) (by omega)

theorem toInt_add_mixed (mixed : ¬ (x.toInt < 0 ↔ y.toInt < 0)) :
    (x + y).toInt = x.toInt + y.toInt := by
  have := x.le_toInt
  have := x.toInt_lt
  have := y.le_toInt
  have := y.toInt_lt
  rw [Int64.toInt_add]
  exact Int.bmod_eq_of_le (by omega) (by omega)

theorem xor_neg_iff (x y : Int64) : x ^^^ y < 0 ↔ ¬ (x.toInt < 0 ↔ y.toInt < 0) := by
  have sign (z : Int64) : z.toBitVec.msb = decide (z.toInt < 0) := by
    rw [BitVec.msb_eq_toInt, Int64.toInt_toBitVec]
  have both := sign (x ^^^ y)
  rw [Int64.toBitVec_xor, BitVec.msb_xor, sign, sign] at both
  rw [Int64.lt_iff_toInt_lt, Int64.toInt_zero, ← decide_eq_true_iff (p := (x ^^^ y).toInt < 0),
    ← both]
  by_cases first : x.toInt < 0 <;> by_cases second : y.toInt < 0 <;> simp [first, second]

-- Where something remains there is an integer below the quotient.
theorem quotient_room (nonzero : y ≠ 0) (remains : x.toInt.tmod y.toInt ≠ 0) :
    -2 ^ 63 < x.toInt.tdiv y.toInt := by
  have low := x.le_toInt
  have high := x.toInt_lt
  obtain ⟨-, -, small⟩ := tmod_range x.toInt (toInt_ne nonzero)
  have half : x.toInt.natAbs / y.toInt.natAbs ≤ x.toInt.natAbs / 2 :=
    Nat.div_le_div_left (by omega) (by omega)
  have size : (x.toInt.tdiv y.toInt).natAbs = x.toInt.natAbs / y.toInt.natAbs :=
    Int.natAbs_tdiv _ _
  omega

theorem toInt_quotient (x : Int64) (other : y ≠ -1) : (x / y).toInt = x.toInt.tdiv y.toInt :=
  Int64.toInt_div_of_ne_right x y other

-- The remainder has the sign of the dividend, so that both ask for the same correction.
theorem corrected_iff (nonzero : y ≠ 0) :
    (x % y ≠ 0 ∧ x ^^^ y < 0 ↔
      x.toInt.tmod y.toInt ≠ 0 ∧ ¬ (x.toInt < 0 ↔ y.toInt < 0)) ∧
    (x % y ≠ 0 ∧ (x % y) ^^^ y < 0 ↔
      x.toInt.tmod y.toInt ≠ 0 ∧ ¬ (x.toInt < 0 ↔ y.toInt < 0)) := by
  have remains : x % y ≠ 0 ↔ x.toInt.tmod y.toInt ≠ 0 := by
    rw [← Int64.toInt_mod, ← Int64.toInt_zero, ne_eq, ne_eq, Int64.toInt_inj]
  obtain ⟨nonnegative, nonpositive, -⟩ := tmod_range x.toInt (toInt_ne nonzero)
  rw [remains, xor_neg_iff, xor_neg_iff, Int64.toInt_mod]
  refine ⟨Iff.rfl, and_congr_right fun rest => ?_⟩
  have same : x.toInt.tmod y.toInt < 0 ↔ x.toInt < 0 := by
    constructor <;> intro <;> omega
  rw [same]

theorem toInt_down (nonzero : y ≠ 0) (other : y ≠ -1) (remains : x.toInt.tmod y.toInt ≠ 0) :
    (x / y - 1).toInt = x.toInt.tdiv y.toInt - 1 := by
  have quotient := toInt_quotient x other
  rw [toInt_sub_one (quotient ▸ quotient_room nonzero remains), quotient]

theorem toInt_up (nonzero : y ≠ 0)
    (wrong : x.toInt.tmod y.toInt ≠ 0 ∧ ¬ (x.toInt < 0 ↔ y.toInt < 0)) :
    (x % y + y).toInt = x.toInt.tmod y.toInt + y.toInt := by
  obtain ⟨nonnegative, nonpositive, -⟩ := tmod_range x.toInt (toInt_ne nonzero)
  have remainder := Int64.toInt_mod x y
  rw [toInt_add_mixed (by omega), remainder]

theorem divides_words (x : Int64) (nonzero : y ≠ 0) :
    ∃ q, (floorDiv x y).toInt = q.bmod (2 ^ 64) ∧
      Divides x.toInt y.toInt q (floorMod x y).toInt := by
  by_cases unit : y = -1
  · subst unit
    refine ⟨-x.toInt, ?_, .of_range ?_ ?_⟩
    · rw [floorDiv, if_pos rfl, Int64.toInt_neg]
    · simp [floorMod]
    · simp [floorMod]
  · refine ⟨(floorDiv x y).toInt, (bmod_toInt _).symm, ?_⟩
    have truncated := divides_truncated x.toInt (toInt_ne nonzero)
    obtain ⟨down, up⟩ := corrected_iff (x := x) nonzero
    rw [floorDiv, if_neg unit, floorMod, if_neg unit]
    dsimp only
    split at truncated
    next wrong =>
      rw [if_pos (down.2 wrong), if_pos (up.2 wrong), toInt_down nonzero unit wrong.1,
        toInt_up nonzero wrong]
      exact truncated
    next right =>
      rw [if_neg (right ∘ down.1), if_neg (right ∘ up.1), toInt_quotient x unit, Int64.toInt_mod]
      exact truncated

end

def word? (n : Int) : Option Int64 :=
  if -2 ^ 63 ≤ n ∧ n < 2 ^ 63 then some (.ofInt n) else none

-- Division by zero stops a machine, and so does a quotient that is no word.
def quotient? (x y : Int64) : Option Int64 :=
  if y = 0 then none else word? (x.toInt.tdiv y.toInt)

def remainder? (x y : Int64) : Option Int64 := do
  let _ ← quotient? x y
  word? (x.toInt.tmod y.toInt)

-- So does a shift by more than the places of a word.
def places? (n : Int64) : Option UInt64 :=
  if 0 ≤ n.toInt ∧ n.toInt < 64 then some n.toUInt64 else none

def floorDiv? (x y : Int64) : Option Int64 :=
  if y = -1 then return -x
  else do
    let q ← quotient? x y
    let r ← remainder? x y
    if r ≠ 0 ∧ x ^^^ y < 0 then word? (q.toInt - 1) else return q

def floorMod? (x y : Int64) : Option Int64 :=
  if y = -1 then return 0
  else do
    let r ← remainder? x y
    if r ≠ 0 ∧ r ^^^ y < 0 then word? (r.toInt + y.toInt) else return r

def shiftLeft? (x n : Int64) : Option Int64 :=
  if n ≤ -64 ∨ 64 ≤ n then return 0
  else if 0 ≤ n then return (x.toUInt64 <<< (← places? n)).toInt64
  else return (x.toUInt64 >>> (← places? (← word? (-n.toInt)))).toInt64

/-- The operation on two integers, which stops where a step of it has no result. Sums, differences,
products and negatives are reduced, so that they always have one. -/
def stepwise (op : ArithOp) (x y : Int64) : Option (Except LuaError (Option Value)) :=
  let integer (r : Int64) : Except LuaError (Option Value) := .ok (some (.int r))
  match op with
  | .idiv =>
    if y = 0 then some (.error (.runtime .divisionByZero)) else (floorDiv? x y).map integer
  | .mod => if y = 0 then some (.error (.runtime .moduloByZero)) else (floorMod? x y).map integer
  | .shl => (shiftLeft? x y).map integer
  | .shr => (shiftLeft? x (-y)).map integer
  | _ => some (raw op (.int x) (.int y))

section

variable {x y : Int64}

theorem word?_toInt (z : Int64) : word? z.toInt = some z := by
  rw [word?, if_pos ⟨z.le_toInt, z.toInt_lt⟩, Int64.ofInt_toInt]

theorem quotient?_eq (x : Int64) (nonzero : y ≠ 0) (other : y ≠ -1) :
    quotient? x y = some (x / y) := by
  rw [quotient?, if_neg nonzero, ← toInt_quotient x other, word?_toInt]

theorem remainder?_eq (x : Int64) (nonzero : y ≠ 0) (other : y ≠ -1) :
    remainder? x y = some (x % y) := by
  rw [remainder?, quotient?_eq x nonzero other, ← Int64.toInt_mod]
  exact word?_toInt _

theorem floorDiv?_eq (x : Int64) (nonzero : y ≠ 0) : floorDiv? x y = some (floorDiv x y) := by
  by_cases unit : y = -1
  · rw [floorDiv?, floorDiv, if_pos unit, if_pos unit]
    rfl
  · rw [floorDiv?, floorDiv, if_neg unit, if_neg unit, quotient?_eq x nonzero unit,
      remainder?_eq x nonzero unit]
    simp only [Option.bind_eq_bind, Option.bind_some]
    split
    next wrong =>
      have remains := ((corrected_iff nonzero).1.1 wrong).1
      rw [toInt_quotient x unit, ← toInt_down nonzero unit remains, word?_toInt]
    next => rfl

theorem floorMod?_eq (x : Int64) (nonzero : y ≠ 0) : floorMod? x y = some (floorMod x y) := by
  by_cases unit : y = -1
  · rw [floorMod?, floorMod, if_pos unit, if_pos unit]
    rfl
  · rw [floorMod?, floorMod, if_neg unit, if_neg unit, remainder?_eq x nonzero unit]
    simp only [Option.bind_eq_bind, Option.bind_some]
    split
    next wrong =>
      rw [Int64.toInt_mod, ← toInt_up nonzero ((corrected_iff nonzero).2.1 wrong), word?_toInt]
    next => rfl

theorem places?_eq {n : Int64} (low : 0 ≤ n.toInt) (high : n.toInt < 64) :
    places? n = some n.toUInt64 := if_pos ⟨low, high⟩

def moved (u : Nat) (n : Int) : Int := ⌊(u * 2 ^ n : ℚ)⌋ % 2 ^ 64

theorem moved_up (u m : Nat) : moved u m = (u * 2 ^ m % 2 ^ 64 : Nat) := by
  have whole : (u * 2 ^ (m : Int) : ℚ) = (u * 2 ^ m : Nat) := by
    rw [zpow_natCast]
    push_cast
    rfl
  rw [moved, whole, Int.floor_natCast]
  push_cast
  rfl

theorem moved_down (u m : Nat) : moved u (-m) = (u / 2 ^ m % 2 ^ 64 : Nat) := by
  have quotient : (u * 2 ^ (-m : Int) : ℚ) = (u : ℚ) / (2 ^ m : Nat) := by
    rw [zpow_neg, zpow_natCast, div_eq_mul_inv]
    push_cast
    rfl
  rw [moved, quotient, Rat.floor_natCast_div_natCast]
  push_cast
  rfl

theorem moved_out (x : UInt64) {n : Int} (far : n ≤ -64 ∨ 64 ≤ n) : moved x.toNat n = 0 := by
  rcases far with down | up
  · obtain ⟨m, rfl⟩ := Int.exists_eq_neg_ofNat (by omega : n ≤ 0)
    have big : x.toNat < 2 ^ m :=
      Nat.lt_of_lt_of_le x.toNat_lt (Nat.pow_le_pow_right (by decide) (by omega))
    rw [moved_down, Nat.div_eq_of_lt big]
    rfl
  · obtain ⟨m, rfl⟩ := Int.eq_ofNat_of_zero_le (by omega : 0 ≤ n)
    have multiple : 2 ^ 64 ∣ x.toNat * 2 ^ m :=
      Nat.dvd_mul_left_of_dvd (Nat.pow_dvd_pow 2 (by omega)) _
    rw [moved_up, Nat.mod_eq_zero_of_dvd multiple]
    rfl

theorem shiftLeft_far (x : Int64) {n : Int64} (far : n.toInt ≤ -64 ∨ 64 ≤ n.toInt) :
    shiftLeft x n = 0 ∧ shiftLeft? x n = some 0 := by
  have beyond : n ≤ -64 ∨ 64 ≤ n := by
    rwa [Int64.le_iff_toInt_le, Int64.le_iff_toInt_le]
  exact ⟨if_pos beyond, if_pos beyond⟩

theorem shiftLeft_near (x : Int64) {n : Int64} (near : ¬ (n.toInt ≤ -64 ∨ 64 ≤ n.toInt)) :
    ((shiftLeft x n).toUInt64.toNat : Int) = moved x.toUInt64.toNat n.toInt ∧
      shiftLeft? x n = some (shiftLeft x n) := by
  have inside : ¬ (n ≤ -64 ∨ 64 ≤ n) := by
    rwa [Int64.le_iff_toInt_le, Int64.le_iff_toInt_le]
  have sign : 0 ≤ n ↔ 0 ≤ n.toInt := Int64.le_iff_toInt_le
  rw [shiftLeft, if_neg inside, shiftLeft?, if_neg inside]
  by_cases up : 0 ≤ n.toInt
  · have count := ForLoop.toNat_unsigned n
    have same : n.toInt = (n.toUInt64.toNat : Int) := by omega
    rw [if_pos (sign.2 up), if_pos (sign.2 up), places?_eq up (by omega), same, moved_up]
    refine ⟨?_, rfl⟩
    rw [UInt64.toUInt64_toInt64, UInt64.toNat_shiftLeft, Nat.shiftLeft_eq,
      Nat.mod_eq_of_lt (by omega : n.toUInt64.toNat < 64)]
  · have negated : (-n).toInt = -n.toInt := by
      rw [Int64.toInt_neg]
      exact Int.bmod_eq_of_le (by omega) (by omega)
    have count := ForLoop.toNat_unsigned (-n)
    have same : n.toInt = -((-n).toUInt64.toNat : Int) := by omega
    have below : x.toUInt64.toNat / 2 ^ (-n).toUInt64.toNat < 2 ^ 64 :=
      Nat.lt_of_le_of_lt (Nat.div_le_self _ _) x.toUInt64.toNat_lt
    rw [if_neg (up ∘ sign.1), if_neg (up ∘ sign.1), ← negated, word?_toInt]
    simp only [Option.bind_eq_bind, Option.bind_some]
    rw [places?_eq (by omega) (by omega), same, moved_down]
    refine ⟨?_, rfl⟩
    rw [UInt64.toUInt64_toInt64, UInt64.toNat_shiftRight, Nat.shiftRight_eq_div_pow,
      Nat.mod_eq_of_lt (by omega : (-n).toUInt64.toNat < 64), Nat.mod_eq_of_lt below]

theorem shiftLeft_exact (x n : Int64) :
    ((shiftLeft x n).toUInt64.toNat : Int) = moved x.toUInt64.toNat n.toInt ∧
      shiftLeft? x n = some (shiftLeft x n) := by
  by_cases far : n.toInt ≤ -64 ∨ 64 ≤ n.toInt
  · obtain ⟨zero, stepwise⟩ := shiftLeft_far x far
    rw [zero, stepwise, moved_out _ far]
    exact ⟨rfl, rfl⟩
  · exact shiftLeft_near x far

-- The least integer is its own negative, but the shift is too far either way.
theorem shiftRight_exact (x n : Int64) :
    ((shiftLeft x (-n)).toUInt64.toNat : Int) = moved x.toUInt64.toNat (-n.toInt) := by
  have low := n.le_toInt
  have high := n.toInt_lt
  have negative := Int64.toInt_neg n
  by_cases least : n.toInt = -2 ^ 63
  · have itself : (-n).toInt = -2 ^ 63 := by rw [negative, least]; rfl
    rw [(shiftLeft_far x (.inl (by omega))).1, moved_out _ (.inr (by omega))]
    rfl
  · rw [(shiftLeft_exact x (-n)).1, negative, Int.bmod_eq_of_le (by omega) (by omega)]

end

def Gives (op : ArithOp) (x y : Int64) (n : Int) : Prop :=
  ∃ r : Int64, raw op (.int x) (.int y) = .ok (some (.int r)) ∧ r.toInt = n.bmod (2 ^ 64)

def Moves (op : ArithOp) (x y : Int64) (n : Int) : Prop :=
  ∃ r : Int64, raw op (.int x) (.int y) = .ok (some (.int r)) ∧
    (r.toUInt64.toNat : Int) = moved x.toUInt64.toNat n

def Bitwise (op : ArithOp) (x y : Int64) (bit : Bool → Bool → Bool) : Prop :=
  ∃ r : Int64, raw op (.int x) (.int y) = .ok (some (.int r)) ∧
    ∀ i < 64, r.toBitVec.getLsbD i = bit (x.toBitVec.getLsbD i) (y.toBitVec.getLsbD i)

theorem raw_ints {op : ArithOp} {x y r : Int64} (arithmetic : op.isBitwise = false)
    (result : ints op x y = .ok (some r)) :
    raw op (.int x) (.int y) = .ok (some (.int r)) := by
  unfold raw
  rw [arithmetic, if_neg Bool.false_ne_true]
  simp only [Value.toNumber?, result]
  rfl

theorem raw_idiv (x : Int64) {y : Int64} (nonzero : y ≠ 0) :
    raw .idiv (.int x) (.int y) = .ok (some (.int (floorDiv x y))) :=
  raw_ints rfl (if_neg nonzero)

theorem raw_mod (x : Int64) {y : Int64} (nonzero : y ≠ 0) :
    raw .mod (.int x) (.int y) = .ok (some (.int (floorMod x y))) :=
  raw_ints rfl (if_neg nonzero)

theorem stepwise_eq (op : ArithOp) (x y : Int64) :
    stepwise op x y = some (raw op (.int x) (.int y)) := by
  cases op with
  | idiv =>
    by_cases zero : y = 0
    · subst zero
      rfl
    · rw [stepwise, if_neg zero, floorDiv?_eq x zero, raw_idiv x zero]
      rfl
  | mod =>
    by_cases zero : y = 0
    · subst zero
      rfl
    · rw [stepwise, if_neg zero, floorMod?_eq x zero, raw_mod x zero]
      rfl
  | shl =>
    rw [stepwise, (shiftLeft_exact x y).2]
    rfl
  | shr =>
    rw [stepwise, (shiftLeft_exact x (-y)).2]
    rfl
  | _ => rfl

theorem recombined {x y : Int64} {q : Int}
    (divides : Divides x.toInt y.toInt q (floorMod x y).toInt)
    (reduced : (floorDiv x y).toInt = q.bmod (2 ^ 64)) :
    x = floorDiv x y * y + floorMod x y := by
  rw [← Int64.toInt_inj, Int64.toInt_add, Int64.toInt_mul, reduced]
  simp only [Int.bmod_mul_bmod, Int.bmod_add_bmod]
  rw [← divides.sum, bmod_toInt]

/-- The arithmetic of integers is exact but for what does not fit, which is taken modulo 2^64:
division rounds down, shifts move the unsigned reading by any number of places, and no step of a
computation overflows on the way. Only a division by zero fails. -/
theorem integerArith_exact (x y : Int64) :
    (∀ op, stepwise op x y = some (raw op (.int x) (.int y))) ∧
    Gives .add x y (x.toInt + y.toInt) ∧ Gives .sub x y (x.toInt - y.toInt) ∧
    Gives .mul x y (x.toInt * y.toInt) ∧ Gives .unm x y (-x.toInt) ∧
    (y = 0 → raw .idiv (.int x) (.int y) = .error (.runtime .divisionByZero) ∧
      raw .mod (.int x) (.int y) = .error (.runtime .moduloByZero)) ∧
    (y ≠ 0 → ∃ q r : Int64, raw .idiv (.int x) (.int y) = .ok (some (.int q)) ∧
      raw .mod (.int x) (.int y) = .ok (some (.int r)) ∧
      q.toInt = ⌊(x.toInt / y.toInt : ℚ)⌋.bmod (2 ^ 64) ∧
      r.toInt = x.toInt - y.toInt * ⌊(x.toInt / y.toInt : ℚ)⌋ ∧
      x = q * y + r ∧ |r.toInt| < |y.toInt| ∧ (r = 0 ∨ r.toInt.sign = y.toInt.sign)) ∧
    Moves .shl x y y.toInt ∧ Moves .shr x y (-y.toInt) ∧
    Bitwise .band x y and ∧ Bitwise .bor x y or ∧ Bitwise .bxor x y xor ∧
    Bitwise .bnot x y fun a _ => !a := by
  refine ⟨fun op => stepwise_eq op x y, ⟨_, rfl, Int64.toInt_add x y⟩,
    ⟨_, rfl, Int64.toInt_sub x y⟩, ⟨_, rfl, Int64.toInt_mul x y⟩, ⟨_, rfl, Int64.toInt_neg x⟩,
    ?_, ?_, ⟨_, rfl, (shiftLeft_exact x y).1⟩, ⟨_, rfl, shiftRight_exact x y⟩,
    ⟨_, rfl, ?_⟩, ⟨_, rfl, ?_⟩, ⟨_, rfl, ?_⟩, ⟨_, rfl, ?_⟩⟩
  · rintro rfl
    exact ⟨rfl, rfl⟩
  · intro nonzero
    obtain ⟨q, reduced, divides⟩ := divides_words x nonzero
    have floor := divides.floor
    refine ⟨_, _, raw_idiv x nonzero, raw_mod x nonzero, ?_, ?_, recombined divides reduced,
      divides.small, ?_⟩
    · rw [floor, reduced]
    · have sum := divides.sum
      rw [floor, Int.mul_comm]
      omega
    · exact divides.sign.imp_left Int64.toInt_inj.1
  · exact fun i _ => BitVec.getLsbD_and
  · exact fun i _ => BitVec.getLsbD_or
  · exact fun i _ => BitVec.getLsbD_xor
  · intro i inside
    have bit := BitVec.getLsbD_not (x := x.toBitVec) (i := i)
    rwa [decide_eq_true inside, Bool.true_and] at bit

theorem integerArith_exact_least :
    (-1 : Int64) ≠ 0 ∧ ∃ q r : Int64,
      raw .idiv (.int .minValue) (.int (-1)) = .ok (some (.int q)) ∧
      raw .mod (.int .minValue) (.int (-1)) = .ok (some (.int r)) ∧
      q.toInt = (2 ^ 63 : Int).bmod (2 ^ 64) ∧ r.toInt = 0 ∧ Int64.minValue = q * -1 + r := by
  have nonzero : (-1 : Int64) ≠ 0 := by decide
  obtain ⟨-, -, -, -, -, -, divides, -⟩ := integerArith_exact .minValue (-1)
  obtain ⟨q, r, idiv, mod, quotient, remainder, whole, -⟩ := divides nonzero
  have floor : ⌊(Int64.minValue.toInt / (-1 : Int64).toInt : ℚ)⌋ = 2 ^ 63 := by
    have negative : (-1 : Int64).toInt = -1 := rfl
    rw [Int64.toInt_minValue, negative]
    norm_num
  rw [floor] at quotient remainder
  exact ⟨nonzero, q, r, idiv, mod, quotient, remainder, whole⟩

end LuaMachine.Arith
