import LuaMachine.Instruction.FloatByte
import LuaMachine.Instruction.Word
import Mathlib.Tactic.Ring

set_option autoImplicit false

namespace LuaMachine.FloatByte

-- `m` units of `2 ^ e` are the least that reach `x`, and of half the unit 15 would not be enough.
structure RoundsUp (x m e : Nat) : Prop where
  reaches : x ≤ m * 2 ^ e
  nearest : m * 2 ^ e < x + 2 ^ e
  coarse : 15 * 2 ^ e < 2 * x

namespace RoundsUp

variable {x m e : Nat}

theorem start (large : 8 ≤ x) : RoundsUp x x 0 := ⟨by omega, by omega, by omega⟩

theorem halve (rounds : RoundsUp x m e) (k : Nat) (large : 15 * 2 ^ k + 2 ≤ 2 * m) :
    RoundsUp x ((m + (2 ^ k - 1)) / 2 ^ k) (e + k) := by
  have unit : 0 < 2 ^ k := Nat.two_pow_pos k
  have divided := Nat.div_add_mod (m + (2 ^ k - 1)) (2 ^ k)
  have left := Nat.mod_lt (m + (2 ^ k - 1)) unit
  generalize (m + (2 ^ k - 1)) / 2 ^ k = q at divided ⊢
  have low : m ≤ 2 ^ k * q := by omega
  have high : 2 ^ k * q + 1 ≤ m + 2 ^ k := by omega
  have scaled : q * 2 ^ (e + k) = 2 ^ k * q * 2 ^ e := by ring
  have low' := Nat.mul_le_mul_right (2 ^ e) low
  have high' := Nat.mul_le_mul_right (2 ^ e) high
  have large' := Nat.mul_le_mul_right (2 ^ e) large
  obtain ⟨reaches, nearest, coarse⟩ := rounds
  have units : 2 ^ (e + k) = 2 ^ k * 2 ^ e := by ring
  constructor
  · omega
  · rw [scaled, units]
    rw [Nat.add_mul, Nat.add_mul] at high'
    omega
  · rw [units, ← Nat.mul_assoc]
    rw [Nat.add_mul, Nat.mul_assoc 2 m] at large'
    omega

theorem exponent_lt (rounds : RoundsUp x m e) {width : Nat} (bound : x < 2 ^ (width + 2)) :
    e < width := by
  have coarse := rounds.coarse
  by_contra great
  have units : 2 ^ width ≤ 2 ^ e := Nat.pow_le_pow_right (by decide) (by omega)
  rw [Nat.pow_add] at bound
  omega

theorem mantissa_ge (rounds : RoundsUp x m e) : 8 ≤ m := by
  by_contra few
  have reached := Nat.mul_le_mul_right (2 ^ e) (show m ≤ 7 by omega)
  have := rounds.reaches
  have := rounds.coarse
  omega

theorem least (rounds : RoundsUp x m e) {m' e' : Nat} (short : m' < 16)
    (reaches : x ≤ m' * 2 ^ e') : m * 2 ^ e ≤ m' * 2 ^ e' := by
  have nearest := rounds.nearest
  by_cases finer : e' < e
  · -- Even 15 units of half the size would not reach `x`.
    obtain ⟨d, rfl⟩ := Nat.exists_eq_add_of_lt finer
    have coarse := rounds.coarse
    have units : 2 ^ e' ≤ 2 ^ (e' + d) := Nat.pow_le_pow_right (by decide) (by omega)
    have most := Nat.mul_le_mul (show m' ≤ 15 by omega) units
    rw [Nat.pow_succ] at coarse
    omega
  · obtain ⟨d, rfl⟩ := Nat.exists_eq_add_of_le (Nat.le_of_not_lt finer)
    have scaled : m' * 2 ^ (e + d) = m' * 2 ^ d * 2 ^ e := by ring
    rw [scaled] at reaches ⊢
    have within : m * 2 ^ e < (m' * 2 ^ d + 1) * 2 ^ e := by
      rw [Nat.add_mul]
      omega
    have few := Nat.lt_of_mul_lt_mul_right within
    exact Nat.mul_le_mul_right _ (Nat.le_of_lt_succ few)

end RoundsUp

section Rounds

variable {x : Nat} {c e : UInt32}

theorem round_rounds (rounds : RoundsUp x c.toNat e.toNat) (bound : x < 2 ^ 32)
    (up width : UInt32) (k : Nat) (fits : c.toNat + up.toNat < 2 ^ 32)
    (filled : up.toNat = 2 ^ k - 1) (taken : width.toNat = k) (short : k < 32)
    (large : 15 * 2 ^ k + 2 ≤ 2 * c.toNat) :
    add? c up = some (c + up) ∧ add? e width = some (e + width) ∧
      ((c + up) >>> width).toNat = (c.toNat + (2 ^ k - 1)) / 2 ^ k ∧
      RoundsUp x ((c + up) >>> width).toNat (e + width).toNat := by
  have exponent : e.toNat < 30 := rounds.exponent_lt bound
  have sum : (e + width).toNat = e.toNat + k := by
    rw [UInt32.toNat_add, taken]
    omega
  have value : ((c + up) >>> width).toNat = (c.toNat + (2 ^ k - 1)) / 2 ^ k := by
    rw [UInt32.toNat_shiftRight, UInt32.toNat_add, Nat.mod_eq_of_lt fits, taken, filled,
      Nat.mod_eq_of_lt short, Nat.shiftRight_eq_div_pow]
  refine ⟨if_pos fits, if_pos (by omega), value, ?_⟩
  rw [sum, value]
  exact rounds.halve k large

-- By induction on the rounds that are left: each one halves what they have to bring below 16.
theorem normalize?_run (rounds : RoundsUp x c.toNat e.toNat) (bound : x < 2 ^ 32)
    (fits : c.toNat + 15 < 2 ^ 32) (fuel : Nat) (enough : c.toNat ≤ 15 * 2 ^ fuel) :
    ∃ m e', normalize? (fuel + 1) c e = some (m, e') ∧ m.toNat < 16 ∧
      RoundsUp x m.toNat e'.toNat := by
  induction fuel generalizing c e with
  | zero =>
    have near : ¬ c ≥ 128 ∧ ¬ c ≥ 16 := by
      simp only [ge_iff_le, UInt32.le_iff_toNat_le, UInt32.reduceToNat]
      omega
    simp only [normalize?, if_neg near.1, if_neg near.2]
    exact ⟨c, e, rfl, by omega, rounds⟩
  | succ fuel ih =>
    unfold normalize?
    split
    next far =>
      have large : 128 ≤ c.toNat := far
      obtain ⟨added, counted, value, rounds⟩ :=
        round_rounds rounds bound 15 4 4 fits rfl rfl (by decide) (by omega)
      rw [added, counted]
      exact ih rounds (by omega) (by omega)
    next =>
      split
      next far =>
        have large : 16 ≤ c.toNat := far
        have fits : c.toNat + 1 < 2 ^ 32 := by omega
        obtain ⟨added, counted, value, rounds⟩ :=
          round_rounds rounds bound 1 1 1 fits rfl rfl (by decide) (by omega)
        rw [added, counted]
        exact ih rounds (by omega) (by omega)
      next near =>
        refine ⟨c, e, rfl, ?_, rounds⟩
        simpa [UInt32.le_iff_toNat_le] using near

end Rounds

section Bytes

variable {x r : UInt32}

theorem not_lt_eight (large : 8 ≤ x.toNat) : ¬ x < 8 := by
  rw [UInt32.lt_iff_toNat_lt]
  exact Nat.not_lt.2 large

theorem encode_small (small : x.toNat < 8) : encode x = some x := by
  rw [encode, if_pos (UInt32.lt_iff_toNat_lt.2 small)]

theorem decode_small (small : r.toNat < 8) : (decode r).toNat = r.toNat := by
  rw [decode, if_pos (UInt32.lt_iff_toNat_lt.2 small), UInt32.toNat_toUInt64]

theorem toNat_decode (large : 8 ≤ r.toNat) (byte : r.toNat ≤ 255) :
    (decode r).toNat = (r.toNat % 8 + 8) * 2 ^ (r.toNat / 8 - 1) := by
  have low : (r &&& 7).toNat = r.toNat % 8 := Nat.and_two_pow_sub_one_eq_mod r.toNat 3
  have high : (r >>> 3).toNat = r.toNat / 8 := Nat.shiftRight_eq_div_pow r.toNat 3
  have mantissa : ((r &&& 7) + 8).toNat = r.toNat % 8 + 8 := by
    simp only [UInt32.toNat_add, low, UInt32.reduceToNat]
    omega
  have above : (1 : UInt32) ≤ r >>> 3 :=
    UInt32.le_iff_toNat_le.2 (show 1 ≤ (r >>> 3).toNat by omega)
  have exponent : (r >>> 3 - 1).toNat = r.toNat / 8 - 1 := by
    rw [UInt32.toNat_sub_of_le _ _ above, high]
    rfl
  have scale : (r.toNat / 8 - 1) % 64 = r.toNat / 8 - 1 := Nat.mod_eq_of_lt (by omega)
  have units : 2 ^ (r.toNat / 8 - 1) ≤ 2 ^ 30 := Nat.pow_le_pow_right (by decide) (by omega)
  have most := Nat.mul_le_mul (show r.toNat % 8 + 8 ≤ 15 by omega) units
  rw [decode, if_neg (not_lt_eight large), UInt64.toNat_shiftLeft, UInt32.toNat_toUInt64,
    UInt32.toNat_toUInt64, mantissa, exponent, scale, Nat.shiftLeft_eq]
  exact Nat.mod_eq_of_lt (by omega)

theorem encode_rounds (large : 8 ≤ x.toNat) (fits : x.toNat + 15 < 2 ^ 32) :
    ∃ r m e, encode x = some r ∧ r.toNat = 8 * (e + 1) + (m - 8) ∧ m < 16 ∧
      RoundsUp x.toNat m e := by
  have bound := x.toNat_lt
  obtain ⟨m, e, ran, short, rounds⟩ :=
    normalize?_run (e := 0) (.start large) bound fits 31 (by omega)
  have exponent : e.toNat < 30 := rounds.exponent_lt bound
  have mantissa : 8 ≤ m := UInt32.le_iff_toNat_le.2 rounds.mantissa_ge
  have next : (e + 1).toNat = e.toNat + 1 := by
    simp only [UInt32.toNat_add, UInt32.reduceToNat]
    omega
  have digits : (m - 8).toNat = m.toNat - 8 := UInt32.toNat_sub_of_le m 8 mantissa
  have counted : add? e 1 = some (e + 1) := if_pos (by simp only [UInt32.reduceToNat]; omega)
  have stripped : sub? m 8 = some (m - 8) := if_pos mantissa
  refine ⟨((e + 1) <<< 3) ||| (m - 8), m.toNat, e.toNat, ?_, ?_, short, rounds⟩
  · rw [encode, if_neg (not_lt_eight large), ran]
    simp only [Option.bind_eq_bind, Option.bind_some, counted, stripped]
    rfl
  · have shifted : ((e + 1) <<< 3).toNat = (e.toNat + 1) <<< 3 := by
      simp only [UInt32.toNat_shiftLeft, next, UInt32.reduceToNat, Nat.shiftLeft_eq,
        Nat.reduceMod, Nat.reducePow]
      omega
    have apart : m.toNat - 8 < 2 ^ 3 := by omega
    rw [UInt32.toNat_or, shifted, digits, ← Nat.shiftLeft_add_eq_or_of_lt apart, Nat.shiftLeft_eq]
    omega

theorem encode_least (fits : x.toNat + 15 < 2 ^ 32) :
    ∃ r, encode x = some r ∧ r.toNat ≤ 255 ∧ x.toNat ≤ (decode r).toNat ∧
      ∀ r' : UInt32, r'.toNat ≤ 255 → x.toNat ≤ (decode r').toNat →
        (decode r).toNat ≤ (decode r').toNat := by
  by_cases small : x.toNat < 8
  · have itself := decode_small small
    refine ⟨x, encode_small small, by omega, by omega, ?_⟩
    rw [itself]
    exact fun r' _ reaches => reaches
  · obtain ⟨r, m, e, encoded, value, short, rounds⟩ :=
      encode_rounds (Nat.le_of_not_lt small) fits
    have exponent : e < 30 := rounds.exponent_lt x.toNat_lt
    have mantissa := rounds.mantissa_ge
    have size : (decode r).toNat = m * 2 ^ e := by
      rw [toNat_decode (by omega) (by omega), value]
      congr 1
      · omega
      · congr 1
        omega
    refine ⟨r, encoded, by omega, ?_⟩
    rw [size]
    refine ⟨rounds.reaches, fun r' byte reaches => ?_⟩
    by_cases tiny : r'.toNat < 8
    · rw [decode_small tiny] at reaches
      omega
    · rw [toNat_decode (Nat.le_of_not_lt tiny) byte] at reaches ⊢
      exact rounds.least (by omega) reaches

-- No byte stands for one of the last 15 words: in units of 16 or more they are not whole.
theorem fits_of_exact (byte : r.toNat ≤ 255) (exact : (decode r).toNat = x.toNat) :
    x.toNat + 15 < 2 ^ 32 := by
  have bound := x.toNat_lt
  by_cases tiny : r.toNat < 8
  · rw [decode_small tiny] at exact
    omega
  · rw [toNat_decode (Nat.le_of_not_lt tiny) byte] at exact
    by_cases fine : r.toNat / 8 - 1 < 4
    · have units : 2 ^ (r.toNat / 8 - 1) ≤ 2 ^ 3 := Nat.pow_le_pow_right (by decide) (by omega)
      have most := Nat.mul_le_mul (show r.toNat % 8 + 8 ≤ 15 by omega) units
      omega
    · obtain ⟨d, scale⟩ := Nat.exists_eq_add_of_le (Nat.le_of_not_lt fine)
      have whole : x.toNat = 16 * ((r.toNat % 8 + 8) * 2 ^ d) := by
        rw [← exact, scale, Nat.pow_add, Nat.mul_left_comm]
      omega

-- Beyond it the very first sum is no word.
theorem encode_stops (stops : 2 ^ 32 ≤ x.toNat + 15) : encode x = none := by
  have bound := x.toNat_lt
  have large : ¬ x < 8 := not_lt_eight (by omega)
  have far : x ≥ 128 := UInt32.le_iff_toNat_le.2 (show 128 ≤ x.toNat by omega)
  have overflow : add? x 15 = none := if_neg (Nat.not_lt.2 stops)
  rw [encode, if_neg large, normalize?, if_pos far, overflow]
  rfl

end Bytes

/-- The byte for a size is computed just if 15 more are a word too. Then it stands for the least
size not below the given one that any byte stands for. A size that a byte stands for is kept. -/
theorem sizes_roundUp (x : UInt32) :
    (x.toNat + 15 < 2 ^ 32 →
      ∃ r, encode x = some r ∧ r ≤ 255 ∧ x.toUInt64 ≤ decode r ∧
        ∀ r' ≤ 255, ¬ (x.toUInt64 ≤ decode r' ∧ decode r' < decode r)) ∧
    (∀ r ≤ 255, decode r = x.toUInt64 →
      ∃ r', encode x = some r' ∧ decode r' = x.toUInt64) ∧
    (2 ^ 32 ≤ x.toNat + 15 → encode x = none) := by
  refine ⟨fun fits => ?_, fun r byte exact => ?_, encode_stops⟩
  · obtain ⟨r, encoded, byte, reaches, least⟩ := encode_least fits
    refine ⟨r, encoded, UInt32.le_iff_toNat_le.2 byte, ?_, fun r' byte ⟨reached, smaller⟩ => ?_⟩
    · exact UInt64.le_iff_toNat_le.2 (by simpa using reaches)
    · rw [UInt64.le_iff_toNat_le, UInt32.toNat_toUInt64] at reached
      have := least r' (UInt32.le_iff_toNat_le.1 byte) reached
      exact absurd (UInt64.lt_iff_toNat_lt.1 smaller) (Nat.not_lt.2 this)
  · have byte := UInt32.le_iff_toNat_le.1 byte
    have same : (decode r).toNat = x.toNat := by rw [exact, UInt32.toNat_toUInt64]
    obtain ⟨r', encoded, -, reaches, least⟩ := encode_least (fits_of_exact byte same)
    have upper := least r byte (Nat.le_of_eq same.symm)
    refine ⟨r', encoded, ?_⟩
    rw [← UInt64.toNat_inj, UInt32.toNat_toUInt64]
    omega

theorem sizes_roundUp_greatest :
    encode 4294967280 = some 240 ∧ decode 240 = 4294967296 ∧
      ∀ r ≤ 255, ¬ (4294967280 ≤ decode r ∧ decode r < 4294967296) := by
  obtain ⟨r, encoded, -, -, least⟩ := (sizes_roundUp 4294967280).1 (by decide)
  have value : encode 4294967280 = some 240 := by decide
  cases encoded.symm.trans value
  exact ⟨value, by decide, least⟩

theorem sizes_roundUp_stops :
    encode 4294967295 = none ∧ decode 240 = (4294967295 : UInt32).toUInt64 + 1 := by
  decide

end LuaMachine.FloatByte
