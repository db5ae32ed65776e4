import LuaMachine.Machine.ForLoop
import Mathlib.Tactic.Linarith

set_option autoImplicit false

namespace LuaMachine.ForLoop

theorem toNat_unsigned (x : Int64) : (x.toUInt64.toNat : Int) = x.toInt % 2 ^ 64 := by
  have signed : x.toInt = (x.toUInt64.toNat : Int).bmod (2 ^ 64) := by
    rw [← Int64.toInt_toBitVec, ← Int64.toBitVec_toUInt64, ← UInt64.toNat_toBitVec]
    exact BitVec.toInt_eq_toNat_bmod _
  have bound := x.toUInt64.toNat_lt
  have same := Int.bmod_emod (x := (x.toUInt64.toNat : Int)) (m := 2 ^ 64)
  rw [← signed] at same
  omega

def Within (limit step v : Int) : Prop := if 0 < step then v ≤ limit else limit ≤ v

instance (limit step v : Int) : Decidable (Within limit step v) :=
  inferInstanceAs (Decidable (if 0 < step then v ≤ limit else limit ≤ v))

theorem within_up {limit step v : Int} (up : 0 < step) : Within limit step v ↔ v ≤ limit := by
  rw [Within, if_pos up]

theorem within_down {limit step v : Int} (down : ¬ 0 < step) :
    Within limit step v ↔ limit ≤ v := by
  rw [Within, if_neg down]

theorem Within.self (limit step : Int) : Within limit step limit := by
  unfold Within
  split <;> exact Int.le_refl limit

-- What has passed the limit stays beyond it.
theorem Within.first {limit step init : Int} {k : Nat}
    (within : Within limit step (init + k * step)) : Within limit step init := by
  by_cases up : 0 < step
  · have : 0 ≤ k * step := Int.mul_nonneg (Int.natCast_nonneg k) (Int.le_of_lt up)
    rw [within_up up] at within ⊢
    omega
  · have : k * step ≤ 0 := Int.mul_nonpos_of_nonneg_of_nonpos (Int.natCast_nonneg k) (by omega)
    rw [within_down up] at within ⊢
    omega

theorem toNat_distance {low high : Int64} (le : low ≤ high) :
    ((high.toUInt64 - low.toUInt64).toNat : Int) = high.toInt - low.toInt := by
  have := toNat_unsigned low
  have := toNat_unsigned high
  have := low.le_toInt
  have := low.toInt_lt
  have := high.le_toInt
  have := high.toInt_lt
  have := Int64.le_iff_toInt_le.1 le
  rw [UInt64.toNat_sub]
  omega

-- The step may be the least integer, which has no negative among the integers.
theorem toNat_stride {step : Int64} (down : step.toInt < 0) :
    (((-(step + 1)).toUInt64 + 1).toNat : Int) = -step.toInt := by
  have low := step.le_toInt
  have next : (step + 1).toInt = step.toInt + 1 := by
    rw [Int64.toInt_add]
    exact Int.bmod_eq_of_le (by simp; omega) (by simp; omega)
  have negated : (-(step + 1)).toInt = -(step.toInt + 1) := by
    rw [Int64.toInt_neg, next]
    exact Int.bmod_eq_of_le (by omega) (by omega)
  have := toNat_unsigned (-(step + 1))
  rw [UInt64.toNat_add, UInt64.toNat_one]
  omega

theorem le_div_iff {distance stride : UInt64} {a d : Int} (distance_eq : (distance.toNat : Int) = a)
    (stride_eq : (stride.toNat : Int) = d) (positive : 0 < d) (k : Nat) :
    k ≤ (distance / stride).toNat ↔ k * d ≤ a := by
  subst distance_eq stride_eq
  rw [UInt64.toNat_div, Nat.le_div_iff_mul_le (by omega)]
  exact_mod_cast Iff.rfl

theorem count?_exact (init limit : Int64) {step : Int64} (nonzero : step ≠ 0) :
    match count? init limit step with
    | none => ¬ Within limit.toInt step.toInt init.toInt
    | some rounds => ∀ k : Nat,
      k ≤ rounds.toNat ↔ Within limit.toInt step.toInt (init.toInt + k * step.toInt) := by
  unfold count?
  by_cases up : 0 < step
  · have up' : 0 < step.toInt := Int64.lt_iff_toInt_lt.1 up
    simp only [if_pos up, within_up up']
    by_cases first : init ≤ limit
    · have stride : (step.toUInt64.toNat : Int) = step.toInt := by
        have := toNat_unsigned step
        have := step.toInt_lt
        omega
      rw [if_pos first]
      intro k
      rw [le_div_iff (toNat_distance first) stride up']
      omega
    · rw [if_neg first, ← Int64.le_iff_toInt_le]
      exact first
  · have down : step.toInt < 0 := by
      have : step.toInt ≠ 0 := fun same => nonzero (Int64.toInt_inj.1 same)
      have : ¬ 0 < step.toInt := fun pos => up (Int64.lt_iff_toInt_lt.2 pos)
      omega
    simp only [if_neg up, if_neg nonzero, within_down (Int.not_lt.2 (Int.le_of_lt down))]
    by_cases first : limit ≤ init
    · rw [if_pos first]
      intro k
      rw [le_div_iff (toNat_distance first) (toNat_stride down) (by omega), Int.mul_neg]
      omega
    · rw [if_neg first, ← Int64.le_iff_toInt_le]
      exact first

def Start.ofCount : Option UInt64 → Start
  | none => .skip
  | some rounds => .counted rounds

def Start.upTo (limit : Int64 × Bool) (init step : Int64) : Start :=
  ofCount (if limit.2 then none else count? init limit.1 step)

theorem Start.upTo_integer (limit init step : Int64) :
    Start.upTo (limit, false) init step = ofCount (count? init limit step) := by
  rw [upTo, if_neg Bool.false_ne_true]

-- The limit lets the loop come as far as the index `i`.
def Reaches (limit : Int64 × Bool) (step i : Int64) : Prop :=
  limit.2 = false ∧ Within limit.1.toInt step.toInt i.toInt

theorem start_limited (init : Int64) {v : Value} {step : Int64} {limit : Int64 × Bool}
    (limited : limit? v step = some limit) :
    start (.int init) v (.int step) = .ok (.upTo limit init step) := by
  simp only [start, limited, Start.upTo]
  cases if limit.2 then none else count? init limit.1 step <;> rfl

theorem Start.upTo_ne (limit : Int64 × Bool) (init step : Int64) (x y z : Double) :
    Start.upTo limit init step ≠ .floats x y z := by
  unfold upTo
  cases if limit.2 then none else count? init limit.1 step <;> exact nofun

def Start.indices (init step : Int64) : Start → List Int64
  | .counted rounds => (List.range (rounds.toNat + 1)).map fun k => init + .ofNat k * step
  | _ => []

theorem Start.length_indices_le (plan : Start) (init step : Int64) :
    (plan.indices init step).length ≤ 2 ^ 64 := by
  cases plan with
  | counted rounds =>
    simp only [indices, List.length_map, List.length_range]
    exact rounds.toNat_lt
  | skip | floats => exact Nat.zero_le _

theorem Start.index_eq {init step : Int64} {plan : Start} {k : Nat} {i : Int64}
    (found : (plan.indices init step)[k]? = some i) : i = init + .ofNat k * step := by
  unfold indices at found
  split at found
  · simp only [List.getElem?_map, Option.map_eq_some_iff] at found
    obtain ⟨j, inRange, rfl⟩ := found
    obtain ⟨-, rfl⟩ := List.getElem?_eq_some_iff.1 inRange
    rw [List.getElem_range]
  · simp at found

theorem toInt_index (init step : Int64) (k : Nat) {v : Int}
    (exact : init.toInt + k * step.toInt = v) (low : -2 ^ 63 ≤ v) (high : v < 2 ^ 63) :
    (init + .ofNat k * step).toInt = v := by
  have wrapped : (init + .ofNat k * step).toInt = (init.toInt + k * step.toInt).bmod (2 ^ 64) := by
    rw [Int64.toInt_add, Int64.toInt_mul, Int64.toInt_ofNat']
    simp [Int.add_bmod]
  rw [wrapped, exact]
  exact Int.bmod_eq_of_le (by omega) (by omega)

theorem Within.range {limit step init : Int64} {v : Int} {k : Nat}
    (within : Within limit.toInt step.toInt v) (term : v = init.toInt + k * step.toInt) :
    -2 ^ 63 ≤ v ∧ v < 2 ^ 63 := by
  have := limit.le_toInt
  have := limit.toInt_lt
  have := init.le_toInt
  have := init.toInt_lt
  by_cases up : 0 < step.toInt
  · have : 0 ≤ k * step.toInt := Int.mul_nonneg (Int.natCast_nonneg k) (Int.le_of_lt up)
    rw [within_up up] at within
    omega
  · have : k * step.toInt ≤ 0 :=
      Int.mul_nonpos_of_nonneg_of_nonpos (Int.natCast_nonneg k) (by omega)
    rw [within_down up] at within
    omega

section

variable (init limit : Int64) {step : Int64} (nonzero : step ≠ 0)
include nonzero

theorem length_indices (k : Nat) :
    k < ((Start.ofCount (count? init limit step)).indices init step).length ↔
      Within limit.toInt step.toInt (init.toInt + k * step.toInt) := by
  have exact := count?_exact init limit nonzero
  cases counted : count? init limit step with
  | none =>
    rw [counted] at exact
    exact ⟨fun few => absurd few (Nat.not_lt_zero k), fun within => absurd within.first exact⟩
  | some rounds =>
    rw [counted] at exact
    simp only [Start.ofCount, Start.indices, List.length_map, List.length_range]
    rw [Nat.lt_succ_iff, exact k]

theorem toInt_indices {k : Nat} {i : Int64}
    (found : ((Start.ofCount (count? init limit step)).indices init step)[k]? = some i) :
    i.toInt = init.toInt + k * step.toInt := by
  obtain ⟨few, -⟩ := List.getElem?_eq_some_iff.1 found
  obtain ⟨low, high⟩ := ((length_indices init limit nonzero k).1 few).range rfl
  rw [Start.index_eq found]
  exact toInt_index init step k rfl low high

theorem indices_exact (k : Nat) (i : Int64) :
    ((Start.ofCount (count? init limit step)).indices init step)[k]? = some i ↔
      i.toInt = init.toInt + k * step.toInt ∧ Within limit.toInt step.toInt i.toInt := by
  constructor
  · intro found
    have term := toInt_indices init limit nonzero found
    obtain ⟨few, -⟩ := List.getElem?_eq_some_iff.1 found
    exact ⟨term, term ▸ (length_indices init limit nonzero k).1 few⟩
  · rintro ⟨term, within⟩
    have few := (length_indices init limit nonzero k).2 (term ▸ within)
    have found := List.getElem?_eq_getElem few
    have same := toInt_indices init limit nonzero found
    rw [found, Int64.toInt_inj.1 (same.trans term.symm)]

-- A limit on the wrong side of all integers stops the loop before the first round.
theorem indices_upTo (limit : Int64 × Bool) (k : Nat) (i : Int64) :
    ((Start.upTo limit init step).indices init step)[k]? = some i ↔
      i.toInt = init.toInt + k * step.toInt ∧ Reaches limit step i := by
  obtain ⟨cut, stop⟩ := limit
  cases stop with
  | true => simp [Start.upTo, Start.ofCount, Start.indices, Reaches]
  | false =>
    rw [Start.upTo_integer, indices_exact init cut nonzero]
    simp [Reaches]

end

end LuaMachine.ForLoop
