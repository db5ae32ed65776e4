import LuaMachine.Proofs.Double.Rounding

set_option autoImplicit false

namespace LuaMachine

open Extended

namespace Order

open Double

theorem mixed_exact {x : Double} {q : Extended} (number : x.denotes? = some q) (i : Int64) :
    (intLtFloat i x = true ↔ ofWhole i.toInt < q) ∧ (intLeFloat i x = true ↔ ofWhole i.toInt ≤ q) ∧
      (floatLtInt x i = true ↔ q < ofWhole i.toInt) ∧
      (floatLeInt x i = true ↔ q ≤ ofWhole i.toInt) := by
  rw [denotes?_eq] at number
  unfold intLtFloat intLeFloat floatLtInt floatLeInt
  cases parts : x.parts with
  | nan => simp [parts] at number
  | infinite negative =>
    rw [parts] at number
    cases negative <;> cases number <;> simp [ofWhole]
  | finite negative units =>
    rw [parts] at number
    cases number
    simp [ofWhole, floorOf_eq_floor, ceilOf_eq_ceil, Int.lt_ceil, Int.le_floor, Int.floor_lt,
      Int.ceil_le]

theorem mixed_nan {x : Double} (nan : x.isNaN = true) (i : Int64) :
    intLtFloat i x = false ∧ intLeFloat i x = false ∧ floatLtInt x i = false ∧
      floatLeInt x i = false := by
  have parts := x.parts_nan_iff.2 nan
  simp [intLtFloat, intLeFloat, floatLtInt, floatLeInt, parts]

end Order

def Value.quantity? : Value → Option Extended
  | .int n => some (ofWhole n.toInt)
  | .float x => x.denotes?
  | _ => none

theorem compared {a b : Value} {p q : Extended} (left : a.quantity? = some p)
    (right : b.quantity? = some q) :
    Order.lt? a b = some (decide (p < q)) ∧ Order.le? a b = some (decide (p ≤ q)) ∧
      a.rawEquals b = decide (p = q) := by
  have tells {b : Bool} {P : Prop} [Decidable P] (iff : b = true ↔ P) : b = decide P := by
    rw [Bool.eq_iff_iff, iff, decide_eq_true_iff]
  have whole {i : Int64} {x : Double} {r : Extended} (number : x.denotes? = some r) :
      (x.toInt64? == some i) = true ↔ ofWhole i.toInt = r := by
    obtain ⟨-, above, -, below⟩ := Order.mixed_exact number i
    rw [beq_iff_eq, Double.toInt64?_eq_some_iff, above, below]
    exact (le_antisymm_iff (α := Extended)).symm
  cases a with
  | int i =>
    cases b with
    | int j =>
      cases left
      cases right
      have same : (i == j) = true ↔ i.toInt = j.toInt := beq_iff_eq.trans Int64.toInt_inj.symm
      simp [Order.lt?, Order.le?, Value.rawEquals, Int64.lt_iff_toInt_lt, Int64.le_iff_toInt_le,
        ofWhole, tells same]
    | float y =>
      cases left
      obtain ⟨below, atMost, -⟩ := Order.mixed_exact right i
      exact ⟨congrArg some (tells below), congrArg some (tells atMost), tells (whole right)⟩
    | _ => cases right
  | float x =>
    cases b with
    | int j =>
      cases right
      obtain ⟨-, -, below, atMost⟩ := Order.mixed_exact left j
      exact ⟨congrArg some (tells below), congrArg some (tells atMost),
        tells ((whole left).trans eq_comm)⟩
    | float y =>
      obtain ⟨below, atMost, same⟩ := Double.compare_exact left right
      exact ⟨congrArg some (tells below), congrArg some (tells atMost), tells same⟩
    | _ => cases right
  | _ => cases left

namespace Double

def rounded? (round : Double → Double) (x : Double) : Option Int64 :=
  let r := round x
  if (ofInt (-2 ^ 63)).le r && r.lt (ofInt (2 ^ 63)) then r.toInt64? else none

theorem rounded?_eq {round : Double → Double} {next : Bool → Nat → Int}
    (rounds : Rounds round next) (x : Double) :
    rounded? round x =
      match x.parts with
      | .finite negative units =>
        if -2 ^ 63 ≤ next negative units ∧ next negative units < 2 ^ 63 then
          some (.ofInt (next negative units))
        else none
      | _ => none := by
  obtain ⟨least, greatest⟩ := denotes?_range
  cases parts : x.parts with
  | nan =>
    have nan := rounds.nan ((parts_nan_iff x).1 parts)
    simp [rounded?, lt, nan]
  | infinite negative => simp [rounded?, rounds.infinite parts, toInt64?, parts]
  | finite negative units =>
    have whole := rounds.finite parts
    dsimp only
    obtain ⟨-, low, -⟩ := compare_exact least whole
    obtain ⟨high, -, -⟩ := compare_exact whole greatest
    generalize next negative units = n at whole low high ⊢
    simp only [ofWhole, ofRat_le_ofRat, Int.cast_le] at low
    simp only [ofWhole, ofRat_lt_ofRat, Int.cast_lt] at high
    simp only [rounded?, Bool.and_eq_true, low, high]
    split
    next inside =>
      obtain ⟨-, above, -, below⟩ := Order.mixed_exact whole (Int64.ofInt n)
      rw [toInt64?_eq_some_iff, above, below, Int64.toInt_ofInt_of_le inside.1 inside.2]
      exact ⟨le_refl _, le_refl _⟩
    next => rfl

theorem rounded?_some {round : Double → Double} {next : Bool → Nat → Int}
    (rounds : Rounds round next) {x : Double} {n : Int64} (found : rounded? round x = some n) :
    ∃ negative units, x.parts = .finite negative units ∧ n.toInt = next negative units := by
  rw [rounded?_eq rounds] at found
  cases parts : x.parts with
  | nan => simp [parts] at found
  | infinite negative => simp [parts] at found
  | finite negative units =>
    simp only [parts, Option.ite_none_right_eq_some, Option.some.injEq] at found
    obtain ⟨⟨low, high⟩, rfl⟩ := found
    exact ⟨negative, units, rfl, Int64.toInt_ofInt_of_le low high⟩

-- What is rounded to no integer of 64 bits is far from zero, so that its sign decides.
theorem sign_outside {round : Double → Double} {next : Bool → Nat → Int}
    (rounds : Rounds round next) {x : Double} (none : rounded? round x = none) :
    match x.parts with
    | .nan => (zero false).lt x = false ∧ x.lt (zero false) = false
    | .infinite negative => (zero false).lt x = !negative ∧ x.lt (zero false) = negative
    | .finite negative units =>
      ((zero false).lt x = true ∧ x.lt (zero false) = false ∧ 2 ^ 63 ≤ next negative units) ∨
      ((zero false).lt x = false ∧ x.lt (zero false) = true ∧ next negative units < -2 ^ 63) := by
  have above {q : Extended} (number : x.denotes? = some q) :=
    (compare_exact denotes?_zero number).1
  have below {q : Extended} (number : x.denotes? = some q) :=
    (compare_exact number denotes?_zero).1
  rw [rounded?_eq rounds] at none
  cases parts : x.parts with
  | nan => simp [lt, (parts_nan_iff x).1 parts]
  | infinite negative =>
    have number : x.denotes? = some (if negative then ⊥ else ⊤) := by rw [denotes?_eq, parts]
    constructor
    · rw [Bool.eq_iff_iff, above number]
      cases negative <;> simp
    · rw [Bool.eq_iff_iff, below number]
      cases negative <;> simp
  | finite negative units =>
    have number := denotes?_finite parts
    obtain ⟨low, high⟩ := rounds.near negative units
    simp only [parts, ite_eq_right_iff, reduceCtorEq, imp_false] at none
    dsimp only
    rw [← Bool.not_eq_true, ← Bool.not_eq_true, above number, below number, ofRat_lt_ofRat,
      ofRat_lt_ofRat]
    generalize (signed negative units / one : ℚ) = q at low high ⊢
    generalize next negative units = n at none low high ⊢
    rcases Int.lt_or_le n 0 with less | more
    · have far : (n : ℚ) ≤ -1 := by exact_mod_cast (by omega : n ≤ -1)
      exact Or.inr ⟨by linarith, by linarith, by omega⟩
    · have far : (1 : ℚ) ≤ n := by exact_mod_cast (by omega : 1 ≤ n)
      exact Or.inl ⟨by linarith, by linarith, by omega⟩

end Double

namespace Order

open Double

theorem asFloat_exact {i : Int64} (small : i.toInt.natAbs ≤ 2 ^ 53) (x : Double) :
    (Double.ofInt i.toInt).lt x = intLtFloat i x ∧ (Double.ofInt i.toInt).le x = intLeFloat i x ∧
      x.lt (Double.ofInt i.toInt) = floatLtInt x i ∧
      x.le (Double.ofInt i.toInt) = floatLeInt x i := by
  have whole := denotes?_whole (parts_ofInt small)
  cases number : x.denotes? with
  | none =>
    have nan := x.denotes?_eq_none.1 number
    simp [mixed_nan nan, lt, le, nan]
  | some q =>
    obtain ⟨above, atLeast, -⟩ := compare_exact whole number
    obtain ⟨below, atMost, -⟩ := compare_exact number whole
    simp [Bool.eq_iff_iff, mixed_exact number, above, atLeast, below, atMost]

def inWords (i : Int64) (x : Double) (asFloat : Double → Bool) (round : Double → Double)
    (asInteger : Int64 → Bool) (outside : Bool) : Bool :=
  if i.toInt.natAbs ≤ 2 ^ 53 then asFloat (Double.ofInt i.toInt)
  else
    match rounded? round x with
    | some n => asInteger n
    | none => outside

theorem inWords_eq {round : Double → Double} {next : Bool → Nat → Int}
    (rounds : Rounds round next) {i : Int64} {x : Double} {asFloat : Double → Bool}
    {asInteger : Int64 → Bool} {outside truth : Bool}
    (small : i.toInt.natAbs ≤ 2 ^ 53 → asFloat (Double.ofInt i.toInt) = truth)
    (inside : ∀ {n : Int64} {negative units}, x.parts = .finite negative units →
      n.toInt = next negative units → asInteger n = truth)
    (beyond : rounded? round x = none → outside = truth) :
    inWords i x asFloat round asInteger outside = truth := by
  unfold inWords
  split
  next few => exact small few
  next =>
    cases found : rounded? round x with
    | some n =>
      obtain ⟨negative, units, parts, whole⟩ := rounded?_some rounds found
      exact inside parts whole
    | none => exact beyond found

-- The sign decides for either direction what the comparison decides for all integers far away.
theorem outside_eq (above : Bool) {round : Double → Double} {next : Bool → Nat → Int}
    (rounds : Rounds round next) {x : Double} (none : rounded? round x = none) {P : Int → Bool}
    (least : ∀ n, n < -2 ^ 63 → P n = !above) (greatest : ∀ n, 2 ^ 63 ≤ n → P n = above) :
    (bif above then (zero false).lt x else x.lt (zero false)) =
      match x.parts with
      | .nan => false
      | .infinite negative => bif above then !negative else negative
      | .finite negative units => P (next negative units) := by
  have sign := sign_outside rounds none
  cases parts : x.parts with
  | nan => cases above <;> simp_all
  | infinite negative => cases above <;> simp_all
  | finite negative units =>
    rw [parts] at sign
    dsimp only
    obtain ⟨isAbove, isBelow, far⟩ | ⟨isAbove, isBelow, far⟩ := sign
    · rw [greatest _ far, isAbove, isBelow]
      cases above <;> rfl
    · rw [least _ far, isAbove, isBelow]
      cases above <;> rfl

theorem mixed_inWords (i : Int64) (x : Double) :
    inWords i x (·.lt x) ceil (i < ·) ((zero false).lt x) = intLtFloat i x ∧
      inWords i x (·.le x) floor (i ≤ ·) ((zero false).lt x) = intLeFloat i x ∧
      inWords i x (x.lt ·) floor (· < i) (x.lt (zero false)) = floatLtInt x i ∧
      inWords i x (x.le ·) ceil (· ≤ i) (x.lt (zero false)) = floatLeInt x i := by
  have low := i.le_toInt
  have high := i.toInt_lt
  refine ⟨inWords_eq rounds_ceil (fun small => (asFloat_exact small x).1) ?_ ?_,
    inWords_eq rounds_floor (fun small => (asFloat_exact small x).2.1) ?_ ?_,
    inWords_eq rounds_floor (fun small => (asFloat_exact small x).2.2.1) ?_ ?_,
    inWords_eq rounds_ceil (fun small => (asFloat_exact small x).2.2.2) ?_ ?_⟩
  · intro n negative units parts whole
    simp only [intLtFloat, parts, ← whole, Int64.lt_iff_toInt_lt]
  · intro none
    exact outside_eq true rounds_ceil none (fun n far => decide_eq_false (by omega))
      (fun n far => decide_eq_true (by omega))
  · intro n negative units parts whole
    simp only [intLeFloat, parts, ← whole, Int64.le_iff_toInt_le]
  · intro none
    exact outside_eq true rounds_floor none (fun n far => decide_eq_false (by omega))
      (fun n far => decide_eq_true (by omega))
  · intro n negative units parts whole
    simp only [floatLtInt, parts, ← whole, Int64.lt_iff_toInt_lt]
  · intro none
    exact outside_eq false (P := (· < i.toInt)) rounds_floor none
      (fun n far => decide_eq_true (by omega))
      (fun n far => decide_eq_false (by omega))
  · intro n negative units parts whole
    simp only [floatLeInt, parts, ← whole, Int64.le_iff_toInt_le]
  · intro none
    exact outside_eq false (P := (· ≤ i.toInt)) rounds_ceil none
      (fun n far => decide_eq_true (by omega))
      (fun n far => decide_eq_false (by omega))

end Order

namespace Value

def IsOrdered : Value → Prop
  | .int _ => True
  | .float x => x.isNaN = false
  | _ => False

def Less (a b : Value) : Prop := Order.lt? a b = some true

def AtMost (a b : Value) : Prop := Order.le? a b = some true

def Same (a b : Value) : Prop := a.rawEquals b = true

theorem IsOrdered.quantity {v : Value} (ordered : v.IsOrdered) : ∃ q, v.quantity? = some q := by
  cases v with
  | int n => exact ⟨_, rfl⟩
  | float x => exact ⟨_, Double.denotes?_rank ordered⟩
  | _ => exact ordered.elim

section

variable {a b : Value} {p q : Extended} (left : a.quantity? = some p) (right : b.quantity? = some q)
include left right

theorem less_iff : Less a b ↔ p < q := by
  rw [Less, (compared left right).1, Option.some.injEq, decide_eq_true_iff]

theorem atMost_iff : AtMost a b ↔ p ≤ q := by
  rw [AtMost, (compared left right).2.1, Option.some.injEq, decide_eq_true_iff]

theorem same_iff : Same a b ↔ p = q := by
  rw [Same, (compared left right).2.2, decide_eq_true_iff]

end

theorem less_trichotomy {a b : Value} (ordered : a.IsOrdered) (ordered' : b.IsOrdered) :
    (Less a b ∧ ¬ Same a b ∧ ¬ Less b a) ∨ (¬ Less a b ∧ Same a b ∧ ¬ Less b a) ∨
      (¬ Less a b ∧ ¬ Same a b ∧ Less b a) := by
  obtain ⟨p, left⟩ := ordered.quantity
  obtain ⟨q, right⟩ := ordered'.quantity
  rw [less_iff left right, less_iff right left, same_iff left right]
  rcases lt_trichotomy p q with below | rfl | above
  · exact Or.inl ⟨below, below.ne, below.not_gt⟩
  · exact Or.inr (Or.inl ⟨lt_irrefl p, rfl, lt_irrefl p⟩)
  · exact Or.inr (Or.inr ⟨above.not_gt, above.ne', above⟩)

theorem less_trans {a b c : Value} (ordered : a.IsOrdered) (ordered' : b.IsOrdered)
    (ordered'' : c.IsOrdered) (first : Less a b) (second : Less b c) : Less a c := by
  obtain ⟨p, left⟩ := ordered.quantity
  obtain ⟨q, middle⟩ := ordered'.quantity
  obtain ⟨r, right⟩ := ordered''.quantity
  rw [less_iff left middle] at first
  rw [less_iff middle right] at second
  exact (less_iff left right).2 (first.trans second)

theorem atMost_iff_less_or_same {a b : Value} (ordered : a.IsOrdered) (ordered' : b.IsOrdered) :
    AtMost a b ↔ Less a b ∨ Same a b := by
  obtain ⟨p, left⟩ := ordered.quantity
  obtain ⟨q, right⟩ := ordered'.quantity
  rw [atMost_iff left right, less_iff left right, same_iff left right]
  exact le_iff_lt_or_eq

end Value

/-- Comparison is exact, in whatever words it is carried out, and puts the numbers other than NaN in
one order, where those that are equal without metamethods stand in one place. -/
theorem comparison_exact :
    (∀ x : Double, x.denotes? = none ↔ x.isNaN = true) ∧
    (∀ (i : Int64) (x : Double) (q : Extended), x.denotes? = some q →
      (Order.intLtFloat i x = true ↔ ofWhole i.toInt < q) ∧
      (Order.intLeFloat i x = true ↔ ofWhole i.toInt ≤ q) ∧
      (Order.floatLtInt x i = true ↔ q < ofWhole i.toInt) ∧
      (Order.floatLeInt x i = true ↔ q ≤ ofWhole i.toInt)) ∧
    (∀ (i : Int64) (x : Double), x.isNaN = true →
      Order.intLtFloat i x = false ∧ Order.intLeFloat i x = false ∧
      Order.floatLtInt x i = false ∧ Order.floatLeInt x i = false) ∧
    (∀ (i : Int64) (x : Double),
      Order.inWords i x (·.lt x) Double.ceil (i < ·) ((Double.zero false).lt x) =
        Order.intLtFloat i x ∧
      Order.inWords i x (·.le x) Double.floor (i ≤ ·) ((Double.zero false).lt x) =
        Order.intLeFloat i x ∧
      Order.inWords i x (x.lt ·) Double.floor (· < i) (x.lt (Double.zero false)) =
        Order.floatLtInt x i ∧
      Order.inWords i x (x.le ·) Double.ceil (· ≤ i) (x.lt (Double.zero false)) =
        Order.floatLeInt x i) ∧
    (∀ (a b : Value) (p q : Extended), a.quantity? = some p → b.quantity? = some q →
      Order.lt? a b = some (decide (p < q)) ∧ Order.le? a b = some (decide (p ≤ q)) ∧
      a.rawEquals b = decide (p = q)) ∧
    (∀ a b c : Value, a.IsOrdered → b.IsOrdered → c.IsOrdered →
      a.Less b → b.Less c → a.Less c) ∧
    (∀ a b : Value, a.IsOrdered → b.IsOrdered →
      (a.Less b ∧ ¬ a.Same b ∧ ¬ b.Less a) ∨ (¬ a.Less b ∧ a.Same b ∧ ¬ b.Less a) ∨
        (¬ a.Less b ∧ ¬ a.Same b ∧ b.Less a)) ∧
    (∀ a b : Value, a.IsOrdered → b.IsOrdered → (a.AtMost b ↔ a.Less b ∨ a.Same b)) :=
  ⟨Double.denotes?_eq_none, fun i _ _ number => Order.mixed_exact number i,
    fun i _ nan => Order.mixed_nan nan i, Order.mixed_inWords,
    fun _ _ _ _ left right => compared left right,
    fun _ _ _ first second third => Value.less_trans first second third,
    fun _ _ left right => Value.less_trichotomy left right,
    fun _ _ left right => Value.atMost_iff_less_or_same left right⟩

-- The integer has no float of its own: it lies between two neighbours.
theorem comparison_exact_between :
    (Value.float ⟨0x4340000000000000⟩).Less (.int 0x20000000000001) ∧
      (Value.int 0x20000000000001).Less (.float ⟨0x4340000000000001⟩) ∧
      (Value.float ⟨0x4340000000000000⟩).Less (.float ⟨0x4340000000000001⟩) := by
  have below : (Value.float ⟨0x4340000000000000⟩).Less (.int 0x20000000000001) := by
    unfold Value.Less
    decide +kernel
  have above : (Value.int 0x20000000000001).Less (.float ⟨0x4340000000000001⟩) := by
    unfold Value.Less
    decide +kernel
  obtain ⟨-, -, -, -, -, trans, -⟩ := comparison_exact
  have number : Value.IsOrdered (.float ⟨0x4340000000000000⟩) :=
    (by decide +kernel : Double.isNaN _ = false)
  have number' : Value.IsOrdered (.float ⟨0x4340000000000001⟩) :=
    (by decide +kernel : Double.isNaN _ = false)
  exact ⟨below, above, trans _ (.int 0x20000000000001) _ number trivial number' below above⟩

end LuaMachine
