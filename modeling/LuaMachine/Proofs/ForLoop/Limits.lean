import LuaMachine.Proofs.Double.Whole
import LuaMachine.Proofs.ForLoop.Rounds

set_option autoImplicit false

namespace LuaMachine

namespace ForLoop

/-- The comparison of the index with a limit that is a float, in the direction of the step. -/
def Admits (x : Double) (step i : Int64) : Prop :=
  if 0 < step then Order.intLeFloat i x = true else Order.floatLeInt x i = true

def Unstopped (x : Double) (step : Int64) : Prop := x.isNaN = true ∧ step < 0

def bound (step : Int64) (negative : Bool) (units : Nat) : Int :=
  if step < 0 then Double.ceilOf negative units else Double.floorOf negative units

variable {x : Double} {step : Int64}

theorem sign_cases (nonzero : step ≠ 0) :
    (0 < step ∧ ¬ step < 0 ∧ 0 < step.toInt) ∨ (¬ 0 < step ∧ step < 0 ∧ ¬ 0 < step.toInt) := by
  have : step.toInt ≠ 0 := fun same => nonzero (Int64.toInt_inj.1 same)
  have zero : (0 : Int64).toInt = 0 := rfl
  simp only [Int64.lt_iff_toInt_lt, zero]
  omega

theorem reaches_up (nonzero : step ≠ 0) (i : Int64) :
    Reaches (Int64.maxValue, decide (step < 0)) step i ↔ 0 < step := by
  rcases sign_cases nonzero with ⟨up, notDown, up'⟩ | ⟨notUp, down, -⟩
  · exact iff_of_true ⟨decide_eq_false notDown, (within_up up').2 i.toInt_le⟩ up
  · exact iff_of_false (fun reaches => of_decide_eq_false reaches.1 down) notUp

theorem reaches_down (nonzero : step ≠ 0) (i : Int64) :
    Reaches (Int64.minValue, decide (0 ≤ step)) step i ↔ step < 0 := by
  rcases sign_cases nonzero with ⟨up, notDown, -⟩ | ⟨-, down, notUp'⟩
  · exact iff_of_false (fun reaches => of_decide_eq_false reaches.1 (Int64.le_of_lt up)) notDown
  · exact iff_of_true
      ⟨decide_eq_false (Int64.not_le.2 down), (within_down notUp').2 i.minValue_le_toInt⟩ down

theorem bound_sign (step : Int64) (negative : Bool) (units : Nat) :
    if negative then bound step negative units ≤ 0 else 0 ≤ bound step negative units := by
  have := Double.floorOf_nonneg units
  have := Double.floorOf_nonpos units
  unfold bound
  cases negative <;> by_cases down : step < 0 <;> simp [Double.ceilOf_eq, down] <;> omega

theorem admits_finite (nonzero : step ≠ 0) {negative : Bool} {units : Nat}
    (finite : x.parts = .finite negative units) (i : Int64) :
    Admits x step i ↔ Within (bound step negative units) step.toInt i.toInt := by
  unfold Admits bound Order.intLeFloat Order.floatLeInt
  rcases sign_cases nonzero with ⟨up, notDown, up'⟩ | ⟨notUp, down, notUp'⟩
  · simp [finite, up, notDown, within_up up']
  · simp [finite, notUp, down, within_down notUp']

theorem limit?_finite (nonzero : step ≠ 0) {negative : Bool} {units : Nat}
    (finite : x.parts = .finite negative units) :
    ∃ limit, limit? (.float x) step = some limit ∧
      ∀ i, Reaches limit step i ↔ Within (bound step negative units) step.toInt i.toInt := by
  have sign := bound_sign step negative units
  have rounded : (if step < 0 then Double.ceilOf negative units
    else Double.floorOf negative units) = bound step negative units := rfl
  simp only [limit?, Value.toDouble?, Option.map_some, finite, rounded]
  generalize bound step negative units = n at sign
  refine ⟨_, rfl, fun i => ?_⟩
  have := i.le_toInt
  have := i.toInt_lt
  by_cases inside : -2 ^ 63 ≤ n ∧ n < 2 ^ 63
  · rw [if_pos inside]
    simp [Reaches, Int64.toInt_ofInt_of_le inside.1 inside.2]
  · -- A limit outside the integers is before all of them or behind all of them.
    rw [if_neg inside]
    cases negative with
    | true =>
      simp only [if_true] at sign ⊢
      rw [reaches_down nonzero]
      rcases sign_cases nonzero with ⟨-, notDown, up⟩ | ⟨-, down, notUp⟩
      · refine iff_of_false notDown fun within => ?_
        rw [within_up up] at within
        omega
      · exact iff_of_true down ((within_down notUp).2 (by omega))
    | false =>
      simp only [Bool.false_eq_true, if_false] at sign ⊢
      rw [reaches_up nonzero]
      rcases sign_cases nonzero with ⟨up, -, up'⟩ | ⟨notUp, -, notUp'⟩
      · exact iff_of_true up ((within_up up').2 (by omega))
      · refine iff_of_false notUp fun within => ?_
        rw [within_down notUp'] at within
        omega

theorem limit?_float (nonzero : step ≠ 0) (x : Double) :
    ∃ limit, limit? (.float x) step = some limit ∧
      ∀ i, Reaches limit step i ↔ Admits x step i ∨ Unstopped x step := by
  cases shape : x.parts with
  | nan =>
    have isNaN := (Double.parts_nan_iff x).1 shape
    refine ⟨_, by simp [limit?, Value.toDouble?, shape]; rfl, fun i => ?_⟩
    rw [reaches_down nonzero]
    simp [Admits, Order.intLeFloat, Order.floatLeInt, shape, Unstopped, isNaN]
  | infinite negative =>
    have ordered : x.isNaN = false := by
      rw [← Bool.not_eq_true, ← Double.parts_nan_iff, shape]
      intro same
      cases same
    refine ⟨_, by simp [limit?, Value.toDouble?, shape]; rfl, fun i => ?_⟩
    cases negative with
    | true =>
      rw [if_pos rfl, reaches_down nonzero]
      rcases sign_cases nonzero with ⟨up, notDown, -⟩ | ⟨notUp, down, -⟩
      · simp [Admits, Unstopped, Order.intLeFloat, shape, up, notDown]
      · simp [Admits, Order.floatLeInt, shape, notUp, down]
    | false =>
      rw [if_neg Bool.false_ne_true, reaches_up nonzero]
      rcases sign_cases nonzero with ⟨up, notDown, -⟩ | ⟨notUp, down, -⟩
      · simp [Admits, Order.intLeFloat, shape, up]
      · simp [Admits, Unstopped, Order.floatLeInt, shape, notUp, ordered]
  | finite negative units =>
    have ordered : x.isNaN ≠ true := by
      rw [Ne, ← Double.parts_nan_iff, shape]
      intro same
      cases same
    obtain ⟨limit, limited, reaches⟩ := limit?_finite nonzero shape
    refine ⟨limit, limited, fun i => ?_⟩
    rw [reaches, admits_finite nonzero shape, Unstopped,
      or_iff_left fun unstopped => ordered unstopped.1]

theorem not_admits_nan (isNaN : x.isNaN = true) {i : Int64} : ¬ Admits x step i := by
  have shape := (Double.parts_nan_iff x).2 isNaN
  simp [Admits, Order.intLeFloat, Order.floatLeInt, shape]

end ForLoop

/-- A loop over integers with a float as its limit visits the terms that compare with the limit as
they should. Only where a limit without an order meets a step down does it visit them all. -/
theorem floatLimit_compared {host : Host} (propagates : host.Propagates) {call : Call}
    (makes : Machine.Makes host call) {p : Prototype} (l : NumericLoop p) {base : Nat} {s : State}
    {init step : Int64} (nonzero : step ≠ 0) {x : Double}
    (ready : l.Ready base (.int init) (.float x) (.int step) s) :
    ∃ terms : List Int64, l.Visits call base s terms ∧
      (∀ (k : Nat) i, terms[k]? = some i ↔ i.toInt = init.toInt + k * step.toInt ∧
        (ForLoop.Admits x step i ∨ ForLoop.Unstopped x step)) ∧
      ((∀ (k : Nat) i, terms[k]? = some i ↔
          i.toInt = init.toInt + k * step.toInt ∧ ForLoop.Admits x step i) ↔
        ¬ ForLoop.Unstopped x step) := by
  obtain ⟨limit, limited, reaches⟩ := ForLoop.limit?_float nonzero x
  have visited (k : Nat) (i : Int64) :=
    (ForLoop.indices_upTo init nonzero limit k i).trans (and_congr_right' (reaches i))
  refine ⟨_, NumericLoop.visits_upTo (makes.balanced propagates) ready limited, visited, ?_⟩
  constructor
  · intro compared unstopped
    have first := (visited 0 init).2 ⟨by simp, .inr unstopped⟩
    exact ForLoop.not_admits_nan unstopped.1 ((compared 0 init).1 first).2
  · intro stopped k i
    rw [visited, or_iff_left stopped]

-- The limit is not a number, and the loop runs down to the least integer all the same.
theorem floatLimit_compared_unordered :
    NumericLoop.bareLoop.Visits (Machine.call Command.noHost) 1
      (NumericLoop.bareState (.int (Int64.minValue + 1)) (.float ⟨0x7FF8000000000000⟩) (.int (-1)))
      [Int64.minValue + 1, Int64.minValue] := by
  obtain ⟨terms, visits, visited, -⟩ := floatLimit_compared Command.noHost_propagates .outer
    NumericLoop.bareLoop (by decide) (NumericLoop.bareState_ready
      (.int (Int64.minValue + 1)) (.float ⟨0x7FF8000000000000⟩) (.int (-1)))
  have unstopped : ForLoop.Unstopped ⟨0x7FF8000000000000⟩ (-1) := ⟨by decide, by decide⟩
  have first := (visited 0 (Int64.minValue + 1)).2 ⟨by decide, .inr unstopped⟩
  have second := (visited 1 Int64.minValue).2 ⟨by decide, .inr unstopped⟩
  have third : terms[2]? = none := by
    cases found : terms[2]? with
    | none => rfl
    | some i =>
      have low := i.le_toInt
      rw [((visited 2 i).1 found).1] at low
      exact absurd low (by decide)
  have all : terms = [Int64.minValue + 1, Int64.minValue] := by
    match terms, first, second, third with
    | [_, _], rfl, rfl, _ => rfl
  exact all ▸ visits

namespace Numeral

theorem type_decimal? {s : Bytes} {w : Value} (denotes : decimal? s = some w) :
    w.type = .number := by
  unfold decimal? at denotes
  dsimp only at denotes
  split at denotes
  · cases denotes
  · split at denotes
    · cases denotes
      rfl
    · obtain ⟨x, -, rfl⟩ := Option.map_eq_some_iff.1 denotes
      rfl

theorem type_hexadecimal? {s : Bytes} {w : Value} (denotes : hexadecimal? s = some w) :
    w.type = .number := by
  unfold hexadecimal? at denotes
  split at denotes
  · obtain ⟨x, -, rfl⟩ := Option.map_eq_some_iff.1 denotes
    rfl
  · split at denotes
    · cases denotes
    · obtain ⟨n, -, rfl⟩ := Option.map_eq_some_iff.1 denotes
      rfl

theorem type_negated {v : Value} (number : v.type = .number) (negative : Bool) :
    (if negative then negate v else v).type = .number := by
  cases negative with
  | false => exact number
  | true => cases v <;> first | rfl | exact number

theorem type_number? {s : Bytes} {w : Value} (denotes : number? s = some w) :
    w.type = .number := by
  obtain ⟨v, unsigned, rfl⟩ := Option.map_eq_some_iff.1 denotes
  refine type_negated ?_ _
  unfold unsigned? at unsigned
  split at unsigned
  · split at unsigned
    · exact type_hexadecimal? unsigned
    · exact type_decimal? unsigned
  · exact type_decimal? unsigned

end Numeral

def Value.Exact : Value → Prop
  | .int n => (Double.ofInt n.toInt).toInt64? = some n
  | _ => True

namespace ForLoop

variable {bytes : Bytes} {w : Value} {n : Int64} {x : Double}

theorem limit?_text (rounded : (Value.str bytes).toDouble? = some x) (step : Int64) :
    limit? (.str bytes) step = limit? (.float x) step := by
  simp only [limit?]
  rw [rounded]
  rfl

theorem start_text (rounded : (Value.str bytes).toDouble? = some x) (init step : Int64) :
    start (.int init) (.str bytes) (.int step) = start (.int init) (.float x) (.int step) := by
  obtain ⟨limit, limited⟩ : ∃ limit, limit? (.float x) step = some limit := ⟨_, rfl⟩
  have limited' := (limit?_text rounded step).trans limited
  rw [start_limited init limited, start_limited init limited']

theorem start_number (init step : Int64) (number : w.type = .number) :
    ∃ plan, start (.int init) w (.int step) = .ok plan ∧ ∀ x y z, plan ≠ .floats x y z := by
  obtain ⟨limit, limited⟩ : ∃ limit, limit? w step = some limit := by
    cases w with
    | int | float => exact ⟨_, rfl⟩
    | nil | bool | str | table | function => cases number
  exact ⟨_, start_limited init limited, Start.upTo_ne _ _ _⟩

theorem limit?_whole (whole : x.toInt64? = some n) (step : Int64) :
    limit? (.float x) step = some (n, false) := by
  obtain ⟨below, above⟩ := (x.toInt64?_eq_some_iff n).1 whole
  unfold Order.intLeFloat at below
  unfold Order.floatLeInt at above
  cases shape : x.parts with
  | nan =>
    rw [shape] at below
    cases below
  | infinite negative =>
    rw [shape] at below above
    cases negative
    · cases above
    · cases below
  | finite negative units =>
    simp only [shape, decide_eq_true_eq] at below above
    have between := Double.floorOf_le_ceilOf negative units
    have floor : Double.floorOf negative units = n.toInt := by omega
    have ceil : Double.ceilOf negative units = n.toInt := by omega
    simp only [limit?, Value.toDouble?, Option.map_some, shape, floor, ceil, ite_self]
    rw [if_pos ⟨n.le_toInt, n.toInt_lt⟩, Int64.ofInt_toInt]

-- The loop from the limit to itself has one round, in either direction.
theorem admits_of_start {step : Int64} (nonzero : step ≠ 0)
    (same : start (.int n) (.float x) (.int step) = start (.int n) (.int n) (.int step)) :
    Admits x step n ∨ Unstopped x step := by
  obtain ⟨limit, limited, reaches⟩ := limit?_float nonzero x
  have limited' : limit? (.int n) step = some (n, false) := rfl
  rw [start_limited n limited, start_limited n limited'] at same
  have first := (indices_upTo n nonzero (n, false) 0 n).2
    ⟨by simp, rfl, .self _ _⟩
  rw [← Except.ok.inj same, indices_upTo n nonzero, reaches] at first
  exact first.2

theorem start_whole_iff (x : Double) (n : Int64) :
    (∀ init step, start (.int init) (.float x) (.int step) =
      start (.int init) (.int n) (.int step)) ↔ x.toInt64? = some n := by
  constructor
  · intro same
    have up := admits_of_start (by decide) (same n 1)
    have down := admits_of_start (by decide) (same n (-1))
    have below : Admits x 1 n := up.resolve_right fun unstopped => absurd unstopped.2 (by decide)
    have above : Admits x (-1) n :=
      down.resolve_right fun unstopped => not_admits_nan unstopped.1 below
    exact (x.toInt64?_eq_some_iff n).2 ⟨below, above⟩
  · intro whole init step
    rw [start_limited init (limit?_whole whole step)]
    exact (start_limited init rfl).symm

theorem start_text_iff (denotes : Numeral.number? bytes = some w) :
    (∀ init step, start (.int init) (.str bytes) (.int step) =
      start (.int init) w (.int step)) ↔ w.Exact := by
  have number := Numeral.type_number? denotes
  cases w with
  | int n =>
    have rounded : (Value.str bytes).toDouble? = some (.ofInt n.toInt) := by
      rw [Value.toDouble?, denotes]
    simp only [start_text rounded]
    exact start_whole_iff _ n
  | float x =>
    have kept : (Value.str bytes).toDouble? = some x := by
      rw [Value.toDouble?, denotes]
    exact ⟨fun _ => trivial, fun _ => start_text kept⟩
  | nil | bool | str | table | function => cases number

-- A number that is not kept by a float is not reached from one side, but reached as an integer.
theorem unreached_of_inexact (inexact : x.toInt64? ≠ some n) :
    ∃ step : Int64, step ≠ 0 ∧ ¬ (Admits x step n ∨ Unstopped x step) := by
  by_cases below : Admits x 1 n
  · refine ⟨-1, by decide, ?_⟩
    rintro (above | unstopped)
    · exact inexact ((x.toInt64?_eq_some_iff n).2 ⟨below, above⟩)
    · exact not_admits_nan unstopped.1 below
  · refine ⟨1, by decide, ?_⟩
    rintro (admits | unstopped)
    · exact below admits
    · exact absurd unstopped.2 (by decide)

theorem indices_unreached {limit : Int64 × Bool} {init step : Int64} (nonzero : step ≠ 0)
    (unreached : ¬ Reaches limit step init) :
    (Start.upTo limit init step).indices init step = [] := by
  cases terms : (Start.upTo limit init step).indices init step with
  | nil => rfl
  | cons i rest =>
    have first := (indices_upTo init nonzero limit 0 i).1 (by rw [terms]; rfl)
    have same : i.toInt = init.toInt := by simpa using first.1
    exact absurd (Int64.toInt_inj.1 same ▸ first.2) unreached

theorem indices_self {step : Int64} (nonzero : step ≠ 0) (n : Int64) :
    (Start.upTo (n, false) n step).indices n step = [n] := by
  have reached : Reaches (n, false) step n := ⟨rfl, .self _ _⟩
  have first := (indices_upTo n nonzero (n, false) 0 n).2 ⟨by simp, reached⟩
  have ended : ((Start.upTo (n, false) n step).indices n step)[1]? = none := by
    cases found : ((Start.upTo (n, false) n step).indices n step)[1]? with
    | none => rfl
    | some i =>
      obtain ⟨term, -, within⟩ := (indices_upTo n nonzero (n, false) 1 i).1 found
      have : step.toInt ≠ 0 := fun same => nonzero (Int64.toInt_inj.1 same)
      by_cases up : 0 < step.toInt
      · have within : i.toInt ≤ n.toInt := (within_up up).1 within
        omega
      · have within : n.toInt ≤ i.toInt := (within_down up).1 within
        omega
  match (Start.upTo (n, false) n step).indices n step, first, ended with
  | [_], rfl, _ => rfl

end ForLoop

/-- A numeric string is as good a limit as the number it stands for just when that number is not
changed by turning it into a float, as no integer of at most 53 bits is. Then the loops visit the
same values; else there is one that has a round with the number and none with the string. -/
theorem textLimit_exact {host : Host} (propagates : host.Propagates) {call : Call}
    (makes : Machine.Makes host call) {p : Prototype} (l : NumericLoop p) (base : Nat)
    {bytes : Bytes} {w : Value} (denotes : Numeral.number? bytes = some w) :
    ((∀ init step, ForLoop.start (.int init) (.str bytes) (.int step) =
      ForLoop.start (.int init) w (.int step)) ↔ w.Exact) ∧
    (∀ n : Int64, n.toInt.natAbs ≤ 2 ^ 53 → (Value.int n).Exact) ∧
    (w.Exact → ∀ init step s t, l.Ready base (.int init) (.str bytes) (.int step) s →
      l.Ready base (.int init) w (.int step) t →
      ∃ terms, l.Visits call base s terms ∧ l.Visits call base t terms) ∧
    (¬ w.Exact → ∃ init step, ∀ s t, l.Ready base (.int init) (.str bytes) (.int step) s →
      l.Ready base (.int init) w (.int step) t →
      l.Visits call base s [] ∧ l.Visits call base t [init]) := by
  have balanced := makes.balanced propagates
  have number := Numeral.type_number? denotes
  refine ⟨ForLoop.start_text_iff denotes, fun n small => Double.toInt64?_ofInt small, ?_, ?_⟩
  · intro exact init step s t ready ready'
    have same := (ForLoop.start_text_iff denotes).2 exact init step
    obtain ⟨plan, started, integers⟩ := ForLoop.start_number init step number
    exact ⟨_, NumericLoop.visits balanced ready (same.trans started) integers,
      NumericLoop.visits balanced ready' started integers⟩
  · intro inexact
    cases w with
    | int n =>
      have rounded : (Value.str bytes).toDouble? = some (.ofInt n.toInt) := by
        rw [Value.toDouble?, denotes]
      obtain ⟨step, nonzero, unreached⟩ := ForLoop.unreached_of_inexact inexact
      obtain ⟨limit, limited, reaches⟩ := ForLoop.limit?_float nonzero (.ofInt n.toInt)
      rw [← reaches] at unreached
      refine ⟨n, step, fun s t ready ready' => ⟨?_, ?_⟩⟩
      · have visits := NumericLoop.visits_upTo balanced ready
          ((ForLoop.limit?_text rounded step).trans limited)
        rwa [ForLoop.indices_unreached nonzero unreached] at visits
      · have limited' : ForLoop.limit? (.int n) step = some (n, false) := rfl
        have visits := NumericLoop.visits_upTo balanced ready' limited'
        rwa [ForLoop.indices_self nonzero] at visits
    | nil | bool | float | str | table | function => exact absurd trivial inexact

-- Rounded to a float, this number is one less.
theorem textLimit_exact_rounding :
    Numeral.number? (Utf8.encode "9007199254740993") = some (.int 9007199254740993) ∧
    ¬ (Value.int 9007199254740993).Exact ∧
    ∃ init step,
      NumericLoop.bareLoop.Visits (Machine.call Command.noHost) 1
        (NumericLoop.bareState (.int init) (.str (Utf8.encode "9007199254740993")) (.int step))
        [] ∧
      NumericLoop.bareLoop.Visits (Machine.call Command.noHost) 1
        (NumericLoop.bareState (.int init) (.int 9007199254740993) (.int step)) [init] := by
  have denotes : Numeral.number? (Utf8.encode "9007199254740993") =
      some (.int 9007199254740993) := by decide +kernel
  have inexact : ¬ (Value.int 9007199254740993).Exact := by
    have rounded : (Double.ofInt (9007199254740993 : Int64).toInt).toInt64? ≠
      some 9007199254740993 := by decide +kernel
    exact rounded
  obtain ⟨-, -, -, differs⟩ := textLimit_exact Command.noHost_propagates .outer
    NumericLoop.bareLoop 1 denotes
  obtain ⟨init, step, visits⟩ := differs inexact
  exact ⟨denotes, inexact, init, step,
    visits _ _ (NumericLoop.bareState_ready _ _ _) (NumericLoop.bareState_ready _ _ _)⟩

end LuaMachine
