import LuaMachine.Error
import LuaMachine.Value.Numeral

set_option autoImplicit false

namespace LuaMachine.ForLoop

def continues (index limit step : Double) : Bool :=
  if (Double.zero false).lt step then index.le limit else limit.le index

/-- The rounds after the first, or `none` if there is no first one. -/
def count? (init limit step : Int64) : Option UInt64 :=
  if 0 < step then
    if init ≤ limit then some ((limit.toUInt64 - init.toUInt64) / step.toUInt64) else none
  else if limit ≤ init then
    if step = 0 then some (-1)
    else some ((init.toUInt64 - limit.toUInt64) / ((-(step + 1)).toUInt64 + 1))
  else none

/-- The last whole number before the limit of a loop over integers, cut to the integers, and
whether the limit is on the wrong side of all of them; `none` if the limit is no number. -/
def limit? (limit : Value) (step : Int64) : Option (Int64 × Bool) :=
  match limit with
  | .int n => some (n, false)
  | v => v.toDouble?.map fun x =>
    let up := (Int64.maxValue, decide (step < 0))
    let down := (Int64.minValue, decide (0 ≤ step))
    match x.parts with
    | .nan => down
    | .infinite negative => if negative then down else up
    | .finite negative units =>
      let n := if step < 0 then Double.ceilOf negative units else Double.floorOf negative units
      if -2 ^ 63 ≤ n ∧ n < 2 ^ 63 then (.ofInt n, false) else if negative then down else up

inductive Start where
  | skip
  | counted (rounds : UInt64)
  | floats (init limit step : Double)
  deriving DecidableEq

def floatStart (init limit step : Value) : Except Fault Start :=
  match limit.toDouble?, step.toDouble?, init.toDouble? with
  | none, _, _ => .error .forLimit
  | _, none, _ => .error .forStep
  | _, _, none => .error .forInitial
  | some limit, some step, some init => .ok (.floats init limit step)

def start (init limit step : Value) : Except Fault Start :=
  match init, step with
  | .int i, .int s =>
    match limit? limit s with
    | none => floatStart init limit step
    | some (l, stop) =>
      match if stop then none else count? i l s with
      | none => .ok .skip
      | some rounds => .ok (.counted rounds)
  | _, _ => floatStart init limit step

end LuaMachine.ForLoop
