import LuaMachine.Double.Basic

set_option autoImplicit false

namespace LuaMachine.Double

def add (x y : Double) : Double :=
  match x.parts, y.parts with
  | .nan, _ => x.quiet
  | _, .nan => y.quiet
  | .infinite s, .infinite t => if s = t then x else invalid
  | .infinite _, _ => x
  | _, .infinite _ => y
  | .finite s m, .finite t n =>
    let total := signed s m + signed t n
    if total = 0 then zero (s && t) else ofRatio (total < 0) total.natAbs 1

def sub (x y : Double) : Double :=
  if y.isNaN then (if x.isNaN then x.quiet else y.quiet) else x.add y.neg

def mul (x y : Double) : Double :=
  match x.parts, y.parts with
  | .nan, _ => x.quiet
  | _, .nan => y.quiet
  | .infinite s, .infinite t => infinity (s != t)
  | .infinite s, .finite t n => if n = 0 then invalid else infinity (s != t)
  | .finite s m, .infinite t => if m = 0 then invalid else infinity (s != t)
  | .finite s m, .finite t n => ofRatio (s != t) (m * n) one

def div (x y : Double) : Double :=
  match x.parts, y.parts with
  | .nan, _ => x.quiet
  | _, .nan => y.quiet
  | .infinite _, .infinite _ => invalid
  | .infinite s, .finite t _ => infinity (s != t)
  | .finite s _, .infinite t => zero (s != t)
  | .finite s m, .finite t n =>
    if n ≠ 0 then ofRatio (s != t) (m * one) n
    else if m = 0 then invalid
    else infinity (s != t)

def rem (x y : Double) : Double :=
  match x.parts, y.parts with
  | .nan, _ => x.quiet
  | _, .nan => y.quiet
  | .infinite _, _ => invalid
  | .finite _ _, .infinite _ => x
  | .finite s m, .finite _ n => if n = 0 then invalid else ofRatio s (m % n) 1

def floorMod (x y : Double) : Double :=
  let r := x.rem y
  if (r.mul y).lt (zero false) then r.add y else r

def floorDiv (x y : Double) : Double := (x.div y).floor

def pow (x y : Double) : Double :=
  let r := Float.pow (.ofBits x.bits) (.ofBits y.bits)
  if r.isNaN then
    if x.isNaN then x.quiet else if y.isNaN then y.quiet else invalid
  else ⟨r.toBits⟩

def twoPow (n : Int) : Double :=
  if n < -1023 then zero false
  else if n < 0 then ofRatio false one (1 <<< n.natAbs)
  else if n ≤ 1023 then ofRatio false (one <<< n.natAbs) 1
  else infinity false

end LuaMachine.Double
