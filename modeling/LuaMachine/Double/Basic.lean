set_option autoImplicit false

-- Powers are those of the core library, whatever other instances are known.
attribute [default_instance 20000, instance (high)] instPowNat

namespace LuaMachine

structure Double where
  bits : UInt64
  deriving DecidableEq, Repr, Inhabited

namespace Double

def negative (x : Double) : Bool := x.bits.toNat ≥ 2 ^ 63

def exponentField (x : Double) : Nat := x.bits.toNat / 2 ^ 52 % 2 ^ 11

def fraction (x : Double) : Nat := x.bits.toNat % 2 ^ 52

/-- What the bits stand for; a finite number is given by its sign and its size in units. -/
inductive Parts where
  | nan
  | infinite (negative : Bool)
  | finite (negative : Bool) (units : Nat)
  deriving DecidableEq, Repr

def spacing (x : Double) : Nat := 1 <<< (x.exponentField - 1)

def parts (x : Double) : Parts :=
  if x.exponentField = 2047 then
    if x.fraction = 0 then .infinite x.negative else .nan
  else if x.exponentField = 0 then .finite x.negative x.fraction
  else .finite x.negative ((2 ^ 52 + x.fraction) * x.spacing)

def one : Nat := 1 <<< 1074

def signed (negative : Bool) (n : Nat) : Int := if negative then -n else n

def isNaN (x : Double) : Bool := x.exponentField = 2047 ∧ x.fraction ≠ 0

def signBit (negative : Bool) : Nat := if negative then 2 ^ 63 else 0

def zero (negative : Bool) : Double := ⟨.ofNat (signBit negative)⟩

def infinity (negative : Bool) : Double := ⟨.ofNat (signBit negative + 2047 * 2 ^ 52)⟩

def invalid : Double := ⟨0xFFF8000000000000⟩

def quiet (x : Double) : Double := ⟨x.bits ||| 0x0008000000000000⟩

def neg (x : Double) : Double := ⟨x.bits ^^^ 0x8000000000000000⟩

@[simp] theorem neg_neg (x : Double) : x.neg.neg = x := by
  rw [neg, neg, UInt64.xor_assoc, UInt64.xor_self, UInt64.xor_zero]

def divNearest (n d : Nat) : Nat :=
  let q := n / d
  let r := 2 * (n % d)
  if r > d ∨ (r = d ∧ q % 2 = 1) then q + 1 else q

/-- The number nearest to `n / d` units. The quotient is scaled down by `2 ^ s` until it has at
most 53 bits; a carry out of them moves to the exponent by itself. -/
def ofRatio (negative : Bool) (n d : Nat) : Double :=
  let s := n.log2 - d.log2 - 53
  let s := if n / (d <<< s) ≥ 2 ^ 53 then s + 1 else s
  let magnitude := s <<< 52 + divNearest n (d <<< s)
  if magnitude < 2047 <<< 52 then ⟨.ofNat (signBit negative + magnitude)⟩ else infinity negative

def ofInt (i : Int) : Double := ofRatio (i < 0) (i.natAbs * one) 1

def floorOf (negative : Bool) (units : Nat) : Int := signed negative units / (one : Int)

def ceilOf (negative : Bool) (units : Nat) : Int := -(signed (!negative) units / (one : Int))

def floor (x : Double) : Double :=
  match x.parts with
  | .nan => x.quiet
  | .infinite _ => x
  | .finite negative units =>
    let n := floorOf negative units
    if n = 0 then zero negative else ofInt n

def toInt64? (x : Double) : Option Int64 :=
  match x.parts with
  | .finite negative units =>
    let n := floorOf negative units
    if units % one = 0 ∧ -2 ^ 63 ≤ n ∧ n < 2 ^ 63 then some (.ofInt n) else none
  | _ => none

def rank (x : Double) : Int := signed x.negative (x.bits.toNat % 2 ^ 63)

def lt (x y : Double) : Bool := !x.isNaN && !y.isNaN && x.rank < y.rank

def le (x y : Double) : Bool := !x.isNaN && !y.isNaN && x.rank ≤ y.rank

def eq (x y : Double) : Bool := !x.isNaN && !y.isNaN && x.rank = y.rank

end Double

end LuaMachine
