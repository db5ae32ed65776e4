import LuaMachine.Error
import LuaMachine.Instruction.Opcode
import LuaMachine.Value.Numeral

set_option autoImplicit false

namespace LuaMachine

inductive ArithOp where
  | add | sub | mul | mod | pow | div | idiv
  | band | bor | bxor | shl | shr
  | unm | bnot
  deriving DecidableEq, Repr

namespace ArithOp

def event : ArithOp → String
  | add => "__add"
  | sub => "__sub"
  | mul => "__mul"
  | mod => "__mod"
  | pow => "__pow"
  | div => "__div"
  | idiv => "__idiv"
  | band => "__band"
  | bor => "__bor"
  | bxor => "__bxor"
  | shl => "__shl"
  | shr => "__shr"
  | unm => "__unm"
  | bnot => "__bnot"

def isBitwise : ArithOp → Bool
  | band | bor | bxor | shl | shr | bnot => true
  | _ => false

def ofOpcode? : Opcode → Option ArithOp
  | .add => some add
  | .sub => some sub
  | .mul => some mul
  | .mod => some mod
  | .pow => some pow
  | .div => some div
  | .idiv => some idiv
  | .band => some band
  | .bor => some bor
  | .bxor => some bxor
  | .shl => some shl
  | .shr => some shr
  | .unm => some unm
  | .bnot => some bnot
  | _ => none

end ArithOp

namespace Arith

def floorDiv (x y : Int64) : Int64 :=
  if y = -1 then -x
  else if x % y ≠ 0 ∧ x ^^^ y < 0 then x / y - 1
  else x / y

def floorMod (x y : Int64) : Int64 :=
  if y = -1 then 0
  else
    let r := x % y
    if r ≠ 0 ∧ r ^^^ y < 0 then r + y else r

def shiftLeft (x n : Int64) : Int64 :=
  if n ≤ -64 ∨ 64 ≤ n then 0
  else if 0 ≤ n then (x.toUInt64 <<< n.toUInt64).toInt64
  else (x.toUInt64 >>> (-n).toUInt64).toInt64

def bits (op : ArithOp) (x y : Int64) : Int64 :=
  match op with
  | .band => x &&& y
  | .bor => x ||| y
  | .bxor => x ^^^ y
  | .shl => shiftLeft x y
  | .shr => shiftLeft x (-y)
  | _ => ~~~x

def ints (op : ArithOp) (x y : Int64) : Except LuaError (Option Int64) :=
  match op with
  | .add => .ok (some (x + y))
  | .sub => .ok (some (x - y))
  | .mul => .ok (some (x * y))
  | .idiv => if y = 0 then .error (.runtime .divisionByZero) else .ok (some (floorDiv x y))
  | .mod => if y = 0 then .error (.runtime .moduloByZero) else .ok (some (floorMod x y))
  | .unm => .ok (some (-x))
  | _ => .ok none

def floats (op : ArithOp) (x y : Double) : Double :=
  match op with
  | .add => x.add y
  | .sub => x.sub y
  | .mul => x.mul y
  | .div => x.div y
  | .pow => x.pow y
  | .idiv => x.floorDiv y
  | .mod => x.floorMod y
  | _ => x.neg

def viaFloats (op : ArithOp) (x y : Value) : Option Value :=
  match x.toDouble?, y.toDouble? with
  | some x, some y => some (.float (floats op x y))
  | _, _ => none

/-- `op` without metamethods; `none` if the operands do not stand for numbers of the right kind.
An operation on one operand reads the first. -/
def raw (op : ArithOp) (a b : Value) : Except LuaError (Option Value) :=
  if op.isBitwise then
    match a.toInt64?, b.toInt64? with
    | some x, some y => .ok (some (.int (bits op x y)))
    | _, _ => .ok none
  else
    match a.toNumber?, b.toNumber? with
    | some (.int x), some (.int y) => do
      match ← ints op x y with
      | some r => .ok (some (.int r))
      | none => .ok (viaFloats op (.int x) (.int y))
    | some x, some y => .ok (viaFloats op x y)
    | _, _ => .ok none

end Arith

end LuaMachine
