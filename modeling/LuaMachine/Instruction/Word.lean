import LuaMachine.Instruction.Opcode

set_option autoImplicit false

-- Powers are those of the core library, whatever other instances are known.
attribute [default_instance 20000, instance (high)] instPowNat

namespace LuaMachine

structure Word where
  bits : UInt32
  deriving DecidableEq, Repr, Inhabited

namespace Word

@[inline] def field (w : Word) (low width : Nat) : Nat := (w.bits.toNat >>> low) % 2 ^ width

theorem field_lt (w : Word) (low width : Nat) : w.field low width < 2 ^ width :=
  Nat.mod_lt _ (Nat.two_pow_pos width)

def opNumber (w : Word) : Nat := w.field 0 6

def opcode? (w : Word) : Option Opcode := Opcode.ofNat? w.opNumber

def a (w : Word) : Nat := w.field 6 8

def c (w : Word) : Nat := w.field 14 9

def b (w : Word) : Nat := w.field 23 9

def bx (w : Word) : Nat := w.field 14 18

def ax (w : Word) : Nat := w.field 6 26

def bias : Nat := 131071

def sbx (w : Word) : Int := (w.bx : Int) - bias

-- Words are made of operands that fit their fields.
def ofABC (op : Opcode) (a b c : Nat) : Word :=
  ⟨.ofNat (op.toNat ||| a <<< 6 ||| b <<< 23 ||| c <<< 14)⟩

def ofABx (op : Opcode) (a bx : Nat) : Word :=
  ⟨.ofNat (op.toNat ||| a <<< 6 ||| bx <<< 14)⟩

def ofAsBx (op : Opcode) (a : Nat) (sbx : Int) : Word :=
  ofABx op a ((sbx + bias) % 2 ^ 18).toNat

def Reach (offset : Int) : Prop := -131071 ≤ offset ∧ offset ≤ 131072

instance (offset : Int) : Decidable (Reach offset) := inferInstanceAs (Decidable (_ ∧ _))

-- The program stops where an offset is out of reach.
def ofAsBx? (op : Opcode) (a : Nat) (sbx : Int) : Option Word :=
  if Reach sbx then some (ofAsBx op a sbx) else none

def ofAx (op : Opcode) (ax : Nat) : Word :=
  ⟨.ofNat (op.toNat ||| ax <<< 6)⟩

def ofOperands (op : Opcode) (operands : List Int) : Word :=
  let arg (i : Nat) : Int := operands.getD i 0
  match op.layout with
  | .abc => ofABC op (arg 0).toNat (arg 1).toNat (arg 2).toNat
  | .abx => ofABx op (arg 0).toNat (arg 1).toNat
  | .asbx => ofAsBx op (arg 0).toNat (arg 1)
  | .ax => ofAx op (arg 0).toNat

def operandText (name : String) (operands : List String) : String :=
  " ".intercalate (name.pushn ' ' (9 - name.length) :: operands)

def hexText (w : Word) : String :=
  let digits := Nat.toDigits 16 w.bits.toNat
  String.ofList (List.replicate (8 - digits.length) '0' ++ digits)

def text (w : Word) : String :=
  match w.opcode? with
  | none => s!"<bad opcode {w.opNumber}> 0x{w.hexText}"
  | some op =>
    operandText op.name <| match op.layout with
      | .abc => [toString w.a, toString w.b, toString w.c]
      | .abx => [toString w.a, toString w.bx]
      | .asbx => [toString w.a, toString w.sbx]
      | .ax => [toString w.ax]

end Word

-- Operands that name a register or, with bit 8 set, a constant.
namespace RK

def constantBit : Nat := 256

def isConstant (x : Nat) : Bool := x &&& constantBit != 0

def constantIndex (x : Nat) : Nat := x - (x &&& constantBit)

def ofConstant (k : Nat) : Nat := k ||| constantBit

end RK

end LuaMachine
