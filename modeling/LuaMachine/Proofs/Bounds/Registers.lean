import LuaMachine.Prototype

set_option autoImplicit false

namespace LuaMachine

def RK.reach (x : Nat) : Nat := if isConstant x then 0 else x + 1

/-- The registers that have to be there when an instruction is executed. Those of an iterator and
of a variable number of values are made on demand. -/
def Word.reach (w : Word) : Nat :=
  match w.opcode? with
  | some .move | some .unm | some .bnot | some .not | some .len | some .testSet =>
    max (w.a + 1) (w.b + 1)
  | some .loadK | some .loadKX | some .loadBool | some .getUpval | some .setUpval
  | some .newTable | some .test | some .closure => w.a + 1
  | some .loadNil | some .setList => w.a + w.b + 1
  | some .getTabUp => max (w.a + 1) (RK.reach w.c)
  | some .getTable => max (max (w.a + 1) (w.b + 1)) (RK.reach w.c)
  | some .setTabUp | some .eq | some .lt | some .le => max (RK.reach w.b) (RK.reach w.c)
  | some .self => max (max (w.a + 2) (w.b + 1)) (RK.reach w.c)
  | some .setTable | some .add | some .sub | some .mul | some .mod | some .pow | some .div
  | some .idiv | some .band | some .bor | some .bxor | some .shl | some .shr =>
    max (w.a + 1) (max (RK.reach w.b) (RK.reach w.c))
  | some .concat => max (w.a + 1) (w.c + 1)
  | some .call | some .tailCall => w.a + max w.b 1
  | some .ret | some .vararg => w.a + (w.b - 1)
  | some .forLoop | some .forPrep => w.a + 4
  | some .tforLoop => w.a + 2
  | some .jmp | some .tforCall | some .extraArg | none => 0

/-- All registers that the code and the functions inside it name are there. Nothing is said about
other operands. -/
inductive Prototype.Tidy : Prototype → Prop where
  | intro {p : Prototype} (params : p.params.toNat ≤ p.stackSize.toNat)
      (code : ∀ w ∈ p.code, w.reach ≤ p.stackSize.toNat)
      (captures : ∀ q ∈ p.protos, ∀ r, .register r ∈ q.captures → r.toNat < p.stackSize.toNat)
      (protos : ∀ q ∈ p.protos, q.Tidy) : p.Tidy

namespace Prototype.Tidy

variable {p q : Prototype}

theorem params (tidy : p.Tidy) : p.params.toNat ≤ p.stackSize.toNat := by
  cases tidy with
  | intro params => exact params

theorem reach_le (tidy : p.Tidy) {pc : Nat} {w : Word} (found : p.code[pc]? = some w) :
    w.reach ≤ p.stackSize.toNat := by
  cases tidy with
  | intro _ code => exact code w (Array.mem_of_getElem? found)

theorem captured_lt (tidy : p.Tidy) (inside : q ∈ p.protos) {r : UInt8}
    (captured : .register r ∈ q.captures) : r.toNat < p.stackSize.toNat := by
  cases tidy with
  | intro _ _ captures => exact captures q inside r captured

theorem nested (tidy : p.Tidy) (inside : q ∈ p.protos) : q.Tidy := by
  cases tidy with
  | intro _ _ _ protos => exact protos q inside

end Prototype.Tidy

end LuaMachine
