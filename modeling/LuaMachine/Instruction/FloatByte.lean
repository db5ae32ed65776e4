set_option autoImplicit false

namespace LuaMachine.FloatByte

-- Sizes in one byte `eeeeexxx`: a number below 8 stands for itself, any other for
-- `(8 + x) * 2 ^ (e - 1)`. Operands that hold one have nine bits, so the shift is below 64.
def decode (x : UInt32) : UInt64 :=
  if x < 8 then x.toUInt64
  else ((x &&& 7) + 8).toUInt64 <<< ((x >>> 3) - 1).toUInt64

-- The program stops at a sum or difference that is no word.
def add? (x y : UInt32) : Option UInt32 :=
  if x.toNat + y.toNat < 2 ^ 32 then some (x + y) else none

def sub? (x y : UInt32) : Option UInt32 := if y ≤ x then some (x - y) else none

def normalize? : Nat → UInt32 → UInt32 → Option (UInt32 × UInt32)
  | 0, _, _ => none
  | fuel + 1, x, e =>
    if x ≥ 128 then do normalize? fuel ((← add? x 15) >>> 4) (← add? e 4)
    else if x ≥ 16 then do normalize? fuel ((← add? x 1) >>> 1) (← add? e 1)
    else some (x, e)

/-- The byte for size `x`, rounded up, or none where a step stops the program. -/
def encode (x : UInt32) : Option UInt32 :=
  if x < 8 then some x
  else do
    let (m, e) ← normalize? 32 x 0
    return ((← add? e 1) <<< 3) ||| (← sub? m 8)

end LuaMachine.FloatByte
