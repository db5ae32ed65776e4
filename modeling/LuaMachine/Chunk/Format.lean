import LuaMachine.Prototype

set_option autoImplicit false

namespace LuaMachine.Chunk

def le : Nat → Nat → Bytes
  | 0, _ => []
  | width + 1, n => .ofNat n :: le width (n / 256)

def ofLE : Bytes → Nat
  | [] => 0
  | b :: rest => b.toNat + 256 * ofLE rest

@[simp] theorem length_le (width n : Nat) : (le width n).length = width := by
  induction width generalizing n with
  | zero => rfl
  | succ width ih => simp [le, ih]

theorem ofLE_le (width n : Nat) : ofLE (le width n) = n % 256 ^ width := by
  induction width generalizing n with
  | zero => simp [le, ofLE, Nat.mod_one]
  | succ width ih => simp [le, ofLE, ih, Nat.pow_succ', Nat.mod_mul]

def signature : Bytes := [0x1B, 0x4C, 0x75, 0x61]

def version : UInt8 := 0x53

def format : UInt8 := 0

def conversionData : Bytes := [0x19, 0x93, 0x0D, 0x0A, 0x1A, 0x0A]

def typeSizes : List (String × UInt8) :=
  [("int", 4), ("size_t", 8), ("Instruction", 4), ("lua_Integer", 8), ("lua_Number", 8)]

def sampleInt : Bytes := le 8 0x5678

def sampleFloat : Bytes := le 8 0x4077280000000000

def header : Bytes :=
  signature ++ [version, format] ++ conversionData ++ typeSizes.map (·.2) ++ sampleInt
    ++ sampleFloat

theorem length_header : header.length = 33 := rfl

-- Tags of constants.
def nilTag : UInt8 := 0x00
def boolTag : UInt8 := 0x01
def floatTag : UInt8 := 0x03
def intTag : UInt8 := 0x13
def shortTag : UInt8 := 0x04
def longTag : UInt8 := 0x14

def maxShort : Nat := 40

def maxNesting : Nat := 200

def unknownSource : String := "=?"

end LuaMachine.Chunk
