set_option autoImplicit false

namespace LuaMachine

inductive ChunkError where
  | badSignature
  | versionMismatch (found : UInt8)
  | formatMismatch (found : UInt8)
  | badConversionData
  | endianMismatch
  | floatMismatch
  | sizeMismatch (what : String) (expected found : UInt8)
  | truncated (offset need : Nat)
  | badConstantTag (tag : UInt8)
  | badOpcode (pc op : Nat)
  | tooDeep (limit : Nat)
  | trailingBytes (count : Nat)
  deriving DecidableEq, Repr

namespace ChunkError

def byteText (b : UInt8) : String :=
  let digits := Nat.toDigits 16 b.toNat
  "0x" ++ String.ofList (List.replicate (2 - digits.length) '0' ++ digits)

def message : ChunkError → String
  | badSignature => "not a precompiled chunk (bad signature)"
  | versionMismatch found => "version mismatch: expected 0x53, found " ++ byteText found
  | formatMismatch found => "format mismatch: expected 0, found " ++ toString found.toNat
  | badConversionData => "corrupted chunk: bad conversion data"
  | endianMismatch => "corrupted chunk: endianness mismatch"
  | floatMismatch => "corrupted chunk: float format mismatch"
  | sizeMismatch what expected found =>
    what ++ " size mismatch: expected " ++ toString expected.toNat ++ ", found "
      ++ toString found.toNat
  | truncated offset need => s!"truncated chunk: need {need} bytes at offset {offset}"
  | badConstantTag tag => "unknown constant tag " ++ byteText tag
  | badOpcode pc op => s!"invalid opcode {op} at pc {pc}"
  | tooDeep limit => s!"functions nested deeper than {limit} levels"
  | trailingBytes count => s!"{count} trailing bytes after main function"

end ChunkError

end LuaMachine
