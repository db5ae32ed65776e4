import LuaMachine.Chunk.Error
import LuaMachine.Chunk.Format

set_option autoImplicit false

namespace LuaMachine.Chunk

structure Cursor where
  rest : Bytes
  offset : Nat := 0

abbrev Reader := StateT Cursor (Except ChunkError)

namespace Read

def enough : Nat → Bytes → Bool
  | 0, _ => true
  | _ + 1, [] => false
  | n + 1, _ :: rest => enough n rest

def bytes (n : Nat) : Reader Bytes := fun c =>
  if enough n c.rest then .ok (c.rest.take n, ⟨c.rest.drop n, c.offset + n⟩)
  else .error (.truncated c.offset n)

def byte : Reader UInt8 := return (← bytes 1).headD 0

def u32 : Reader UInt32 := return .ofNat (ofLE (← bytes 4))

def u64 : Reader UInt64 := return .ofNat (ofLE (← bytes 8))

/-- A count of items that each take a byte or more, refused if there are not as many bytes. -/
def count : Reader Nat := do
  let n ← u32
  let c ← get
  if enough n.toNat c.rest then return n.toNat else throw (.truncated c.offset n.toNat)

def plainCount : Reader Nat := return (← u32).toNat

def string : Reader (Option Bytes) := do
  let first ← byte
  let size ← if first = 0xFF then pure (← u64).toNat else pure first.toNat
  if size = 0 then return none else return some (← bytes (size - 1))

def name : Reader String := return Utf8.decodeLossy ((← string).getD [])

def constant : Reader Constant := do
  let tag ← byte
  if tag = nilTag then return .nil
  else if tag = boolTag then return .bool ((← byte) ≠ 0)
  else if tag = floatTag then return .float ⟨← u64⟩
  else if tag = intTag then return .int (← u64).toInt64
  else if tag = shortTag ∨ tag = longTag then return .str ((← string).getD [])
  else throw (.badConstantTag tag)

def instruction (pc : Nat) : Reader Word := do
  let w : Word := ⟨← u32⟩
  if w.opcode?.isNone then throw (.badOpcode pc w.opNumber) else return w

def capture : Reader Capture := return .ofRaw (← byte) (← byte)

def localVariable : Reader LocalVariable := return ⟨← name, ← u32, ← u32⟩

def items {α : Type} (item : Nat → Reader α) : (n i : Nat) → Reader (List α)
  | 0, _ => return []
  | n + 1, i => return (← item i) :: (← items item n (i + 1))

def list {α : Type} (count : Reader Nat) (item : Nat → Reader α) : Reader (List α) := do
  items item (← count) 0

def array {α : Type} (count : Reader Nat) (item : Nat → Reader α) : Reader (Array α) :=
  return (← list count item).toArray

/-- A prototype that may hold functions `depth` levels deep, itself included. A function without
a source has that of the enclosing one. -/
def prototype (count : Reader Nat) : (depth : Nat) → (parent : String) → Reader Prototype
  | 0, _ => throw (.tooDeep maxNesting)
  | depth + 1, parent => do
    let given ← name
    let source := if given.isEmpty then parent else given
    let lineDefined ← u32
    let lastLine ← u32
    let params ← byte
    let vararg ← byte
    let stackSize ← byte
    let code ← array count instruction
    let constants ← array count fun _ => constant
    let captures ← array count fun _ => capture
    let protos ← list count fun _ => prototype count depth source
    let lines ← array count fun _ => u32
    let locals ← array count fun _ => localVariable
    let captureNames ← array count fun _ => name
    return {
      source, lineDefined, lastLine, params, stackSize, code, constants, captures, protos, lines,
      locals, captureNames
      vararg := vararg ≠ 0 }

def typeSize (what : String) (expected : UInt8) : Reader Unit := do
  let found ← byte
  if found ≠ expected then throw (.sizeMismatch what expected found)

def header : Reader Unit := do
  if !signature.isPrefixOf (← get).rest then throw .badSignature
  let _ ← bytes signature.length
  let v ← byte
  if v ≠ version then throw (.versionMismatch v)
  let f ← byte
  if f ≠ format then throw (.formatMismatch f)
  if (← bytes conversionData.length) ≠ conversionData then throw .badConversionData
  typeSizes.forM fun (what, size) => typeSize what size
  if (← bytes 8) ≠ sampleInt then throw .endianMismatch
  if (← bytes 8) ≠ sampleFloat then throw .floatMismatch

def chunk (count : Reader Nat) : Reader Prototype := do
  header
  let _ ← byte
  prototype count (maxNesting + 1) unknownSource

end Read

def readWith (count : Reader Nat) (data : Bytes) : Except ChunkError Prototype := do
  let (p, c) ← Read.chunk count ⟨data, 0⟩
  if c.rest.isEmpty then return p else throw (.trailingBytes c.rest.length)

def read (data : Bytes) : Except ChunkError Prototype := readWith Read.count data

def isBinary (data : Bytes) : Bool := signature.isPrefixOf data

end LuaMachine.Chunk
