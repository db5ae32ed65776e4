import LuaMachine.Chunk.Format

set_option autoImplicit false

namespace LuaMachine.Chunk

namespace Write

def u32 (n : UInt32) : Bytes := le 4 n.toNat

def count (n : Nat) : Bytes := le 4 n

/-- A string is preceded by its length plus one, in one byte or, from 255 on, in nine. -/
def string (s : Bytes) : Bytes :=
  let size := s.length + 1
  (if size < 0xFF then [.ofNat size] else 0xFF :: le 8 size) ++ s

def name (s : String) : Bytes := string (Utf8.encode s)

def constant : Constant → Bytes
  | .nil => [nilTag]
  | .bool b => [boolTag, if b then 1 else 0]
  | .float x => floatTag :: le 8 x.bits.toNat
  | .int n => intTag :: le 8 n.toUInt64.toNat
  | .str s => (if s.length ≤ maxShort then shortTag else longTag) :: string s

def capture (c : Capture) : Bytes := [c.toRaw.1, c.toRaw.2]

def localVariable (v : LocalVariable) : Bytes := name v.name ++ u32 v.start ++ u32 v.stop

def list {α : Type} (item : α → Bytes) (xs : Array α) : Bytes :=
  count xs.size ++ xs.toList.flatMap item

def source (parent : Option String) (s : String) : Bytes :=
  if parent = some s then [0] else name s

def front (parent : Option String) (p : Routine) : Bytes :=
  source parent p.source ++ u32 p.lineDefined ++ u32 p.lastLine
    ++ [p.params, if p.vararg then 1 else 0, p.stackSize]
    ++ list (fun w => u32 w.bits) p.code
    ++ list constant p.constants
    ++ list capture p.captures

def back (p : Routine) : Bytes :=
  list u32 p.lines ++ list localVariable p.locals ++ list name p.captureNames

mutual

def prototype (parent : Option String) : Prototype → Bytes
  | ⟨p, protos⟩ =>
    front parent p ++ count protos.length ++ prototypes p.source protos ++ back p

def prototypes (parent : String) : List Prototype → Bytes
  | [] => []
  | p :: ps => prototype (some parent) p ++ prototypes parent ps

end

end Write

def write (p : Prototype) : Bytes :=
  header ++ .ofNat p.captures.size :: Write.prototype none p

end LuaMachine.Chunk
