import LuaMachine.Instruction.Word
import LuaMachine.Value.Basic

set_option autoImplicit false

namespace LuaMachine

inductive Constant where
  | nil
  | bool (b : Bool)
  | int (n : Int64)
  | float (x : Double)
  | str (s : Bytes)
  deriving DecidableEq, Inhabited

namespace Constant

def toValue : Constant → Value
  | nil => .nil
  | bool b => .bool b
  | int n => .int n
  | float x => .float x
  | str s => .str s

def text : Constant → String
  | float x => x.exactText
  | str s => Text.quoted (Utf8.decodeLossy s)
  | c => c.toValue.text

def listingText : Constant → String
  | float x => x.listingText
  | c => c.text

end Constant

/-- Where a function finds a captured variable when it is made. -/
inductive Capture where
  | register (r : UInt8)
  | upvalue (i : UInt8)
  deriving DecidableEq, Repr

namespace Capture

def toRaw : Capture → UInt8 × UInt8
  | register r => (1, r)
  | upvalue i => (0, i)

def ofRaw (inStack index : UInt8) : Capture := if inStack ≠ 0 then register index else upvalue index

end Capture

structure LocalVariable where
  name : String
  start : UInt32
  stop : UInt32
  deriving DecidableEq, Repr

structure Routine where
  source : String
  lineDefined : UInt32 := 0
  lastLine : UInt32 := 0
  params : UInt8 := 0
  vararg : Bool := false
  stackSize : UInt8 := 2
  code : Array Word := #[]
  constants : Array Constant := #[]
  captures : Array Capture := #[]
  lines : Array UInt32 := #[]
  locals : Array LocalVariable := #[]
  captureNames : Array String := #[]
  deriving DecidableEq

namespace Routine

def lineAt? (p : Routine) (pc : Nat) : Option UInt32 := p.lines[pc]?

def shortSource (p : Routine) : String :=
  match p.source.toList with
  | c :: rest => if c = '@' ∨ c = '=' then String.ofList rest else p.source
  | [] => p.source

def location (p : Routine) (pc : Nat) : String :=
  p.shortSource ++ ":" ++ match p.lineAt? pc with
    | some line => toString line.toNat
    | none => "?"

end Routine

structure Prototype extends Routine where
  protos : List Prototype := []

instance : Inhabited Prototype := ⟨{ source := "" }⟩

end LuaMachine
