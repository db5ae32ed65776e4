import LuaMachine.Machine.State
import LuaMachine.Value.Numeral

set_option autoImplicit false

namespace LuaMachine.Window

open Vm

def size : Vm Nat := return (← frame).size

def slotOf? (f : Frame) (i : Int) : Option Nat :=
  let slot : Int := if 0 < i then f.base + i - 1 else f.top + i
  if i ≠ 0 ∧ f.base ≤ slot ∧ slot < f.top then some slot.toNat else none

def value (i : Int) : Vm Value := do
  match slotOf? (← frame) i with
  | some slot => read slot
  | none => return .nil

def typeName (i : Int) : Vm String := do
  match slotOf? (← frame) i with
  | some slot => return (← read slot).type.name
  | none => return "no value"

def push (v : Value) : Vm Unit := do
  let top := (← frame).top
  reserveWithHeadroom (top + 1)
  write top v
  setTop (top + 1)

def pop : Vm Value := do
  let f ← frame
  if f.top = f.base then return .nil
  else
    setTop (f.top - 1)
    take (f.top - 1)

def resize (n : Nat) : Vm Unit := do
  let f ← frame
  let top := f.base + n
  reserve top
  clear (min f.top top) (top - f.top)
  setTop top

def insert (i : Int) : Vm Unit := do
  let f ← frame
  match slotOf? f i with
  | none => return
  | some slot =>
    let v ← read (f.top - 1)
    shiftUp slot (f.top - 1 - slot)
    write slot v

def values : Vm (List Value) := do
  let f ← frame
  readMany f.base f.size

/-- Replaces the last `captured` values by a host function that has captured them. -/
def pushNative (f : Native) (captured : Nat) : Vm Unit := do
  let w ← frame
  let captured := min captured w.size
  let values ← readMany (w.top - captured) captured
  setTop (w.top - captured)
  push (.function (← newNative f values))

def upvalue (i : Nat) : Vm Value := do
  let s ← get
  match s.frame.function >>= s.function? with
  | none => return .nil
  | some c =>
    match c.cells[i]? with
    | some id => readCell id
    | none => return .nil

def functionName? (s : State) : Option String := do
  let f ← s.frame.function
  (s.table s.globals).entries.findSome? fun (k, v) =>
    match k with
    | .str name => if v = .function f then some (Utf8.decodeLossy name) else none
    | _ => none

def argError (i : Nat) (complaint : String) : Vm LuaError :=
  return .runtime (.badArgument i (functionName? (← get)) complaint)

def badArgument {α : Type} (i : Nat) (complaint : String) : Vm α := do
  raise (← argError i complaint)

def badType {α : Type} (i : Nat) (expected : String) : Vm α := do
  let got ← typeName i
  badArgument i s!"{expected} expected, got {got}"

def checkAny (i : Nat) : Vm Value := do
  match slotOf? (← frame) i with
  | some slot => read slot
  | none => badArgument i "value expected"

def checkTable (i : Nat) : Vm TableId := do
  match ← value i with
  | .table t => return t
  | _ => badType i "table"

def checkInteger (i : Nat) : Vm Int64 := do
  let v ← value i
  match v.toInt64? with
  | some n => return n
  | none =>
    if v.toDouble?.isSome then badArgument i "number has no integer representation"
    else badType i "number"

def optInteger (i : Nat) (default : Int64) : Vm Int64 := do
  if (← value i).isNil then return default else checkInteger i

def checkNumber (i : Nat) : Vm Double := do
  match (← value i).toDouble? with
  | some x => return x
  | none => badType i "number"

def checkString (i : Nat) : Vm Bytes := do
  match (← value i).toBytes? with
  | some s => return s
  | none => badType i "string"

end LuaMachine.Window
