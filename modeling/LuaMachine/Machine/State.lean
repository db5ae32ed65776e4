import LuaMachine.Machine.Store
import LuaMachine.Prototype
import LuaMachine.Table

set_option autoImplicit false

namespace LuaMachine

structure Config where
  maxCallDepth : Nat := 200
  headroom : Nat := 20
  maxMetaChain : Nat := 2000
  deriving DecidableEq, Repr

inductive BaseFunction where
  | print | type | tostring | tonumber | assert | error | pcall | select | next | pairs | ipairs
  | getmetatable | setmetatable | rawget | rawset | rawequal | rawlen
  | ipairsStep
  deriving DecidableEq, Repr

inductive Native where
  | base (f : BaseFunction)
  | host (name : String)
  deriving DecidableEq, Repr

inductive FunctionBody where
  | script (p : Prototype)
  | native (f : Native)

structure Closure where
  body : FunctionBody
  cells : Array CellId

def Closure.debugText (c : Closure) : String :=
  let kind := match c.body with
    | .script p => "script " ++ p.shortSource ++ ":" ++ toString p.lineDefined.toNat
    | .native _ => "native"
  "Closure(" ++ kind ++ s!", {c.cells.size} upvalues)"

structure Frame where
  function : Option FunctionId
  func : Nat
  base : Nat
  top : Nat
  pc : Nat := 0
  varargs : Array Value := #[]
  opened : List (Nat × CellId) := []

namespace Frame

def host : Frame := { function := none, func := 0, base := 0, top := 0 }

def enter (f : FunctionId) (func top : Nat) : Frame :=
  { function := some f, func, base := func + 1, top }

def size (f : Frame) : Nat := f.top - f.base

end Frame

structure Callers where
  frames : List Frame := []
  count : Nat := 0
  count_eq : count = frames.length := by rfl

namespace Callers

def push (c : Callers) (f : Frame) : Callers :=
  ⟨f :: c.frames, c.count + 1, by simp [c.count_eq]⟩

def pop? (c : Callers) : Option (Frame × Callers) :=
  match c with
  | ⟨[], _, _⟩ => none
  | ⟨f :: rest, count, h⟩ => some (f, ⟨rest, count - 1, by simp [h]⟩)

@[simp] theorem pop?_push (c : Callers) (f : Frame) : (c.push f).pop? = some (f, c) := rfl

end Callers

structure State extends Store where
  frame : Frame := .host
  callers : Callers := {}
  tables : Array Table := #[]
  functions : Array Closure := #[]
  registry : TableId
  globals : TableId
  config : Config := {}
  output : Array UInt8 := #[]
  /-- Slots that were written through an open cell, the last one first. -/
  escapes : List Nat := []
  budget : Nat := 0

inductive Stop where
  | raised (error : LuaError)
  | outOfRange (slot : Nat)
  -- A number leaves its machine word.
  | overflow
  | exhausted

abbrev Vm := EStateM Stop State

/-- Calls the value at slot `func` with `nargs` arguments above it. The results replace it, as
many as wanted or all; their number is returned. -/
abbrev Call := (func nargs : Nat) → (wanted : Option Nat) → Vm Nat

namespace State

def depth (s : State) : Nat := s.callers.count + 1

def table (s : State) (t : TableId) : Table := s.tables.getD t.index .empty

def function? (s : State) (f : FunctionId) : Option Closure := s.functions[f.index]?

def prototype? (s : State) (f : Frame) : Option Prototype := do
  match (← s.function? (← f.function)).body with
  | .script p => some p
  | .native _ => none

def position? (s : State) (f : Frame) : Option (String × UInt32) := do
  let p ← s.prototype? f
  if f.pc = 0 then none else return (p.shortSource, ← p.lineAt? (f.pc - 1))

end State

namespace Vm

def raise {α : Type} (e : LuaError) : Vm α := throw (.raised e)

def fault {α : Type} (f : Fault) : Vm α := raise (.runtime f)

def tick : Vm Unit := fun s =>
  if s.budget = 0 then .error .exhausted s else .ok () { s with budget := s.budget - 1 }

def frame : Vm Frame := return (← get).frame

def modifyFrame (f : Frame → Frame) : Vm Unit := modify fun s => { s with frame := f s.frame }

def setTop (top : Nat) : Vm Unit := modifyFrame ({ · with top })

def read (slot : Nat) : Vm Value := fun s =>
  match s.stack[slot]? with
  | some v => .ok v s
  | none => .error (.outOfRange slot) s

def write (slot : Nat) (v : Value) : Vm Unit := fun s =>
  if h : slot < s.stack.size then .ok () { s with stack := s.stack.set slot v h }
  else .error (.outOfRange slot) s

def reserve (size : Nat) : Vm Unit := modify fun s => { s with toStore := s.toStore.reserve size }

def reserveWithHeadroom (size : Nat) : Vm Unit := do reserve (size + (← get).config.headroom)

def readMany (slot : Nat) : (n : Nat) → Vm (List Value)
  | 0 => return []
  | n + 1 => return (← read slot) :: (← readMany (slot + 1) n)

def writeMany (slot : Nat) : List Value → Vm Unit
  | [] => return
  | v :: rest => do
    write slot v
    writeMany (slot + 1) rest

def clear (slot : Nat) : (n : Nat) → Vm Unit
  | 0 => return
  | n + 1 => do
    write slot .nil
    clear (slot + 1) n

def take (slot : Nat) : Vm Value := do
  let v ← read slot
  write slot .nil
  return v

def takeMany (slot : Nat) : (n : Nat) → Vm (List Value)
  | 0 => return []
  | n + 1 => return (← take slot) :: (← takeMany (slot + 1) n)

def moveDown (source dest : Nat) : (n : Nat) → Vm Unit
  | 0 => return
  | n + 1 => do
    write dest (← take source)
    moveDown (source + 1) (dest + 1) n

def shiftUp (slot : Nat) : (n : Nat) → Vm Unit
  | 0 => return
  | n + 1 => do
    write (slot + n + 1) (← read (slot + n))
    shiftUp slot n

def tableAt (t : TableId) : Vm Table := return (← get).table t

def modifyTable (t : TableId) (f : Table → Table) : Vm Unit :=
  modify fun s => { s with tables := s.tables.modify t.index f }

def newTable (t : Table) : Vm TableId :=
  modifyGet fun s => (⟨s.tables.size⟩, { s with tables := s.tables.push t })

def newFunction (c : Closure) : Vm FunctionId :=
  modifyGet fun s => (⟨s.functions.size⟩, { s with functions := s.functions.push c })

def newCell (c : Cell) : Vm CellId :=
  modifyGet fun s =>
    let (id, store) := s.toStore.newCell c
    (id, { s with toStore := store })

def newCells : List Value → Vm (List CellId)
  | [] => return []
  | v :: rest => return (← newCell (.closed v)) :: (← newCells rest)

def newNative (f : Native) (captured : List Value) : Vm FunctionId := do
  let cells ← newCells captured
  newFunction ⟨.native f, cells.toArray⟩

def readCell (id : CellId) : Vm Value := return (← get).toStore.getCell id

def writeCell (id : CellId) (v : Value) : Vm Unit := do
  match (← get).toStore.cell id with
  | .opened slot =>
    write slot v
    modify fun s => { s with escapes := slot :: s.escapes }
  | .closed _ => modify fun s => { s with toStore := s.toStore.setCell id v }

def captureSlot (slot : Nat) : Vm CellId := do
  match (← get).frame.opened.lookup slot with
  | some id => return id
  | none =>
    let id ← newCell (.opened slot)
    modifyFrame fun f => { f with opened := (slot, id) :: f.opened }
    return id

def closeFrom (low : Nat) : Vm Unit :=
  modify fun s =>
    let (closing, kept) := s.frame.opened.partition (·.1 ≥ low)
    { s with
      toStore := s.toStore.closeCells (closing.map (·.2))
      frame := { s.frame with opened := kept } }

def pushFrame (f : Frame) : Vm Unit :=
  modify fun s => { s with frame := f, callers := s.callers.push s.frame }

def popFrame : Vm Frame := do
  let s ← get
  match s.callers.pop? with
  | none => fault .callStackUnderflow
  | some (caller, rest) =>
    set { s with frame := caller, callers := rest }
    return s.frame

end Vm

end LuaMachine
