import LuaMachine.Machine.Metatable
import LuaMachine.Machine.Window

set_option autoImplicit false

namespace LuaMachine.Call

open Vm

/-- The function behind the value at `func`, found in at most `links` steps. A value that is no
function gives way to its `__call` handler and becomes the first argument. -/
def resolveWithin (func : Nat) : (links nargs : Nat) → Vm (FunctionId × Nat)
  | 0, _ => fault (.chainTooLong "__call")
  | links + 1, nargs => do
    let callee ← read func
    match callee with
    | .function f => return (f, nargs)
    | _ =>
      let h ← handler callee "__call"
      if h.isNil then raise (.notCallable callee.type)
      else
        reserveWithHeadroom (func + 1 + nargs + 1)
        shiftUp func (nargs + 1)
        write func h
        resolveWithin func links (nargs + 1)

def resolve (func nargs : Nat) : Vm (FunctionId × Nat) := do
  resolveWithin func ((← get).config.maxMetaChain + 1) nargs

def adjustResults (func n : Nat) (wanted : Option Nat) : Vm Nat := do
  let count := wanted.getD n
  reserveWithHeadroom (func + count)
  clear (func + min n count) (count - n)
  setTop (func + count)
  return count

/-- Starts a script function: parameters stay where they are, further arguments are set aside,
and all other registers become nil. -/
def enterScript (f : FunctionId) (p : Prototype) (func nargs : Nat) : Vm Unit := do
  let base := func + 1
  let params := p.params.toNat
  let registers := p.stackSize.toNat
  let varargs ← if p.vararg then takeMany (base + params) (nargs - params) else pure []
  reserveWithHeadroom (base + max registers nargs)
  clear (base + min nargs params) (max registers params - min nargs params)
  pushFrame { Frame.enter f func (base + registers) with varargs := varargs.toArray }

def returnFrom (first n : Nat) : Vm Nat := do
  closeFrom 0
  let f ← popFrame
  moveDown first f.func n
  return n

def returnFromNative (func returned : Nat) (wanted : Option Nat) : Vm Nat := do
  let f ← popFrame
  let n := min returned f.size
  moveDown (f.top - n) func n
  adjustResults func n wanted

def native (body : Vm Nat) (f : FunctionId) (func nargs : Nat) (wanted : Option Nat) : Vm Nat := do
  let top := func + 1 + nargs
  reserveWithHeadroom top
  pushFrame (.enter f func top)
  let returned ← body
  returnFromNative func returned wanted

def discard : (n : Nat) → Vm Unit
  | 0 => return
  | n + 1 => do
    closeFrom 0
    let _ ← popFrame
    discard n

def unwind (depth : Nat) : Vm Unit := do
  discard ((← get).depth - max depth 1)

inductive Flow where
  | next
  | returned (n : Nat)

/-- Replaces the running call by one of the value at `func`. A native function runs above it, and
its results are returned at once. -/
def tail (call : LuaMachine.Call) (func nargs : Nat) : Vm Flow := do
  let (f, nargs) ← resolve func nargs
  closeFrom (← frame).base
  match (← get).function? f with
  | some ⟨.script p, _⟩ =>
    let dest := (← popFrame).func
    moveDown func dest (nargs + 1)
    enterScript f p dest nargs
    return .next
  | _ =>
    let n ← call func nargs none
    return .returned (← returnFrom func n)

def funcSlot (nargs : Nat) : Vm Nat := do
  let f ← frame
  if f.base + nargs + 1 ≤ f.top then return f.top - (nargs + 1) else fault .tooFewValues

/-- Runs `x`; after an error all calls it left behind are discarded and `handle` goes on with the
window cut at `func`. -/
def guarded {α : Type} (func : Nat) (x : Vm α) (handle : LuaError → Vm α) : Vm α := fun s =>
  match x s with
  | .error (.raised e) s' =>
    (do
      unwind s.depth
      setTop func
      handle e) s'
  | r => r

def host (call : LuaMachine.Call) (nargs : Nat) (wanted : Option Nat) : Vm Unit := do
  let func ← funcSlot nargs
  let _ ← guarded func (call func nargs wanted) raise

def attempt (call : LuaMachine.Call) (nargs : Nat) (wanted : Option Nat) : Vm Bool := do
  let f ← frame
  if f.base + nargs + 1 ≤ f.top then
    let func := f.top - (nargs + 1)
    guarded func (do let _ ← call func nargs wanted; return true) fun e => do
      Window.push e.toValue
      return false
  else
    Window.push (LuaError.runtime .tooFewValues).toValue
    return false

end LuaMachine.Call
