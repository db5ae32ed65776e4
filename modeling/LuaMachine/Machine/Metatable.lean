import LuaMachine.Machine.State

set_option autoImplicit false

namespace LuaMachine

namespace State

def typeKey (v : Value) : String := "_MT" ++ toString v.type.tag

def metatable? (s : State) (v : Value) : Option TableId :=
  match v with
  | .table t => (s.table t).metatable
  | v =>
    match (s.table s.registry).getText (typeKey v) with
    | .table t => some t
    | _ => none

def handler (s : State) (v : Value) (event : String) : Value :=
  match s.metatable? v with
  | none => .nil
  | some m => (s.table m).getText event

def handler₂ (s : State) (a b : Value) (event : String) : Value :=
  let h := s.handler a event
  if h.isNil then s.handler b event else h

end State

namespace Vm

def handler (v : Value) (event : String) : Vm Value := return (← get).handler v event

def handler₂ (a b : Value) (event : String) : Vm Value := return (← get).handler₂ a b event

def setMetatable (v : Value) (m : Option TableId) : Vm Unit := do
  match v with
  | .table t => modifyTable t ({ · with metatable := m })
  | v =>
    let value := match m with
      | some m => .table m
      | none => .nil
    modifyTable (← get).registry (·.putText (State.typeKey v) value)

def getGlobal (name : String) : Vm Value := do
  let s ← get
  return (s.table s.globals).getText name

def setGlobal (name : String) (v : Value) : Vm Unit := do
  modifyTable (← get).globals (·.putText name v)

def register (name : String) (f : Native) : Vm Unit := do
  setGlobal name (.function (← newNative f []))

end Vm

end LuaMachine
