import LuaMachine.Chunk.Reader
import LuaMachine.Machine.Base
import LuaMachine.Machine.Step

set_option autoImplicit false

namespace LuaMachine

abbrev Host := String → Call → Vm Nat

namespace Machine

open Vm

def activation : Vm Activation := do
  let s ← get
  match s.frame.function with
  | none => fault .noFunction
  | some f =>
    match s.function? f with
    | some ⟨.script p, cells⟩ => return ⟨cells, p, s.frame.base⟩
    | _ => fault .notScript

def locate (p : Routine) (pc : Nat) (e : LuaError) : LuaError :=
  if e.isLocated then e else .traced (p.location pc) e

def located {α : Type} (p : Routine) (pc : Nat) (x : Vm α) : Vm α := fun s =>
  match x s with
  | .error (.raised e) s => .error (.raised (locate p pc e)) s
  | r => r

def stepOnce (call : Call) : Vm Call.Flow := do
  let a ← activation
  let pc := (← frame).pc
  match a.proto.code[pc]? with
  | none => return .returned (← Call.returnFrom a.base 0)
  | some w =>
    modifyFrame ({ · with pc := pc + 1 })
    located a.proto.toRoutine pc (a.step call w)

def loop (call : Call) : (fuel : Nat) → Vm Nat
  | 0 => throw .exhausted
  | fuel + 1 => do
    tick
    match ← stepOnce call with
    | .next => loop call fuel
    | .returned n => return n

def native (host : Host) (call : Call) : Native → Vm Nat
  | .base f => Base.run call f
  | .host name => host name call

/-- Calls the value at `func`, where `call` is used for the calls inside it. -/
def invoke (host : Host) (call : Call) (fuel : Nat) : Call := fun func nargs wanted => do
  tick
  let s ← get
  if s.depth > s.config.maxCallDepth then raise .stackOverflow
  let (f, nargs) ← Call.resolve func nargs
  match (← get).function? f with
  | none => fault .noFunction
  | some ⟨.native n, _⟩ => Call.native (native host call n) f func nargs wanted
  | some ⟨.script p, _⟩ =>
    Call.enterScript f p func nargs
    let n ← loop call fuel
    Call.adjustResults func n wanted

/-- Calls may be nested `fuel` deep, and none may execute more instructions. -/
def callWithin (host : Host) : (fuel : Nat) → Call
  | 0 => fun _ _ _ => throw .exhausted
  | fuel + 1 => fun func nargs wanted => invoke host (callWithin host fuel) fuel func nargs wanted

/-- Calls under the budget alone: the fuel is more than it can pay for. -/
def call (host : Host) : Call := fun func nargs wanted => do
  callWithin host ((← get).budget + 1) func nargs wanted

def loadPrototype (p : Prototype) : Vm Unit := do
  let cells ← newCells (List.replicate p.captures.size .nil)
  match cells with
  | env :: _ => writeCell env (.table (← get).globals)
  | [] => pure ()
  Window.push (.function (← newFunction ⟨.script p, cells.toArray⟩))

def load (data : Bytes) : Vm Unit := do
  match Chunk.read data with
  | .ok p => loadPrototype p
  | .error e => raise (.bytecode e)

def executePrototype (host : Host) (p : Prototype) : Vm (List Value) := do
  let mark ← Window.size
  loadPrototype p
  Call.host (call host) 0 none
  let results := (← Window.values).drop mark
  Window.resize mark
  return results

def execute (host : Host) (data : Bytes) : Vm (List Value) := do
  match Chunk.read data with
  | .ok p => executePrototype host p
  | .error e => raise (.bytecode e)

end Machine

namespace State

def ample : Nat := 2 ^ 60

def globalsKey : Key := .int 2

def bare (config : Config) : State :=
  { registry := ⟨0⟩
    globals := ⟨1⟩
    tables := #[Table.empty.putKey globalsKey (.table ⟨1⟩), .empty]
    stack := Array.replicate config.headroom .nil
    config
    budget := ample }

def new (config : Config := {}) : State :=
  match Base.openLibrary (bare config) with
  | .ok _ s => s
  | .error _ s => s

end State

end LuaMachine
