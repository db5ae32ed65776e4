import LuaMachine.Machine.Operation

set_option autoImplicit false

namespace LuaMachine.Base

open Vm

def lineFrom (call : Call) : (n i : Nat) → Vm Bytes
  | 0, _ => return []
  | n + 1, i => do
    let text := match ← Operation.tostring call (← Window.value i) with
      | .str s => s
      | _ => []
    let rest ← lineFrom call n (i + 1)
    return if n = 0 then text ++ rest else text ++ 9 :: rest

def print (call : Call) : Vm Nat := do
  let line ← lineFrom call (← Window.size) 1
  modify fun s => { s with output := (s.output ++ line).push 10 }
  return 0

def typeOf : Vm Nat := do
  let v ← Window.checkAny 1
  Window.push (.ofText v.type.name)
  return 1

def tostring (call : Call) : Vm Nat := do
  Window.push (← Operation.tostring call (← Window.checkAny 1))
  return 1

def numberOf : Value → Value
  | .int n => .int n
  | .float x => .float x
  | .str s => (Numeral.number? s).getD .nil
  | _ => .nil

def tonumber : Vm Nat := do
  if (← Window.value 2).isNil then
    Window.push (numberOf (← Window.checkAny 1))
    return 1
  let base ← Window.checkInteger 2
  match ← Window.value 1 with
  | .str s =>
    if base < 2 ∨ 36 < base then Window.badArgument 2 "base out of range"
    else
      Window.push (((Numeral.integer? base.toNatClampNeg s).map .int).getD .nil)
      return 1
  | _ => Window.badType 1 "string"

def placeBelow? (s : State) (level : Int64) : Option Int :=
  let place := s.depth - 1 - level.toInt
  if place < 2 ^ 63 then some place else none

/-- What `error` raises: a string message at a positive level gets the position of the call that
many levels below the running one, where it is known. The place is computed for any level. -/
def raisedValue? (s : State) (message : Value) (level : Int64) : Option Value :=
  match message with
  | .str text => do
    let place ← placeBelow? s level
    if 0 < level ∧ 0 ≤ place then
      match (s.frame :: s.callers.frames).reverse[place.toNat]? >>= s.position? with
      | some (source, line) =>
        return .ofText (source ++ ":" ++ toString line.toNat ++ ": " ++ Utf8.decodeLossy text)
      | none => return message
    else return message
  | _ => some message

def raiseValue {α : Type} (message : Value) (level : Int64) : Vm α := do
  match raisedValue? (← get) message level with
  | some v => raise (.script v)
  | none => throw .overflow

def assert : Vm Nat := do
  let condition ← Window.checkAny 1
  let n ← Window.size
  if condition.truthy then return n
  let message ← if n ≥ 2 then Window.value 2 else pure (.ofText "assertion failed!")
  raiseValue message 1

def error : Vm Nat := do
  let level ← Window.optInteger 2 1
  raiseValue (← Window.value 1) level

def pcall (call : Call) : Vm Nat := do
  let _ ← Window.checkAny 1
  let ok ← Call.attempt call ((← Window.size) - 1) none
  Window.push (.bool ok)
  Window.insert 1
  Window.size

def selected? (n : Nat) (i : Int) : Option Nat :=
  let i := if i < 0 then i + n else min i n
  if i < 1 then none else some (n - i.toNat)

def select : Vm Nat := do
  let n ← Window.size
  if (← Window.value 1) = .str [35] then
    Window.push (.int (.ofInt (n - 1)))
    return 1
  match selected? n (← Window.checkInteger 1).toInt with
  | some count => return count
  | none => Window.badArgument 1 "index out of range"

def next : Vm Nat := do
  let t ← Window.checkTable 1
  let k ← Window.value 2
  let (entry, t') := (← tableAt t).next k
  modifyTable t fun _ => t'
  match entry with
  | .error e => raise (.invalidKey e)
  | .ok (some (k, v)) =>
    Window.push k.toValue
    Window.push v
    return 2
  | .ok none =>
    Window.push .nil
    return 1

def pairs (call : Call) : Vm Nat := do
  let v ← Window.checkAny 1
  let h ← handler v "__pairs"
  if !h.isNil then
    Window.push h
    Window.push v
    Call.host call 1 (some 3)
  else
    Window.pushNative (.base .next) 0
    Window.push v
    Window.push .nil
  return 3

def ipairsStep (call : Call) : Vm Nat := do
  let i := (← Window.checkInteger 2) + 1
  Window.push (.int i)
  let v ← Operation.index call (← Window.value 1) (.int i)
  Window.push v
  return if v.isNil then 1 else 2

def ipairs : Vm Nat := do
  let v ← Window.checkAny 1
  Window.pushNative (.base .ipairsStep) 0
  Window.push v
  Window.push (.int 0)
  return 3

def getmetatable : Vm Nat := do
  let v ← Window.checkAny 1
  let result := match (← get).metatable? v with
    | none => .nil
    | some m => .table m
  let guard ← handler v "__metatable"
  Window.push (if guard.isNil then result else guard)
  return 1

def setmetatable : Vm Nat := do
  let t ← Window.checkTable 1
  let m ← match ← Window.value 2 with
    | .nil => pure none
    | .table m => pure (some m)
    | _ => Window.badArgument 2 "nil or table expected"
  if !(← handler (.table t) "__metatable").isNil then fault .protectedMetatable
  setMetatable (.table t) m
  Window.resize 1
  return 1

def rawget : Vm Nat := do
  let t ← Window.checkTable 1
  let k ← Window.checkAny 2
  Window.push ((← tableAt t).get k)
  return 1

def rawset : Vm Nat := do
  let t ← Window.checkTable 1
  let k ← Window.checkAny 2
  let v ← Window.checkAny 3
  Operation.rawPut t k v
  Window.resize 1
  return 1

def rawequal : Vm Nat := do
  let a ← Window.checkAny 1
  let b ← Window.checkAny 2
  Window.push (.bool (a.rawEquals b))
  return 1

def rawlen : Vm Nat := do
  match ← Window.value 1 with
  | .table t => Window.push (.int (.ofNat (← tableAt t).length))
  | .str s => Window.push (.int (.ofNat s.length))
  | _ => Window.badArgument 1 "table or string expected"
  return 1

def run (call : Call) : BaseFunction → Vm Nat
  | .print => print call
  | .type => typeOf
  | .tostring => tostring call
  | .tonumber => tonumber
  | .assert => assert
  | .error => error
  | .pcall => pcall call
  | .select => select
  | .next => next
  | .pairs => pairs call
  | .ipairs => ipairs
  | .getmetatable => getmetatable
  | .setmetatable => setmetatable
  | .rawget => rawget
  | .rawset => rawset
  | .rawequal => rawequal
  | .rawlen => rawlen
  | .ipairsStep => ipairsStep call

def names : List (String × BaseFunction) :=
  [("print", .print), ("type", .type), ("tostring", .tostring), ("tonumber", .tonumber),
    ("assert", .assert), ("error", .error), ("pcall", .pcall), ("select", .select),
    ("next", .next), ("pairs", .pairs), ("ipairs", .ipairs), ("getmetatable", .getmetatable),
    ("setmetatable", .setmetatable), ("rawget", .rawget), ("rawset", .rawset),
    ("rawequal", .rawequal), ("rawlen", .rawlen)]

def openLibrary : Vm Unit := do
  names.forM fun (name, f) => register name (.base f)
  setGlobal "_G" (.table (← get).globals)
  setGlobal "_VERSION" (.ofText "Lua 5.3")

end LuaMachine.Base
