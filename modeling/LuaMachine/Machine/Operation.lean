import LuaMachine.Machine.Call
import LuaMachine.Value.Arith
import LuaMachine.Value.Order

set_option autoImplicit false

namespace LuaMachine.Operation

open Vm

def scratch (s : State) : Nat :=
  match s.prototype? s.frame with
  | some p => max s.frame.top (s.frame.base + p.stackSize.toNat)
  | none => s.frame.top

/-- The first result of calling a handler above everything live. -/
def callHandler (call : Call) (h : Value) (args : List Value) : Vm Value := do
  let s ← get
  let top := s.frame.top
  let slot := scratch s
  reserveWithHeadroom (slot + args.length + 1)
  writeMany slot (h :: args)
  let _ ← call slot args.length (some 1)
  let result ← take slot
  setTop top
  return result

/-- `t[k]`, within a number of links: a table without the key and any other value hand the
question to their `__index` handler. -/
def indexWithin (call : Call) (k : Value) : (links : Nat) → (t : Value) → Vm Value
  | 0, _ => fault (.chainTooLong "__index")
  | links + 1, t => do
    let s ← get
    let found := match t with
      | .table id => (s.table id).get k
      | _ => .nil
    if !found.isNil then return found
    let h := s.handler t "__index"
    match h with
    | .nil =>
      match t with
      | .table _ => return .nil
      | _ => raise (.notTable t.type)
    | .function _ => callHandler call h [t, k]
    | _ => indexWithin call k links h

def index (call : Call) (t k : Value) : Vm Value := do
  indexWithin call k (← get).config.maxMetaChain t

def rawPut (t : TableId) (k v : Value) : Vm Unit := do
  match Key.ofValue k with
  | .ok key => modifyTable t (·.putKey key v)
  | .error e => raise (.invalidKey e)

/-- `t[k] = v`, within a number of links: a table that has the key takes the value, any other
value hands it to its `__newindex` handler. -/
def setIndexWithin (call : Call) (k v : Value) : (links : Nat) → (t : Value) → Vm Unit
  | 0, _ => fault (.chainTooLong "__newindex")
  | links + 1, t => do
    let s ← get
    let present := match t with
      | .table id => !((s.table id).get k).isNil
      | _ => false
    let h := if present then .nil else s.handler t "__newindex"
    match h with
    | .nil =>
      match t with
      | .table id => rawPut id k v
      | _ => raise (.notTable t.type)
    | .function _ =>
      let _ ← callHandler call h [t, k, v]
    | _ => setIndexWithin call k v links h

def setIndex (call : Call) (t k v : Value) : Vm Unit := do
  setIndexWithin call k v (← get).config.maxMetaChain t

def arithError (op : ArithOp) (a b : Value) : LuaError :=
  if op.isBitwise then
    if a.toDouble?.isSome && b.toDouble?.isSome then .runtime .noIntegerForm
    else .arithmetic true (if a.toDouble?.isNone then a else b).type
  else .arithmetic false (if a.toNumber?.isNone then a else b).type

def arith (call : Call) (op : ArithOp) (a b : Value) : Vm Value := do
  match Arith.raw op a b with
  | .error e => raise e
  | .ok (some v) => return v
  | .ok none =>
    let h ← handler₂ a b op.event
    if h.isNil then raise (arithError op a b) else callHandler call h [a, b]

def equals (call : Call) (a b : Value) : Vm Bool := do
  if a.rawEquals b then return true
  match a, b with
  | .table _, .table _ =>
    let h ← handler₂ a b "__eq"
    if h.isNil then return false else return (← callHandler call h [a, b]).truthy
  | _, _ => return false

def lessThan (call : Call) (a b : Value) : Vm Bool := do
  match Order.lt? a b with
  | some r => return r
  | none =>
    let h ← handler₂ a b "__lt"
    if h.isNil then raise (.comparison a.type b.type)
    else return (← callHandler call h [a, b]).truthy

/-- Without an `__le` handler, `a <= b` is `not (b < a)`. -/
def lessEqual (call : Call) (a b : Value) : Vm Bool := do
  match Order.le? a b with
  | some r => return r
  | none =>
    let h ← handler₂ a b "__le"
    if !h.isNil then return (← callHandler call h [a, b]).truthy
    let h ← handler₂ b a "__lt"
    if h.isNil then raise (.comparison a.type b.type)
    else return !(← callHandler call h [b, a]).truthy

def length (call : Call) (v : Value) : Vm Value := do
  match v with
  | .str s => return .int (.ofNat s.length)
  | _ =>
    let h ← handler v "__len"
    if !h.isNil then callHandler call h [v, v]
    else match v with
      | .table t => return .int (.ofNat (← tableAt t).length)
      | _ => raise (.length v.type)

def concatPair (call : Call) (a b : Value) : Vm Value := do
  match a.toBytes?, b.toBytes? with
  | some x, some y => return .str (x ++ y)
  | x, _ =>
    let h ← handler₂ a b "__concat"
    if h.isNil then raise (.concat (if x.isNone then a else b).type)
    else callHandler call h [a, b]

def concatOnto (call : Call) (acc : Value) : List Value → Vm Value
  | [] => return acc
  | v :: rest => do concatOnto call (← concatPair call v acc) rest

def concat (call : Call) (values : List Value) : Vm Value := do
  match values.mapM Value.toBytes? with
  | some parts => return .str parts.flatten
  | none =>
    match values.reverse with
    | [] => return .str []
    | last :: rest => concatOnto call last rest

def address? : Value → Option String
  | .table t => some (Value.TableId.addressText t)
  | .function f => some (Value.FunctionId.addressText f)
  | _ => none

def plainText (s : State) (v : Value) : String :=
  match s.handler v "__name", address? v with
  | .str name, some a => Utf8.decodeLossy name ++ ": " ++ a
  | _, _ => v.text

def tostring (call : Call) (v : Value) : Vm Value := do
  let h ← handler v "__tostring"
  if !h.isNil then
    match ← callHandler call h [v] with
    | .str s => return .str s
    | _ => fault .textExpected
  else match v with
    | .str s => return .str s
    | _ => return .ofText (plainText (← get) v)

end LuaMachine.Operation
