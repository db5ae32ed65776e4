import LuaMachine.Instruction.FloatByte
import LuaMachine.Machine.ForLoop
import LuaMachine.Machine.Operation

set_option autoImplicit false

namespace LuaMachine

/-- A script function that runs: its captured variables, its prototype and the slot of its
register 0. -/
structure Activation where
  cells : Array CellId
  proto : Prototype
  base : Nat

namespace Activation

open Vm

def constant (a : Activation) (k : Nat) : Vm Value :=
  match a.proto.constants[k]? with
  | some c => return c.toValue
  | none => fault (.constantIndex k)

def rk (a : Activation) (x : Nat) : Vm Value :=
  if RK.isConstant x then a.constant (RK.constantIndex x) else read (a.base + x)

def cell (a : Activation) (i : Nat) : Vm CellId :=
  match a.cells[i]? with
  | some id => return id
  | none => fault (.upvalueIndex i)

def upvalue (a : Activation) (i : Nat) : Vm Value := do readCell (← a.cell i)

def resetTop (a : Activation) : Vm Unit := setTop (a.base + a.proto.stackSize.toNat)

def extraArg (a : Activation) : Vm Nat := do
  let pc := (← frame).pc
  match a.proto.code[pc]? with
  | some w =>
    if w.opcode? = some .extraArg then
      modifyFrame ({ · with pc := pc + 1 })
      return w.ax
    else fault .missingExtraArg
  | none => fault .missingExtraArg

def countFrom (slot : Nat) : Vm Nat := return (← frame).top - slot

/-- The number of arguments above register `ra`; operand zero means all up to the end of the
window. -/
def argCount (ra b : Nat) : Vm Nat := if b = 0 then countFrom (ra + 1) else return b - 1

def skip : Vm Unit := modifyFrame fun f => { f with pc := f.pc + 1 }

def skipIf (b : Bool) : Vm Unit := if b then skip else return

def jump (offset : Int) : Vm Unit := do
  let target := ((← frame).pc : Int) + offset
  if target < 0 then fault .jumpTarget else modifyFrame ({ · with pc := target.toNat })

def capture (a : Activation) : List Capture → Vm (List CellId)
  | [] => return []
  | c :: rest => do
    let id ← match c with
      | .register r => captureSlot (a.base + r.toNat)
      | .upvalue i => a.cell i.toNat
    return id :: (← a.capture rest)

def makeClosure (a : Activation) (ra i : Nat) : Vm Unit := do
  match a.proto.protos[i]? with
  | none => fault .prototypeIndex
  | some p =>
    let cells ← a.capture p.captures.toList
    write ra (.function (← newFunction ⟨.script p, cells.toArray⟩))

def callRegister (a : Activation) (call : Call) (ra b c : Nat) : Vm Unit := do
  let nargs ← argCount ra b
  if c = 0 then
    let _ ← call ra nargs none
  else
    let _ ← call ra nargs (some (c - 1))
    a.resetTop

def callIterator (a : Activation) (call : Call) (ra c : Nat) : Vm Unit := do
  reserveWithHeadroom (ra + 6)
  writeMany (ra + 3) (← readMany ra 3)
  let _ ← call (ra + 3) 2 (some c)
  a.resetTop

def prepareLoop (ra : Nat) (offset : Int) : Vm Unit := do
  match ForLoop.start (← read ra) (← read (ra + 1)) (← read (ra + 2)) with
  | .error f => fault f
  | .ok .skip => jump (offset + 1)
  | .ok (.counted rounds) =>
    write (ra + 1) (.int rounds.toInt64)
    write (ra + 3) (← read ra)
  | .ok (.floats init limit step) =>
    write (ra + 1) (.float limit)
    write (ra + 2) (.float step)
    write ra (.float init)
    if ForLoop.continues init limit step then write (ra + 3) (.float init)
    else jump (offset + 1)

/-- The second register of an integer loop holds the rounds that are left. -/
def nextRound (ra : Nat) (offset : Int) : Vm Unit := do
  let index ← read ra
  let limit ← read (ra + 1)
  let step ← read (ra + 2)
  match index, limit, step with
  | .int index, .int left, .int step =>
    if left.toUInt64 > 0 then
      jump offset
      write (ra + 1) (.int (left.toUInt64 - 1).toInt64)
      write ra (.int (index + step))
      write (ra + 3) (.int (index + step))
  | _, _, _ =>
    match index.toDouble?, limit.toDouble?, step.toDouble? with
    | some index, some limit, some step =>
      let next := index.add step
      if ForLoop.continues next limit step then
        jump offset
        write ra (.float next)
        write (ra + 3) (.float next)
    | _, _, _ => fault .forState

def listBlock : Nat := 50

def setList (a : Activation) (ra b c : Nat) : Vm Unit := do
  let n ← if b = 0 then countFrom (ra + 1) else pure b
  let block ← if c = 0 then a.extraArg else pure c
  match ← read ra with
  | .table t =>
    let offset := (block - 1) * listBlock
    let items := (← readMany (ra + 1) n).zipIdx (offset + 1)
    modifyTable t fun t => items.foldl (fun t (v, i) => t.putKey (.int (.ofNat i)) v) t
    a.resetTop
  | _ => fault .listTarget

def loadVarargs (ra b : Nat) : Vm Unit := do
  let varargs := (← frame).varargs
  if b = 0 then
    reserveWithHeadroom (ra + varargs.size)
    writeMany ra varargs.toList
    setTop (ra + varargs.size)
  else writeMany ra ((List.range (b - 1)).map fun j => varargs.getD j .nil)

def concatRegisters (a : Activation) (call : Call) (ra b c : Nat) : Vm Unit := do
  if c + 1 < b then throw (.outOfRange (a.base + b))
  let values ← readMany (a.base + b) (c + 1 - b)
  write ra (← Operation.concat call values)

def arith (a : Activation) (call : Call) (op : ArithOp) (ra : Nat) (w : Word) : Vm Unit := do
  let x ← a.rk w.b
  let y ← a.rk w.c
  write ra (← Operation.arith call op x y)

def arithUnary (a : Activation) (call : Call) (op : ArithOp) (ra : Nat) (w : Word) : Vm Unit := do
  let x ← read (a.base + w.b)
  write ra (← Operation.arith call op x x)

def compare (a : Activation) (test : Value → Value → Vm Bool) (w : Word) : Vm Unit := do
  let x ← a.rk w.b
  let y ← a.rk w.c
  skipIf ((← test x y) != (w.a != 0))

def done (x : Vm Unit) : Vm Call.Flow := do
  x
  return .next

def step (a : Activation) (call : Call) (w : Word) : Vm Call.Flow :=
  let ra := a.base + w.a
  match w.opcode? with
  | none => fault (.badOpcode w.opNumber)
  | some op =>
    match op with
    | .move => done do write ra (← read (a.base + w.b))
    | .loadK => done do write ra (← a.constant w.bx)
    | .loadKX => done do write ra (← a.constant (← a.extraArg))
    | .loadBool => done do
      write ra (.bool (w.b != 0))
      skipIf (w.c != 0)
    | .loadNil => done (clear ra (w.b + 1))
    | .getUpval => done do write ra (← a.upvalue w.b)
    | .setUpval => done do
      let v ← read ra
      writeCell (← a.cell w.b) v
    | .getTabUp => done do
      let t ← a.upvalue w.b
      let k ← a.rk w.c
      write ra (← Operation.index call t k)
    | .getTable => done do
      let t ← read (a.base + w.b)
      let k ← a.rk w.c
      write ra (← Operation.index call t k)
    | .setTabUp => done do
      let t ← a.upvalue w.a
      let k ← a.rk w.b
      let v ← a.rk w.c
      Operation.setIndex call t k v
    | .setTable => done do
      let t ← read ra
      let k ← a.rk w.b
      let v ← a.rk w.c
      Operation.setIndex call t k v
    | .newTable => done do
      let room (x : Nat) : Nat := (FloatByte.decode (.ofNat x)).toNat
      write ra (.table (← newTable (.presized (room w.b) (room w.c))))
    | .self => done do
      let object ← read (a.base + w.b)
      let k ← a.rk w.c
      write (ra + 1) object
      write ra (← Operation.index call object k)
    | .add => done (a.arith call .add ra w)
    | .sub => done (a.arith call .sub ra w)
    | .mul => done (a.arith call .mul ra w)
    | .mod => done (a.arith call .mod ra w)
    | .pow => done (a.arith call .pow ra w)
    | .div => done (a.arith call .div ra w)
    | .idiv => done (a.arith call .idiv ra w)
    | .band => done (a.arith call .band ra w)
    | .bor => done (a.arith call .bor ra w)
    | .bxor => done (a.arith call .bxor ra w)
    | .shl => done (a.arith call .shl ra w)
    | .shr => done (a.arith call .shr ra w)
    | .unm => done (a.arithUnary call .unm ra w)
    | .bnot => done (a.arithUnary call .bnot ra w)
    | .not => done do write ra (.bool !(← read (a.base + w.b)).truthy)
    | .len => done do write ra (← Operation.length call (← read (a.base + w.b)))
    | .concat => done (a.concatRegisters call ra w.b w.c)
    | .jmp => done do
      if w.a ≠ 0 then closeFrom (ra - 1)
      jump w.sbx
    | .eq => done (a.compare (Operation.equals call) w)
    | .lt => done (a.compare (Operation.lessThan call) w)
    | .le => done (a.compare (Operation.lessEqual call) w)
    | .test => done do skipIf ((← read ra).truthy != (w.c != 0))
    | .testSet => done do
      let v ← read (a.base + w.b)
      if v.truthy != (w.c != 0) then skip else write ra v
    | .call => done (a.callRegister call ra w.b w.c)
    | .tailCall => do Call.tail call ra (← argCount ra w.b)
    | .ret => do
      let n ← if w.b = 0 then countFrom ra else pure (w.b - 1)
      return .returned (← Call.returnFrom ra n)
    | .forLoop => done (nextRound ra w.sbx)
    | .forPrep => done (prepareLoop ra w.sbx)
    | .tforCall => done (a.callIterator call ra w.c)
    | .tforLoop => done do
      let control ← read (ra + 1)
      if !control.isNil then
        write ra control
        jump w.sbx
    | .setList => done (a.setList ra w.b w.c)
    | .closure => done (a.makeClosure ra w.bx)
    | .vararg => done (loadVarargs ra w.b)
    | .extraArg => fault .unexpectedExtraArg

end Activation

end LuaMachine
