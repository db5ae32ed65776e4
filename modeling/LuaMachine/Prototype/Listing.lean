import LuaMachine.Prototype

set_option autoImplicit false

namespace LuaMachine

namespace Listing

def plural (n : Nat) (word : String) : String :=
  if n = 1 then s!"{n} {word}" else s!"{n} {word}s"

def constantOperand (k : Nat) : Int := -1 - k

def operand? (use : Opcode.OperandUse) (x : Nat) : Option Int :=
  match use with
  | .unused => none
  | .constant => some (if RK.isConstant x then constantOperand (RK.constantIndex x) else x)
  | _ => some x

def constantText (p : Routine) (k : Nat) : String :=
  (p.constants[k]?.map Constant.listingText).getD "?"

def rkText (p : Routine) (x : Nat) : String :=
  if RK.isConstant x then constantText p (RK.constantIndex x) else "-"

def captureName (p : Routine) (i : Nat) : String := p.captureNames.getD i "-"

def operands (op : Opcode) (w : Word) : List Int :=
  match op.layout with
  | .abc => (w.a : Int) :: ([operand? op.info.b w.b, operand? op.info.c w.c].filterMap id)
  | .abx =>
    match op.info.b with
    | .constant => [(w.a : Int), constantOperand w.bx]
    | .plain => [(w.a : Int), (w.bx : Int)]
    | _ => [(w.a : Int)]
  | .asbx => [(w.a : Int), w.sbx]
  | .ax => [constantOperand w.ax]

def comment? (p : Routine) (pc : Nat) (op : Opcode) (w : Word) : Option String :=
  match op with
  | .loadK => some (constantText p w.bx)
  | .getUpval | .setUpval => some (captureName p w.b)
  | .getTabUp => some (captureName p w.b ++ " " ++ rkText p w.c)
  | .setTabUp => some (captureName p w.a ++ " " ++ rkText p w.b ++ " " ++ rkText p w.c)
  | .getTable | .self => if RK.isConstant w.c then some (rkText p w.c) else none
  | .setTable | .add | .sub | .mul | .mod | .pow | .div | .idiv
  | .band | .bor | .bxor | .shl | .shr | .eq | .lt | .le =>
    if RK.isConstant w.b || RK.isConstant w.c then some (rkText p w.b ++ " " ++ rkText p w.c)
    else none
  | .jmp | .forLoop | .forPrep | .tforLoop => some ("to " ++ toString ((pc : Int) + w.sbx + 2))
  | .closure => some s!"function [{w.bx}]"
  | _ => none

def instruction (p : Routine) (pc : Nat) (w : Word) : String :=
  match w.opcode? with
  | none => "??? 0x" ++ w.hexText
  | some op =>
    let shown := " ".intercalate ((operands op w).map toString)
    let text := op.name.pushn ' ' (9 - op.name.length) ++ "\t" ++ shown
    match comment? p pc op w with
    | some c => text ++ "\t; " ++ c
    | none => text

def header (main : Bool) (p : Routine) (functions : Nat) : String :=
  (if main then "main" else "function") ++ " <" ++ p.shortSource
    ++ s!":{p.lineDefined.toNat},{p.lastLine.toNat}> ("
    ++ plural p.code.size "instruction" ++ ")\n"
    ++ toString p.params.toNat ++ (if p.vararg then "+" else "") ++ " params, "
    ++ ", ".intercalate
      [plural p.stackSize.toNat "slot", plural p.captures.size "upvalue",
        plural p.locals.size "local", plural p.constants.size "constant",
        plural functions "function"]
    ++ "\n"

def codeLine (p : Routine) (w : Word) (pc : Nat) : String :=
  let line := match p.lineAt? pc with
    | some l => toString l.toNat
    | none => "-"
  s!"\t{pc + 1}\t[{line}]\t" ++ instruction p pc w ++ "\n"

def constantLine (c : Constant) (i : Nat) : String := s!"\t{i + 1}\t" ++ c.listingText ++ "\n"

-- The program stops at a position that 32 bits do not hold.
def position? (n : UInt32) : Option Nat := if n.toNat + 1 < 2 ^ 32 then some (n.toNat + 1) else none

def localLine? (v : LocalVariable) (i : Nat) : Option String := do
  return s!"\t{i}\t" ++ v.name ++ s!"\t{← position? v.start}\t{← position? v.stop}\n"

def captureLine (p : Routine) (c : Capture) (i : Nat) : String :=
  s!"\t{i}\t" ++ captureName p i ++ s!"\t{c.toRaw.1.toNat}\t{c.toRaw.2.toNat}\n"

def lines {α : Type} (line : α → Nat → String) (xs : Array α) : String :=
  String.join (xs.toList.zipIdx.map fun (x, i) => line x i)

def localLines? (vs : Array LocalVariable) : Option String :=
  (vs.toList.zipIdx.mapM fun (v, i) => localLine? v i).map String.join

def routine? (main : Bool) (p : Routine) (functions : Nat) : Option String := do
  let locals ← localLines? p.locals
  return header main p functions
    ++ lines (codeLine p) p.code
    ++ s!"constants ({p.constants.size}):\n" ++ lines constantLine p.constants
    ++ s!"locals ({p.locals.size}):\n" ++ locals
    ++ s!"upvalues ({p.captures.size}):\n" ++ lines (captureLine p) p.captures

mutual

def function? (main : Bool) : Prototype → Option String
  | ⟨p, protos⟩ => do return (← routine? main p protos.length) ++ (← functions? protos)

def functions? : List Prototype → Option String
  | [] => some ""
  | p :: ps => do return "\n" ++ (← function? false p) ++ (← functions? ps)

end

end Listing

/-- The listing of a main function and everything inside it, or none where the program stops. -/
def Prototype.listing? (p : Prototype) : Option String := Listing.function? true p

end LuaMachine
