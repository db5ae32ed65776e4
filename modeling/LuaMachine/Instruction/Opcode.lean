set_option autoImplicit false

namespace LuaMachine

inductive Opcode where
  | move | loadK | loadKX | loadBool | loadNil
  | getUpval | getTabUp | getTable | setTabUp | setUpval | setTable | newTable | self
  | add | sub | mul | mod | pow | div | idiv | band | bor | bxor | shl | shr
  | unm | bnot | not | len | concat
  | jmp | eq | lt | le | test | testSet
  | call | tailCall | ret
  | forLoop | forPrep | tforCall | tforLoop
  | setList | closure | vararg | extraArg
  deriving DecidableEq, Repr, Inhabited

namespace Opcode

inductive Layout where
  | abc | abx | asbx | ax
  deriving DecidableEq, Repr

inductive OperandUse where
  | unused
  | plain
  | register
  | constant
  deriving DecidableEq, Repr

structure Info where
  name : String
  isTest : Bool
  setsA : Bool
  b : OperandUse
  c : OperandUse
  layout : Layout

def all : Array Opcode := #[
  .move, .loadK, .loadKX, .loadBool, .loadNil,
  .getUpval, .getTabUp, .getTable, .setTabUp, .setUpval, .setTable, .newTable, .self,
  .add, .sub, .mul, .mod, .pow, .div, .idiv, .band, .bor, .bxor, .shl, .shr,
  .unm, .bnot, .not, .len, .concat,
  .jmp, .eq, .lt, .le, .test, .testSet,
  .call, .tailCall, .ret,
  .forLoop, .forPrep, .tforCall, .tforLoop,
  .setList, .closure, .vararg, .extraArg]

def ofNat? (n : Nat) : Option Opcode := all[n]?

def toNat (op : Opcode) : Nat := op.ctorIdx

theorem ofNat?_toNat (op : Opcode) : ofNat? op.toNat = some op := by
  cases op <;> rfl

theorem toNat_lt (op : Opcode) : op.toNat < 47 := by
  cases op <;> decide

def info : Opcode → Info
  | move => ⟨"MOVE", false, true, .register, .unused, .abc⟩
  | loadK => ⟨"LOADK", false, true, .constant, .unused, .abx⟩
  | loadKX => ⟨"LOADKX", false, true, .unused, .unused, .abx⟩
  | loadBool => ⟨"LOADBOOL", false, true, .plain, .plain, .abc⟩
  | loadNil => ⟨"LOADNIL", false, true, .plain, .unused, .abc⟩
  | getUpval => ⟨"GETUPVAL", false, true, .plain, .unused, .abc⟩
  | getTabUp => ⟨"GETTABUP", false, true, .plain, .constant, .abc⟩
  | getTable => ⟨"GETTABLE", false, true, .register, .constant, .abc⟩
  | setTabUp => ⟨"SETTABUP", false, false, .constant, .constant, .abc⟩
  | setUpval => ⟨"SETUPVAL", false, false, .plain, .unused, .abc⟩
  | setTable => ⟨"SETTABLE", false, false, .constant, .constant, .abc⟩
  | newTable => ⟨"NEWTABLE", false, true, .plain, .plain, .abc⟩
  | self => ⟨"SELF", false, true, .register, .constant, .abc⟩
  | add => ⟨"ADD", false, true, .constant, .constant, .abc⟩
  | sub => ⟨"SUB", false, true, .constant, .constant, .abc⟩
  | mul => ⟨"MUL", false, true, .constant, .constant, .abc⟩
  | mod => ⟨"MOD", false, true, .constant, .constant, .abc⟩
  | pow => ⟨"POW", false, true, .constant, .constant, .abc⟩
  | div => ⟨"DIV", false, true, .constant, .constant, .abc⟩
  | idiv => ⟨"IDIV", false, true, .constant, .constant, .abc⟩
  | band => ⟨"BAND", false, true, .constant, .constant, .abc⟩
  | bor => ⟨"BOR", false, true, .constant, .constant, .abc⟩
  | bxor => ⟨"BXOR", false, true, .constant, .constant, .abc⟩
  | shl => ⟨"SHL", false, true, .constant, .constant, .abc⟩
  | shr => ⟨"SHR", false, true, .constant, .constant, .abc⟩
  | unm => ⟨"UNM", false, true, .register, .unused, .abc⟩
  | bnot => ⟨"BNOT", false, true, .register, .unused, .abc⟩
  | not => ⟨"NOT", false, true, .register, .unused, .abc⟩
  | len => ⟨"LEN", false, true, .register, .unused, .abc⟩
  | concat => ⟨"CONCAT", false, true, .register, .register, .abc⟩
  | jmp => ⟨"JMP", false, false, .register, .unused, .asbx⟩
  | eq => ⟨"EQ", true, false, .constant, .constant, .abc⟩
  | lt => ⟨"LT", true, false, .constant, .constant, .abc⟩
  | le => ⟨"LE", true, false, .constant, .constant, .abc⟩
  | test => ⟨"TEST", true, false, .unused, .plain, .abc⟩
  | testSet => ⟨"TESTSET", true, true, .register, .plain, .abc⟩
  | call => ⟨"CALL", false, true, .plain, .plain, .abc⟩
  | tailCall => ⟨"TAILCALL", false, true, .plain, .plain, .abc⟩
  | ret => ⟨"RETURN", false, false, .plain, .unused, .abc⟩
  | forLoop => ⟨"FORLOOP", false, true, .register, .unused, .asbx⟩
  | forPrep => ⟨"FORPREP", false, true, .register, .unused, .asbx⟩
  | tforCall => ⟨"TFORCALL", false, false, .unused, .plain, .abc⟩
  | tforLoop => ⟨"TFORLOOP", false, true, .register, .unused, .asbx⟩
  | setList => ⟨"SETLIST", false, false, .plain, .plain, .abc⟩
  | closure => ⟨"CLOSURE", false, true, .plain, .unused, .abx⟩
  | vararg => ⟨"VARARG", false, true, .plain, .unused, .abc⟩
  | extraArg => ⟨"EXTRAARG", false, false, .plain, .plain, .ax⟩

def name (op : Opcode) : String := op.info.name

def layout (op : Opcode) : Layout := op.info.layout

def ofName? (name : String) : Option Opcode := all.find? (·.name == name)

end Opcode

end LuaMachine
