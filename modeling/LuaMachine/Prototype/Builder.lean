import LuaMachine.Prototype

set_option autoImplicit false

namespace LuaMachine

structure Builder where
  proto : Prototype
  line : UInt32 := 0

namespace Builder

def start (source : String) : Builder := ⟨{ source }, 0⟩

def params (b : Builder) (n : UInt8) : Builder := { b with proto.params := n }

def vararg (b : Builder) : Builder := { b with proto.vararg := true }

def stackSize (b : Builder) (n : UInt8) : Builder := { b with proto.stackSize := n }

/-- Sets the line of what follows. Where no line was set, the instructions so far get it too. -/
def setLine (b : Builder) (line : UInt32) : Builder :=
  if b.line = 0 then
    { b with line, proto.lines := Array.replicate b.proto.code.size line }
  else { b with line }

def pc (b : Builder) : Nat := b.proto.code.size

def emit (b : Builder) (w : Word) : Nat × Builder :=
  (b.pc,
    { b with
      proto.code := b.proto.code.push w
      proto.lines := if b.line ≠ 0 then b.proto.lines.push b.line else b.proto.lines })

-- The program stops at a number that 32 bits do not hold.
def int32? (n : Int) : Option Int := if (Int32.ofInt n).toInt = n then some n else none

/-- Makes the jump at `pc` land on `target`; a word that names no operation stays as it is. The
program stops behind the code and where the offset, computed in 32 bits, leaves them or the word. -/
def patchJump (b : Builder) (pc target : Nat) : Option Builder := do
  let w ← b.proto.code[pc]?
  match w.opcode? with
  | none => return b
  | some op =>
    let next ← int32? ((Int32.ofNat pc).toInt + 1)
    let offset ← int32? ((Int32.ofNat target).toInt - next)
    let jump ← Word.ofAsBx? op w.a offset
    return { b with proto.code := b.proto.code.setIfInBounds pc jump }

/-- The index of a constant, which is added if the pool does not hold it. Floats are the same
if their bits are. An index keeps its low 32 bits. -/
def constant (b : Builder) (c : Constant) : UInt32 × Builder :=
  match b.proto.constants.idxOf? c with
  | some i => (.ofNat i, b)
  | none => (.ofNat b.proto.constants.size, { b with proto.constants := b.proto.constants.push c })

def int (b : Builder) (n : Int64) : UInt32 × Builder := b.constant (.int n)

def float (b : Builder) (x : Double) : UInt32 × Builder := b.constant (.float x)

def str (b : Builder) (s : String) : UInt32 × Builder := b.constant (.str (Utf8.encode s))

def upvalue (b : Builder) (name : String) (capture : Capture) : UInt32 × Builder :=
  (.ofNat b.proto.captures.size,
    { b with
      proto.captures := b.proto.captures.push capture
      proto.captureNames := b.proto.captureNames.push name })

def child (b : Builder) (p : Prototype) : UInt32 × Builder :=
  (.ofNat b.proto.protos.length, { b with proto.protos := b.proto.protos ++ [p] })

def localVariable (b : Builder) (v : LocalVariable) : Builder :=
  { b with proto.locals := b.proto.locals.push v }

end Builder

end LuaMachine
