import LuaMachine.Machine.Run
import LuaMachine.Prototype.Listing

set_option autoImplicit false

namespace LuaMachine

inductive Command where
  | run (maxDepth : Option Nat)
  | list

namespace Command

inductive Ending where
  | done
  | failed (complaint : String)
  -- The program stops in the middle; what the runtime says of it is left out.
  | stopped

structure Outcome where
  stdout : Array UInt8 := #[]
  ending : Ending := .done

def Outcome.code (o : Outcome) : Nat :=
  match o.ending with
  | .done => 0
  | .failed _ => 1
  | .stopped => 101

def Outcome.stderr (o : Outcome) : String :=
  match o.ending with
  | .failed text => "lunar: " ++ text ++ "\n"
  | _ => ""

def failed (complaint : String) : Outcome := { ending := .failed complaint }

def noHost : Host := fun name _ => Vm.fault (.host name)

def runChunk (maxDepth : Option Nat) (data : Bytes) : Outcome :=
  let limits : Config := {}
  let config := { limits with maxCallDepth := maxDepth.getD limits.maxCallDepth }
  match Machine.execute noHost data (.new config) with
  | .ok _ s => { stdout := s.output }
  | .error (.raised e) s => { stdout := s.output, ending := .failed e.message }
  | .error _ s => { stdout := s.output, ending := .stopped }

def listChunk (file : String) (data : Bytes) : Outcome :=
  match Chunk.read data with
  | .ok p =>
    match p.listing? with
    | some text => { stdout := text.toUTF8.data }
    | none => { ending := .stopped }
  | .error e => failed s!"cannot load '{file}': {e.message}"

def perform (command : Command) (file : String) (contents : Except String Bytes) : Outcome :=
  match contents with
  | .error reason => failed s!"cannot read '{file}': {reason}"
  | .ok data =>
    if !Chunk.isBinary data then
      failed s!"'{file}' is not a precompiled chunk (compile it with luac 5.3 first)"
    else match command with
      | .run maxDepth => runChunk maxDepth data
      | .list => listChunk file data

def depth? (s : String) : Option Nat := if s.all Char.isDigit then s.toNat? else none

def parse? : List String → Option (Command × String)
  | ["run", file] => some (run none, file)
  | ["run", file, "--max-depth", n] => (depth? n).map fun d => (run (some d), file)
  | ["run", "--max-depth", n, file] => (depth? n).map fun d => (run (some d), file)
  | ["list", file] => some (list, file)
  | _ => none

def usage : String :=
  "usage: lunar run FILE [--max-depth N]\n       lunar list FILE\n"

end Command

end LuaMachine
