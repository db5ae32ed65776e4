import LuaMachine.Command

set_option autoImplicit false

open LuaMachine

def readContents (file : String) : IO (Except String Bytes) := do
  try
    let data ← IO.FS.readBinFile file
    return .ok data.toList
  catch e =>
    match e with
    | .noFileOrDirectory .. => return .error "No such file or directory (os error 2)"
    | e => return .error (toString e)

def main (args : List String) : IO UInt32 := do
  match Command.parse? args with
  | none =>
    IO.eprint Command.usage
    return 2
  | some (command, file) =>
    let outcome := command.perform file (← readContents file)
    (← IO.getStdout).write ⟨outcome.stdout⟩
    IO.eprint outcome.stderr
    return .ofNat outcome.code
