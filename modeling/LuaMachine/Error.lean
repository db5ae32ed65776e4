import LuaMachine.Chunk.Error
import LuaMachine.Value.Basic

set_option autoImplicit false

namespace LuaMachine

inductive Fault where
  | chainTooLong (event : String)
  | tooFewValues
  | callStackUnderflow
  | noFunction
  | notScript
  | divisionByZero
  | moduloByZero
  | noIntegerForm
  | textExpected
  | badOpcode (number : Nat)
  | constantIndex (index : Nat)
  | upvalueIndex (index : Nat)
  | prototypeIndex
  | missingExtraArg
  | unexpectedExtraArg
  | jumpTarget
  | listTarget
  | forLimit
  | forStep
  | forInitial
  | forState
  | protectedMetatable
  | badArgument (index : Nat) (function : Option String) (complaint : String)
  | host (text : String)
  deriving DecidableEq

namespace Fault

def message : Fault → String
  | chainTooLong event => "'" ++ event ++ "' chain too long; possible loop"
  | tooFewValues => "not enough values on the stack for call"
  | callStackUnderflow => "call stack underflow"
  | noFunction => "no function to run"
  | notScript => "frame is not a script function"
  | divisionByZero => "attempt to perform 'n//0'"
  | moduloByZero => "attempt to perform 'n%0'"
  | noIntegerForm => "number has no integer representation"
  | textExpected => "'__tostring' must return a string"
  | badOpcode number => s!"invalid opcode {number}"
  | constantIndex index => s!"constant index {index} out of range"
  | upvalueIndex index => s!"upvalue index {index} out of range"
  | prototypeIndex => "prototype index out of range"
  | missingExtraArg => "missing EXTRAARG instruction"
  | unexpectedExtraArg => "unexpected EXTRAARG instruction"
  | jumpTarget => "jump target out of range"
  | listTarget => "SETLIST target is not a table"
  | forLimit => "'for' limit must be a number"
  | forStep => "'for' step must be a number"
  | forInitial => "'for' initial value must be a number"
  | forState => "'for' loop state is not numeric"
  | protectedMetatable => "cannot change a protected metatable"
  | badArgument index (some name) complaint =>
    s!"bad argument #{index} to '{name}' ({complaint})"
  | badArgument index none complaint => s!"bad argument #{index} ({complaint})"
  | host text => text

end Fault

inductive KeyFault where
  | isNil
  | isNaN
  | unknown
  deriving DecidableEq, Repr

def KeyFault.message : KeyFault → String
  | isNil => "table index is nil"
  | isNaN => "table index is NaN"
  | unknown => "invalid key to 'next'"

inductive LuaError where
  | notCallable (type : ValueType)
  | notTable (type : ValueType)
  | arithmetic (bitwise : Bool) (type : ValueType)
  | length (type : ValueType)
  | concat (type : ValueType)
  | comparison (left right : ValueType)
  | invalidKey (fault : KeyFault)
  | stackOverflow
  | bytecode (error : ChunkError)
  | script (value : Value)
  | runtime (fault : Fault)
  | traced (location : String) (error : LuaError)
  deriving DecidableEq

namespace LuaError

def scriptMessage : Value → String
  | .str s => (Value.str s).text
  | .int n => (Value.int n).text
  | .float x => (Value.float x).text
  | v => "(error object is a " ++ v.type.name ++ " value)"

def message : LuaError → String
  | notCallable type => "attempt to call a " ++ type.name ++ " value"
  | notTable type => "attempt to index a " ++ type.name ++ " value"
  | arithmetic bitwise type =>
    "attempt to perform " ++ (if bitwise then "bitwise operation" else "arithmetic") ++ " on a "
      ++ type.name ++ " value"
  | length type => "attempt to get length of a " ++ type.name ++ " value"
  | concat type => "attempt to concatenate a " ++ type.name ++ " value"
  | comparison left right =>
    if left = right then "attempt to compare two " ++ left.name ++ " values"
    else "attempt to compare " ++ left.name ++ " with " ++ right.name
  | invalidKey fault => fault.message
  | stackOverflow => "stack overflow"
  | bytecode error => error.message
  | script value => scriptMessage value
  | runtime fault => fault.message
  | traced location error => location ++ ": " ++ error.message

def root : LuaError → LuaError
  | traced _ error => error.root
  | error => error

/-- Raised values and errors that have a place are handed on as they are. -/
def isLocated : LuaError → Bool
  | traced _ _ => true
  | script _ => true
  | _ => false

def toValue : LuaError → Value
  | script value => value
  | traced _ (script value) => value
  | error => .ofText error.message

end LuaError

end LuaMachine
