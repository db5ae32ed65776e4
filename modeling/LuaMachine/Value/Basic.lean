import LuaMachine.Double.Decimal
import LuaMachine.Text.Quoted
import LuaMachine.Text.Utf8

set_option autoImplicit false

namespace LuaMachine

structure TableId where
  index : Nat
  deriving DecidableEq, Repr, Inhabited

structure FunctionId where
  index : Nat
  deriving DecidableEq, Repr, Inhabited

inductive Value where
  | nil
  | bool (b : Bool)
  | int (n : Int64)
  | float (x : Double)
  | str (s : Bytes)
  | table (t : TableId)
  | function (f : FunctionId)
  deriving DecidableEq, Inhabited

inductive ValueType where
  | nil | boolean | number | string | table | function
  deriving DecidableEq, Repr

namespace ValueType

def name : ValueType → String
  | nil => "nil"
  | boolean => "boolean"
  | number => "number"
  | string => "string"
  | table => "table"
  | function => "function"

def tag : ValueType → Nat
  | nil => 0
  | boolean => 1
  | number => 3
  | string => 4
  | table => 5
  | function => 6

end ValueType

namespace Value

def type : Value → ValueType
  | nil => .nil
  | bool _ => .boolean
  | int _ => .number
  | float _ => .number
  | str _ => .string
  | table _ => .table
  | function _ => .function

def truthy : Value → Bool
  | nil => false
  | bool b => b
  | _ => true

def isNil : Value → Bool
  | nil => true
  | _ => false

def ofText (s : String) : Value := str (Utf8.encode s)

/-- Equality without metamethods: numbers by value, tables and functions by identity. -/
def rawEquals : Value → Value → Bool
  | nil, nil => true
  | bool a, bool b => a == b
  | int a, int b => a == b
  | float a, float b => a.eq b
  | int i, float x => x.toInt64? == some i
  | float x, int i => x.toInt64? == some i
  | str a, str b => a == b
  | table a, table b => a == b
  | function a, function b => a == b
  | _, _ => false

def intText (n : Int64) : String := toString n.toInt

def toBytes? : Value → Option Bytes
  | str s => some s
  | int n => some (Utf8.encode (intText n))
  | float x => some (Utf8.encode x.text)
  | _ => none

def addressText (n : Nat) : String :=
  let digits := Nat.toDigits 16 (0x550000000000 + 32 * n)
  "0x" ++ String.ofList (List.replicate (12 - digits.length) '0' ++ digits)

def TableId.addressText (t : TableId) : String := Value.addressText (2 * t.index)

def FunctionId.addressText (f : FunctionId) : String := Value.addressText (2 * f.index + 1)

def text : Value → String
  | nil => "nil"
  | bool b => if b then "true" else "false"
  | int n => intText n
  | float x => x.text
  | str s => Utf8.decodeLossy s
  | table t => "table: " ++ TableId.addressText t
  | function f => "function: " ++ FunctionId.addressText f

def debugText : Value → String
  | nil => "LuaValue::Nil"
  | bool b => "LuaValue::Boolean(" ++ (if b then "true" else "false") ++ ")"
  | int n => "LuaValue::Integer(" ++ intText n ++ ")"
  | float x => "LuaValue::Float(" ++ x.plainText ++ ")"
  | str s => "LuaValue::LuaString(" ++ Text.quoted (Utf8.decodeLossy s) ++ ")"
  | table t => "LuaValue::Table(" ++ TableId.addressText t ++ ")"
  | function f => "LuaValue::Closure(" ++ FunctionId.addressText f ++ ")"

end Value

end LuaMachine
