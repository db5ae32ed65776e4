import LuaMachine.Error
import LuaMachine.Value.Basic

set_option autoImplicit false

namespace LuaMachine

inductive Key where
  | bool (b : Bool)
  | int (n : Int64)
  | float (x : Double)
  | str (s : Bytes)
  | table (t : TableId)
  | function (f : FunctionId)
  deriving DecidableEq, Inhabited

namespace Key

def ofValue : Value → Except KeyFault Key
  | .nil => .error .isNil
  | .bool b => .ok (bool b)
  | .int n => .ok (int n)
  | .float x =>
    if x.isNaN then .error .isNaN
    else match x.toInt64? with
      | some n => .ok (int n)
      | none => .ok (float x)
  | .str s => .ok (str s)
  | .table t => .ok (table t)
  | .function f => .ok (function f)

def toValue : Key → Value
  | bool b => .bool b
  | int n => .int n
  | float x => .float x
  | str s => .str s
  | table t => .table t
  | function f => .function f

theorem toValue_ne_nil (k : Key) : k.toValue ≠ .nil := by
  cases k <;> simp [toValue]

def ofText (s : String) : Key := str (Utf8.encode s)

end Key

end LuaMachine
