import LuaMachine.Value.Numeral

set_option autoImplicit false

namespace LuaMachine.Order

def intLtFloat (i : Int64) (x : Double) : Bool :=
  match x.parts with
  | .nan => false
  | .infinite negative => !negative
  | .finite negative units => i.toInt < Double.ceilOf negative units

def intLeFloat (i : Int64) (x : Double) : Bool :=
  match x.parts with
  | .nan => false
  | .infinite negative => !negative
  | .finite negative units => i.toInt ≤ Double.floorOf negative units

def floatLtInt (x : Double) (i : Int64) : Bool :=
  match x.parts with
  | .nan => false
  | .infinite negative => negative
  | .finite negative units => Double.floorOf negative units < i.toInt

def floatLeInt (x : Double) (i : Int64) : Bool :=
  match x.parts with
  | .nan => false
  | .infinite negative => negative
  | .finite negative units => Double.ceilOf negative units ≤ i.toInt

def bytesLt : Bytes → Bytes → Bool
  | _, [] => false
  | [], _ :: _ => true
  | a :: s, b :: t => if a = b then bytesLt s t else a < b

def lt? : Value → Value → Option Bool
  | .int a, .int b => some (a < b)
  | .float a, .float b => some (a.lt b)
  | .int a, .float b => some (intLtFloat a b)
  | .float a, .int b => some (floatLtInt a b)
  | .str a, .str b => some (bytesLt a b)
  | _, _ => none

def le? : Value → Value → Option Bool
  | .int a, .int b => some (a ≤ b)
  | .float a, .float b => some (a.le b)
  | .int a, .float b => some (intLeFloat a b)
  | .float a, .int b => some (floatLeInt a b)
  | .str a, .str b => some (!bytesLt b a)
  | _, _ => none

end LuaMachine.Order
