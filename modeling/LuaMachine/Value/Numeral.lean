import LuaMachine.Double.Arith
import LuaMachine.Value.Basic

set_option autoImplicit false

namespace LuaMachine

namespace Double

def ofDecimal (negative : Bool) (digits : Nat) (exponent : Int) : Double :=
  let leading := exponent + Decimal.length digits
  if digits = 0 ∨ leading < -400 then zero negative
  else if leading > 400 then infinity negative
  else if exponent < 0 then ofRatio negative (digits * one) (10 ^ exponent.natAbs)
  else ofRatio negative (digits * 10 ^ exponent.natAbs * one) 1

end Double

namespace Numeral

def isBlank (b : UInt8) : Bool := b == 32 || b == 9 || b == 10 || b == 12 || b == 13

def trim (s : Bytes) : Bytes := ((s.dropWhile isBlank).reverse.dropWhile isBlank).reverse

def plus : UInt8 := 43
def minus : UInt8 := 45
def point : UInt8 := 46

def digit? (base : Nat) (b : UInt8) : Option Nat :=
  let n := b.toNat
  let value :=
    if 48 ≤ n ∧ n ≤ 57 then some (n - 48)
    else if 97 ≤ n ∧ n ≤ 122 then some (n - 87)
    else if 65 ≤ n ∧ n ≤ 90 then some (n - 55)
    else none
  value.filter (· < base)

def isDigit (base : Nat) (b : UInt8) : Bool := (digit? base b).isSome

def word? (base : Nat) (s : Bytes) : Option Int64 :=
  s.foldlM (fun acc b => (digit? base b).map fun d => acc * .ofNat base + .ofNat d) 0

def appendDigit (n : Nat) (b : UInt8) : Nat := n * 10 + (digit? 10 b).getD 0

def natural (s : Bytes) : Nat := s.foldl appendDigit 0

def appendBelow (bound n : Nat) (b : UInt8) : Nat := if n < bound then appendDigit n b else n

def naturalUpTo (bound : Nat) (s : Bytes) : Nat := s.foldl (appendBelow bound) 0

theorem foldl_appendBelow_of_le {bound n : Nat} (h : bound ≤ n) (s : Bytes) :
    s.foldl (appendBelow bound) n = n := by
  induction s with
  | nil => rfl
  | cons b s ih => rw [List.foldl_cons, appendBelow, if_neg (Nat.not_lt.mpr h), ih]

theorem foldl_appendBelow {bound n : Nat} {s : Bytes}
    (h : s.foldl (appendBelow bound) n < bound) :
    s.foldl (appendBelow bound) n = s.foldl appendDigit n := by
  induction s generalizing n with
  | nil => rfl
  | cons b s ih =>
    by_cases below : n < bound
    · rw [List.foldl_cons, appendBelow, if_pos below] at h ⊢
      exact ih h
    · rw [foldl_appendBelow_of_le (Nat.not_lt.mp below)] at h
      exact absurd h below

theorem naturalUpTo_eq {bound : Nat} {s : Bytes} (h : naturalUpTo bound s < bound) :
    naturalUpTo bound s = natural s :=
  foldl_appendBelow h

def sign : Bytes → Bool × Bytes
  | [] => (false, [])
  | b :: rest =>
    if b = minus then (true, rest) else if b = plus then (false, rest) else (false, b :: rest)

def span (base : Nat) (s : Bytes) : Bytes × Bytes :=
  (s.takeWhile (isDigit base), s.dropWhile (isDigit base))

def exponent? (size : Bytes → Nat) (s : Bytes) : Option Int :=
  let (negative, digits) := sign s
  if digits.isEmpty || !digits.all (isDigit 10) then none
  else some (Double.signed negative (size digits))

def maxExponent : Nat := 2 ^ 16

/-- No float and no point midway between two of them has as many digits as this, so digits after
these decide a rounding only by being zero or not. -/
def maxDigits : Nat := 800

/-- The number nearest to the digits times `10 ^ exponent`. One digit stands for all that follow
the first `maxDigits` significant ones. -/
def ofDigits (negative : Bool) (digits : Bytes) (exponent : Int) : Double :=
  let significant := digits.dropWhile (· = 48)
  let rest := significant.drop maxDigits
  let last := if rest.all (· = 48) then 0 else 1
  .ofDecimal negative (natural (significant.take maxDigits) * 10 + last)
    (exponent + rest.length - 1)

def fraction : Bytes → Bytes × Bytes
  | [] => ([], [])
  | b :: rest => if b = point then span 10 rest else ([], b :: rest)

def decimalScale? : Bytes → Option Int
  | [] => some 0
  | b :: rest => if b = 101 ∨ b = 69 then exponent? (naturalUpTo maxExponent) rest else none

def float? (s : Bytes) : Option Double :=
  let (negative, s) := sign s
  let (whole, s) := span 10 s
  let (places, s) := fraction s
  if (whole ++ places).isEmpty then none
  else (decimalScale? s).map fun e => ofDigits negative (whole ++ places) (e - places.length)

def decimal? (s : Bytes) : Option Value :=
  if s.isEmpty then none
  else
    let n := naturalUpTo (2 ^ 63) s
    if s.all (isDigit 10) && n < 2 ^ 63 then some (.int (.ofNat n)) else (float? s).map .float

def fits32 (n : Int) : Bool := -2 ^ 31 ≤ n && n < 2 ^ 31

/-- Hexadecimal digits around at most one point, read in floating point digit by digit. -/
structure HexMantissa where
  value : Double
  scale : Int
  point : Bool
  digits : Bool

def HexMantissa.empty : HexMantissa := ⟨.zero false, 0, false, false⟩

-- The program stops at a scale below 32 bits, after half a gigabyte of digits; no number comes
-- of it either.
def HexMantissa.push? (m : HexMantissa) (b : UInt8) : Option HexMantissa :=
  if b = Numeral.point then if m.point then none else some { m with point := true }
  else
    let scale := if m.point then m.scale - 4 else m.scale
    ((digit? 16 b).filter fun _ => fits32 scale).map fun d : Nat =>
      { m with value := (m.value.mul (.ofInt 16)).add (.ofInt d), scale, digits := true }

def isHexExponent (b : UInt8) : Bool := b == 112 || b == 80

/-- The scale of a mantissa with the exponent after it, which may be missing. An exponent and the
scale that it makes have 32 bits. -/
def hexScale? (scale : Int) : (exponent : Bytes) → Option Int
  | [] => some scale
  | _ :: digits => do
    let e ← (exponent? (naturalUpTo (2 ^ 32)) digits).filter fits32
    if fits32 (scale + e) then some (scale + e) else none

def hexFloat? (s : Bytes) : Option Double := do
  let m ← (s.takeWhile (!isHexExponent ·)).foldlM HexMantissa.push? .empty
  if m.digits then
    (hexScale? m.scale (s.dropWhile (!isHexExponent ·))).map (m.value.mul <| .twoPow ·)
  else none

def hexadecimal? (s : Bytes) : Option Value :=
  if s.any fun b => b == point || isHexExponent b then (hexFloat? s).map .float
  else if s.isEmpty then none
  else (word? 16 s).map .int

def unsigned? : Bytes → Option Value
  | a :: b :: rest =>
    if a = 48 ∧ (b = 120 ∨ b = 88) then hexadecimal? rest else decimal? (a :: b :: rest)
  | s => decimal? s

def negate : Value → Value
  | .int n => .int (-n)
  | .float x => .float x.neg
  | v => v

def number? (s : Bytes) : Option Value :=
  let (negative, body) := sign (trim s)
  (unsigned? body).map fun v => if negative then negate v else v

def integer? (base : Nat) (s : Bytes) : Option Int64 :=
  let s := trim s
  let (negative, body) := match s with
    | b :: rest => if b = minus then (true, rest) else (false, s)
    | [] => (false, [])
  if body.isEmpty then none
  else (word? base body).map fun n => if negative then -n else n

end Numeral

namespace Value

def toDouble? : Value → Option Double
  | int n => some (.ofInt n.toInt)
  | float x => some x
  | str s =>
    match Numeral.number? s with
    | some (int n) => some (.ofInt n.toInt)
    | some (float x) => some x
    | _ => none
  | _ => none

def toInt64? : Value → Option Int64
  | int n => some n
  | float x => x.toInt64?
  | str s =>
    match Numeral.number? s with
    | some (int n) => some n
    | some (float x) => x.toInt64?
    | _ => none
  | _ => none

def toNumber? : Value → Option Value
  | int n => some (int n)
  | float x => some (float x)
  | str s => Numeral.number? s
  | _ => none

end Value

end LuaMachine
