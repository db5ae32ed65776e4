import LuaMachine.Double.Basic

set_option autoImplicit false

namespace LuaMachine

structure Decimal where
  digits : Nat
  exponent : Int
  deriving DecidableEq, Repr

namespace Decimal

def length (n : Nat) : Nat := (Nat.toDigits 10 n).length

def leading (x : Decimal) : Int := x.exponent + length x.digits - 1

def leadingOf (n d : Nat) : Int :=
  if n ≥ d then length (n / d) - 1
  else
    let l := length (d / n)
    if n * 10 ^ (l - 1) ≥ d then 1 - (l : Int) else -l

def scaled (n d : Nat) (p : Int) : Nat × Nat :=
  if p < 0 then (n * 10 ^ p.natAbs, d) else (n, d * 10 ^ p.natAbs)

def ofRatio (n d count : Nat) : Decimal :=
  let p := leadingOf n d + 1 - count
  let (n, d) := scaled n d p
  ⟨Double.divNearest n d, p⟩

def trim (x : Decimal) : Decimal :=
  let zeros := ((Nat.toDigits 10 x.digits).reverse.takeWhile (· = '0')).length
  ⟨x.digits / 10 ^ zeros, x.exponent + zeros⟩

def positional (x : Decimal) : String :=
  let digits := Nat.toDigits 10 x.digits
  if x.exponent ≥ 0 then String.ofList (digits ++ List.replicate x.exponent.natAbs '0')
  else
    let places := x.exponent.natAbs
    let digits := List.replicate (places + 1 - digits.length) '0' ++ digits
    let whole := digits.length - places
    String.ofList (digits.take whole ++ '.' :: digits.drop whole)

def mantissa (x : Decimal) : String :=
  match Nat.toDigits 10 x.digits with
  | [] => ""
  | [c] => String.ofList [c]
  | c :: rest => String.ofList (c :: '.' :: rest)

end Decimal

namespace Double

structure Neighbourhood where
  low : Nat
  mid : Nat
  high : Nat
  closed : Bool

def neighbourhood (x : Double) (units : Nat) : Neighbourhood :=
  let gap := x.spacing
  let below := if x.fraction = 0 ∧ x.exponentField > 1 then gap else 2 * gap
  ⟨4 * units - below, 4 * units, 4 * units + 2 * gap, x.fraction % 2 = 0⟩

/-- Of the decimals with `count` digits next to the middle, the nearest that lies in the
neighbourhood; of two as near the upper one. -/
def Neighbourhood.decimal? (h : Neighbourhood) (count : Nat) : Option Decimal :=
  let p := Decimal.leadingOf h.mid (4 * one) + 1 - count
  let (mid, d) := Decimal.scaled h.mid (4 * one) p
  let (low, _) := Decimal.scaled h.low (4 * one) p
  let (high, _) := Decimal.scaled h.high (4 * one) p
  let inside (c : Nat) : Bool :=
    if h.closed then low ≤ c * d ∧ c * d ≤ high else low < c * d ∧ c * d < high
  let c := mid / d
  let up := c + 1
  if inside c ∧ (¬ inside up ∨ mid - c * d < up * d - mid) then some ⟨c, p⟩
  else if inside up then some ⟨up, p⟩
  else none

/-- The shortest decimal that rounds to a positive number of `units`, nearest to it among the
shortest; seventeen digits always suffice. -/
def shortest (x : Double) (units : Nat) : Decimal :=
  let h := x.neighbourhood units
  ((List.range 17).findSome? (h.decimal? <| · + 1)).getD ⟨units, 0⟩ |>.trim

def signText (negative : Bool) : String := if negative then "-" else ""

def plainText (x : Double) : String :=
  match x.parts with
  | .nan => "NaN"
  | .infinite negative => signText negative ++ "inf"
  | .finite negative units =>
    signText negative ++ if units = 0 then "0" else (x.shortest units).positional

def exactText (x : Double) : String :=
  match x.parts with
  | .nan => "NaN"
  | .infinite negative => signText negative ++ "inf"
  | .finite negative units =>
    signText negative ++
      if units = 0 then "0.0"
      else
        let d := x.shortest units
        if d.leading < -4 ∨ d.leading ≥ 16 then d.mantissa ++ "e" ++ toString d.leading
        else if d.exponent ≥ 0 then d.positional ++ ".0"
        else d.positional

def text (x : Double) : String :=
  match x.parts with
  | .nan => signText x.negative ++ "nan"
  | .infinite negative => signText negative ++ "inf"
  | .finite negative units =>
    signText negative ++
      if units = 0 then "0.0"
      else
        let d := (Decimal.ofRatio units one 14).trim
        let e := d.leading
        if e < -4 ∨ e ≥ 14 then
          let digits := toString e.natAbs
          let sign := if e < 0 then "-" else "+"
          d.mantissa ++ "e" ++ sign ++ (if digits.length < 2 then "0" else "") ++ digits
        else if d.exponent ≥ 0 then d.positional ++ ".0"
        else d.positional

def listingText (x : Double) : String :=
  match x.parts with
  | .finite negative units =>
    if units % one = 0 then signText negative ++ toString (units / one) ++ ".0" else x.plainText
  | _ => x.plainText

end Double

end LuaMachine
