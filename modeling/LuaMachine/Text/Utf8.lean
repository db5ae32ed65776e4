set_option autoImplicit false

namespace LuaMachine

abbrev Bytes := List UInt8

namespace Utf8

def encode (s : String) : Bytes := s.toList.flatMap String.utf8EncodeChar

def isContinuation (b : UInt8) : Bool := 0x80 ≤ b && b ≤ 0xBF

/-- Whether `b` may stand second after the lead byte `lead` of a character of three or four
bytes: no surrogate, nothing above the last character, nothing that has a shorter form. -/
def isSecond (lead b : UInt8) : Bool :=
  if lead = 0xE0 then 0xA0 ≤ b && b ≤ 0xBF
  else if lead = 0xED then 0x80 ≤ b && b ≤ 0x9F
  else if lead = 0xF0 then 0x90 ≤ b && b ≤ 0xBF
  else if lead = 0xF4 then 0x80 ≤ b && b ≤ 0x8F
  else isContinuation b

def join (acc : Nat) (bs : Bytes) : Nat := bs.foldl (fun acc b => acc * 64 + b.toNat % 64) acc

/-- The character that starts with `lead`, or `none` where the bytes are not well formed, with
the number of bytes of `rest` that belong to it. -/
def item (lead : UInt8) (rest : Bytes) : Option Char × Nat :=
  if lead < 0x80 then (some (.ofNat lead.toNat), 0)
  else if 0xC2 ≤ lead ∧ lead ≤ 0xDF then
    match rest with
    | b :: _ =>
      if isContinuation b then (some (.ofNat (join (lead.toNat % 32) [b])), 1) else (none, 0)
    | [] => (none, 0)
  else if 0xE0 ≤ lead ∧ lead ≤ 0xEF then
    match rest with
    | b :: more =>
      if isSecond lead b then
        match more with
        | c :: _ =>
          if isContinuation c then (some (.ofNat (join (lead.toNat % 16) [b, c])), 2)
          else (none, 1)
        | [] => (none, 1)
      else (none, 0)
    | [] => (none, 0)
  else if 0xF0 ≤ lead ∧ lead ≤ 0xF4 then
    match rest with
    | b :: more =>
      if isSecond lead b then
        match more with
        | c :: last =>
          if isContinuation c then
            match last with
            | d :: _ =>
              if isContinuation d then (some (.ofNat (join (lead.toNat % 8) [b, c, d])), 3)
              else (none, 2)
            | [] => (none, 2)
          else (none, 1)
        | [] => (none, 1)
      else (none, 0)
    | [] => (none, 0)
  else (none, 0)

def itemsFrom : Nat → Bytes → List (Option Char)
  | _, [] => []
  | skip + 1, _ :: rest => itemsFrom skip rest
  | 0, lead :: rest =>
    let (c, n) := item lead rest
    c :: itemsFrom n rest

def items (bs : Bytes) : List (Option Char) := itemsFrom 0 bs

def replacement : Char := '\uFFFD'

def decodeLossy (bs : Bytes) : String := String.ofList ((items bs).map (·.getD replacement))

def decode? (bs : Bytes) : Option String := ((items bs).mapM id).map String.ofList

end Utf8

end LuaMachine
