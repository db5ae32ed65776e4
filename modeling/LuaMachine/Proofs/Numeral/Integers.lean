import LuaMachine.Proofs.Numeral.Grammar
import LuaMachine.Value.Arith

set_option autoImplicit false

namespace LuaMachine.Numeral

section Digits

variable {c : Char} {cs : List Char}

theorem toNat_isDigit (digit : c.isDigit = true) : 48 ≤ c.toNat ∧ c.toNat ≤ 57 := by
  simpa [Char.isDigit, UInt32.le_iff_toNat_le] using digit

theorem toNat_byte (digit : c.isDigit = true) : c.toUInt8.toNat = c.toNat := by
  have range := toNat_isDigit digit
  have byte : c.toUInt8.toNat = c.toNat % 256 := rfl
  omega

theorem encodeChar_digit (digit : c.isDigit = true) : String.utf8EncodeChar c = [c.toUInt8] := by
  have ascii : c.val ≤ 127 := (toNat_isDigit digit).2.trans (by decide)
  exact String.utf8EncodeChar_eq_singleton (Char.utf8Size_eq_one_iff.2 ascii)

theorem isDecimal_digit (digit : c.isDigit = true) : IsDecimal c.toUInt8 := by
  simp [IsDecimal, UInt8.le_iff_toNat_le, toNat_byte digit, toNat_isDigit digit]

theorem appendDigit_digit (digit : c.isDigit = true) (n : Nat) :
    appendDigit n c.toUInt8 = 10 * n + (c.toNat - '0'.toNat) := by
  have range := toNat_isDigit digit
  have zero : '0'.toNat = 48 := rfl
  have small : c.toNat - 48 < 10 := by omega
  simp [appendDigit, digit?, toNat_byte digit, range, zero, Option.filter, small, Nat.mul_comm]

theorem encode_digits (digits : ∀ c ∈ cs, c.isDigit = true) :
    cs.flatMap String.utf8EncodeChar = cs.map Char.toUInt8 := by
  rw [List.map_eq_flatMap]
  exact List.flatMap_congr fun c member => encodeChar_digit (digits c member)

theorem foldl_appendDigit (digits : ∀ c ∈ cs, c.isDigit = true) (n : Nat) :
    (cs.map Char.toUInt8).foldl appendDigit n = Nat.ofDigitChars 10 cs n := by
  rw [List.foldl_map, Nat.ofDigitChars_eq_foldl]
  exact List.foldl_ext _ _ _ fun n c member => appendDigit_digit (digits c member) n

end Digits

def decimals (n : Nat) : Bytes := Utf8.encode (Nat.repr n)

theorem decimals_eq (n : Nat) : decimals n = (Nat.toDigits 10 n).map Char.toUInt8 := by
  rw [decimals, Utf8.encode, Nat.repr, String.toList_ofList]
  exact encode_digits fun c member => Nat.isDigit_of_mem_toDigits (by decide) (by decide) member

theorem decimals_formed (n : Nat) : decimals n ≠ [] ∧ ∀ b ∈ decimals n, IsDecimal b := by
  rw [decimals_eq]
  refine ⟨by simp, fun b member => ?_⟩
  obtain ⟨c, listed, rfl⟩ := List.mem_map.1 member
  exact isDecimal_digit (Nat.isDigit_of_mem_toDigits (by decide) (by decide) listed)

@[simp] theorem natural_decimals (n : Nat) : natural (decimals n) = n := by
  have digits : ∀ c ∈ Nat.toDigits 10 n, c.isDigit = true := fun c member =>
    Nat.isDigit_of_mem_toDigits (by decide) (by decide) member
  rw [natural, decimals_eq, foldl_appendDigit digits, Nat.ofDigitChars_ten_toDigits]

section Reading

variable {s sg ds : Bytes} {n : Int64}

theorem number?_digits (known : sg ∈ signs) (digits : ds ≠ [] ∧ ∀ b ∈ ds, IsDecimal b)
    (trims : Trims s (sg ++ ds)) :
    number? s = (decimal? ds).map fun v => if sg = [minus] then negate v else v := by
  have unsigned : ∀ b ∈ ds.head?, b ≠ plus ∧ b ≠ minus := fun b found =>
    (digits.2 b (List.mem_of_mem_head? found)).unsigned
  have decimal : unsigned? ds = decimal? ds := by
    refine Option.ext fun v => ⟨fun reads => ?_, fun reads => unsigned?_eq_some.2 (.inr reads)⟩
    rcases unsigned?_eq_some.1 reads with ⟨x, letter, rest, rfl, -⟩ | decimal
    · have digit := digits.2 x (by simp)
      simp only [letters, List.mem_cons, List.not_mem_nil, or_false] at letter
      rcases letter with rfl | rfl <;> exact absurd digit (by decide)
    · exact decimal
  simp [number?, trim_eq trims, sign_append known unsigned, decimal]

theorem number?_decimals {k : Nat} (known : sg ∈ signs) (small : k < 2 ^ 63)
    (trims : Trims s (sg ++ decimals k)) :
    number? s = some (.int (if sg = [minus] then -.ofNat k else .ofNat k)) := by
  have reads : decimal? (decimals k) = some (.int (.ofNat k)) :=
    decimal?_eq_int.2 ⟨decimals_formed k, by simpa using small, by simp⟩
  rw [number?_digits known (decimals_formed k) trims, reads]
  split <;> rfl

def Spells (n : Int64) (s : Bytes) : Prop :=
  ∃ text, (Value.int n).toBytes? = some text ∧ ∃ front back sg,
    (∀ b ∈ front ++ back, IsBlank b) ∧ (sg = [] ∨ sg = [plus] ∧ 0 ≤ n) ∧
    s = front ++ (sg ++ text) ++ back

theorem encode_toString (i : Int) :
    Utf8.encode (toString i) = (if i < 0 then [minus] else []) ++ decimals i.natAbs := by
  cases i with
  | ofNat k =>
    rw [if_neg (by simp)]
    rfl
  | negSucc k =>
    have text : toString (Int.negSucc k) = "-" ++ Nat.repr (k + 1) := rfl
    rw [if_pos (Int.negSucc_lt_zero k), text, Utf8.encode, String.toList_append,
      List.flatMap_append]
    rfl

theorem trims_digits {front back : Bytes} (known : sg ∈ signs)
    (digits : ds ≠ [] ∧ ∀ b ∈ ds, IsDecimal b) (blanks : ∀ b ∈ front ++ back, IsBlank b) :
    Trims (front ++ (sg ++ ds) ++ back) (sg ++ ds) := by
  refine ⟨⟨front, back, rfl, blanks⟩, ?_, ?_⟩
  · intro b first
    simp only [signs, List.mem_cons, List.not_mem_nil, or_false] at known
    rcases known with rfl | rfl | rfl
    · exact (digits.2 b (List.mem_of_mem_head? first)).not_isBlank
    · obtain rfl : plus = b := by simpa using first
      decide
    · obtain rfl : minus = b := by simpa using first
      decide
  · intro b last
    rw [List.getLast?_append_of_ne_nil _ digits.1] at last
    exact (digits.2 b (List.mem_of_getLast? last)).not_isBlank

theorem Spells.trims (spells : Spells n s) : ∃ sg ∈ signs,
    (sg = [minus] ↔ n.toInt < 0) ∧ Trims s (sg ++ decimals n.toInt.natAbs) := by
  obtain ⟨text, written, front, back, sg, blanks, sign, rfl⟩ := spells
  obtain rfl : Utf8.encode (toString n.toInt) = text := Option.some.inj written
  rw [encode_toString, ← List.append_assoc sg]
  have known : sg ++ (if n.toInt < 0 then [minus] else []) ∈ signs ∧
      (sg ++ (if n.toInt < 0 then [minus] else []) = [minus] ↔ n.toInt < 0) := by
    rcases sign with rfl | ⟨rfl, positive⟩
    · by_cases negative : n.toInt < 0 <;> simp [signs, negative]
    · have positive : ¬ n.toInt < 0 := not_lt.2 (Int64.le_iff_toInt_le.1 positive)
      simp [signs, positive, plus, minus]
  exact ⟨_, known.1, known.2, trims_digits known.1 (decimals_formed _) blanks⟩

/-- What the text of an integer is read as. The digits of the least one do not fit without the
sign, and count as a float. -/
def recalled (n : Int64) : Value :=
  if n = Int64.minValue then .float (.ofInt n.toInt) else .int n

theorem signed_natAbs (n : Int64) :
    (if n.toInt < 0 then -.ofNat n.toInt.natAbs else .ofNat n.toInt.natAbs : Int64) = n := by
  rw [← Int64.ofInt_eq_ofNat, ← Int64.ofInt_neg]
  split
  next negative => rw [Int.ofNat_natAbs_of_nonpos negative.le, neg_neg, Int64.ofInt_toInt]
  next positive => rw [Int.natAbs_of_nonneg (not_lt.1 positive), Int64.ofInt_toInt]

theorem natAbs_lt_of_ne (other : n ≠ Int64.minValue) : n.toInt.natAbs < 2 ^ 63 := by
  have above : n.toInt ≠ -2 ^ 63 := fun same => other (Int64.toInt_inj.1 same)
  have low := n.le_toInt
  have high := n.toInt_lt
  omega

theorem number?_spelled (spells : Spells n s) : number? s = some (recalled n) := by
  obtain ⟨sg, known, negative, trims⟩ := spells.trims
  unfold recalled
  split
  next least =>
    subst least
    have large : decimal? (decimals Int64.minValue.toInt.natAbs) =
      some (.float (.ofInt (2 ^ 63))) := by decide +kernel
    have negated : (Double.ofInt (2 ^ 63)).neg = .ofInt Int64.minValue.toInt := by decide +kernel
    rw [number?_digits known (decimals_formed _) trims, large, negative.2 (by decide),
      ← negated]
    rfl
  next other =>
    rw [number?_decimals known (natAbs_lt_of_ne other) trims]
    simp only [negative, signed_natAbs]

theorem toInt64?_recalled (n : Int64) : (recalled n).toInt64? = some n := by
  unfold recalled
  split
  next least =>
    subst least
    decide +kernel
  next => rfl

end Reading

theorem text_converts {s : Bytes} {v : Value} (reads : number? s = some v) :
    (Value.str s).toInt64? = v.toInt64? ∧ (Value.str s).toNumber? = v.toNumber? := by
  have number := type_number? reads
  cases v with
  | int n => simp [Value.toInt64?, Value.toNumber?, reads]
  | float x => simp [Value.toInt64?, Value.toNumber?, reads]
  | _ => cases number

section Operands

variable {op : ArithOp} {v w : Value}

theorem raw_congr (whole : v.toInt64? = w.toInt64?) (number : v.toNumber? = w.toNumber?)
    (other : Value) :
    Arith.raw op v other = Arith.raw op w other ∧ Arith.raw op other v = Arith.raw op other w := by
  simp only [Arith.raw, whole, number, and_self]

theorem raw_congr_of_isBitwise (bitwise : op.isBitwise = true) (whole : v.toInt64? = w.toInt64?)
    (other : Value) :
    Arith.raw op v other = Arith.raw op w other ∧ Arith.raw op other v = Arith.raw op other w := by
  simp only [Arith.raw, bitwise, if_true, whole, and_self]

end Operands

/-- The text of an integer reads back as the integer, unless it is the least one, which comes back
as the float of the same value. It converts to the integer always, and as an operand it counts as
the number that it reads as, or as the integer where the operation is bitwise. -/
theorem integer_text_reads {n : Int64} {s : Bytes} (spells : Spells n s) :
    (number? s = some (.int n) ↔ n ≠ Int64.minValue) ∧ number? s = some (recalled n) ∧
    (Value.str s).toInt64? = some n ∧ (Value.str s).toNumber? = some (recalled n) ∧
    ∀ (op : ArithOp) (other : Value),
      (Arith.raw op (.str s) other = Arith.raw op (recalled n) other ∧
        Arith.raw op other (.str s) = Arith.raw op other (recalled n)) ∧
      (op.isBitwise = true → Arith.raw op (.str s) other = Arith.raw op (.int n) other ∧
        Arith.raw op other (.str s) = Arith.raw op other (.int n)) := by
  have reads := number?_spelled spells
  obtain ⟨whole, number⟩ := text_converts reads
  have integer : (Value.str s).toInt64? = some n := whole.trans (toInt64?_recalled n)
  refine ⟨?_, reads, integer, reads, fun op other => ⟨raw_congr whole number other, fun bitwise =>
    raw_congr_of_isBitwise bitwise integer other⟩⟩
  rw [reads, recalled]
  split
  next least => simp [least]
  next other => simp [other]

-- The greatest integer comes back. The least one does not, and its text adds up to a float.
theorem integer_text_reads_extremes :
    (Spells Int64.maxValue (Utf8.encode " +9223372036854775807\n") ∧
      number? (Utf8.encode " +9223372036854775807\n") = some (.int Int64.maxValue)) ∧
    Spells Int64.minValue (Utf8.encode "-9223372036854775808") ∧
    ¬ number? (Utf8.encode "-9223372036854775808") = some (.int Int64.minValue) ∧
    Arith.raw .add (.str (Utf8.encode "-9223372036854775808")) (.int 1) ≠
      Arith.raw .add (.int Int64.minValue) (.int 1) := by
  have greatest : Spells Int64.maxValue (Utf8.encode " +9223372036854775807\n") :=
    ⟨_, rfl, [32], [10], [plus], by simp [IsBlank], .inr ⟨rfl, by decide⟩, by decide⟩
  have least : Spells Int64.minValue (Utf8.encode "-9223372036854775808") :=
    ⟨_, rfl, [], [], [], by simp, .inl rfl, by decide⟩
  obtain ⟨back, -, -, -, operand⟩ := integer_text_reads least
  refine ⟨⟨greatest, (integer_text_reads greatest).1.2 (by decide)⟩, least, mt back.1 (by simp), ?_⟩
  rw [(operand .add (.int 1)).1.1]
  decide +kernel

end LuaMachine.Numeral
