import LuaMachine.Proofs.ForLoop.Limits
import LuaMachine.Proofs.Numeral.Unsigned

set_option autoImplicit false

namespace LuaMachine.Numeral

section Signed

variable {s body : Bytes} {p : Parts} {v : Value}

def Decimal (p : Parts) (s : Bytes) : Prop := p.Formed IsDecimal decimalMarks ∧ s = p.text

def letters : List UInt8 := [120, 88]

def Hexadecimal (p : Parts) (s : Bytes) : Prop :=
  p.Formed IsHexadecimal hexMarks ∧ ∃ x ∈ letters, s = 48 :: x :: p.text

def Written (shape : Bytes → Prop) (s : Bytes) : Prop :=
  ∃ sg ∈ signs, ∃ body, Trims s (sg ++ body) ∧ shape body

def IsNumeral : Bytes → Prop := Written fun body => ∃ p, Decimal p body ∨ Hexadecimal p body

def IsInteger : Bytes → Prop := Written fun body =>
  ∃ p : Parts, p.Bare ∧ (Decimal p body ∧ natural body < 2 ^ 63 ∨ Hexadecimal p body)

/-- A hexadecimal numeral with a scale or an exponent beyond 32 bits. -/
def Outsized : Bytes → Prop := Written fun body => ∃ p, Hexadecimal p body ∧ ¬ p.Fits

/-- A decimal numeral after two signs. -/
def TwiceSigned (s : Bytes) : Prop :=
  ∃ first ∈ [plus, minus], ∃ second ∈ [plus, minus], ∃ body, Trims s (first :: second :: body) ∧
    ∃ p, Decimal p body

theorem Decimal.unsigned (decimal : Decimal p body) : ∀ b ∈ body.head?, b ≠ plus ∧ b ≠ minus :=
  decimal.2 ▸ unsigned_text decimal.1

theorem Hexadecimal.unsigned (hexadecimal : Hexadecimal p body) :
    ∀ b ∈ body.head?, b ≠ plus ∧ b ≠ minus := by
  obtain ⟨-, x, -, rfl⟩ := hexadecimal
  intro b found
  obtain rfl : 48 = b := by simpa using found
  decide

theorem written_iff {shape : Bytes → Prop}
    (unsigned : ∀ body, shape body → ∀ b ∈ body.head?, b ≠ plus ∧ b ≠ minus) :
    Written shape s ↔ shape (sign (trim s)).2 := by
  constructor
  · rintro ⟨sg, known, body, trims, shaped⟩
    rwa [trim_eq trims, sign_append known (unsigned body shaped)]
  · intro shaped
    obtain ⟨sg, known, split, -⟩ := sign_split (trim s)
    exact ⟨sg, known, _, trims_iff.2 split, shaped⟩

theorem isNumeral_iff : IsNumeral s ↔
    ∃ p, Decimal p (sign (trim s)).2 ∨ Hexadecimal p (sign (trim s)).2 :=
  written_iff fun _ ⟨_, numeral⟩ => numeral.elim Decimal.unsigned Hexadecimal.unsigned

theorem isInteger_iff : IsInteger s ↔ ∃ p : Parts, p.Bare ∧
    (Decimal p (sign (trim s)).2 ∧ natural (sign (trim s)).2 < 2 ^ 63 ∨
      Hexadecimal p (sign (trim s)).2) :=
  written_iff fun _ ⟨_, _, numeral⟩ => numeral.elim (·.1.unsigned) Hexadecimal.unsigned

theorem outsized_iff : Outsized s ↔ ∃ p, Hexadecimal p (sign (trim s)).2 ∧ ¬ p.Fits :=
  written_iff fun _ ⟨_, numeral, _⟩ => numeral.unsigned

theorem twiceSigned_iff : TwiceSigned s ↔
    ∃ second ∈ [plus, minus], ∃ body, (sign (trim s)).2 = second :: body ∧ ∃ p, Decimal p body := by
  constructor
  · rintro ⟨first, known, second, listed, body, trims, decimal⟩
    refine ⟨second, listed, body, ?_, decimal⟩
    rw [trim_eq trims]
    simp only [List.mem_cons, List.not_mem_nil, or_false] at known
    rcases known with rfl | rfl <;> rfl
  · rintro ⟨second, listed, body, rest, decimal⟩
    obtain ⟨sg, known, split, -⟩ := sign_split (trim s)
    rw [rest] at split
    simp only [signs, List.mem_cons, List.not_mem_nil, or_false] at known
    rcases known with rfl | rfl | rfl
    · -- One sign alone would have been taken off.
      rw [split] at rest
      simp only [List.mem_cons, List.not_mem_nil, or_false] at listed
      have shorter := congrArg List.length rest
      rcases listed with rfl | rfl <;> simp [sign, plus, minus] at shorter
    · exact ⟨plus, by simp, second, listed, body, trims_iff.2 split, decimal⟩
    · exact ⟨minus, by simp, second, listed, body, trims_iff.2 split, decimal⟩

-- The letter after the zero is no part of a decimal numeral.
theorem decimal?_letter {x : UInt8} (letter : x ∈ letters) (rest : Bytes) :
    decimal? (48 :: x :: rest) = none := by
  simp only [letters, List.mem_cons, List.not_mem_nil, or_false] at letter
  have other : isDigit 10 x = false ∧ x ≠ point ∧ ¬ (x = 101 ∨ x = 69) := by
    rcases letter with rfl | rfl <;> decide
  have zero : span 10 ([48] ++ x :: rest) = ([48], x :: rest) :=
    span_eq (by simp [isDigit_ten, IsDecimal]) (by simp [other])
  have unread : float? (48 :: x :: rest) = none := by
    rw [List.singleton_append] at zero
    simp [float?, sign, plus, minus, zero, fraction, decimalScale?, other]
  simp [decimal?, other, unread]

theorem unsigned?_eq_some : unsigned? s = some v ↔
    (∃ x ∈ letters, ∃ rest, s = 48 :: x :: rest ∧ hexadecimal? rest = some v) ∨
    decimal? s = some v := by
  match s with
  | [] => simp [unsigned?]
  | [a] => simp [unsigned?]
  | a :: x :: rest =>
    rw [unsigned?]
    split
    next marked =>
      obtain ⟨rfl, letter⟩ := marked
      have known : x ∈ letters := by simpa [letters] using letter
      simp [decimal?_letter known, known]
    next unmarked =>
      refine ⟨.inr, ?_⟩
      rintro (⟨y, letter, rest', same, -⟩ | decimal)
      · cases same
        exact absurd ⟨rfl, by simpa [letters] using letter⟩ unmarked
      · exact decimal

theorem number?_isSome : (number? s).isSome ↔ (unsigned? (sign (trim s)).2).isSome := by
  simp [number?]

theorem number?_int : (∃ n, number? s = some (.int n)) ↔
    ∃ n, unsigned? (sign (trim s)).2 = some (.int n) := by
  unfold number?
  dsimp only
  constructor
  · rintro ⟨n, reads⟩
    obtain ⟨v, unsigned, signed⟩ := Option.map_eq_some_iff.1 reads
    cases v with
    | int m => exact ⟨m, unsigned⟩
    | _ => split at signed <;> cases signed
  · rintro ⟨n, unsigned⟩
    rw [unsigned]
    split
    next => exact ⟨-n, rfl⟩
    next => exact ⟨n, rfl⟩

theorem unsigned?_isSome : (unsigned? s).isSome ↔
    (∃ p, Hexadecimal p s ∧ p.Fits) ∨ ∃ sg ∈ signs, ∃ rest p, Decimal p rest ∧ s = sg ++ rest := by
  rw [Option.isSome_iff_exists]
  simp only [unsigned?_eq_some, exists_or]
  refine or_congr ?_ ?_
  · constructor
    · rintro ⟨v, x, letter, rest, rfl, reads⟩
      obtain ⟨p, formed, fits, rfl⟩ := hexadecimal?_isSome.1 (Option.isSome_iff_exists.2 ⟨v, reads⟩)
      exact ⟨p, ⟨formed, x, letter, rfl⟩, fits⟩
    · rintro ⟨p, ⟨formed, x, letter, rfl⟩, fits⟩
      obtain ⟨v, reads⟩ := Option.isSome_iff_exists.1 ((hexadecimal?_text formed).2 fits)
      exact ⟨v, x, letter, p.text, rfl, reads⟩
  · rw [← Option.isSome_iff_exists, decimal?_isSome]
    simp only [Decimal]
    grind

theorem Hexadecimal.fits_iff (hexadecimal : Hexadecimal p body) :
    (unsigned? body).isSome ↔ p.Fits := by
  obtain ⟨formed, x, letter, rfl⟩ := hexadecimal
  have marked : x = 120 ∨ x = 88 := by simpa [letters] using letter
  rw [unsigned?, if_pos ⟨rfl, marked⟩, hexadecimal?_text formed]

theorem Decimal.accepted (decimal : Decimal p body) : (unsigned? body).isSome = true :=
  unsigned?_isSome.2 (.inr ⟨[], by simp [signs], body, p, decimal, rfl⟩)

theorem not_isNumeral_of_twiceSigned (twice : TwiceSigned s) : ¬ IsNumeral s := by
  obtain ⟨second, listed, body, rest, -⟩ := twiceSigned_iff.1 twice
  rw [isNumeral_iff, rest]
  rintro ⟨p, numeral⟩
  have unsigned := numeral.elim Decimal.unsigned Hexadecimal.unsigned second rfl
  simp [unsigned] at listed

theorem accepted_iff : (number? s).isSome ↔ IsNumeral s ∧ ¬ Outsized s ∨ TwiceSigned s := by
  rw [number?_isSome, isNumeral_iff, outsized_iff, twiceSigned_iff]
  generalize (sign (trim s)).2 = body
  constructor
  · intro reads
    have sized : ¬ ∃ p, Hexadecimal p body ∧ ¬ p.Fits :=
      fun ⟨p, hexadecimal, large⟩ => large (hexadecimal.fits_iff.1 reads)
    rcases unsigned?_isSome.1 reads with ⟨p, hexadecimal, -⟩ | ⟨sg, known, rest, p, decimal, rfl⟩
    · exact .inl ⟨⟨p, .inr hexadecimal⟩, sized⟩
    · simp only [signs, List.mem_cons, List.not_mem_nil, or_false] at known
      rcases known with rfl | rfl | rfl
      · exact .inl ⟨⟨p, .inl decimal⟩, sized⟩
      · exact .inr ⟨plus, by simp, rest, rfl, p, decimal⟩
      · exact .inr ⟨minus, by simp, rest, rfl, p, decimal⟩
  · rintro (⟨⟨p, decimal | hexadecimal⟩, sized⟩ | ⟨second, listed, rest, rfl, p, decimal⟩)
    · exact decimal.accepted
    · exact hexadecimal.fits_iff.2 (by_contra fun large => sized ⟨p, hexadecimal, large⟩)
    · have known : [second] ∈ signs := by simpa [signs] using listed
      exact unsigned?_isSome.2 (.inr ⟨[second], known, rest, p, decimal, rfl⟩)

theorem integer_iff : (∃ n, number? s = some (.int n)) ↔ IsInteger s := by
  rw [number?_int, isInteger_iff]
  generalize (sign (trim s)).2 = body
  simp only [unsigned?_eq_some, exists_or, and_or_left]
  rw [or_comm]
  refine or_congr ?_ ?_
  · constructor
    · rintro ⟨n, reads⟩
      obtain ⟨digits, small, -⟩ := decimal?_eq_int.1 reads
      obtain ⟨p, formed, bare, text⟩ := Parts.exists_bare.2 digits
      exact ⟨p, bare, ⟨formed, text⟩, small⟩
    · rintro ⟨p, bare, ⟨formed, text⟩, small⟩
      exact ⟨_, decimal?_eq_int.2 ⟨Parts.exists_bare.1 ⟨p, formed, bare, text⟩, small, rfl⟩⟩
  · constructor
    · rintro ⟨n, x, letter, rest, rfl, reads⟩
      obtain ⟨p, formed, bare, rfl⟩ := hexadecimal?_int.1 ⟨n, reads⟩
      exact ⟨p, bare, formed, x, letter, rfl⟩
    · rintro ⟨p, bare, formed, x, letter, rfl⟩
      obtain ⟨n, reads⟩ := hexadecimal?_bare formed bare
      exact ⟨n, x, letter, p.text, rfl, reads⟩

theorem float_iff : (∃ x, number? s = some (.float x)) ↔
    (number? s).isSome ∧ ¬ ∃ n, number? s = some (.int n) := by
  constructor
  · rintro ⟨x, reads⟩
    simp [reads]
  · rintro ⟨some, other⟩
    obtain ⟨v, reads⟩ := Option.isSome_iff_exists.1 some
    cases v with
    | int n => exact absurd ⟨n, reads⟩ other
    | float x => exact ⟨x, reads⟩
    | _ => cases type_number? reads

/-- The strings that stand for a number are the numerals, blanks around them and one sign before
them allowed, but for two things: hexadecimal numerals with a scale beyond 32 bits are left
out, and a decimal numeral may have a second sign. Digits alone are an integer, decimal ones if
they fit, and all else is a float. -/
theorem numerals_accepted (s : Bytes) :
    ((number? s).isSome ↔ IsNumeral s ∧ ¬ Outsized s ∨ TwiceSigned s) ∧
    ((∃ n, number? s = some (.int n)) ↔ IsInteger s) ∧
    ((∃ x, number? s = some (.float x)) ↔
      (IsNumeral s ∧ ¬ Outsized s ∨ TwiceSigned s) ∧ ¬ IsInteger s) ∧
    ¬ (TwiceSigned s ∧ IsNumeral s) :=
  ⟨accepted_iff, integer_iff, by rw [float_iff, accepted_iff, integer_iff],
    fun ⟨twice, numeral⟩ => not_isNumeral_of_twiceSigned twice numeral⟩

theorem numerals_accepted_exceptions :
    (number? (Utf8.encode "--5") = some (.float (.ofInt 5)) ∧ ¬ IsNumeral (Utf8.encode "--5")) ∧
    number? (Utf8.encode "0x1p2147483648") = none ∧ IsNumeral (Utf8.encode "0x1p2147483648") := by
  have twice : TwiceSigned (Utf8.encode "--5") :=
    ⟨minus, by decide, minus, by decide, [53], trims_iff.2 (by decide), ⟨[53], none, none⟩,
      ⟨by decide, by decide +kernel, by simp⟩, by decide⟩
  have exponent : Exponent.Formed hexMarks ⟨112, [], Utf8.encode "2147483648"⟩ :=
    ⟨by decide, by decide, by decide, by decide +kernel⟩
  have hexadecimal : Hexadecimal ⟨[49], none, some ⟨112, [], Utf8.encode "2147483648"⟩⟩
      (Utf8.encode "0x1p2147483648") :=
    ⟨⟨by decide, by decide +kernel, by simpa using exponent⟩, 120, by decide, by decide⟩
  exact ⟨⟨by decide +kernel, not_isNumeral_of_twiceSigned twice⟩, by decide +kernel,
    [], by decide, _, trims_iff.2 (by decide), _, .inr hexadecimal⟩

end Signed

end LuaMachine.Numeral
