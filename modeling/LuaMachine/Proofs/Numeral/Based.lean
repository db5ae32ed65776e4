import LuaMachine.Proofs.Numeral.Grammar
import Mathlib.Data.Int.ModEq
import Mathlib.Data.Nat.Digits.Defs
import Mathlib.Tactic.Ring

set_option autoImplicit false

namespace LuaMachine.Numeral

def Denotes (b : UInt8) (d : Nat) : Prop :=
  d < 10 ∧ b.toNat = 48 + d ∨ 10 ≤ d ∧ d < 36 ∧ (b.toNat = 87 + d ∨ b.toNat = 55 + d)

def DigitOf (base : Nat) (b : UInt8) (d : Nat) : Prop := Denotes b d ∧ d < base

def Digits (base : Nat) (s : Bytes) (n : Nat) : Prop :=
  s ≠ [] ∧ ∃ ds, List.Forall₂ (DigitOf base) s ds ∧ n = Nat.ofDigits base ds.reverse

def minuses : List Bytes := [[], [minus]]

/-- An optional minus and digits of a base, between blanks, which denote `n`. -/
def Based (base : Nat) (s : Bytes) (n : Int) : Prop :=
  ∃ sg ∈ minuses, ∃ body k, Trims s (sg ++ body) ∧ Digits base body k ∧
    n = if sg = [minus] then -(k : Int) else k

theorem digit?_eq_some {base : Nat} {b : UInt8} {d : Nat} :
    digit? base b = some d ↔ DigitOf base b d := by
  simp only [digit?, DigitOf, Denotes, Option.filter_eq_some_iff, decide_eq_true_eq]
  refine and_congr_left fun small => ?_
  split
  next => simp only [Option.some.injEq]; omega
  next =>
    split
    next => simp only [Option.some.injEq]; omega
    next =>
      split
      next => simp only [Option.some.injEq]; omega
      next => simp only [reduceCtorEq, false_iff]; omega

section Words

variable {base : Nat} {s : Bytes} {v : Int64}

-- What has been read moves up one place with every digit that follows.
theorem foldlM_places (read : Nat) :
    s.foldlM (fun acc b => (digit? base b).map fun d => acc * .ofNat base + .ofNat d)
      (Int64.ofNat read) = some v ↔
    ∃ ds, List.Forall₂ (DigitOf base) s ds ∧
      v = .ofNat (read * base ^ ds.length + Nat.ofDigits base ds.reverse) := by
  induction s generalizing read with
  | nil => simp [eq_comm]
  | cons b s ih =>
    rw [List.foldlM_cons]
    cases digit : digit? base b with
    | none => simp [List.forall₂_cons_left_iff, ← digit?_eq_some, digit]
    | some d =>
      have next : Int64.ofNat read * .ofNat base + .ofNat d = .ofNat (read * base + d) := by
        rw [Int64.ofNat_add, Int64.ofNat_mul]
      have places (ds : List Nat) : (read * base + d) * base ^ ds.length +
          Nat.ofDigits base ds.reverse =
          read * base ^ (d :: ds).length + Nat.ofDigits base (d :: ds).reverse := by
        rw [Nat.ofDigits_reverse_cons, List.length_cons]
        ring
      rw [Option.map_some, Option.bind_eq_bind, Option.bind_some, next, ih]
      simp only [List.forall₂_cons_left_iff, ← digit?_eq_some, digit, Option.some.injEq, places]
      constructor
      · rintro ⟨ds, others, rfl⟩
        exact ⟨d :: ds, ⟨d, ds, rfl, others, rfl⟩, rfl⟩
      · rintro ⟨_, ⟨_, ds, rfl, others, rfl⟩, rfl⟩
        exact ⟨ds, others, rfl⟩

theorem word?_eq_some (some : s ≠ []) :
    word? base s = .some v ↔ ∃ k, Digits base s k ∧ v = .ofNat k := by
  refine (foldlM_places 0).trans ?_
  simp only [Nat.zero_mul, Nat.zero_add]
  constructor
  · rintro ⟨ds, digits, rfl⟩
    exact ⟨_, ⟨some, ds, digits, rfl⟩, rfl⟩
  · rintro ⟨_, ⟨-, ds, digits, rfl⟩, rfl⟩
    exact ⟨ds, digits, rfl⟩

theorem not_digit_minus (base d : Nat) : ¬ DigitOf base minus d := by
  rintro ⟨denotes, -⟩
  have code : minus.toNat = 45 := rfl
  unfold Denotes at denotes
  omega

theorem Digits.unsigned {k : Nat} (digits : Digits base s k) : ∀ b ∈ s.head?, b ≠ minus := by
  obtain ⟨some, ds, values, -⟩ := digits
  rintro _ first rfl
  cases values with
  | nil => exact some rfl
  | cons digit _ =>
    cases first
    exact not_digit_minus base _ digit

end Words

section Signs

variable {base : Nat} {s sg body : Bytes} {v : Int64}

theorem minus_split (t : Bytes) : ∃ sg ∈ minuses, ∃ body, t = sg ++ body ∧
    (sg = [] → ∀ b ∈ body.head?, b ≠ minus) := by
  cases t with
  | nil => exact ⟨[], by simp [minuses], [], rfl, by simp⟩
  | cons b t =>
    by_cases signed : b = minus
    · exact ⟨[minus], by simp [minuses], t, by simp [signed], by simp⟩
    · exact ⟨[], by simp [minuses], b :: t, rfl, by simpa using signed⟩

theorem integer?_trimmed (known : sg ∈ minuses) (trims : Trims s (sg ++ body))
    (unsigned : sg = [] → ∀ b ∈ body.head?, b ≠ minus) : integer? base s =
      if body = [] then none
      else (word? base body).map fun n => if sg = [minus] then -n else n := by
  simp only [minuses, List.mem_cons, List.not_mem_nil, or_false] at known
  simp only [integer?, trim_eq trims]
  rcases known with rfl | rfl
  · cases body with
    | nil => rfl
    | cons b body => simp [unsigned rfl b rfl]
  · simp

theorem ofInt_signed (negative : Prop) [Decidable negative] (k : Nat) :
    (if negative then -.ofNat k else .ofNat k : Int64) =
      .ofInt (if negative then -(k : Int) else k) := by
  split <;> simp [Int64.ofInt_neg, Int64.ofInt_eq_ofNat]

theorem integer?_eq_some : integer? base s = some v ↔ ∃ n, Based base s n ∧ v = .ofInt n := by
  constructor
  · intro reads
    obtain ⟨sg, known, body, split, unsigned⟩ := minus_split (trim s)
    have trims := trims_iff.2 split
    rw [integer?_trimmed known trims unsigned] at reads
    split at reads
    next => cases reads
    next some =>
      obtain ⟨w, word, rfl⟩ := Option.map_eq_some_iff.1 reads
      obtain ⟨k, digits, rfl⟩ := (word?_eq_some some).1 word
      exact ⟨_, ⟨sg, known, body, k, trims, digits, rfl⟩, ofInt_signed _ k⟩
  · rintro ⟨_, ⟨sg, known, body, k, trims, digits, rfl⟩, rfl⟩
    have word : word? base body = some (.ofNat k) :=
      (word?_eq_some digits.1).2 ⟨k, digits, rfl⟩
    rw [integer?_trimmed known trims fun _ => digits.unsigned, if_neg digits.1, word,
      Option.map_some, ofInt_signed]

theorem eq_ofInt_iff {n : Int} : v = .ofInt n ↔ v.toInt ≡ n [ZMOD 2 ^ 64] := by
  rw [← Int64.toInt_inj, Int64.toInt_ofInt]
  constructor
  · intro same
    rw [same]
    exact Int.bmod_emod
  · intro same
    calc
      v.toInt = v.toInt.bmod Int64.size := v.toInt_bmod_size.symm
      _ = (v.toInt % Int64.size).bmod Int64.size := (Int.emod_bmod _ _).symm
      _ = (n % Int64.size).bmod Int64.size := congrArg (Int.bmod · Int64.size) same
      _ = n.bmod Int64.size := Int.emod_bmod _ _

end Signs

section Hexadecimal

variable {s sg h : Bytes}

theorem trims_self (plain : ∀ b ∈ s, ¬ IsBlank b) : Trims s s :=
  ⟨⟨[], [], by simp, by simp⟩, fun b first => plain b (List.mem_of_mem_head? first),
    fun b last => plain b (List.mem_of_getLast? last)⟩

theorem mem_minuses (known : sg ∈ minuses) : sg ∈ signs ∧ ∀ b ∈ sg, ¬ IsBlank b := by
  simp only [minuses, List.mem_cons, List.not_mem_nil, or_false] at known
  rcases known with rfl | rfl
  · exact ⟨by simp [signs], by simp⟩
  · refine ⟨by simp [signs], fun b member => ?_⟩
    obtain rfl := List.mem_singleton.1 member
    decide

theorem hexadecimal?_digits (some : h ≠ []) (hex : ∀ b ∈ h, IsHexadecimal b) :
    hexadecimal? h = (word? 16 h).map .int := by
  have unmarked : ¬ (h.any fun b => b == point || isHexExponent b) = true := by
    rw [List.any_eq_true]
    rintro ⟨b, member, mark⟩
    have unmarked := (hex b member).unmarked
    simp [isHexExponent_iff, unmarked] at mark
  simp [hexadecimal?, unmarked, some]

theorem integer?_hexadecimal (known : sg ∈ minuses) (some : h ≠ [])
    (hex : ∀ b ∈ h, IsHexadecimal b) :
    integer? 16 (sg ++ h) = (word? 16 h).map fun n => if sg = [minus] then -n else n := by
  have plain : ∀ b ∈ sg ++ h, ¬ IsBlank b := by
    intro b member
    rcases List.mem_append.1 member with signed | digit
    · exact (mem_minuses known).2 b signed
    · exact (hex b digit).not_isBlank
  have unsigned : ∀ b ∈ h.head?, b ≠ minus := by
    rintro _ first rfl
    exact absurd (hex minus (List.mem_of_mem_head? first)) (by decide)
  rw [integer?_trimmed known (trims_self plain) fun _ => unsigned, if_neg some]

theorem number?_hexadecimal (known : sg ∈ minuses) (some : h ≠ [])
    (hex : ∀ b ∈ h, IsHexadecimal b) : number? (sg ++ (Utf8.encode "0x" ++ h)) =
      (word? 16 h).map fun n => .int (if sg = [minus] then -n else n) := by
  have marked : Utf8.encode "0x" = [48, 120] := by decide
  have plain : ∀ b ∈ sg ++ 48 :: 120 :: h, ¬ IsBlank b := by
    simp only [List.mem_append, List.mem_cons]
    rintro b (signed | rfl | rfl | digit)
    · exact (mem_minuses known).2 b signed
    · decide
    · decide
    · exact (hex b digit).not_isBlank
  have body : sign (sg ++ 48 :: 120 :: h) = (decide (sg = [minus]), 48 :: 120 :: h) :=
    sign_append (mem_minuses known).1 (by simp [plus, minus])
  have digits : unsigned? (48 :: 120 :: h) = (word? 16 h).map .int := by
    rw [unsigned?, if_pos (by decide), hexadecimal?_digits some hex]
  rw [marked, List.cons_append, List.cons_append, List.nil_append]
  simp only [number?, trim_eq (trims_self plain), body, digits, Option.map_map]
  refine Option.map_congr fun n _ => ?_
  by_cases negative : sg = [minus] <;> simp [negative, negate]

end Hexadecimal

/-- A string is read in a base just if it is a numeral of the base, however long, and the result
is the word that is congruent to the number it denotes. Hexadecimal digits count the same after
`0x`, with or without a minus before them. -/
theorem basedNumerals_read :
    (∀ (base : Nat) (s : Bytes) (v : Int64), integer? base s = some v ↔
      ∃ n, Based base s n ∧ v.toInt ≡ n [ZMOD 2 ^ 64]) ∧
    ∀ sg ∈ minuses, ∀ h : Bytes, h ≠ [] → (∀ b ∈ h, IsHexadecimal b) → ∃ v,
      integer? 16 (sg ++ h) = some v ∧
        number? (sg ++ (Utf8.encode "0x" ++ h)) = some (.int v) := by
  refine ⟨fun base s v => ?_, fun sg known h some hex => ?_⟩
  · simp only [integer?_eq_some, eq_ofInt_iff]
  · obtain ⟨n, word⟩ := Option.isSome_iff_exists.1
      (word?_isSome.2 fun b member => (isDigit_sixteen b).2 (hex b member))
    exact ⟨_, by rw [integer?_hexadecimal known some hex, word, Option.map_some],
      by rw [number?_hexadecimal known some hex, word, Option.map_some]⟩

-- Letters of both cases between blanks, and digits of a number beyond all words.
theorem basedNumerals_read_wrapping :
    (Based 36 (Utf8.encode " -Zz\t") (-1295) ∧
      integer? 36 (Utf8.encode " -Zz\t") = some (-1295)) ∧
    integer? 16 (Utf8.encode "-10000000000000000F") = some (-15) ∧
    number? (Utf8.encode "-0x10000000000000000F") = some (.int (-15)) := by
  have digits : Digits 36 (Utf8.encode "Zz") 1295 := by
    refine ⟨by decide, [35, 35], .cons ?_ (.cons ?_ .nil), by simp [Nat.ofDigits]⟩
    all_goals exact ⟨.inr ⟨by decide, by decide, by decide⟩, by decide⟩
  have based : Based 36 (Utf8.encode " -Zz\t") (-1295) :=
    ⟨[minus], by decide, _, _, trims_iff.2 (by decide), digits, rfl⟩
  obtain ⟨v, alone, marked⟩ := basedNumerals_read.2 [minus] (by decide)
    (Utf8.encode "10000000000000000F") (by decide) (by decide +kernel)
  have value : integer? 16 (Utf8.encode "-10000000000000000F") = some (-15) := by decide +kernel
  obtain rfl : v = -15 := Option.some.inj (alone.symm.trans value)
  exact ⟨⟨based, (basedNumerals_read.1 36 _ _).2 ⟨_, based, by decide⟩⟩, value, marked⟩

end LuaMachine.Numeral
