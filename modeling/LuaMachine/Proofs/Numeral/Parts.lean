import LuaMachine.Value.Numeral
import Mathlib.Data.List.TakeWhile

set_option autoImplicit false

namespace LuaMachine.Numeral

def IsBlank (b : UInt8) : Prop := b ∈ [32, 9, 10, 12, 13]

structure Trims (s t : Bytes) : Prop where
  around : ∃ front back, s = front ++ t ++ back ∧ ∀ b ∈ front ++ back, IsBlank b
  first : ∀ b ∈ t.head?, ¬ IsBlank b
  last : ∀ b ∈ t.getLast?, ¬ IsBlank b

def IsDecimal (b : UInt8) : Prop := 48 ≤ b ∧ b ≤ 57

def IsHexadecimal (b : UInt8) : Prop := IsDecimal b ∨ 97 ≤ b ∧ b ≤ 102 ∨ 65 ≤ b ∧ b ≤ 70

instance : DecidablePred IsBlank := fun b => inferInstanceAs (Decidable (b ∈ _))

instance : DecidablePred IsDecimal := fun _ => inferInstanceAs (Decidable (_ ∧ _))

instance : DecidablePred IsHexadecimal := fun _ => inferInstanceAs (Decidable (_ ∨ _))

theorem IsHexadecimal.not_isBlank {b : UInt8} (hex : IsHexadecimal b) : ¬ IsBlank b := by
  intro blank
  simp only [IsBlank, List.mem_cons, List.not_mem_nil, or_false] at blank
  rcases blank with rfl | rfl | rfl | rfl | rfl <;> exact absurd hex (by decide)

theorem IsDecimal.not_isBlank {b : UInt8} (digit : IsDecimal b) : ¬ IsBlank b :=
  IsHexadecimal.not_isBlank (.inl digit)

def signs : List Bytes := [[], [plus], [minus]]

structure Exponent where
  mark : UInt8
  sign : Bytes
  digits : Bytes

def Exponent.text (e : Exponent) : Bytes := e.mark :: (e.sign ++ e.digits)

/-- What a numeral without sign is made of: digits, a point and digits, an exponent. -/
structure Parts where
  whole : Bytes
  places : Option Bytes
  exponent : Option Exponent

namespace Parts

def tail (p : Parts) : Bytes :=
  p.places.elim [] (point :: ·) ++ p.exponent.elim [] Exponent.text

def text (p : Parts) : Bytes := p.whole ++ p.tail

def digits (p : Parts) : Bytes := p.whole ++ p.places.getD []

end Parts

def Parts.Bare (p : Parts) : Prop := p.places = none ∧ p.exponent = none

structure Exponent.Formed (marks : List UInt8) (e : Exponent) : Prop where
  mark : e.mark ∈ marks
  sign : e.sign ∈ signs
  some : e.digits ≠ []
  digits : ∀ b ∈ e.digits, IsDecimal b

structure Parts.Formed (digit : UInt8 → Prop) (marks : List UInt8) (p : Parts) : Prop where
  some : p.digits ≠ []
  digits : ∀ b ∈ p.digits, digit b
  exponent : ∀ e ∈ p.exponent, e.Formed marks

theorem isBlank_iff (b : UInt8) : isBlank b = true ↔ IsBlank b := by
  simp [isBlank, IsBlank, or_assoc]

theorem isDigit_iff (base : Nat) (b : UInt8) : isDigit base b = true ↔
    48 ≤ b.toNat ∧ b.toNat ≤ 57 ∧ b.toNat < base + 48 ∨
    97 ≤ b.toNat ∧ b.toNat ≤ 122 ∧ b.toNat < base + 87 ∨
    65 ≤ b.toNat ∧ b.toNat ≤ 90 ∧ b.toNat < base + 55 := by
  simp only [isDigit, digit?]
  split
  next => simp; omega
  next =>
    split
    next => simp; omega
    next =>
      split
      next => simp; omega
      next => simp; omega

theorem isDigit_ten (b : UInt8) : isDigit 10 b = true ↔ IsDecimal b := by
  simp only [isDigit_iff, IsDecimal, UInt8.le_iff_toNat_le, UInt8.reduceToNat]
  omega

theorem isDigit_sixteen (b : UInt8) : isDigit 16 b = true ↔ IsHexadecimal b := by
  simp only [isDigit_iff, IsHexadecimal, IsDecimal, UInt8.le_iff_toNat_le, UInt8.reduceToNat]
  omega

section Splitting

variable {p : UInt8 → Bool} {s t front : Bytes}

theorem head?_dropWhile : ∀ b ∈ (s.dropWhile p).head?, ¬ p b = true := by
  intro b found
  have stops := List.head?_dropWhile_not p s
  rw [found] at stops
  simp [stops]

theorem dropWhile_eq (dropped : ∀ b ∈ front, p b = true) (stops : ∀ b ∈ t.head?, ¬ p b = true) :
    (front ++ t).dropWhile p = t := by
  rw [List.dropWhile_append_of_pos dropped]
  cases t with
  | nil => rfl
  | cons b t => exact List.dropWhile_cons_of_neg (stops b rfl)

theorem takeWhile_eq (taken : ∀ b ∈ front, p b = true) (stops : ∀ b ∈ t.head?, ¬ p b = true) :
    (front ++ t).takeWhile p = front := by
  rw [List.takeWhile_append_of_pos taken]
  cases t with
  | nil => simp
  | cons b t => simp [stops b rfl]

theorem span_eq {base : Nat} (digits : ∀ b ∈ front, isDigit base b = true)
    (stops : ∀ b ∈ t.head?, ¬ isDigit base b = true) : span base (front ++ t) = (front, t) := by
  rw [span, takeWhile_eq digits stops, dropWhile_eq digits stops]

theorem trim_eq (trims : Trims s t) : trim s = t := by
  obtain ⟨⟨front, back, rfl, blanks⟩, first, last⟩ := trims
  simp only [← isBlank_iff] at blanks first last
  have before : ∀ b ∈ front, isBlank b = true := fun b member => blanks b (by simp [member])
  have after : ∀ b ∈ back.reverse, isBlank b = true := fun b member => blanks b (by simp_all)
  rw [trim]
  cases t with
  | nil =>
    have all := dropWhile_eq (t := []) blanks (by simp)
    rw [List.append_nil] at all ⊢
    rw [all]
    rfl
  | cons c t =>
    rw [← List.head?_reverse] at last
    rw [List.append_assoc, dropWhile_eq (t := c :: t ++ back) before first, List.reverse_append,
      dropWhile_eq after last, List.reverse_reverse]

theorem trims_trim (s : Bytes) : Trims s (trim s) := by
  have split := s.takeWhile_append_dropWhile (p := isBlank)
  have split' := (s.dropWhile isBlank).reverse.takeWhile_append_dropWhile (p := isBlank)
  have ends : s.dropWhile isBlank =
      trim s ++ ((s.dropWhile isBlank).reverse.takeWhile isBlank).reverse := by
    rw [trim, ← List.reverse_append, split', List.reverse_reverse]
  refine ⟨⟨_, _, by rw [List.append_assoc, ← ends]; exact split.symm, ?_⟩, ?_, ?_⟩
  · intro b member
    rw [List.mem_append, List.mem_reverse] at member
    rcases member with front | back
    · exact (isBlank_iff b).1 (List.mem_takeWhile_imp front)
    · exact (isBlank_iff b).1 (List.mem_takeWhile_imp back)
  · intro b found blank
    have first := head?_dropWhile (p := isBlank) (s := s) b
    rw [ends, List.head?_append, Option.mem_def.1 found] at first
    exact first rfl ((isBlank_iff b).2 blank)
  · intro b found blank
    rw [trim, List.getLast?_reverse] at found
    exact head?_dropWhile b found ((isBlank_iff b).2 blank)

theorem trims_iff : Trims s t ↔ trim s = t :=
  ⟨trim_eq, fun same => same ▸ trims_trim s⟩

end Splitting

section Signs

variable {s sg : Bytes}

theorem sign_append (known : sg ∈ signs) (unsigned : ∀ b ∈ s.head?, b ≠ plus ∧ b ≠ minus) :
    sign (sg ++ s) = (decide (sg = [minus]), s) := by
  simp only [signs, List.mem_cons, List.not_mem_nil, or_false] at known
  rcases known with rfl | rfl | rfl
  · cases s with
    | nil => rfl
    | cons b s =>
      obtain ⟨positive, negative⟩ := unsigned b rfl
      simp [sign, positive, negative]
  · rfl
  · rfl

theorem sign_split (s : Bytes) :
    ∃ sg ∈ signs, s = sg ++ (sign s).2 ∧ (sign s).1 = decide (sg = [minus]) := by
  cases s with
  | nil => exact ⟨[], by simp [signs], rfl, rfl⟩
  | cons b s =>
    rw [sign]
    split
    next negative => exact ⟨[minus], by simp [signs], by simp [negative], rfl⟩
    next =>
      split
      next positive => exact ⟨[plus], by simp [signs], by simp [positive], rfl⟩
      next => exact ⟨[], by simp [signs], rfl, rfl⟩

theorem IsDecimal.unsigned {b : UInt8} (digit : IsDecimal b) : b ≠ plus ∧ b ≠ minus := by
  constructor
  all_goals
    rintro rfl
    exact absurd digit (by decide)

def Exponent.sized (size : Bytes → Nat) (e : Exponent) : Int :=
  Double.signed (decide (e.sign = [minus])) (size e.digits)

theorem exponent?_eq_some {size : Bytes → Nat} {n : Int} {mark : UInt8} {marks : List UInt8}
    (known : mark ∈ marks) : exponent? size s = some n ↔
      ∃ e : Exponent, e.Formed marks ∧ mark :: s = e.text ∧ n = e.sized size := by
  constructor
  · intro reads
    obtain ⟨sg, listed, split, negative⟩ := sign_split s
    unfold exponent? at reads
    dsimp only at reads
    split at reads
    next => cases reads
    next digits =>
      simp only [Bool.or_eq_true, Bool.not_eq_true', not_or, Bool.not_eq_true,
        Bool.not_eq_false, List.isEmpty_eq_false_iff, List.all_eq_true, isDigit_ten] at digits
      refine ⟨⟨mark, sg, (sign s).2⟩, ⟨known, listed, digits.1, digits.2⟩,
        congrArg (mark :: ·) split, ?_⟩
      rw [Exponent.sized, ← negative]
      exact (Option.some.inj reads).symm
  · rintro ⟨e, formed, text, rfl⟩
    obtain ⟨rfl, rfl⟩ := List.cons.inj text
    have unsigned : ∀ b ∈ e.digits.head?, b ≠ plus ∧ b ≠ minus := fun b found =>
      (formed.digits b (List.mem_of_mem_head? found)).unsigned
    have empty : e.digits.isEmpty = false := by simpa using formed.some
    have all : e.digits.all (isDigit 10) = true := by
      simpa only [List.all_eq_true, isDigit_ten] using formed.digits
    simp [exponent?, sign_append formed.sign unsigned, empty, all, Exponent.sized]

end Signs

section Bounded

variable {bound : Nat}

theorem appendDigit_mono {a b : Nat} (le : a ≤ b) (d : UInt8) :
    appendDigit a d ≤ appendDigit b d := by
  unfold appendDigit
  omega

theorem foldl_appendBelow_le {a b : Nat} (le : a ≤ b) (s : Bytes) :
    s.foldl (appendBelow bound) a ≤ s.foldl appendDigit b := by
  induction s generalizing a b with
  | nil => exact le
  | cons d s ih =>
    refine ih ?_
    unfold appendBelow
    split
    next => exact appendDigit_mono le d
    next =>
      have grows : b ≤ appendDigit b d := by
        unfold appendDigit
        omega
      exact le.trans grows

theorem naturalUpTo_lt_iff {s : Bytes} : naturalUpTo bound s < bound ↔ natural s < bound :=
  ⟨fun below => naturalUpTo_eq below ▸ below, (foldl_appendBelow_le le_rfl s).trans_lt⟩

theorem fits32_iff (n : Int) : fits32 n = true ↔ -2 ^ 31 ≤ n ∧ n < 2 ^ 31 := by
  simp [fits32]

-- An exponent whose digits were cut off is out of range either way.
theorem sized_naturalUpTo (e : Exponent) :
    e.sized (naturalUpTo (2 ^ 32)) = e.sized natural ∨
    ¬ fits32 (e.sized (naturalUpTo (2 ^ 32))) = true ∧ ¬ fits32 (e.sized natural) = true := by
  by_cases below : naturalUpTo (2 ^ 32) e.digits < 2 ^ 32
  · exact .inl (by rw [Exponent.sized, naturalUpTo_eq below, Exponent.sized])
  · refine .inr ?_
    have beyond : ¬ natural e.digits < 2 ^ 32 := mt naturalUpTo_lt_iff.2 below
    simp only [fits32_iff, Exponent.sized, Double.signed]
    split <;> omega

end Bounded

namespace Parts

variable {digit : UInt8 → Prop} {marks : List UInt8} {p : Parts}

theorem head?_exponent (formed : p.Formed digit marks) :
    ∀ b ∈ (p.exponent.elim [] Exponent.text).head?, b ∈ marks := by
  intro b found
  cases written : p.exponent with
  | none => simp [written] at found
  | some e =>
    obtain rfl : e.mark = b := by simpa [written, Exponent.text] using found
    exact (formed.exponent e written).mark

theorem head?_tail (formed : p.Formed digit marks) :
    ∀ b ∈ p.tail.head?, b = point ∨ b ∈ marks := by
  intro b found
  cases written : p.places with
  | none => exact .inr (head?_exponent formed b (by simpa [tail, written] using found))
  | some ds => exact .inl (by simpa [tail, written, eq_comm] using found)

theorem head?_text (formed : p.Formed digit marks) :
    ∀ b ∈ p.text.head?, digit b ∨ b = point := by
  intro b found
  cases whole : p.whole with
  | cons d ds =>
    obtain rfl : d = b := by simpa [text, whole] using found
    exact .inl (formed.digits d (by simp [digits, whole]))
  | nil =>
    cases places : p.places with
    | none => exact absurd (by simp [digits, whole, places]) formed.some
    | some ds => exact .inr (by simpa [text, tail, whole, places, eq_comm] using found)

theorem text_ne_nil (formed : p.Formed digit marks) : p.text ≠ [] := by
  intro empty
  simp only [text, List.append_eq_nil_iff] at empty
  cases places : p.places with
  | none => exact formed.some (by simp [digits, empty.1, places])
  | some ds => simp [tail, places] at empty

theorem Bare.text (bare : p.Bare) : p.text = p.digits := by
  simp [Parts.text, tail, digits, bare.1, bare.2]

theorem exists_bare {s : Bytes} : (∃ p : Parts, p.Formed digit marks ∧ p.Bare ∧ s = p.text) ↔
    s ≠ [] ∧ ∀ b ∈ s, digit b := by
  constructor
  · rintro ⟨p, formed, bare, rfl⟩
    rw [bare.text]
    exact ⟨formed.some, formed.digits⟩
  · rintro ⟨some, digits⟩
    have bare : Bare ⟨s, none, none⟩ := ⟨rfl, rfl⟩
    have all : Parts.digits ⟨s, none, none⟩ = s := List.append_nil s
    exact ⟨_, ⟨all.symm ▸ some, all.symm ▸ digits, by simp⟩, bare, by rw [bare.text, all]⟩

end Parts

end LuaMachine.Numeral
