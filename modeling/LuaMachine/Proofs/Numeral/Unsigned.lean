import LuaMachine.Proofs.Numeral.Parts

set_option autoImplicit false

namespace LuaMachine.Numeral

section Decimal

variable {s : Bytes} {p : Parts}

def decimalMarks : List UInt8 := [101, 69]

theorem not_isDecimal_mark {b : UInt8} (mark : b = point ∨ b ∈ decimalMarks) : ¬ IsDecimal b := by
  simp only [decimalMarks, List.mem_cons, List.not_mem_nil, or_false] at mark
  rcases mark with rfl | rfl | rfl <;> decide

theorem fraction_split (s : Bytes) : ∃ places : Option Bytes,
    s = places.elim [] (point :: ·) ++ (fraction s).2 ∧ (fraction s).1 = places.getD [] ∧
    ∀ b ∈ places.getD [], IsDecimal b := by
  cases s with
  | nil => exact ⟨none, rfl, rfl, by simp⟩
  | cons b s =>
    rw [fraction]
    split
    next same =>
      refine ⟨some (s.takeWhile (isDigit 10)), ?_, rfl, ?_⟩
      · simp [span, same]
      · exact fun d member => (isDigit_ten d).1 (List.mem_takeWhile_imp member)
    next => exact ⟨none, rfl, rfl, by simp⟩

theorem decimalScale?_isSome : (decimalScale? s).isSome ↔ ∃ exponent : Option Exponent,
    s = exponent.elim [] Exponent.text ∧ ∀ e ∈ exponent, e.Formed decimalMarks := by
  cases s with
  | nil => exact ⟨fun _ => ⟨none, rfl, by simp⟩, fun _ => rfl⟩
  | cons b s =>
    rw [decimalScale?, Option.isSome_iff_exists]
    constructor
    · rintro ⟨n, reads⟩
      split at reads
      next mark =>
        have known : b ∈ decimalMarks := by simpa [decimalMarks] using mark
        obtain ⟨e, formed, text, -⟩ := (exponent?_eq_some known).1 reads
        exact ⟨some e, text, by simpa using formed⟩
      next => cases reads
    · rintro ⟨_ | e, text, formed⟩
      · cases text
      · have mark : b ∈ decimalMarks := by
          obtain ⟨rfl, -⟩ := List.cons.inj text
          exact (formed e rfl).mark
        rw [if_pos (by simpa [decimalMarks] using mark)]
        exact ⟨_, (exponent?_eq_some mark).2 ⟨e, formed e rfl, text, rfl⟩⟩

theorem fraction_tail (formed : p.Formed IsDecimal decimalMarks) :
    fraction p.tail = (p.places.getD [], p.exponent.elim [] Exponent.text) := by
  have marks := p.head?_exponent formed
  cases written : p.places with
  | some ds =>
    have digits : ∀ b ∈ ds, isDigit 10 b = true := fun b member =>
      (isDigit_ten b).2 (formed.digits b (by simp [Parts.digits, written, member]))
    have stops : ∀ b ∈ (p.exponent.elim [] Exponent.text).head?, ¬ isDigit 10 b = true :=
      fun b found digit => not_isDecimal_mark (.inr (marks b found)) ((isDigit_ten b).1 digit)
    simp [Parts.tail, written, fraction, span_eq digits stops]
  | none =>
    simp only [Parts.tail, written, Option.elim_none, List.nil_append, Option.getD_none]
    cases text : p.exponent.elim [] Exponent.text with
    | nil => rfl
    | cons b rest =>
      have other : b ≠ point := by
        rintro rfl
        exact absurd (marks point (by simp [text])) (by decide)
      simp [fraction, other]

theorem unsigned_text (formed : p.Formed IsDecimal decimalMarks) :
    ∀ b ∈ p.text.head?, b ≠ plus ∧ b ≠ minus := by
  intro b found
  rcases p.head?_text formed b found with digit | rfl
  · exact digit.unsigned
  · decide

theorem float?_isSome : (float? s).isSome ↔
    ∃ sg ∈ signs, ∃ p : Parts, p.Formed IsDecimal decimalMarks ∧ s = sg ++ p.text := by
  have parts : (float? s).isSome ↔
      (span 10 (sign s).2).1 ++ (fraction (span 10 (sign s).2).2).1 ≠ [] ∧
      (decimalScale? (fraction (span 10 (sign s).2).2).2).isSome := by
    simp only [float?]
    split
    next empty => simp [List.isEmpty_iff.1 empty]
    next some =>
      rw [List.isEmpty_iff] at some
      simp [some]
  rw [parts]
  constructor
  · rintro ⟨some, scale⟩
    obtain ⟨sg, known, signed, -⟩ := sign_split s
    obtain ⟨places, fractional, same, digits⟩ := fraction_split (span 10 (sign s).2).2
    obtain ⟨exponent, last, formed⟩ := decimalScale?_isSome.1 scale
    rw [same] at some
    refine ⟨sg, known, ⟨(span 10 (sign s).2).1, places, exponent⟩, ⟨some, ?_, formed⟩, ?_⟩
    · intro b member
      rcases List.mem_append.1 member with whole | fraction
      · exact (isDigit_ten b).1 (List.mem_takeWhile_imp whole)
      · exact digits b fraction
    · rw [Parts.text, Parts.tail, ← last, ← fractional]
      simpa [span] using signed
  · rintro ⟨sg, known, p, formed, rfl⟩
    have digits : ∀ b ∈ p.whole, isDigit 10 b = true := fun b member =>
      (isDigit_ten b).2 (formed.digits b (by simp [Parts.digits, member]))
    have stops : ∀ b ∈ p.tail.head?, ¬ isDigit 10 b = true := fun b found digit =>
      not_isDecimal_mark (p.head?_tail formed b found) ((isDigit_ten b).1 digit)
    have whole : span 10 p.text = (p.whole, p.tail) := span_eq digits stops
    rw [sign_append known (unsigned_text formed), whole, fraction_tail formed]
    exact ⟨formed.some, decimalScale?_isSome.2 ⟨p.exponent, rfl, formed.exponent⟩⟩

theorem decimal?_eq_int {n : Int64} : decimal? s = some (.int n) ↔
    (s ≠ [] ∧ ∀ b ∈ s, IsDecimal b) ∧ natural s < 2 ^ 63 ∧ n = .ofNat (natural s) := by
  simp only [← isDigit_ten]
  unfold decimal?
  dsimp only
  split
  next empty => simp [List.isEmpty_iff.1 empty]
  next some =>
    rw [List.isEmpty_iff] at some
    split
    next digits =>
      simp only [Bool.and_eq_true, List.all_eq_true, decide_eq_true_iff] at digits
      rw [naturalUpTo_eq digits.2]
      have small := naturalUpTo_lt_iff.1 digits.2
      constructor
      · intro same
        exact ⟨⟨some, digits.1⟩, small, (Value.int.inj (Option.some.inj same)).symm⟩
      · rintro ⟨-, -, rfl⟩
        rfl
    next other =>
      constructor
      · intro reads
        obtain ⟨x, -, float⟩ := Option.map_eq_some_iff.1 reads
        cases float
      · rintro ⟨⟨-, digits⟩, small, -⟩
        exact absurd (by simpa using ⟨digits, naturalUpTo_lt_iff.2 small⟩) other

theorem decimal?_isSome : (decimal? s).isSome ↔
    ∃ sg ∈ signs, ∃ p : Parts, p.Formed IsDecimal decimalMarks ∧ s = sg ++ p.text := by
  rw [← float?_isSome]
  unfold decimal?
  dsimp only
  split
  next empty =>
    obtain rfl := List.isEmpty_iff.1 empty
    decide
  next some =>
    split
    next digits =>
      -- An integer would be a float just as well.
      simp only [Bool.and_eq_true, List.all_eq_true, isDigit_ten] at digits
      have bare : ∃ p : Parts, p.Formed IsDecimal decimalMarks ∧ p.Bare ∧ s = p.text :=
        Parts.exists_bare.2 ⟨by simpa using some, digits.1⟩
      obtain ⟨p, formed, -, text⟩ := bare
      simp [float?_isSome.2 ⟨[], by simp [signs], p, formed, text⟩]
    next => simp

end Decimal

section Hexadecimal

variable {s : Bytes} {p : Parts} {b : UInt8} {m : HexMantissa}

def hexMarks : List UInt8 := [112, 80]

theorem isHexExponent_iff : isHexExponent b = true ↔ b ∈ hexMarks := by
  simp [isHexExponent, hexMarks]

theorem IsHexadecimal.unmarked (hex : IsHexadecimal b) : b ≠ point ∧ b ∉ hexMarks := by
  constructor
  · rintro rfl
    exact absurd hex (by decide)
  · simp only [hexMarks, List.mem_cons, List.not_mem_nil, or_false]
    rintro (rfl | rfl) <;> exact absurd hex (by decide)

def Exponent.Fits (scale : Int) (e : Exponent) : Prop :=
  fits32 (e.sized natural) = true ∧ fits32 (scale + e.sized natural) = true

namespace Parts

def mantissa (p : Parts) : Bytes := p.whole ++ p.places.elim [] (point :: ·)

def scale (p : Parts) : Int := -(4 * (p.places.getD []).length)

def Fits (p : Parts) : Prop := fits32 p.scale = true ∧ ∀ e ∈ p.exponent, e.Fits p.scale

theorem Bare.fits {p : Parts} (bare : p.Bare) : p.Fits := by
  refine ⟨?_, by simp [bare.2]⟩
  rw [scale, bare.1]
  rfl

theorem text_eq (p : Parts) : p.text = p.mantissa ++ p.exponent.elim [] Exponent.text :=
  (List.append_assoc ..).symm

theorem mem_mantissa (p : Parts) (member : b ∈ p.mantissa) : b ∈ p.digits ∨ b = point := by
  cases written : p.places with
  | none => exact .inl (by simpa [mantissa, digits, written] using member)
  | some ds =>
    simp only [mantissa, digits, written, Option.elim_some, Option.getD_some, List.mem_append,
      List.mem_cons] at member ⊢
    rcases member with whole | same | places
    · exact .inl (.inl whole)
    · exact .inr same
    · exact .inl (.inr places)

end Parts

theorem push?_digit (hex : IsHexadecimal b) : ∃ x, m.push? b =
    if fits32 (if m.point then m.scale - 4 else m.scale) = true then
      some ⟨x, if m.point then m.scale - 4 else m.scale, m.point, true⟩ else none := by
  obtain ⟨d, value⟩ := Option.isSome_iff_exists.1 ((isDigit_sixteen b).2 hex)
  refine ⟨(m.value.mul (.ofInt 16)).add (.ofInt d), ?_⟩
  rw [HexMantissa.push?, if_neg hex.unmarked.1, value]
  generalize (if m.point then m.scale - 4 else m.scale) = scale
  dsimp only
  rw [Option.filter_some]
  split <;> rfl

-- Digits after the point make the scale no greater, so what has left 32 bits stays outside.
theorem foldlM_digits {ds : Bytes} (hex : ∀ b ∈ ds, IsHexadecimal b) (x : Double) {scale : Int}
    (fits : fits32 scale = true) (pointed digits : Bool) :
    ∃ y, ds.foldlM HexMantissa.push? ⟨x, scale, pointed, digits⟩ =
      if fits32 (if pointed then scale - 4 * ds.length else scale) = true then
        some ⟨y, if pointed then scale - 4 * ds.length else scale, pointed,
          digits || !ds.isEmpty⟩ else none := by
  induction ds generalizing x scale digits with
  | nil => exact ⟨x, by simp [fits]⟩
  | cons b ds ih =>
    obtain ⟨x', pushed⟩ := push?_digit (m := ⟨x, scale, pointed, digits⟩) (hex b (by simp))
    have after : ∀ b ∈ ds, IsHexadecimal b := fun b member => hex b (by simp [member])
    rw [List.foldlM_cons, pushed]
    cases pointed with
    | false =>
      obtain ⟨y, rest⟩ := ih after x' fits true
      refine ⟨y, ?_⟩
      simpa [fits] using rest
    | true =>
      have sum : scale - 4 * ((b :: ds).length : Int) = scale - 4 - 4 * ds.length := by
        simp only [List.length_cons]
        omega
      rw [sum]
      by_cases next : fits32 (scale - 4) = true
      · obtain ⟨y, rest⟩ := ih after x' next true
        refine ⟨y, ?_⟩
        simpa [next] using rest
      · have last : ¬ fits32 (scale - 4 - 4 * ds.length) = true := by
          simp only [fits32_iff] at fits next ⊢
          omega
        exact ⟨x, by simp [next, last]⟩

theorem mantissa_reads (hex : ∀ b ∈ p.digits, IsHexadecimal b) : ∃ x,
    p.mantissa.foldlM HexMantissa.push? .empty =
      if fits32 p.scale = true then some ⟨x, p.scale, p.places.isSome, !p.digits.isEmpty⟩
      else none := by
  have before : ∀ b ∈ p.whole, IsHexadecimal b := fun b member =>
    hex b (by simp [Parts.digits, member])
  have start : fits32 0 = true := rfl
  obtain ⟨x, whole⟩ := foldlM_digits before (.zero false) start false false
  cases written : p.places with
  | none =>
    refine ⟨x, ?_⟩
    simpa [Parts.mantissa, Parts.digits, Parts.scale, written, HexMantissa.empty, start] using whole
  | some ds =>
    have after : ∀ b ∈ ds, IsHexadecimal b := fun b member =>
      hex b (by simp [Parts.digits, written, member])
    obtain ⟨y, places⟩ := foldlM_digits after x start true !p.whole.isEmpty
    refine ⟨y, ?_⟩
    rw [Parts.mantissa, written, List.foldlM_append, HexMantissa.empty, whole]
    have either : (!(p.whole ++ ds).isEmpty) = (!p.whole.isEmpty || !ds.isEmpty) := by
      cases p.whole <;> rfl
    simpa [HexMantissa.push?, Parts.digits, Parts.scale, written, either, start] using places

theorem push?_eq_some {m' : HexMantissa} (pushed : m.push? b = some m') :
    b = point ∧ m.point = false ∧ m'.point = true ∨ IsHexadecimal b ∧ m'.point = m.point := by
  unfold HexMantissa.push? at pushed
  split at pushed
  next same =>
    split at pushed
    next => cases pushed
    next first =>
      cases pushed
      exact .inl ⟨same, by simpa using first, rfl⟩
  next =>
    obtain ⟨d, value, rfl⟩ := Option.map_eq_some_iff.1 pushed
    have digit := (Option.filter_eq_some_iff.1 value).1
    exact .inr ⟨(isDigit_sixteen b).1 (Option.isSome_iff_exists.2 ⟨d, digit⟩), rfl⟩

-- After the point there are digits only.
theorem mantissa_split {m' : HexMantissa} (reads : s.foldlM HexMantissa.push? m = some m') :
    ∃ whole, ∃ places : Option Bytes, s = whole ++ places.elim [] (point :: ·) ∧
      (∀ b ∈ whole ++ places.getD [], IsHexadecimal b) ∧ (m.point = true → places = none) := by
  induction s generalizing m with
  | nil => exact ⟨[], none, rfl, by simp, fun _ => rfl⟩
  | cons b s ih =>
    rw [List.foldlM_cons] at reads
    obtain ⟨next, pushed, rest⟩ := Option.bind_eq_some_iff.1 reads
    obtain ⟨whole, places, rfl, hex, once⟩ := ih rest
    rcases push?_eq_some pushed with ⟨rfl, first, pointed⟩ | ⟨digit, same⟩
    · obtain rfl := once pointed
      exact ⟨[], some whole, by simp, by simpa using hex, by simp [first]⟩
    · refine ⟨b :: whole, places, rfl, ?_, fun pointed => once (same ▸ pointed)⟩
      simpa using ⟨digit, by simpa using hex⟩

theorem hexScale?_isSome {scale : Int} {e : Exponent} (formed : e.Formed hexMarks) :
    (hexScale? scale e.text).isSome ↔ e.Fits scale := by
  have reads : exponent? (naturalUpTo (2 ^ 32)) (e.sign ++ e.digits) = some (e.sized _) :=
    (exponent?_eq_some formed.mark).2 ⟨e, formed, rfl, rfl⟩
  have fits : (hexScale? scale e.text).isSome ↔
      fits32 (e.sized (naturalUpTo (2 ^ 32))) = true ∧
      fits32 (scale + e.sized (naturalUpTo (2 ^ 32))) = true := by
    rw [Exponent.text, hexScale?, reads]
    simp only [Option.filter_some]
    split
    next inside =>
      rw [Option.bind_eq_bind, Option.bind_some]
      split
      next sum => simp [inside, sum]
      next sum => simp [sum]
    next outside => simp [outside]
  rw [fits, Exponent.Fits]
  rcases sized_naturalUpTo e with same | ⟨cut, whole⟩
  · rw [same]
  · simp [cut, whole]

theorem hexScale?_split {scale : Int} (marked : ∀ b ∈ s.head?, b ∈ hexMarks)
    (reads : (hexScale? scale s).isSome = true) :
    ∃ exponent : Option Exponent, s = exponent.elim [] Exponent.text ∧
      ∀ e ∈ exponent, e.Formed hexMarks := by
  cases s with
  | nil => exact ⟨none, rfl, by simp⟩
  | cons b s =>
    obtain ⟨n, reads⟩ := Option.isSome_iff_exists.1 reads
    obtain ⟨e, kept, -⟩ := Option.bind_eq_some_iff.1 reads
    obtain ⟨e, formed, text, -⟩ :=
      (exponent?_eq_some (marked b rfl)).1 (Option.filter_eq_some_iff.1 kept).1
    exact ⟨some e, text, by simpa using formed⟩

theorem hexFloat?_isSome_iff : (hexFloat? s).isSome ↔
    ∃ m, (s.takeWhile (!isHexExponent ·)).foldlM HexMantissa.push? .empty = some m ∧
      m.digits = true ∧ (hexScale? m.scale (s.dropWhile (!isHexExponent ·))).isSome := by
  unfold hexFloat?
  cases (s.takeWhile (!isHexExponent ·)).foldlM HexMantissa.push? .empty with
  | none => simp
  | some m => cases digits : m.digits <;> simp [digits]

theorem hexFloat?_text (formed : p.Formed IsHexadecimal hexMarks) :
    (hexFloat? p.text).isSome ↔ p.Fits := by
  have before : ∀ b ∈ p.mantissa, (!isHexExponent b) = true := by
    intro b member
    have unmarked : b ∉ hexMarks := by
      rcases p.mem_mantissa member with digit | rfl
      · exact (formed.digits b digit).unmarked.2
      · decide
    simpa [← isHexExponent_iff] using unmarked
  have stops : ∀ b ∈ (p.exponent.elim [] Exponent.text).head?, ¬ (!isHexExponent b) = true := by
    intro b found
    simpa [isHexExponent_iff] using p.head?_exponent formed b found
  obtain ⟨x, reads⟩ := mantissa_reads formed.digits
  have some : (!p.digits.isEmpty) = true := by simpa using formed.some
  rw [hexFloat?_isSome_iff, p.text_eq, takeWhile_eq before stops, dropWhile_eq before stops, reads]
  split
  next scaled =>
    simp only [Option.some.injEq, exists_eq_left', some, true_and]
    cases written : p.exponent with
    | none => simp [hexScale?, Parts.Fits, written, scaled]
    | some e =>
      simpa [Parts.Fits, written, scaled] using hexScale?_isSome (formed.exponent e written)
  next beyond => simp [Parts.Fits, beyond]

theorem hexFloat?_isSome : (hexFloat? s).isSome ↔
    ∃ p : Parts, p.Formed IsHexadecimal hexMarks ∧ p.Fits ∧ s = p.text := by
  constructor
  · intro reads
    obtain ⟨m, mantissa, digits, scale⟩ := hexFloat?_isSome_iff.1 reads
    obtain ⟨whole, places, front, hex, -⟩ := mantissa_split mantissa
    have marked : ∀ b ∈ (s.dropWhile (!isHexExponent ·)).head?, b ∈ hexMarks := fun b found => by
      simpa [isHexExponent_iff] using head?_dropWhile b found
    obtain ⟨exponent, back, formed⟩ := hexScale?_split marked scale
    let p : Parts := ⟨whole, places, exponent⟩
    have text : s = p.text := by
      rw [p.text_eq, Parts.mantissa, ← front, ← back, List.takeWhile_append_dropWhile]
    have some : p.digits ≠ [] := by
      obtain ⟨x, counted⟩ := mantissa_reads (p := p) hex
      rw [Parts.mantissa, ← front, mantissa] at counted
      split at counted
      next =>
        cases counted
        simpa using digits
      next => cases counted
    have known : p.Formed IsHexadecimal hexMarks := ⟨some, hex, formed⟩
    exact ⟨p, known, (hexFloat?_text known).1 (text ▸ reads), text⟩
  · rintro ⟨p, formed, fits, rfl⟩
    exact (hexFloat?_text formed).2 fits

theorem word?_isSome {base : Nat} : (word? base s).isSome ↔ ∀ b ∈ s, isDigit base b = true := by
  unfold word?
  generalize (0 : Int64) = acc
  induction s generalizing acc with
  | nil => simp
  | cons b s ih =>
    rw [List.foldlM_cons, List.forall_mem_cons, isDigit]
    cases digit? base b with
    | none => simp
    | some d => simpa using ih _

theorem marked_iff (formed : p.Formed IsHexadecimal hexMarks) :
    (p.text.any fun b => b == point || isHexExponent b) = true ↔ ¬ p.Bare := by
  constructor
  · intro marked bare
    obtain ⟨b, member, mark⟩ := List.any_eq_true.1 marked
    have unmarked := (formed.digits b (bare.text ▸ member)).unmarked
    simp [isHexExponent_iff, unmarked] at mark
  · intro parts
    rw [List.any_eq_true]
    cases written : p.places with
    | some ds => exact ⟨point, by simp [Parts.text, Parts.tail, written], by simp⟩
    | none =>
      obtain ⟨e, found⟩ := Option.ne_none_iff_exists'.1 fun none => parts ⟨written, none⟩
      have mark := (formed.exponent e found).mark
      exact ⟨e.mark, by simp [Parts.text, Parts.tail, found, Exponent.text],
        by simp [isHexExponent_iff, mark]⟩

theorem hexadecimal?_bare (formed : p.Formed IsHexadecimal hexMarks) (bare : p.Bare) :
    ∃ n, hexadecimal? p.text = some (.int n) := by
  have unmarked := mt (marked_iff formed).1 (not_not_intro bare)
  have digits : ∀ b ∈ p.text, isDigit 16 b = true := fun b member =>
    (isDigit_sixteen b).2 (formed.digits b (bare.text ▸ member))
  obtain ⟨n, word⟩ := Option.isSome_iff_exists.1 (word?_isSome.2 digits)
  exact ⟨n, by simp [hexadecimal?, unmarked, p.text_ne_nil formed, word]⟩

theorem hexadecimal?_text (formed : p.Formed IsHexadecimal hexMarks) :
    (hexadecimal? p.text).isSome ↔ p.Fits := by
  by_cases bare : p.Bare
  · obtain ⟨n, word⟩ := hexadecimal?_bare formed bare
    simp [word, bare.fits]
  · rw [hexadecimal?, if_pos ((marked_iff formed).2 bare), Option.isSome_map, hexFloat?_text formed]

theorem hexadecimal?_unmarked (reads : (hexadecimal? s).isSome = true)
    (unmarked : ¬ (s.any fun b => b == point || isHexExponent b) = true) :
    ∃ p : Parts, p.Formed IsHexadecimal hexMarks ∧ p.Bare ∧ s = p.text := by
  rw [hexadecimal?, if_neg unmarked] at reads
  split at reads
  next => cases reads
  next some =>
    rw [Option.isSome_map] at reads
    exact Parts.exists_bare.2 ⟨by simpa using some, fun b member =>
      (isDigit_sixteen b).1 (word?_isSome.1 reads b member)⟩

theorem hexadecimal?_int : (∃ n, hexadecimal? s = some (.int n)) ↔
    ∃ p : Parts, p.Formed IsHexadecimal hexMarks ∧ p.Bare ∧ s = p.text := by
  constructor
  · rintro ⟨n, reads⟩
    refine hexadecimal?_unmarked (by simp [reads]) fun marked => ?_
    rw [hexadecimal?, if_pos marked] at reads
    obtain ⟨x, -, other⟩ := Option.map_eq_some_iff.1 reads
    cases other
  · rintro ⟨p, formed, bare, rfl⟩
    exact hexadecimal?_bare formed bare

theorem hexadecimal?_isSome : (hexadecimal? s).isSome ↔
    ∃ p : Parts, p.Formed IsHexadecimal hexMarks ∧ p.Fits ∧ s = p.text := by
  constructor
  · intro reads
    by_cases marked : (s.any fun b => b == point || isHexExponent b) = true
    · rw [hexadecimal?, if_pos marked, Option.isSome_map] at reads
      exact hexFloat?_isSome.1 reads
    · obtain ⟨p, formed, bare, text⟩ := hexadecimal?_unmarked reads marked
      exact ⟨p, formed, bare.fits, text⟩
  · rintro ⟨p, formed, fits, rfl⟩
    exact (hexadecimal?_text formed).2 fits

end Hexadecimal

end LuaMachine.Numeral
