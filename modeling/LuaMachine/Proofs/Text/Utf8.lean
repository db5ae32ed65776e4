import LuaMachine.Text.Utf8

set_option autoImplicit false

namespace LuaMachine.Utf8

theorem toNat_byte {n : Nat} (bound : n < 256) : (UInt8.ofNat n).toNat = n :=
  UInt8.toNat_ofNat_of_lt' bound

theorem isContinuation_byte (n : Nat) : isContinuation (.ofNat (n % 64 + 128)) = true := by
  have value : (UInt8.ofNat (n % 64 + 128)).toNat = n % 64 + 128 := toNat_byte (by omega)
  simp only [isContinuation, Bool.and_eq_true, decide_eq_true_eq, UInt8.le_iff_toNat_le, value,
    UInt8.reduceToNat]
  omega

theorem isSecond_byte {lead n : Nat} (bound : lead < 256)
    (shorter : lead = 0xE0 → 0x20 ≤ n % 64) (surrogate : lead = 0xED → n % 64 < 0x20)
    (shorter' : lead = 0xF0 → 0x10 ≤ n % 64) (last : lead = 0xF4 → n % 64 < 0x10) :
    isSecond (.ofNat lead) (.ofNat (n % 64 + 128)) = true := by
  have first := toNat_byte bound
  have second : (UInt8.ofNat (n % 64 + 128)).toNat = n % 64 + 128 := toNat_byte (by omega)
  have continues := isContinuation_byte n
  simp only [isSecond, ← UInt8.toNat_inj, UInt8.le_iff_toNat_le, first, second,
    UInt8.reduceToNat]
  split
  · simp only [Bool.and_eq_true, decide_eq_true_eq]
    omega
  split
  · simp only [Bool.and_eq_true, decide_eq_true_eq]
    omega
  split
  · simp only [Bool.and_eq_true, decide_eq_true_eq]
    omega
  split
  · simp only [Bool.and_eq_true, decide_eq_true_eq]
    omega
  · exact continues

section Items

variable {v : Nat} (rest : Bytes)

theorem item_one (high : v ≤ 127) : item (.ofNat v) rest = (some (.ofNat v), 0) := by
  have lead := toNat_byte (n := v) (by omega)
  have range : UInt8.ofNat v < 0x80 := by
    simp only [UInt8.lt_iff_toNat_lt, lead, UInt8.reduceToNat]
    omega
  simp [item, range, lead]

theorem item_two (low : 127 < v) (high : v ≤ 2047) :
    item (.ofNat (v / 64 % 32 + 192)) (.ofNat (v % 64 + 128) :: rest) = (some (.ofNat v), 1) := by
  have lead : (UInt8.ofNat (v / 64 % 32 + 192)).toNat = v / 64 % 32 + 192 := toNat_byte (by omega)
  have second : (UInt8.ofNat (v % 64 + 128)).toNat = v % 64 + 128 := toNat_byte (by omega)
  have joined : (v / 64 % 32 + 192) % 32 * 64 + (v % 64 + 128) % 64 = v := by omega
  unfold item
  rw [if_neg, if_pos]
  · simp only [isContinuation_byte, if_true, join, List.foldl_cons, List.foldl_nil, lead, second,
      joined]
  all_goals
    simp only [UInt8.lt_iff_toNat_lt, UInt8.le_iff_toNat_le, lead, UInt8.reduceToNat]
    omega

theorem item_three (low : 2047 < v) (high : v ≤ 65535) (valid : v.isValidChar) :
    item (.ofNat (v / 4096 % 16 + 224))
      (.ofNat (v / 64 % 64 + 128) :: .ofNat (v % 64 + 128) :: rest) = (some (.ofNat v), 2) := by
  have lead : (UInt8.ofNat (v / 4096 % 16 + 224)).toNat = v / 4096 % 16 + 224 :=
    toNat_byte (by omega)
  have second : (UInt8.ofNat (v / 64 % 64 + 128)).toNat = v / 64 % 64 + 128 :=
    toNat_byte (by omega)
  have third : (UInt8.ofNat (v % 64 + 128)).toNat = v % 64 + 128 := toNat_byte (by omega)
  have joined : ((v / 4096 % 16 + 224) % 16 * 64 + (v / 64 % 64 + 128) % 64) * 64 +
      (v % 64 + 128) % 64 = v := by omega
  have follows : isSecond (.ofNat (v / 4096 % 16 + 224)) (.ofNat (v / 64 % 64 + 128)) :=
    isSecond_byte (by omega) (by omega) (by unfold Nat.isValidChar at valid; omega) (by omega)
      (by omega)
  unfold item
  rw [if_neg, if_neg, if_pos]
  · simp only [follows, isContinuation_byte, if_true, join, List.foldl_cons, List.foldl_nil, lead,
      second, third, joined]
  all_goals
    simp only [UInt8.lt_iff_toNat_lt, UInt8.le_iff_toNat_le, lead, UInt8.reduceToNat]
    omega

theorem item_four (low : 65535 < v) (valid : v.isValidChar) :
    item (.ofNat (v / 262144 % 8 + 240)) (.ofNat (v / 4096 % 64 + 128) ::
      .ofNat (v / 64 % 64 + 128) :: .ofNat (v % 64 + 128) :: rest) = (some (.ofNat v), 3) := by
  unfold Nat.isValidChar at valid
  have lead : (UInt8.ofNat (v / 262144 % 8 + 240)).toNat = v / 262144 % 8 + 240 :=
    toNat_byte (by omega)
  have second : (UInt8.ofNat (v / 4096 % 64 + 128)).toNat = v / 4096 % 64 + 128 :=
    toNat_byte (by omega)
  have third : (UInt8.ofNat (v / 64 % 64 + 128)).toNat = v / 64 % 64 + 128 :=
    toNat_byte (by omega)
  have fourth : (UInt8.ofNat (v % 64 + 128)).toNat = v % 64 + 128 := toNat_byte (by omega)
  have joined : (((v / 262144 % 8 + 240) % 8 * 64 + (v / 4096 % 64 + 128) % 64) * 64 +
      (v / 64 % 64 + 128) % 64) * 64 + (v % 64 + 128) % 64 = v := by omega
  have follows : isSecond (.ofNat (v / 262144 % 8 + 240)) (.ofNat (v / 4096 % 64 + 128)) :=
    isSecond_byte (by omega) (by omega) (by omega) (by omega) (by omega)
  unfold item
  rw [if_neg, if_neg, if_neg, if_pos]
  · simp only [follows, isContinuation_byte, if_true, join, List.foldl_cons, List.foldl_nil, lead,
      second, third, fourth, joined]
  all_goals
    simp only [UInt8.lt_iff_toNat_lt, UInt8.le_iff_toNat_le, lead, UInt8.reduceToNat]
    omega

end Items

theorem item_encodeChar (c : Char) (rest : Bytes) : ∃ lead tail,
    String.utf8EncodeChar c = lead :: tail ∧ item lead (tail ++ rest) = (some c, tail.length) := by
  have valid : c.val.toNat.isValidChar := c.valid
  have value : Char.ofNat c.val.toNat = c := Char.ofNat_toNat c
  rw [String.utf8EncodeChar]
  generalize c.val.toNat = v at *
  subst value
  by_cases one : v ≤ 127
  · exact ⟨_, _, if_pos one, item_one rest one⟩
  by_cases two : v ≤ 2047
  · rw [if_neg one, if_pos two]
    exact ⟨_, _, rfl, item_two rest (by omega) two⟩
  by_cases three : v ≤ 65535
  · rw [if_neg one, if_neg two, if_pos three]
    exact ⟨_, _, rfl, item_three rest (by omega) three valid⟩
  · rw [if_neg one, if_neg two, if_neg three]
    exact ⟨_, _, rfl, item_four rest (by omega) valid⟩

theorem itemsFrom_append (skipped rest : Bytes) :
    itemsFrom skipped.length (skipped ++ rest) = itemsFrom 0 rest := by
  induction skipped with
  | nil => rfl
  | cons b skipped ih => simpa [itemsFrom] using ih

theorem items_encode (chars : List Char) :
    items (chars.flatMap String.utf8EncodeChar) = chars.map some := by
  induction chars with
  | nil => rfl
  | cons c chars ih =>
    obtain ⟨lead, tail, encoded, first⟩ :=
      item_encodeChar c (chars.flatMap String.utf8EncodeChar)
    rw [List.flatMap_cons, encoded, List.cons_append, items, itemsFrom, first]
    simp only [itemsFrom_append, List.map_cons]
    rw [← ih, items]

theorem encode_append (s t : String) : encode (s ++ t) = encode s ++ encode t := by
  rw [encode, String.toList_append, List.flatMap_append, encode, encode]

theorem decodeLossy_encode (s : String) : decodeLossy (encode s) = s := by
  have chars : (s.toList.map some).map (·.getD replacement) = s.toList := by
    simp [Function.comp_def]
  rw [decodeLossy, encode, items_encode, chars, String.ofList_toList]

theorem length_encodeChar_le (c : Char) : (String.utf8EncodeChar c).length ≤ 4 := by
  unfold String.utf8EncodeChar
  dsimp only
  split
  · simp
  split
  · simp
  split <;> simp

theorem length_encodeChar_ascii {b : UInt8} (ascii : b < 0x80) :
    (String.utf8EncodeChar (.ofNat b.toNat)).length = 1 := by
  have low : b.toNat < 128 := ascii
  have valid : b.toNat.isValidChar := .inl (by omega)
  have value : (Char.ofNat b.toNat).val.toNat = b.toNat := by
    rw [Char.ofNat, dif_pos valid]
    rfl
  unfold String.utf8EncodeChar
  rw [value, if_pos (by omega)]
  rfl

-- A character is written in at most three times as many bytes as it was read from.
theorem length_item (lead : UInt8) (rest : Bytes) :
    (item lead rest).2 ≤ rest.length ∧
      (String.utf8EncodeChar ((item lead rest).1.getD replacement)).length ≤
        3 * ((item lead rest).2 + 1) := by
  have most := length_encodeChar_le
  have unknown : (String.utf8EncodeChar replacement).length = 3 := by decide
  by_cases ascii : lead < 0x80
  · have one := length_encodeChar_ascii ascii
    simp [item, ascii, one]
  · unfold item
    rw [if_neg ascii]
    repeat' split
    all_goals grind

theorem length_itemsFrom (skip : Nat) (bs : Bytes) :
    (((itemsFrom skip bs).map (·.getD replacement)).flatMap String.utf8EncodeChar).length ≤
      3 * (bs.length - skip) := by
  induction bs generalizing skip with
  | nil => simp [itemsFrom]
  | cons b rest ih =>
    cases skip with
    | succ skip => simpa [itemsFrom] using ih skip
    | zero =>
      obtain ⟨inside, first⟩ := length_item b rest
      have others := ih (item b rest).2
      simp only [itemsFrom, List.map_cons, List.flatMap_cons, List.length_append, List.length_cons]
      omega

theorem length_decodeLossy (bs : Bytes) : (encode (decodeLossy bs)).length ≤ 3 * bs.length := by
  have whole := length_itemsFrom 0 bs
  rwa [← items, Nat.sub_zero, ← String.toList_ofList (l := (items bs).map _), ← decodeLossy,
    ← encode] at whole

end LuaMachine.Utf8
