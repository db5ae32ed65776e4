import LuaMachine.Proofs.Table.Entries

set_option autoImplicit false

namespace LuaMachine

theorem Value.isNil_eq (v : Value) : v.isNil = decide (v = .nil) := by
  cases v <;> simp [isNil]

def Value.held? (v : Value) : Option Value := if v.isNil then none else some v

def Key.Normal (k : Key) : Prop := Key.ofValue k.toValue = .ok k

theorem Key.normal_int (n : Int64) : (int n).Normal := rfl

theorem Key.normal_str (s : Bytes) : (str s).Normal := rfl

theorem Key.normal_ofValue {v : Value} {k : Key} (valid : Key.ofValue v = .ok k) : k.Normal := by
  cases v with
  | nil => cases valid
  | float x =>
    simp only [ofValue] at valid
    split at valid
    · cases valid
    next number =>
      split at valid
      · cases valid
        rfl
      next fractional =>
        cases valid
        simp [Normal, toValue, ofValue, number, fractional]
  | _ =>
    cases valid
    rfl

theorem Key.fractional_of_normal {x : Double} (normal : (float x).Normal) :
    ¬ x.isNaN ∧ x.toInt64? = none := by
  simp only [Normal, toValue, ofValue] at normal
  split at normal
  · cases normal
  next number =>
    split at normal
    · cases normal
    next fractional => exact ⟨number, fractional⟩

theorem Key.normal_position? {k : Key} {i : Nat} (place : k.position? = some i) : k.Normal := by
  rw [(position?_eq_some.1 place).1]
  exact normal_int _

namespace Table

-- The value of a key in the part that holds it.
def find? (t : Table) (k : Key) : Option Value :=
  (k.position?.bind (t.array[·]?)).or (t.hash.lookup k)

theorem getKey_eq (t : Table) (k : Key) : t.getKey k = (t.find? k).getD .nil := by
  cases k with
  | int n =>
    by_cases positive : 1 ≤ n
    · cases found : t.array[n.toNatClampNeg - 1]? <;>
        simp [getKey, slot?, getHash, find?, Key.position?, positive, found]
    · simp [getKey, slot?, getHash, find?, Key.position?, positive]
  | _ => simp [getKey, getHash, find?, Key.position?]

structure Sound (t : Table) : Prop where
  size : t.array.size < 2 ^ 63
  array : ∀ i : Nat, t.array[i]? ≠ some .nil
  values : ∀ k, t.hash.lookup k ≠ some .nil
  distinct : (t.hash.map Prod.fst).Nodup
  normal : ∀ k, t.hash.lookup k ≠ none → k.Normal
  apart : ∀ k i, k.position? = some i → i < t.array.size → t.hash.lookup k = none

/-- And no key of the hash part continues the array part. -/
structure Canonical (t : Table) : Prop extends Sound t where
  border : ∀ k, k.position? = some t.array.size → t.hash.lookup k = none

variable {t : Table} {k : Key} {v : Value} {i : Nat}

theorem find?_at (place : k.position? = some i) :
    t.find? k = (t.array[i]?).or (t.hash.lookup k) := by
  simp [find?, place]

theorem find?_hash (beyond : ∀ i, k.position? = some i → t.array.size ≤ i) :
    t.find? k = t.hash.lookup k := by
  cases place : k.position? with
  | none => simp [find?, place]
  | some i => simp [find?, place, beyond i place]

theorem Sound.lookup_iff (sound : t.Sound) : t.hash.lookup k = some v ↔
    t.find? k = some v ∧ ∀ i, k.position? = some i → t.array.size ≤ i := by
  constructor
  · intro found
    have beyond : ∀ i, k.position? = some i → t.array.size ≤ i := by
      intro i place
      by_contra inside
      simp [sound.apart k i place (by omega)] at found
    exact ⟨find?_hash beyond ▸ found, beyond⟩
  · rintro ⟨found, beyond⟩
    exact find?_hash beyond ▸ found

/-- What a write does: the key has the value, all others keep theirs, and the traversal in progress
ends where a key is added. -/
structure Puts (t : Table) (k : Key) (v : Value) (t' : Table) : Prop where
  canonical : t'.Canonical
  find : ∀ k', t'.find? k' = if k' = k then v.held? else t.find? k'
  order : t'.order = if v = .nil ∨ t.find? k ≠ none then t.order else none

theorem find?_array {t' : Table} (place : k.position? = some i) (free : t.hash.lookup k = none)
    (hash : t'.hash = t.hash) (here : t'.array[i]? = v.held?)
    (elsewhere : ∀ j, j ≠ i → t'.array[j]? = t.array[j]?) (k' : Key) :
    t'.find? k' = if k' = k then v.held? else t.find? k' := by
  by_cases same : k' = k
  · rw [if_pos same, same, find?_at place, hash, free, here, Option.or_none]
  · rw [if_neg same]
    cases place' : k'.position? with
    | none => simp [find?, place', hash]
    | some j =>
      rw [find?_at place', find?_at place', hash, elsewhere j (Key.position?_ne same place place')]

theorem puts_set (canonical : t.Canonical) (place : k.position? = some i)
    (inside : i < t.array.size) (present : v ≠ .nil) :
    Puts t k v { t with array := t.array.setIfInBounds i v } := by
  have free := canonical.apart k i place inside
  have held : v.held? = some v := by simp [Value.held?, Value.isNil_eq, present]
  refine ⟨⟨⟨?_, ?_, canonical.values, canonical.distinct, canonical.normal, ?_⟩, ?_⟩, ?_, ?_⟩
  · simpa using canonical.size
  · intro j
    rw [Array.getElem?_setIfInBounds]
    split
    · simp [present]
    · exact canonical.array j
  · simpa using canonical.apart
  · simpa using canonical.border
  · refine find?_array place free rfl ?_ ?_
    · simp [held, inside]
    · intro j other
      simp [other.symm]
  · simp [find?_at place, inside]

section Spilling

-- The values of an array part from position `n` on, moved to the hash part.
def spill (n : Nat) (values : List Value) (hash : List (Key × Value)) : List (Key × Value) :=
  (numbered (n + 1) values).foldl (fun hash (k, v) => upsert k v hash) hash

theorem spill_cons (n : Nat) (w : Value) (values : List Value) (hash : List (Key × Value)) :
    spill n (w :: values) hash = spill (n + 1) values (upsert (.ofPosition n) w hash) := by
  have rest : numbered (n + 1) (w :: values) =
      (.ofPosition n, w) :: numbered (n + 1 + 1) values := by
    simp only [numbered, List.zipIdx_cons, List.map_cons, List.zipIdx_succ, List.map_map]
    congr 1
    apply List.map_congr_left
    intro entry _
    simp only [Function.comp]
    rw [Nat.add_comm entry.2 1, ← Nat.add_assoc]
  rw [spill, rest]
  rfl

theorem lookup_spill (values : List Value) (n : Nat) (bound : n + values.length < 2 ^ 63)
    (hash : List (Key × Value)) :
    (spill n values hash).lookup k =
      (k.position?.bind fun j => if n ≤ j then values[j - n]? else none).or (hash.lookup k) := by
  induction values generalizing n hash with
  | nil => cases k.position? <;> simp [spill, numbered]
  | cons w values ih =>
    rw [List.length_cons] at bound
    rw [spill_cons, ih (n + 1) (by omega), lookup_upsert]
    have first : (Key.ofPosition n).position? = some n := Key.position?_ofPosition (by omega)
    by_cases here : k = .ofPosition n
    · subst here
      simp only [first, Option.bind_some, if_neg (Nat.not_succ_le_self n), if_pos (Nat.le_refl n),
        Nat.sub_self, List.getElem?_cons_zero, Option.none_or, if_true, Option.some_or]
    · cases place : k.position? with
      | none => simp [here]
      | some j =>
        have other := Key.position?_ne here first place
        rw [if_neg here]
        by_cases above : n + 1 ≤ j
        · have next : j - n = j - (n + 1) + 1 := by omega
          simp only [Option.bind_some, if_pos above, if_pos (Nat.le_of_succ_le above), next,
            List.getElem?_cons_succ]
        · have below : ¬ n ≤ j := by omega
          simp only [Option.bind_some, if_neg above, if_neg below]

theorem nodup_spill (values : List Value) (n : Nat) {hash : List (Key × Value)}
    (distinct : (hash.map Prod.fst).Nodup) : ((spill n values hash).map Prod.fst).Nodup := by
  induction values generalizing n hash with
  | nil => exact distinct
  | cons w values ih =>
    rw [spill_cons]
    exact ih (n + 1) (nodup_upsert _ _ distinct)

theorem size_removeSlot (inside : i < t.array.size) : (t.removeSlot i).array.size = i := by
  have fits : min i t.array.size = i := by omega
  simp [removeSlot, fits]

theorem getElem?_removeSlot (inside : i < t.array.size) (j : Nat) :
    (t.removeSlot i).array[j]? = if j < i then t.array[j]? else none := by
  have fits : min i t.array.size = i := by omega
  simp [removeSlot, Array.getElem?_extract, fits]

theorem lookup_removeSlot (bound : t.array.size < 2 ^ 63) (inside : i < t.array.size) :
    (t.removeSlot i).hash.lookup k =
      (k.position?.bind fun j => if i < j then t.array[j]? else none).or (t.hash.lookup k) := by
  have hash : (t.removeSlot i).hash = spill (i + 1) (t.array.toList.drop (i + 1)) t.hash := rfl
  rw [hash, lookup_spill _ _ (by simp; omega)]
  congr 2
  funext j
  split
  next above => simp [show i < j from above, show i + 1 + (j - (i + 1)) = j by omega]
  next below => simp [show ¬ i < j from below]

theorem find?_removeSlot (canonical : t.Canonical) (place : k.position? = some i)
    (inside : i < t.array.size) (k' : Key) :
    (t.removeSlot i).find? k' = if k' = k then none else t.find? k' := by
  have lookup := lookup_removeSlot (k := k') canonical.size inside
  cases place' : k'.position? with
  | none =>
    have other : k' ≠ k := by
      rintro rfl
      simp [place] at place'
    simp [find?, lookup, place', other]
  | some j =>
    rw [find?_at place', find?_at place', getElem?_removeSlot inside, lookup, place']
    by_cases same : j = i
    · subst same
      simp [Key.position?_inj place' place, canonical.apart k j place inside]
    · have other : k' ≠ k := by
        rintro rfl
        exact same (by simpa [place] using place'.symm)
      by_cases below : j < i
      · have lower : ¬ i < j := by omega
        simp [other, below, lower]
      · have above : i < j := by omega
        simp [other, below, above]

-- What the hash part holds afterwards was in one of the parts before.
theorem found_removeSlot (bound : t.array.size < 2 ^ 63) (inside : i < t.array.size)
    (found : (t.removeSlot i).hash.lookup k = some v) :
    (∃ j, k.position? = some j ∧ t.array[j]? = some v) ∨ t.hash.lookup k = some v := by
  rw [lookup_removeSlot bound inside, Option.or_eq_some_iff] at found
  rcases found with moved | ⟨-, kept⟩
  · obtain ⟨j, place, moved⟩ := Option.bind_eq_some_iff.1 moved
    split at moved
    · exact .inl ⟨j, place, moved⟩
    · cases moved
  · exact .inr kept

theorem puts_removeSlot (canonical : t.Canonical) (place : k.position? = some i)
    (inside : i < t.array.size) : Puts t k .nil (t.removeSlot i) := by
  have bound := canonical.size
  refine ⟨⟨⟨?_, ?_, ?_, nodup_spill _ _ canonical.distinct, ?_, ?_⟩, ?_⟩, ?_, ?_⟩
  · rw [size_removeSlot inside]
    omega
  · intro j
    rw [getElem?_removeSlot inside]
    split
    · exact canonical.array j
    · simp
  · intro k' found
    rcases found_removeSlot bound inside found with ⟨j, -, moved⟩ | kept
    · exact canonical.array j moved
    · exact canonical.values k' kept
  · intro k' found
    obtain ⟨w, found⟩ := Option.ne_none_iff_exists'.1 found
    rcases found_removeSlot bound inside found with ⟨j, place', -⟩ | kept
    · exact Key.normal_position? place'
    · exact canonical.normal k' (by simp [kept])
  · intro k' j place' below
    rw [size_removeSlot inside] at below
    have lower : ¬ i < j := by omega
    simp [lookup_removeSlot bound inside, place', lower, canonical.apart k' j place' (by omega)]
  · intro k' place'
    rw [size_removeSlot inside] at place'
    simp [lookup_removeSlot bound inside, place', canonical.apart k' i place' inside]
  · exact find?_removeSlot canonical place inside
  · simp [removeSlot]

-- Without anything above it to move, the last place is dropped.
theorem removeSlot_last (last : i + 1 = t.array.size) :
    t.removeSlot i = { t with array := t.array.pop } := by
  have array : t.array.take i = t.array.pop := by
    simp [← Array.extract_eq_pop, ← last]
  have above : t.array.toList.drop (i + 1) = [] := by simp [last]
  rw [removeSlot, array, above]
  rfl

end Spilling

section Absorbing

theorem successor?_eq_some (bound : t.array.size < 2 ^ 63) :
    t.successor? = some k ↔ k.position? = some t.array.size := by
  rw [Key.position?_eq_some, successor?]
  by_cases last : t.array.size + 1 = 2 ^ 63
  · have wrapped : ¬ (1 : Int64) ≤ .ofNat (t.array.size + 1) := by
      rw [last]
      decide
    rw [if_neg wrapped]
    simp [last]
  · have more : t.array.size + 1 < 2 ^ 63 := by omega
    simp only [if_pos (Key.one_le_ofNat more), more, and_true, Option.some.injEq]
    exact eq_comm

theorem absorb_step (sound : t.Sound) (place : k.position? = some t.array.size)
    (found : t.hash.lookup k = some v) :
    let t' := { t with array := t.array.push v, hash := remove k t.hash }
    t'.Sound ∧ ∀ k', t'.find? k' = t.find? k' := by
  have lookup (k' : Key) := lookup_remove k k' sound.distinct
  have shrinks {k' : Key} (found' : (remove k t.hash).lookup k' ≠ none) :
      (remove k t.hash).lookup k' = t.hash.lookup k' := by
    rw [lookup] at found' ⊢
    split at found' <;> simp_all
  refine ⟨⟨?_, ?_, ?_, nodup_remove k sound.distinct, ?_, ?_⟩, ?_⟩
  · simpa using (Key.position?_eq_some.1 place).2
  · intro j
    rw [Array.getElem?_push]
    split
    · rintro ⟨⟩
      exact sound.values k found
    · exact sound.array j
  · intro k' nothing
    rw [shrinks (by simp [nothing])] at nothing
    exact sound.values k' nothing
  · intro k' found'
    exact sound.normal k' (shrinks found' ▸ found')
  · intro k' j place' inside
    rw [lookup]
    split
    · rfl
    next other =>
      have elsewhere := Key.position?_ne other place place'
      rw [Array.size_push] at inside
      exact sound.apart k' j place' (by omega)
  · intro k'
    by_cases same : k' = k
    · rw [same, find?_at place, find?_at place, found]
      simp
    · cases place' : k'.position? with
      | none => simp [find?, place', lookup, same]
      | some j =>
        have elsewhere := Key.position?_ne same place place'
        rw [find?_at place', find?_at place', Array.getElem?_push, if_neg elsewhere, lookup,
          if_neg same]

theorem absorb_canonical (sound : t.Sound) (fuel : Nat) (enough : t.hash.length ≤ fuel) :
    (absorb fuel t).Canonical ∧ (∀ k, (absorb fuel t).find? k = t.find? k) ∧
      (absorb fuel t).order = t.order := by
  induction fuel generalizing t with
  | zero =>
    have empty : t.hash = [] := List.length_eq_zero_iff.1 (Nat.le_zero.1 enough)
    rw [absorb]
    exact ⟨⟨sound, fun k _ => by simp [empty]⟩, fun k => rfl, rfl⟩
  | succ fuel ih =>
    have next := @successor?_eq_some t
    rw [absorb]
    split
    next last =>
      refine ⟨⟨sound, fun k place => ?_⟩, fun k => rfl, rfl⟩
      have successor := (next sound.size).2 place
      simp [last] at successor
    next k successor =>
      have place := (next sound.size).1 successor
      split
      next free =>
        refine ⟨⟨sound, fun k' place' => ?_⟩, fun k => rfl, rfl⟩
        rwa [Key.position?_inj place' place]
      next v found =>
        obtain ⟨sound', same⟩ := absorb_step sound place found
        have fewer := length_remove k v found
        obtain ⟨canonical, find, order⟩ := ih sound' (by simp; omega)
        exact ⟨canonical, fun k' => (find k').trans (same k'), order⟩

theorem puts_append (canonical : t.Canonical) (place : k.position? = some t.array.size)
    (present : v ≠ .nil) : Puts t k v (t.append v) := by
  have free := canonical.border k place
  have held : v.held? = some v := by simp [Value.held?, Value.isNil_eq, present]
  let grown : Table := { t with array := t.array.push v, order := none }
  have sound : grown.Sound := by
    refine ⟨?_, ?_, canonical.values, canonical.distinct, canonical.normal, ?_⟩
    · simpa [grown] using (Key.position?_eq_some.1 place).2
    · intro j
      rw [Array.getElem?_push]
      split
      · simpa using present
      · exact canonical.array j
    · intro k' j place' inside
      by_cases last : j = t.array.size
      · exact canonical.border k' (last ▸ place')
      · rw [Array.size_push] at inside
        exact canonical.apart k' j place' (by omega)
  obtain ⟨canonical', find, order⟩ := absorb_canonical sound _ (Nat.le_refl _)
  refine ⟨canonical', fun k' => ?_, ?_⟩
  · rw [append, find]
    refine find?_array place free (rfl : grown.hash = t.hash) ?_ (fun j other => ?_) k'
    · simp [grown, held]
    · simp [grown, Array.getElem?_push, other]
  · rw [append, order]
    simp [grown, present, find?_at place, free]

end Absorbing

theorem puts_hash (canonical : t.Canonical) (normal : k.Normal)
    (beyond : ∀ i, k.position? = some i → t.array.size ≤ i)
    (border : k.position? = some t.array.size → v = .nil) : Puts t k v (t.putHash k v) := by
  have array : (t.putHash k v).array = t.array := by
    unfold putHash
    split <;> rfl
  have lookup (k' : Key) : (t.putHash k v).hash.lookup k' =
      if k' = k then v.held? else t.hash.lookup k' := by
    by_cases absent : v.isNil
    · simp [putHash, Value.held?, absent, lookup_remove k k' canonical.distinct]
    · simp [putHash, Value.held?, absent, lookup_upsert]
  have held : v.held? ≠ some .nil := by
    unfold Value.held?
    split <;> simp_all [Value.isNil_eq]
  refine ⟨⟨⟨?_, ?_, ?_, ?_, ?_, ?_⟩, ?_⟩, ?_, ?_⟩
  · rw [array]
    exact canonical.size
  · rw [array]
    exact canonical.array
  · intro k'
    rw [lookup]
    split
    · exact held
    · exact canonical.values k'
  · unfold putHash
    split
    · exact nodup_remove k canonical.distinct
    · exact nodup_upsert k v canonical.distinct
  · intro k'
    rw [lookup]
    split
    next same => exact fun _ => same ▸ normal
    next => exact canonical.normal k'
  · intro k' j place inside
    rw [array] at inside
    rw [lookup, if_neg, canonical.apart k' j place inside]
    rintro rfl
    exact absurd (beyond j place) (by omega)
  · intro k' place
    rw [array] at place
    rw [lookup]
    split
    next same =>
      rw [border (same ▸ place)]
      rfl
    next => exact canonical.border k' place
  · intro k'
    by_cases same : k' = k
    · rw [same, find?_hash (array ▸ beyond), lookup, if_pos rfl, if_pos rfl]
    · simp [find?, array, lookup, same]
  · by_cases absent : v = .nil
    · simp [putHash, absent, Value.isNil]
    · have same := find?_hash beyond
      cases found : t.hash.lookup k <;>
        simp [putHash, absent, Value.isNil_eq, same, found]

theorem putKey_at (place : k.position? = some i) : t.putKey k v =
    if i < t.array.size then
      if v = .nil then t.removeSlot i else { t with array := t.array.setIfInBounds i v }
    else if i = t.array.size ∧ v ≠ .nil then t.append v
    else t.putHash k v := by
  cases k with
  | int n =>
    simp only [Key.position?, Option.ite_none_right_eq_some, Option.some.injEq] at place
    obtain ⟨positive, rfl⟩ := place
    by_cases last : n.toNatClampNeg - 1 + 1 = t.array.size
    · simp [putKey, positive, Value.isNil_eq, last, removeSlot_last last]
    · simp [putKey, positive, Value.isNil_eq, last]
  | _ => cases place

theorem putKey_elsewhere (place : k.position? = none) : t.putKey k v = t.putHash k v := by
  cases k with
  | int n =>
    have low : ¬ 1 ≤ n := by simpa [Key.position?] using place
    simp [putKey, low]
  | _ => rfl

theorem putKey_puts (canonical : t.Canonical) (normal : k.Normal) (v : Value) :
    Puts t k v (t.putKey k v) := by
  cases place : k.position? with
  | none =>
    rw [putKey_elsewhere place]
    exact puts_hash canonical normal (by simp [place]) (by simp [place])
  | some i =>
    rw [putKey_at place]
    by_cases inside : i < t.array.size
    · by_cases absent : v = .nil
      · subst absent
        simpa [inside] using puts_removeSlot canonical place inside
      · simpa [inside, absent] using puts_set canonical place inside absent
    · rw [if_neg inside]
      split
      next grows => exact puts_append canonical (grows.1 ▸ place) grows.2
      next stays =>
        apply puts_hash canonical normal
        · intro j place'
          have same : i = j := by simpa [place] using place'
          omega
        · intro last
          have same : i = t.array.size := by simpa [place] using last
          by_contra present
          exact stays ⟨same, present⟩

end Table

end LuaMachine
