import LuaMachine.Proofs.Table.Layout
import Mathlib.Order.Bounds.Basic

set_option autoImplicit false

namespace LuaMachine.Table

inductive Op where
  | put (k v : Value)
  | putInt (n : Int64) (v : Value)
  | putText (name : String) (v : Value)
  | push (v : Value)
  | next (k : Value)
  | setMetatable (m : Option TableId)

namespace Op

def apply (t : Table) : Op → Table
  | put k v =>
    match t.put k v with
    | .ok t' => t'
    | .error _ => t
  | putInt n v => t.putKey (.int n) v
  | putText name v => t.putText name v
  | push v => t.push v
  | next k => (t.next k).2
  | setMetatable m => { t with metatable := m }

-- The key that is written, and the value.
def write? (t : Table) : Op → Option (Key × Value)
  | put k v =>
    match Key.ofValue k with
    | .ok k => some (k, v)
    | .error _ => none
  | putInt n v => some (.int n, v)
  | putText name v => some (.ofText name, v)
  | push v => some (.int (.ofNat (t.length + 1)), v)
  | next _ => none
  | setMetatable _ => none

end Op

def run (t : Table) (ops : List Op) : Table := ops.foldl (fun t op => op.apply t) t

-- All writes of a run, the first one first.
def writes (t : Table) : List Op → List (Key × Value)
  | [] => []
  | op :: ops => (op.write? t).toList ++ writes (op.apply t) ops

def lastWrite (log : List (Key × Value)) (k : Key) : Value := (log.reverse.lookup k).getD .nil

variable {t t' : Table} {k : Key} {v : Value}

theorem presized_canonical (array hash : Nat) : (presized array hash).Canonical where
  size := by simp [presized, empty]
  array := by simp [presized, empty]
  values := by simp [presized, empty]
  distinct := by simp [presized, empty]
  normal := by simp [presized, empty]
  apart := by simp [presized, empty]
  border := by simp [presized, empty]

theorem presized_getKey (array hash : Nat) (k : Key) : (presized array hash).getKey k = .nil := by
  simp [getKey_eq, find?, presized, empty]

theorem apply_put {op : Op} (canonical : t.Canonical) (written : op.write? t = some (k, v)) :
    Puts t k v (op.apply t) := by
  cases op with
  | put name w =>
    simp only [Op.write?] at written
    split at written
    next key valid =>
      cases written
      have accepted : t.put name v = .ok (t.putKey k v) := by simp [put, valid, Except.map]
      simpa only [Op.apply, accepted] using putKey_puts canonical (Key.normal_ofValue valid) v
    next => cases written
  | putInt n w =>
    cases written
    exact putKey_puts canonical (Key.normal_int n) v
  | putText name w =>
    cases written
    exact putKey_puts canonical (Key.normal_str _) v
  | push w =>
    cases written
    exact putKey_puts canonical (Key.normal_int _) v
  | next _ => cases written
  | setMetatable _ => cases written

-- What an operation that writes nothing may change: it may begin a traversal.
structure Idles (t t' : Table) : Prop where
  array : t'.array = t.array
  hash : t'.hash = t.hash
  order : t'.order = t.order ∨ t.order = none ∧ t'.order = some t.keys

theorem traverse_idles (t : Table) : Idles t t.traverse := by
  unfold traverse
  split
  next => exact ⟨rfl, rfl, .inl rfl⟩
  next fresh => exact ⟨rfl, rfl, .inr ⟨fresh, rfl⟩⟩

theorem next_idles (t : Table) (name : Value) : Idles t (t.next name).2 := by
  unfold next
  split
  · exact traverse_idles t
  · exact ⟨rfl, rfl, .inl rfl⟩
  · dsimp only
    split <;> exact traverse_idles t

theorem apply_idle {op : Op} (idle : op.write? t = none) : Idles t (op.apply t) := by
  cases op with
  | put name w =>
    simp only [Op.write?] at idle
    split at idle
    next => cases idle
    next e invalid =>
      have refused : t.put name w = .error e := by simp [put, invalid, Except.map]
      simp only [Op.apply, refused]
      exact ⟨rfl, rfl, .inl rfl⟩
  | next name => exact next_idles t name
  | setMetatable m => exact ⟨rfl, rfl, .inl rfl⟩
  | _ => cases idle

theorem Idles.canonical (idles : Idles t t') (canonical : t.Canonical) : t'.Canonical := by
  obtain ⟨array, hash, -⟩ := idles
  refine ⟨⟨?_, ?_, ?_, ?_, ?_, ?_⟩, ?_⟩ <;> simp only [array, hash]
  · exact canonical.size
  · exact canonical.array
  · exact canonical.values
  · exact canonical.distinct
  · exact canonical.normal
  · exact canonical.apart
  · exact canonical.border

theorem Idles.find? (idles : Idles t t') (k : Key) : t'.find? k = t.find? k := by
  simp [Table.find?, idles.array, idles.hash]

theorem apply_canonical (canonical : t.Canonical) (op : Op) : (op.apply t).Canonical := by
  cases written : op.write? t with
  | none => exact (apply_idle written).canonical canonical
  | some entry => exact (apply_put canonical written).canonical

theorem run_canonical (canonical : t.Canonical) (ops : List Op) : (t.run ops).Canonical := by
  induction ops generalizing t with
  | nil => exact canonical
  | cons op ops ih => exact ih (apply_canonical canonical op)

theorem held?_getD (v : Value) : v.held?.getD .nil = v := by
  by_cases absent : v = .nil <;> simp [Value.held?, Value.isNil_eq, absent]

theorem getKey_apply (canonical : t.Canonical) (op : Op) (k : Key) :
    (op.apply t).getKey k = ((op.write? t).toList.lookup k).getD (t.getKey k) := by
  rw [getKey_eq, getKey_eq]
  cases written : op.write? t with
  | none => simp [(apply_idle written).find?]
  | some entry =>
    obtain ⟨name, v⟩ := entry
    rw [(apply_put canonical written).find]
    by_cases same : k = name
    · simp [same, held?_getD]
    · simp [same, lookup_cons_ite]

theorem getKey_apply_ne {op : Op} (canonical : t.Canonical)
    (other : ∀ v, op.write? t ≠ some (k, v)) : (op.apply t).getKey k = t.getKey k := by
  rw [getKey_apply canonical]
  cases written : op.write? t with
  | none => rfl
  | some entry =>
    obtain ⟨name, v⟩ := entry
    have apart : k ≠ name := by
      rintro rfl
      exact other v written
    simp [lookup_cons_ite, apart]

theorem getKey_run (canonical : t.Canonical) (ops : List Op) (k : Key) :
    (t.run ops).getKey k = ((t.writes ops).reverse.lookup k).getD (t.getKey k) := by
  induction ops generalizing t with
  | nil => rfl
  | cons op ops ih =>
    have step : t.run (op :: ops) = (op.apply t).run ops := rfl
    rw [step, ih (apply_canonical canonical op), getKey_apply canonical, writes,
      List.reverse_append, List.lookup_append]
    cases (op.write? t) <;> cases ((op.apply t).writes ops).reverse.lookup k <;> simp

theorem entries_keys (t : Table) : t.entries.map Prod.fst = t.keys := by
  have places : t.array.toList.zipIdx.map Prod.snd = List.range t.array.size := by
    simp [List.range_eq_range']
  simp only [entries, keys, List.map_append, List.map_map, ← places]
  rfl

theorem mem_entries (sound : t.Sound) : (k, v) ∈ t.entries ↔ t.find? k = some v := by
  have bound := sound.size
  rw [entries, List.mem_append, mem_iff_lookup k v sound.distinct]
  constructor
  · rintro (member | found)
    · obtain ⟨⟨w, i⟩, found, same⟩ := List.mem_map.1 member
      cases same
      rw [List.mk_mem_zipIdx_iff_getElem?, Array.getElem?_toList] at found
      have inside := (Array.getElem?_eq_some_iff.1 found).1
      have place : (Key.ofPosition i).position? = some i := Key.position?_ofPosition (by omega)
      exact (find?_at place).trans (by simp [found])
    · exact (sound.lookup_iff.1 found).1
  · intro found
    rw [find?, Option.or_eq_some_iff] at found
    rcases found with found | ⟨-, found⟩
    · obtain ⟨i, place, found⟩ := Option.bind_eq_some_iff.1 found
      refine .inl (List.mem_map.2 ⟨(v, i), ?_, ?_⟩)
      · simpa [List.mk_mem_zipIdx_iff_getElem?] using found
      · rw [(Key.position?_eq_some.1 place).1]
        rfl
    · exact .inr found

theorem nodup_keys (sound : t.Sound) : t.keys.Nodup := by
  have bound := sound.size
  have place {i : Nat} (inside : i ∈ List.range t.array.size) :
      (Key.ofPosition i).position? = some i :=
    Key.position?_ofPosition (by have := List.mem_range.1 inside; omega)
  apply List.nodup_append.2
  refine ⟨?_, sound.distinct, ?_⟩
  · apply List.Nodup.map_on _ List.nodup_range
    intro i first j second same
    have same : Key.ofPosition i = .ofPosition j := same
    simpa [place first, place second] using congrArg Key.position? same
  · rintro k inArray k' inHash rfl
    obtain ⟨i, inside, rfl⟩ := List.mem_map.1 inArray
    exact (lookup_eq_none _).1
      (sound.apart _ i (place inside) (List.mem_range.1 inside)) inHash

theorem find?_ne_nil (sound : t.Sound) : t.find? k ≠ some .nil := by
  rw [find?, Ne, Option.or_eq_some_iff]
  rintro (found | ⟨-, found⟩)
  · obtain ⟨i, -, found⟩ := Option.bind_eq_some_iff.1 found
    exact sound.array i found
  · exact sound.values k found

theorem find?_eq_some (sound : t.Sound) : t.find? k = some v ↔ v ≠ .nil ∧ t.getKey k = v := by
  rw [getKey_eq]
  have present := find?_ne_nil (k := k) sound
  cases found : t.find? k with
  | none =>
    constructor
    · simp
    · rintro ⟨held, rfl⟩
      exact absurd rfl held
  | some w =>
    constructor
    · rintro ⟨⟩
      exact ⟨fun absent => present (absent ▸ found), rfl⟩
    · rintro ⟨-, rfl⟩
      rfl

theorem ofValue_error {k : Value} {e : KeyFault} : Key.ofValue k = .error e ↔
    k = .nil ∧ e = .isNil ∨ ∃ x, k = .float x ∧ x.isNaN ∧ e = .isNaN := by
  cases k with
  | nil => simp [Key.ofValue, eq_comm (a := e)]
  | float x =>
    by_cases number : x.isNaN
    · simp [Key.ofValue, number, eq_comm (a := e)]
    · cases whole : x.toInt64? <;> simp [Key.ofValue, number, whole]
  | _ => simp [Key.ofValue]

theorem put_error {k : Value} {e : KeyFault} :
    t.put k v = .error e ↔ Key.ofValue k = .error e := by
  cases valid : Key.ofValue k <;> simp [put, valid, Except.map]

/-- The table is the map `m`, however it is read. -/
structure Refines (t : Table) (m : Key → Value) : Prop where
  get : ∀ k, t.get k = match Key.ofValue k with
    | .ok key => m key
    | .error _ => .nil
  getInt : ∀ n, t.getKey (.int n) = m (.int n)
  getText : ∀ name, t.getText name = m (.ofText name)
  entries : ∀ key v, (key, v) ∈ t.entries ↔ v ≠ .nil ∧ m key = v
  once : (t.entries.map Prod.fst).Nodup

theorem Canonical.refines (canonical : t.Canonical) : t.Refines t.getKey where
  get k := rfl
  getInt n := rfl
  getText name := rfl
  entries key v := by rw [mem_entries canonical.toSound, find?_eq_some canonical.toSound]
  once := by
    rw [entries_keys]
    exact nodup_keys canonical.toSound

/-- Whatever was done to a table, it is the map of the last writes. -/
theorem run_refines (array hash : Nat) (ops : List Op) :
    let t := (presized array hash).run ops
    t.Refines (lastWrite ((presized array hash).writes ops)) ∧
    (∀ (op : Op) key, (∀ v, op.write? t ≠ some (key, v)) →
      (op.apply t).getKey key = t.getKey key) ∧
    ∀ k v e, (t.put k v = .error e ↔
        k = .nil ∧ e = .isNil ∨ ∃ x, k = .float x ∧ x.isNaN ∧ e = .isNaN) ∧
      (t.put k v = .error e → (Op.put k v).apply t = t) := by
  intro t
  have start := presized_canonical array hash
  have canonical : t.Canonical := run_canonical start ops
  have last : t.getKey = lastWrite ((presized array hash).writes ops) := by
    funext key
    simp only [t, getKey_run start, presized_getKey, lastWrite]
  refine ⟨last ▸ canonical.refines, fun op key => getKey_apply_ne canonical, fun k v e => ?_⟩
  constructor
  · rw [put_error, ofValue_error]
  · intro refused
    simp only [Op.apply, refused]

theorem normal_of_find? (sound : t.Sound) (found : t.find? k = some v) : k.Normal := by
  rw [find?, Option.or_eq_some_iff] at found
  rcases found with found | ⟨-, found⟩
  · obtain ⟨i, place, -⟩ := Option.bind_eq_some_iff.1 found
    exact Key.normal_position? place
  · exact sound.normal k (by simp [found])

theorem present_inside (sound : t.Sound) {i : Nat} (inside : i < t.array.size) :
    t.getKey (.ofPosition i) ≠ .nil := by
  have bound := sound.size
  have place : (Key.ofPosition i).position? = some i := Key.position?_ofPosition (by omega)
  have found : t.find? (.ofPosition i) = t.array[i]? := by simp [find?_at place, inside]
  have present := sound.array i
  rw [getKey_eq, found]
  simpa [inside] using present

theorem absent_border (canonical : t.Canonical) (place : k.position? = some t.array.size) :
    t.getKey k = .nil := by
  rw [getKey_eq, find?_at place, canonical.border k place]
  simp

-- The number of the array part's keys, told by what can be read.
theorem length_isGreatest (canonical : t.Canonical) : IsGreatest
    {n : Nat | ∀ i, 1 ≤ i → i ≤ n → ∃ k : Int64, k.toInt = i ∧ t.getKey (.int k) ≠ .nil}
    t.length := by
  have bound := canonical.size
  constructor
  · intro i low high
    obtain ⟨i, rfl⟩ : ∃ j, i = j + 1 := ⟨i - 1, by omega⟩
    have inside : i < t.array.size := high
    exact ⟨.ofNat (i + 1), Int64.toInt_ofNat_of_lt (by omega),
      present_inside canonical.toSound inside⟩
  · intro n present
    by_contra longer
    have more : t.array.size + 1 ≤ n := Nat.lt_of_not_le longer
    obtain ⟨k, value, present⟩ := present (t.array.size + 1) (by omega) more
    exact present (absent_border canonical (Key.position?_of_toInt value))

theorem find?_ext (sound : t.Sound) (sound' : t'.Sound) (same : ∀ k, t'.get k = t.get k)
    (k : Key) : t'.find? k = t.find? k := by
  have read (normal : k.Normal) : t'.getKey k = t.getKey k := by
    simpa only [get, show Key.ofValue k.toValue = .ok k from normal] using same k.toValue
  apply Option.ext
  intro v
  constructor
  · intro found
    have normal := normal_of_find? sound' found
    rwa [find?_eq_some sound', read normal, ← find?_eq_some sound] at found
  · intro found
    have normal := normal_of_find? sound found
    rwa [find?_eq_some sound, ← read normal, ← find?_eq_some sound'] at found

-- What can be read determines both parts, the hash part up to its order.
theorem parts_ext (canonical : t.Canonical) (canonical' : t'.Canonical)
    (same : ∀ k, t'.get k = t.get k) : t'.array.size = t.array.size ∧ t'.hash.Perm t.hash := by
  have read (n : Int64) : t'.getKey (.int n) = t.getKey (.int n) := same (.int n)
  have size : t'.array.size = t.array.size := by
    have greatest := length_isGreatest canonical'
    simp only [read] at greatest
    exact greatest.unique (length_isGreatest canonical)
  refine ⟨size, ?_⟩
  apply (List.perm_ext_iff_of_nodup canonical'.distinct.of_map canonical.distinct.of_map).2
  rintro ⟨k, v⟩
  rw [mem_iff_lookup k v canonical'.distinct, mem_iff_lookup k v canonical.distinct,
    canonical'.lookup_iff, canonical.lookup_iff, size,
    find?_ext canonical.toSound canonical'.toSound same]

theorem Canonical.mem_hash (canonical : t.Canonical) (member : (k, v) ∈ t.hash) :
    v ≠ .nil ∧ (∀ n, k = .int n → ¬ (1 ≤ n.toInt ∧ n.toInt ≤ t.array.size + 1)) ∧
      ∀ x, k = .float x → ¬ x.isNaN ∧ x.toInt64? = none := by
  have found := (mem_iff_lookup k v canonical.distinct).1 member
  have normal := canonical.normal k (by simp [found])
  refine ⟨?_, ?_, ?_⟩
  · rintro rfl
    exact canonical.values k found
  · rintro n rfl ⟨low, high⟩
    have place : (Key.int n).position? = some (n.toInt - 1).toNat :=
      Key.position?_of_toInt (by omega)
    have beyond := (canonical.lookup_iff.1 found).2 _ place
    have next : (n.toInt - 1).toNat = t.array.size := by omega
    simp [canonical.border _ (next ▸ place)] at found
  · rintro x rfl
    exact Key.fractional_of_normal normal

/-- Whatever was done to a table, no part holds a nil, and no key of the hash part is nil, NaN, an
integral float or an integer that the array part has or could have next. So the length is that of
the longest row of keys from 1 on, and it and the sizes of the parts follow from what can be
read. -/
theorem run_layout (array hash : Nat) (ops : List Op) :
    let t := (presized array hash).run ops
    (∀ v ∈ t.array, v ≠ .nil) ∧
    (∀ k v, (k, v) ∈ t.hash → v ≠ .nil ∧ k.toValue ≠ .nil ∧
      (∀ n, k = .int n → ¬ (1 ≤ n.toInt ∧ n.toInt ≤ t.array.size + 1)) ∧
      ∀ x, k = .float x → ¬ x.isNaN ∧ x.toInt64? = none) ∧
    IsGreatest
      {n : Nat | ∀ i, 1 ≤ i → i ≤ n → ∃ k : Int64, k.toInt = i ∧ t.getKey (.int k) ≠ .nil}
      t.length ∧
    ∀ array' hash' ops', let t' := (presized array' hash').run ops'
      (∀ k, t'.get k = t.get k) → t'.length = t.length ∧ t'.array.size = t.array.size ∧
        t'.hash.length = t.hash.length := by
  intro t
  have canonical : t.Canonical := run_canonical (presized_canonical array hash) ops
  refine ⟨?_, ?_, length_isGreatest canonical, ?_⟩
  · rintro v member rfl
    obtain ⟨i, found⟩ := Array.mem_iff_getElem?.1 member
    exact canonical.array i found
  · intro k v member
    obtain ⟨present, integers, floats⟩ := canonical.mem_hash member
    exact ⟨present, Key.toValue_ne_nil k, integers, floats⟩
  · intro array' hash' ops' t' same
    have canonical' : t'.Canonical := run_canonical (presized_canonical array' hash') ops'
    obtain ⟨size, perm⟩ := parts_ext canonical canonical' same
    exact ⟨size, size, perm.length_eq⟩

end LuaMachine.Table
