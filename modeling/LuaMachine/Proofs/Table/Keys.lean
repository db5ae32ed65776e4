import LuaMachine.Proofs.Comparison
import LuaMachine.Proofs.Table.Traversal

set_option autoImplicit false

namespace LuaMachine

namespace Double

theorem eq_of_magnitude {x y : Double} (sign : x.negative = y.negative)
    (size : x.magnitude = y.magnitude) : x = y := by
  have bits : x.bits.toNat = y.bits.toNat := by
    have small := x.bits.toNat_lt
    have small' := y.bits.toNat_lt
    simp only [negative, magnitude, decide_eq_decide] at sign size
    omega
  cases x
  cases y
  exact congrArg Double.mk (UInt64.toNat_inj.1 bits)

-- Only the two zeros are equal and have different bits.
theorem eq_of_rank {x y : Double} (same : x.rank = y.rank) (nonzero : x.magnitude ≠ 0) :
    x = y := by
  have size : x.magnitude = y.magnitude := by rw [← natAbs_rank, same, natAbs_rank]
  have signX := x.rank_neg_iff.trans (and_iff_left nonzero)
  have signY := y.rank_neg_iff.trans (and_iff_left (size ▸ nonzero))
  apply eq_of_magnitude _ size
  rw [Bool.eq_iff_iff, ← signX, ← signY, same]

theorem toInt64?_zero {x : Double} (zero : x.magnitude = 0) : x.toInt64? = some 0 := by
  have same : x = Double.zero x.negative := by
    apply eq_of_magnitude
    · cases x.negative <;> decide +kernel
    · rw [zero]
      cases x.negative <;> decide +kernel
  rw [same]
  cases x.negative <;> decide +kernel

end Double

namespace Value

def IsKey : Value → Prop
  | .nil => False
  | .float x => x.isNaN = false
  | _ => True

theorem IsKey.ordered {v : Value} (valid : v.IsKey) (number : v.type = .number) :
    v.IsOrdered := by
  cases v <;> first | exact valid | cases number

theorem Same.type {a b : Value} (same : Same a b) : a.type = b.type := by
  cases a <;> cases b <;> first | rfl | exact absurd same Bool.false_ne_true

theorem IsKey.same {v : Value} (valid : v.IsKey) : Same v v := by
  cases v with
  | nil => exact valid.elim
  | float x =>
    have number : x.isNaN = false := valid
    simp [Same, rawEquals, Double.eq, number]
  | _ => simp [Same, rawEquals]

end Value

namespace Key

variable {a b v : Value} {k k' : Key}

theorem ofValue_of_isKey (valid : v.IsKey) : ∃ k, ofValue v = .ok k := by
  cases outcome : ofValue v with
  | ok k => exact ⟨k, rfl⟩
  | error e =>
    rcases Table.ofValue_error.1 outcome with ⟨rfl, -⟩ | ⟨x, rfl, nan, -⟩
    · exact valid.elim
    · exact absurd (valid.symm.trans nan) Bool.false_ne_true

theorem ofValue_cases (stands : ofValue v = .ok k) : v.IsKey ∧
    (k.toValue = v ∨ ∃ x n, v = .float x ∧ x.toInt64? = some n ∧ k = .int n) := by
  cases v with
  | nil => cases stands
  | float x =>
    simp only [ofValue] at stands
    split at stands
    · cases stands
    next number =>
      refine ⟨Bool.eq_false_iff.2 number, ?_⟩
      split at stands
      next n whole =>
        cases stands
        exact Or.inr ⟨x, n, rfl, whole, rfl⟩
      next =>
        cases stands
        exact Or.inl rfl
  | _ =>
    cases stands
    exact ⟨trivial, Or.inl rfl⟩

theorem type_ofValue (stands : ofValue v = .ok k) : k.toValue.type = v.type := by
  obtain ⟨-, same | ⟨x, n, rfl, -, rfl⟩⟩ := ofValue_cases stands
  · rw [same]
  · rfl

theorem toValue_ofValue (stands : ofValue v = .ok k) (other : v.type ≠ .number) :
    k.toValue = v := by
  obtain ⟨-, same | ⟨x, n, rfl, -, rfl⟩⟩ := ofValue_cases stands
  · exact same
  · exact absurd rfl other

theorem quantity_ofValue (stands : ofValue v = .ok k) : k.toValue.quantity? = v.quantity? := by
  obtain ⟨valid, same | ⟨x, n, rfl, whole, rfl⟩⟩ := ofValue_cases stands
  · rw [same]
  · obtain ⟨q, denotes⟩ := (valid.ordered rfl).quantity
    have equal := (Value.same_iff (a := .int n) rfl denotes).1
      (by simp [Value.Same, Value.rawEquals, whole])
    exact (congrArg some equal).trans denotes.symm

-- A key and the value it stands for are equal to the same values.
theorem same_ofValue (left : ofValue a = .ok k) (right : ofValue b = .ok k') :
    a.Same b ↔ k.toValue.Same k'.toValue := by
  by_cases number : a.type = .number
  · by_cases number' : b.type = .number
    · obtain ⟨p, first⟩ := ((ofValue_cases left).1.ordered number).quantity
      obtain ⟨q, second⟩ := ((ofValue_cases right).1.ordered number').quantity
      rw [Value.same_iff first second, Value.same_iff ((quantity_ofValue left).trans first)
        ((quantity_ofValue right).trans second)]
    · have apart : a.type ≠ b.type := fun same => number' (same ▸ number)
      have apart' : k.toValue.type ≠ k'.toValue.type := by
        rwa [type_ofValue left, type_ofValue right]
      exact iff_of_false (fun same => apart same.type) (fun same => apart' same.type)
  · by_cases number' : b.type = .number
    · have apart : a.type ≠ b.type := fun same => number (same.trans number')
      have apart' : k.toValue.type ≠ k'.toValue.type := by
        rwa [type_ofValue left, type_ofValue right]
      exact iff_of_false (fun same => apart same.type) (fun same => apart' same.type)
    · rw [toValue_ofValue left number, toValue_ofValue right number']

theorem eq_of_same (normal : k.Normal) (normal' : k'.Normal)
    (same : k.toValue.Same k'.toValue) : k = k' := by
  unfold Value.Same at same
  cases k with
  | float x =>
    obtain ⟨-, fractional⟩ := fractional_of_normal normal
    cases k' with
    | float y =>
      have nonzero : x.magnitude ≠ 0 := by
        intro zero
        simp [Double.toInt64?_zero zero] at fractional
      have rank : x.rank = y.rank := by
        simp [toValue, Value.rawEquals, Double.eq] at same
        exact same.2
      rw [Double.eq_of_rank rank nonzero]
    | _ => simp [toValue, Value.rawEquals, fractional] at same
  | int n =>
    cases k' with
    | float y =>
      obtain ⟨-, fractional⟩ := fractional_of_normal normal'
      simp [toValue, Value.rawEquals, fractional] at same
    | _ => simp_all [toValue, Value.rawEquals]
  | _ => cases k' <;> simp_all [toValue, Value.rawEquals]

theorem ofValue_eq_iff (left : ofValue a = .ok k) (right : ofValue b = .ok k') :
    k = k' ↔ a.Same b := by
  have normal := normal_ofValue left
  rw [same_ofValue left right]
  constructor
  · rintro rfl
    exact (ofValue_cases normal).1.same
  · exact eq_of_same normal (normal_ofValue right)

def same : Key → Key → Bool
  | .float x, .float y => x.bits == y.bits
  | k, k' => k.toValue.rawEquals k'.toValue

theorem same_iff (normal : k.Normal) (normal' : k'.Normal) : k.same k' = true ↔ k = k' := by
  by_cases floats : ∃ x y, k = .float x ∧ k' = .float y
  · obtain ⟨x, y, rfl, rfl⟩ := floats
    cases x
    cases y
    simp [same]
  · have asValues : k.same k' = k.toValue.rawEquals k'.toValue := by
      unfold same
      split
      · exact absurd ⟨_, _, rfl, rfl⟩ floats
      · rfl
    rw [asValues]
    exact (ofValue_eq_iff normal normal').symm

inductive Datum where
  | byte (n : Nat)
  | integer (n : Int64)
  | word (w : UInt64)
  | size (n : Nat)
  | bytes (s : Bytes)

def hashed (tableAt : TableId → Nat) (functionAt : FunctionId → Nat) (k : Key) : List Datum :=
  .byte k.toValue.type.tag ::
    match k with
    | .bool b => [.byte b.toNat]
    | .int n => [.integer n]
    | .float x => [.word x.bits]
    | .str s => [.size s.length, .bytes s]
    | .table t => [.size (tableAt t)]
    | .function f => [.size (functionAt f)]

def lookup? : Value → Option Key
  | .nil => none
  | .bool b => some (.bool b)
  | .int n => some (.int n)
  | .float x =>
    if x.isNaN then none
    else
      match x.toInt64? with
      | some n => some (.int n)
      | none => some (.float x)
  | .str s => some (.str s)
  | .table t => some (.table t)
  | .function f => some (.function f)

theorem lookup?_eq (v : Value) : lookup? v = (ofValue v).toOption := by
  cases v with
  | float x =>
    by_cases nan : x.isNaN
    · simp [lookup?, ofValue, nan, Except.toOption]
    · cases whole : x.toInt64? <;> simp [lookup?, ofValue, nan, whole, Except.toOption]
  | _ => rfl

end Key

namespace Table

variable {t t' : Table} {a b v : Value} {k : Key}

def nextAfter (t : Table) (k : Key) : Except KeyFault (Option (Key × Value)) × Table :=
  let t := t.traverse
  match after? (t.order.getD []) k with
  | some rest => (.ok (t.firstLive rest), t)
  | none => (.error .unknown, t)

theorem get_lookup (t : Table) (v : Value) : t.get v = (Key.lookup? v).elim .nil t.getKey := by
  rw [Key.lookup?_eq, get]
  cases Key.ofValue v <;> rfl

theorem next_lookup (t : Table) (present : v ≠ .nil) :
    t.next v = (Key.lookup? v).elim (.error .unknown, t) t.nextAfter := by
  rw [Key.lookup?_eq, next]
  cases outcome : Key.ofValue v with
  | ok k => rfl
  | error e =>
    rcases ofValue_error.1 outcome with ⟨absent, -⟩ | ⟨x, -, -, rfl⟩
    · exact absurd absent present
    · rfl

theorem put_of_key (stands : Key.ofValue a = .ok k) : t.put a v = .ok (t.putKey k v) := by
  simp [put, stands, Except.map]

theorem nextAfter_found (canonical : t.Canonical) (tracked : t.Tracked)
    (found : t.find? k ≠ none) : ∃ answer, (t.nextAfter k).1 = .ok answer := by
  obtain ⟨order, has⟩ := traverse_order t
  have idles := traverse_idles t
  obtain ⟨distinct, all⟩ := idles.tracked canonical.toSound tracked order has
  obtain ⟨passed, ahead, rfl⟩ := List.append_of_mem (all k (by rwa [idles.find?]))
  have fresh : k ∉ passed := by
    intro member
    exact (List.nodup_cons.1 (List.nodup_middle.1 distinct)).1 (List.mem_append_left _ member)
  simp only [nextAfter, has, Option.getD_some, after?_eq fresh]
  exact ⟨_, rfl⟩

-- An entry is found again under every value that is equal to its key, and under no other.
theorem put_found (canonical : t.Canonical) (tracked : t.Tracked) (valid : a.IsKey)
    (valid' : b.IsKey) (v : Value) : ∃ t', t.put a v = .ok t' ∧
      (t'.get b = if a.rawEquals b then v else t.get b) ∧
      (a.rawEquals b = true → v ≠ .nil → ∃ answer, (t'.next b).1 = .ok answer) := by
  obtain ⟨k, stands⟩ := Key.ofValue_of_isKey valid
  obtain ⟨k', stands'⟩ := Key.ofValue_of_isKey valid'
  have equal : k = k' ↔ a.rawEquals b = true := Key.ofValue_eq_iff stands stands'
  have puts := putKey_puts canonical (Key.normal_ofValue stands) v
  have looked : Key.lookup? b = some k' := by rw [Key.lookup?_eq, stands', Except.toOption]
  refine ⟨_, put_of_key stands, ?_, ?_⟩
  · simp only [get_lookup, looked, Option.elim_some, getKey_eq, puts.find, ← equal,
      eq_comm (a := k')]
    split
    · exact held?_getD v
    · rfl
  · intro same held
    have present : b ≠ .nil := by
      rintro rfl
      exact valid'
    have found : (t.putKey k v).find? k' ≠ none := by
      rw [puts.find, if_pos (equal.2 same).symm]
      simp [Value.held?, Value.isNil_eq, held]
    rw [next_lookup _ present, looked]
    exact nextAfter_found puts.canonical (puts.tracked tracked) found

end Table

theorem rawEquals_equivalence :
    Equivalence (fun a b : { v : Value // v.IsKey } => a.1.rawEquals b.1 = true) where
  refl a := a.2.same
  symm {a b} same := by
    obtain ⟨k, stands⟩ := Key.ofValue_of_isKey a.2
    obtain ⟨k', stands'⟩ := Key.ofValue_of_isKey b.2
    exact (Key.ofValue_eq_iff stands' stands).1 ((Key.ofValue_eq_iff stands stands').2 same).symm
  trans {a b c} same same' := by
    obtain ⟨k, stands⟩ := Key.ofValue_of_isKey a.2
    obtain ⟨k', stands'⟩ := Key.ofValue_of_isKey b.2
    obtain ⟨k'', stands''⟩ := Key.ofValue_of_isKey c.2
    have first := (Key.ofValue_eq_iff stands stands').2 same
    have second := (Key.ofValue_eq_iff stands' stands'').2 same'
    exact (Key.ofValue_eq_iff stands stands'').1 (first.trans second)

/-- Keys identify values up to equality without metamethods, which is an equivalence. Equal keys
give a hasher the same, and whether a key is stored or looked for, it is the same one. -/
theorem keys_identify :
    (∀ v : Value, v.IsKey ↔ ∃ k, Key.ofValue v = .ok k) ∧
    (∀ (a b : Value) (k k' : Key), Key.ofValue a = .ok k → Key.ofValue b = .ok k' →
      (k.same k' = true ↔ a.rawEquals b = true) ∧ (k = k' ↔ a.rawEquals b = true) ∧
      (k.same k' = true → ∀ tableAt functionAt,
        k.hashed tableAt functionAt = k'.hashed tableAt functionAt)) ∧
    Equivalence (fun a b : { v : Value // v.IsKey } => a.1.rawEquals b.1 = true) ∧
    (∀ v, Key.lookup? v = (Key.ofValue v).toOption) ∧
    (∀ (t : Table) v, t.get v = (Key.lookup? v).elim .nil t.getKey ∧
      (v ≠ .nil → t.next v = (Key.lookup? v).elim (.error .unknown, t) t.nextAfter)) ∧
    ∀ (array hash : Nat) (ops : List Table.Op) (a b v : Value), a.IsKey → b.IsKey →
      let t := (Table.presized array hash).run ops
      ∃ t', t.put a v = .ok t' ∧
        (t'.get b = if a.rawEquals b then v else t.get b) ∧
        (a.rawEquals b = true → v ≠ .nil → ∃ answer, (t'.next b).1 = .ok answer) := by
  refine ⟨fun v => ⟨Key.ofValue_of_isKey, ?_⟩, ?_, rawEquals_equivalence, Key.lookup?_eq, ?_, ?_⟩
  · rintro ⟨k, stands⟩
    exact (Key.ofValue_cases stands).1
  · intro a b k k' stands stands'
    have equal := Key.ofValue_eq_iff stands stands'
    have same := Key.same_iff (Key.normal_ofValue stands) (Key.normal_ofValue stands')
    refine ⟨same.trans equal, equal, ?_⟩
    intro holds tableAt functionAt
    rw [same.1 holds]
  · exact fun t v => ⟨t.get_lookup v, t.next_lookup⟩
  · intro array hash ops a b v valid valid'
    have start := Table.presized_canonical array hash
    exact Table.put_found (Table.run_canonical start ops)
      (Table.run_tracked start (Table.presized_tracked array hash) ops) valid valid' v

-- What is written under the negative zero is read under the integer.
theorem keys_identify_zero :
    let zero : Value := .float (.zero true)
    zero.rawEquals (.int 0) = true ∧
      ∃ t', Table.empty.put zero (.bool true) = .ok t' ∧ t'.get (.int 0) = .bool true ∧
        ∃ answer, (t'.next (.int 0)).1 = .ok answer := by
  intro zero
  have same : zero.rawEquals (.int 0) = true := by decide +kernel
  have valid : zero.IsKey := (by decide +kernel : Double.isNaN _ = false)
  obtain ⟨-, -, -, -, -, tables⟩ := keys_identify
  obtain ⟨t', written, read, next⟩ := tables 0 0 [] zero (.int 0) (.bool true) valid trivial
  exact ⟨same, t', written, by rw [read, if_pos same], next same (by simp)⟩

end LuaMachine
