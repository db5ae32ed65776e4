import LuaMachine.Table
import Mathlib.Data.List.Nodup

set_option autoImplicit false

namespace LuaMachine

namespace Key

-- The place of a key in an array part that reaches it, counted from zero.
def position? : Key → Option Nat
  | int n => if 1 ≤ n then some (n.toNatClampNeg - 1) else none
  | _ => none

-- The key of a place.
def ofPosition (i : Nat) : Key := int (.ofNat (i + 1))

theorem one_le_ofNat {i : Nat} (bound : i + 1 < 2 ^ 63) : (1 : Int64) ≤ .ofNat (i + 1) := by
  have one : (1 : Int64) = .ofNat 1 := rfl
  rw [one, Int64.ofNat_le_iff_le (by decide) bound]
  omega

theorem position?_ofPosition {i : Nat} (bound : i + 1 < 2 ^ 63) :
    (ofPosition i).position? = some i := by
  simp only [ofPosition, position?, if_pos (one_le_ofNat bound),
    Int64.toNatClampNeg_ofNat_of_lt bound, Nat.add_sub_cancel]

theorem position?_eq_some {k : Key} {i : Nat} :
    k.position? = some i ↔ k = ofPosition i ∧ i + 1 < 2 ^ 63 := by
  constructor
  · intro place
    cases k with
    | int n =>
      simp only [position?, Option.ite_none_right_eq_some, Option.some.injEq] at place
      obtain ⟨positive, rfl⟩ := place
      have low : 0 < n.toNatClampNeg :=
        (Int64.toNatClampNeg_pos_iff n).2 (Int64.lt_of_lt_of_le (by decide) positive)
      have high := n.toNatClampNeg_lt
      have same : n.toNatClampNeg - 1 + 1 = n.toNatClampNeg := by omega
      rw [ofPosition, same, Int64.ofNat_toNatClampNeg n (Int64.le_trans (by decide) positive)]
      exact ⟨rfl, high⟩
    | _ => cases place
  · rintro ⟨rfl, bound⟩
    exact position?_ofPosition bound

theorem position?_of_toInt {n : Int64} {i : Nat} (value : n.toInt = i + 1) :
    (int n).position? = some i := by
  have bound := n.toInt_lt
  have same : n = .ofNat (i + 1) := by
    rw [← Int64.toInt_inj, value, Int64.toInt_ofNat_of_lt (by omega)]
    rfl
  rw [same]
  exact position?_ofPosition (by omega)

theorem position?_inj {k k' : Key} {i : Nat} (first : k.position? = some i)
    (second : k'.position? = some i) : k = k' := by
  rw [(position?_eq_some.1 first).1, (position?_eq_some.1 second).1]

theorem position?_ne {k k' : Key} {i j : Nat} (other : k' ≠ k) (place : k.position? = some i)
    (place' : k'.position? = some j) : j ≠ i := by
  rintro rfl
  exact other (position?_inj place' place)

end Key

namespace Table

section Associations

variable {entries : List (Key × Value)} (k k' : Key) (v : Value)

theorem lookup_cons_ite (entries : List (Key × Value)) :
    ((k, v) :: entries).lookup k' = if k' = k then some v else entries.lookup k' := by
  by_cases same : k' = k
  · simp [same]
  · simp [List.lookup_cons, same, beq_false_of_ne same]

theorem lookup_upsert (entries : List (Key × Value)) :
    (upsert k v entries).lookup k' = if k' = k then some v else entries.lookup k' := by
  induction entries with
  | nil => simp [upsert, lookup_cons_ite]
  | cons entry rest ih =>
    obtain ⟨name, old⟩ := entry
    by_cases here : k = name
    · subst here
      by_cases same : k' = k <;> simp [upsert, lookup_cons_ite, same]
    · by_cases there : k' = name
      · subst there
        simp [upsert, here, Ne.symm here]
      · simp [upsert, lookup_cons_ite, here, there, ih]

theorem lookup_eq_none : entries.lookup k = none ↔ k ∉ entries.map Prod.fst := by
  induction entries with
  | nil => simp
  | cons entry rest ih =>
    obtain ⟨name, old⟩ := entry
    by_cases same : k = name <;> simp [lookup_cons_ite, same, ih]

theorem keys_upsert (entries : List (Key × Value)) :
    (upsert k v entries).map Prod.fst =
      if k ∈ entries.map Prod.fst then entries.map Prod.fst else entries.map Prod.fst ++ [k] := by
  induction entries with
  | nil => simp [upsert]
  | cons entry rest ih =>
    obtain ⟨name, old⟩ := entry
    by_cases here : k = name
    · simp [upsert, here]
    · have step : upsert k v ((name, old) :: rest) = (name, old) :: upsert k v rest := by
        simp [upsert, here]
      rw [step, List.map_cons, ih]
      by_cases found : k ∈ rest.map Prod.fst <;> simp [found, here]

theorem nodup_upsert (distinct : (entries.map Prod.fst).Nodup) :
    ((upsert k v entries).map Prod.fst).Nodup := by
  rw [keys_upsert]
  by_cases found : k ∈ entries.map Prod.fst
  · rwa [if_pos found]
  · rw [if_neg found]
    exact List.nodup_append.2 ⟨distinct, List.nodup_singleton k, by
      intro name member other same
      rw [List.mem_singleton.1 same]
      rintro rfl
      exact found member⟩

theorem lookup_remove (distinct : (entries.map Prod.fst).Nodup) :
    (remove k entries).lookup k' = if k' = k then none else entries.lookup k' := by
  induction entries with
  | nil => simp [remove]
  | cons entry rest ih =>
    obtain ⟨name, old⟩ := entry
    obtain ⟨fresh, distinct⟩ := List.nodup_cons.1 distinct
    by_cases here : name = k
    · subst here
      have absent := (lookup_eq_none name).2 fresh
      by_cases same : k' = name <;> simp [remove, lookup_cons_ite, same, absent]
    · have step : remove k ((name, old) :: rest) = (name, old) :: remove k rest := by
        simp [remove, here]
      rw [step, lookup_cons_ite, lookup_cons_ite, ih distinct]
      by_cases same : k' = name <;> simp [same, here]

theorem nodup_remove (distinct : (entries.map Prod.fst).Nodup) :
    ((remove k entries).map Prod.fst).Nodup :=
  distinct.sublist (List.eraseP_sublist.map _)

theorem mem_iff_lookup (distinct : (entries.map Prod.fst).Nodup) :
    (k, v) ∈ entries ↔ entries.lookup k = some v := by
  induction entries with
  | nil => simp
  | cons entry rest ih =>
    obtain ⟨name, old⟩ := entry
    obtain ⟨fresh, distinct⟩ := List.nodup_cons.1 distinct
    rw [List.mem_cons, lookup_cons_ite, ih distinct]
    by_cases same : k = name
    · subst same
      have absent := (lookup_eq_none k).2 fresh
      simp [absent, eq_comm]
    · simp [same]

theorem length_remove (found : entries.lookup k = some v) :
    (remove k entries).length + 1 = entries.length := by
  have listed : k ∈ entries.map Prod.fst := by
    by_contra absent
    simp [(lookup_eq_none k).2 absent] at found
  obtain ⟨entry, member, rfl⟩ := List.mem_map.1 listed
  have positive := List.length_pos_of_mem member
  rw [remove, List.length_eraseP_of_mem member (by simp)]
  omega

end Associations

end Table

end LuaMachine
