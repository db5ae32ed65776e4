import LuaMachine.Proofs.Table.Contents
import Mathlib.Data.List.Perm.Subperm

set_option autoImplicit false

namespace LuaMachine.Table

variable {start t t' : Table} {k : Key} {v cursor : Value} {visited : List Key} {op : Op}

-- The order of traversal has every key of the table, each once.
def Tracked (t : Table) : Prop :=
  ∀ order, t.order = some order → order.Nodup ∧ ∀ k, t.find? k ≠ none → k ∈ order

theorem mem_keys (sound : t.Sound) : k ∈ t.keys ↔ t.find? k ≠ none := by
  rw [← entries_keys, List.mem_map, Option.ne_none_iff_exists']
  constructor
  · rintro ⟨⟨name, v⟩, member, rfl⟩
    exact ⟨v, (mem_entries sound).1 member⟩
  · rintro ⟨v, found⟩
    exact ⟨(k, v), (mem_entries sound).2 found, rfl⟩

theorem Idles.tracked (idles : Idles t t') (sound : t.Sound) (tracked : t.Tracked) :
    t'.Tracked := by
  intro order has
  simp only [idles.find?]
  rcases idles.order with same | ⟨-, fresh⟩
  · exact tracked order (same ▸ has)
  · rw [fresh] at has
    cases has
    exact ⟨nodup_keys sound, fun k => (mem_keys sound).2⟩

theorem Puts.found (puts : Puts t k v t') (adds : v = .nil ∨ t.find? k ≠ none) {k' : Key}
    (found : t'.find? k' ≠ none) : t.find? k' ≠ none := by
  rw [puts.find] at found
  split at found
  next same =>
    subst same
    rcases adds with rfl | present
    · exact absurd rfl found
    · exact present
  next => exact found

theorem Puts.tracked (puts : Puts t k v t') (tracked : t.Tracked) : t'.Tracked := by
  intro order has
  rw [puts.order] at has
  split at has
  next adds =>
    obtain ⟨distinct, all⟩ := tracked order has
    exact ⟨distinct, fun k' found => all k' (puts.found adds found)⟩
  next => cases has

theorem apply_tracked (canonical : t.Canonical) (tracked : t.Tracked) (op : Op) :
    (op.apply t).Tracked := by
  cases written : op.write? t with
  | none => exact (apply_idle written).tracked canonical.toSound tracked
  | some entry => exact (apply_put canonical written).tracked tracked

theorem run_tracked (canonical : t.Canonical) (tracked : t.Tracked) (ops : List Op) :
    (t.run ops).Tracked := by
  induction ops generalizing t with
  | nil => exact tracked
  | cons op ops ih =>
    exact ih (apply_canonical canonical op) (apply_tracked canonical tracked op)

-- An operation that removes keys and replaces values only.
def Op.AddsNone (t : Table) (op : Op) : Prop :=
  ∀ k v, op.write? t = some (k, v) → v = .nil ∨ t.getKey k ≠ .nil

/-- A traversal from `start` on has got as far as `cursor`, having been given the keys `visited`.
Between its steps anything may be done to the table that adds no key. -/
inductive Traversal (start : Table) : Table → Value → List Key → Prop where
  | start : Traversal start start .nil []
  | act {t : Table} {cursor : Value} {visited : List Key} {op : Op} :
    Traversal start t cursor visited → op.AddsNone t →
      Traversal start (op.apply t) cursor visited
  | advance {t t' : Table} {cursor v : Value} {visited : List Key} {k : Key} :
    Traversal start t cursor visited → t.next cursor = (.ok (some (k, v)), t') →
      Traversal start t' k.toValue (visited ++ [k])

-- What a step of a traversal may do to its table.
structure Shrinks (t t' : Table) : Prop where
  canonical : t'.Canonical
  tracked : t'.Tracked
  found : ∀ k, t'.find? k ≠ none → t.find? k ≠ none
  order : ∀ order, t.order = some order → t'.order = some order

theorem Idles.shrinks (idles : Idles t t') (canonical : t.Canonical) (tracked : t.Tracked) :
    Shrinks t t' where
  canonical := idles.canonical canonical
  tracked := idles.tracked canonical.toSound tracked
  found k := by rw [idles.find?]; exact id
  order order has := by
    rcases idles.order with same | ⟨fresh, -⟩
    · rw [same, has]
    · rw [fresh] at has
      cases has

theorem Op.AddsNone.shrinks (adds : op.AddsNone t) (canonical : t.Canonical)
    (tracked : t.Tracked) : Shrinks t (op.apply t) := by
  cases written : op.write? t with
  | none => exact (apply_idle written).shrinks canonical tracked
  | some entry =>
    obtain ⟨k, v⟩ := entry
    have puts := apply_put canonical written
    have adds : v = .nil ∨ t.find? k ≠ none := by
      rcases adds k v written with absent | present
      · exact .inl absent
      · right
        intro absent
        simp [getKey_eq, absent] at present
    refine ⟨puts.canonical, puts.tracked tracked, fun k' => puts.found adds, ?_⟩
    intro order has
    rw [puts.order, if_pos adds, has]

theorem firstLive_eq (sound : t.Sound) (keys : List Key) :
    t.firstLive keys = keys.findSome? fun k => (t.find? k).map (k, ·) := by
  unfold firstLive
  congr 1
  funext k
  have present := find?_ne_nil (k := k) sound
  rw [getKey_eq]
  cases found : t.find? k with
  | none => rfl
  | some v =>
    have held : v ≠ .nil := fun absent => present (absent ▸ found)
    simp [Value.isNil_eq, held]

theorem firstLive_some (sound : t.Sound) {keys : List Key}
    (first : t.firstLive keys = some (k, v)) :
    ∃ skipped rest, keys = skipped ++ k :: rest ∧ t.find? k = some v ∧
      ∀ k' ∈ skipped, t.find? k' = none := by
  rw [firstLive_eq sound, List.findSome?_eq_some_iff] at first
  obtain ⟨skipped, name, rest, split, here, before⟩ := first
  obtain ⟨w, found, same⟩ := Option.map_eq_some_iff.1 here
  cases same
  exact ⟨skipped, rest, split, found, fun k' member => by simpa using before k' member⟩

theorem firstLive_none (sound : t.Sound) {keys : List Key} (finished : t.firstLive keys = none) :
    ∀ k ∈ keys, t.find? k = none := by
  rw [firstLive_eq sound, List.findSome?_eq_none_iff] at finished
  exact fun k member => by simpa using finished k member

theorem after?_eq {passed ahead : List Key} (fresh : k ∉ passed) :
    after? (passed ++ k :: ahead) k = some ahead := by
  have dropped : (passed ++ k :: ahead).dropWhile (· ≠ k) = k :: ahead := by
    rw [List.dropWhile_append_of_pos]
    · simp
    · intro name member
      have other : name ≠ k := fun same => fresh (same ▸ member)
      simpa using other
  rw [after?, dropped]

theorem traverse_order (t : Table) : ∃ order, t.traverse.order = some order := by
  unfold traverse
  split
  next order has => exact ⟨order, has⟩
  next => exact ⟨_, rfl⟩

/-- How far a traversal has got: of the keys passed, those not visited are gone. -/
structure Progress (start t : Table) (cursor : Value) (visited : List Key) : Prop where
  canonical : t.Canonical
  tracked : t.Tracked
  known : ∀ k, t.find? k ≠ none ∨ k ∈ visited → start.find? k ≠ none
  place : cursor = .nil ∧ visited = [] ∨
    ∃ passed k ahead, t.order = some (passed ++ k :: ahead) ∧ cursor = k.toValue ∧ k.Normal ∧
      visited.Sublist (passed ++ [k]) ∧ ∀ k' ∈ passed ++ [k], k' ∉ visited → t.find? k' = none

namespace Progress

theorem shrink (progress : Progress start t cursor visited) (shrinks : Shrinks t t') :
    Progress start t' cursor visited where
  canonical := shrinks.canonical
  tracked := shrinks.tracked
  known k := by
    rintro (found | member)
    · exact progress.known k (.inl (shrinks.found k found))
    · exact progress.known k (.inr member)
  place := by
    rcases progress.place with first | ⟨passed, k, ahead, order, rest⟩
    · exact .inl first
    · obtain ⟨at_, normal, sublist, gone⟩ := rest
      refine .inr ⟨passed, k, ahead, shrinks.order _ order, at_, normal, sublist, ?_⟩
      intro k' member unseen
      by_contra found
      exact shrinks.found k' found (gone k' member unseen)

-- The next step looks for a key among those ahead.
theorem next_eq (progress : Progress start t cursor visited) : ∃ passed ahead,
    t.traverse.order = some (passed ++ ahead) ∧
    t.next cursor = (.ok (t.traverse.firstLive ahead), t.traverse) ∧
    visited.Sublist passed ∧ ∀ k ∈ passed, k ∉ visited → t.traverse.find? k = none := by
  have unchanged := (traverse_idles t).find?
  rcases progress.place with ⟨rfl, rfl⟩ | ⟨passed, k, ahead, order, rfl, normal, sublist, gone⟩
  · obtain ⟨order, has⟩ := traverse_order t
    refine ⟨[], order, has, ?_, .slnil, by simp⟩
    simp [next, Key.ofValue, has]
  · have same : t.traverse = t := by simp [traverse, order]
    have distinct := (progress.tracked _ order).1
    have fresh : k ∉ passed := by
      intro member
      exact (List.nodup_append.1 distinct).2.2 k member k List.mem_cons_self rfl
    refine ⟨passed ++ [k], ahead, by simp [same, order], ?_, sublist, same.symm ▸ gone⟩
    simp only [next, show Key.ofValue k.toValue = .ok k from normal, same, order, Option.getD_some,
      after?_eq fresh]

theorem traverse (progress : Progress start t cursor visited) :
    Progress start t.traverse cursor visited :=
  progress.shrink ((traverse_idles t).shrinks progress.canonical progress.tracked)

theorem next_some (progress : Progress start t cursor visited)
    (answer : t.next cursor = (.ok (some (k, v)), t')) :
    k ∉ visited ∧ t.find? k = some v ∧ Progress start t' k.toValue (visited ++ [k]) := by
  obtain ⟨passed, ahead, order, next, sublist, gone⟩ := progress.next_eq
  obtain ⟨canonical, tracked, known, -⟩ := progress.traverse
  have unchanged := (traverse_idles t).find?
  rw [next] at answer
  simp only [Prod.mk.injEq, Except.ok.injEq] at answer
  obtain ⟨first, rfl⟩ := answer
  obtain ⟨skipped, rest, rfl, found, absent⟩ := firstLive_some canonical.toSound first
  have unseen : k ∉ visited := by
    intro member
    have distinct := (tracked _ order).1
    exact (List.nodup_append.1 distinct).2.2 k (sublist.subset member) k (by simp) rfl
  refine ⟨unseen, unchanged k ▸ found, canonical, tracked, ?_, .inr ?_⟩
  · rintro k' (present | member)
    · exact known k' (.inl present)
    · rcases List.mem_append.1 member with member | member
      · exact known k' (.inr member)
      · rw [List.mem_singleton.1 member]
        exact known k (.inl (by simp [found]))
  · refine ⟨passed ++ skipped, k, rest, by simpa using order, rfl,
      normal_of_find? canonical.toSound found, ?_, ?_⟩
    · exact (sublist.trans (List.sublist_append_left _ _)).append (List.Sublist.refl [k])
    · intro k' member unseen
      simp only [List.mem_append, List.mem_singleton, not_or] at member unseen
      rcases member with (member | member) | rfl
      · exact gone k' member unseen.1
      · exact absent k' member
      · exact absurd rfl unseen.2

theorem next_none (progress : Progress start t cursor visited)
    (answer : t.next cursor = (.ok none, t')) (found : t.find? k ≠ none) : k ∈ visited := by
  obtain ⟨passed, ahead, order, next, -, gone⟩ := progress.next_eq
  obtain ⟨canonical, tracked, -, -⟩ := progress.traverse
  rw [next] at answer
  simp only [Prod.mk.injEq, Except.ok.injEq] at answer
  rw [← (traverse_idles t).find?] at found
  by_contra unseen
  rcases List.mem_append.1 ((tracked _ order).2 k found) with member | member
  · exact found (gone k member unseen)
  · exact found (firstLive_none canonical.toSound answer.1 k member)

theorem nodup (progress : Progress start t cursor visited) : visited.Nodup := by
  rcases progress.place with ⟨-, rfl⟩ | ⟨passed, k, ahead, order, -, -, sublist, -⟩
  · exact List.nodup_nil
  · have whole : (passed ++ [k]).Sublist (passed ++ k :: ahead) := by simp
    exact (progress.tracked _ order).1.sublist (sublist.trans whole)

theorem length_le (progress : Progress start t cursor visited) (sound : start.Sound) :
    visited.length ≤ start.entries.length := by
  have subset : visited ⊆ start.entries.map Prod.fst := by
    intro k member
    rw [entries_keys]
    exact (mem_keys sound).2 (progress.known k (.inr member))
  simpa using (progress.nodup.subperm subset).length_le

end Progress

theorem Traversal.progress (canonical : start.Canonical) (tracked : start.Tracked)
    (traversal : Traversal start t cursor visited) : Progress start t cursor visited := by
  induction traversal with
  | start => exact ⟨canonical, tracked, fun k => by simp, .inl ⟨rfl, rfl⟩⟩
  | act _ adds ih => exact ih.shrink (adds.shrinks ih.canonical ih.tracked)
  | advance _ answer ih => exact (ih.next_some answer).2.2

theorem presized_tracked (array hash : Nat) : (presized array hash).Tracked := by
  rintro order ⟨⟩

/-- A traversal never fails, gives no key twice, gives each key with the value it has then, comes to
its end, and has then given every key that the table still has. -/
theorem traversal_complete (array hash : Nat) (before : List Op) {t : Table} {cursor : Value}
    {visited : List Key}
    (traversal : Traversal ((presized array hash).run before) t cursor visited) :
    visited.Nodup ∧ visited.length ≤ ((presized array hash).run before).entries.length ∧
    ∃ answer, (t.next cursor).1 = .ok answer ∧
      match answer with
      | some (k, v) => k ∉ visited ∧ v ≠ .nil ∧ t.getKey k = v
      | none => ∀ k, t.getKey k ≠ .nil → k ∈ visited := by
  have start := presized_canonical array hash
  have canonical := run_canonical start before
  have progress := traversal.progress canonical
    (run_tracked start (presized_tracked array hash) before)
  refine ⟨progress.nodup, progress.length_le canonical.toSound, ?_⟩
  obtain ⟨passed, ahead, -, next, -, -⟩ := progress.next_eq
  refine ⟨_, by rw [next], ?_⟩
  split
  next k v first =>
    rw [first] at next
    obtain ⟨unseen, found, -⟩ := progress.next_some next
    exact ⟨unseen, (find?_eq_some progress.canonical.toSound).1 found⟩
  next finished =>
    rw [finished] at next
    intro k present
    refine progress.next_none next fun absent => present ?_
    rw [getKey_eq, absent]
    rfl

-- The first of three keys is removed as soon as it has been visited, which moves the second.
theorem traversal_complete_removing :
    let start := (presized 0 0).run
      [.push (.bool true), .push (.bool false), .putText "x" (.bool true)]
    ∃ t, Traversal start t (.int 1) [.int 1] ∧ t.array.size = 0 ∧
      ∃ answer, (t.next (.int 1)).1 = .ok answer ∧
        match answer with
        | some (k, v) => k ∉ [Key.int 1] ∧ v ≠ .nil ∧ t.getKey k = v
        | none => ∀ k, t.getKey k ≠ .nil → k ∈ [Key.int 1] := by
  intro start
  have first : start.next .nil = (.ok (some (.int 1, .bool true)), start.traverse) := rfl
  have removes : (Op.putInt 1 .nil).AddsNone start.traverse := by
    rintro k v ⟨⟩
    exact .inl rfl
  have walked := Traversal.act (.advance .start first) removes
  exact ⟨_, walked, rfl, (traversal_complete 0 0 _ walked).2.2⟩

end LuaMachine.Table
