import LuaMachine.Machine.State
import Mathlib.Data.List.Nodup

set_option autoImplicit false

namespace LuaMachine

-- All calls in progress, the running one first.
def State.frames (s : State) : List Frame := s.frame :: s.callers.frames

theorem Callers.ext_frames {c d : Callers} (same : c.frames = d.frames) : c = d := by
  obtain ⟨frames, count, exact⟩ := c
  obtain ⟨others, number, exact'⟩ := d
  subst same exact exact'
  rfl

theorem State.frames_injective {s t : State} (same : t.frames = s.frames) :
    t.frame = s.frame ∧ t.callers = s.callers := by
  obtain ⟨frame, callers⟩ := List.cons.inj same
  exact ⟨frame, Callers.ext_frames callers⟩

theorem State.frames_congr {s t : State} (frame : t.frame = s.frame)
    (callers : t.callers = s.callers) : t.frames = s.frames := by
  rw [frames, frames, frame, callers]

/-- Every open cell is in the list of one call, and every entry of a list is an open cell. -/
structure Registry (cell : CellId → Cell) (frames : List Frame) : Prop where
  window : ∀ f ∈ frames, f.base ≤ f.top
  opened : ∀ f ∈ frames, ∀ p ∈ f.opened, cell p.2 = .opened p.1
  base : ∀ f ∈ frames, ∀ p ∈ f.opened, f.base ≤ p.1
  slots : ∀ f ∈ frames, (f.opened.map Prod.fst).Nodup
  ids : ((frames.flatMap Frame.opened).map Prod.snd).Nodup
  owner : ∀ id slot, cell id = .opened slot → ∃ f ∈ frames, (slot, id) ∈ f.opened

def State.Registered (s : State) : Prop := Registry s.cell s.frames

namespace Registry

variable {cell cell' : CellId → Cell} {f g : Frame} {frames : List Frame}

theorem congr_cell (h : Registry cell frames)
    (same : ∀ id slot, cell' id = .opened slot ↔ cell id = .opened slot) :
    Registry cell' frames where
  window := h.window
  opened f member p entry := (same _ _).2 (h.opened f member p entry)
  base := h.base
  slots := h.slots
  ids := h.ids
  owner id slot isOpen := h.owner id slot ((same _ _).1 isOpen)

theorem congr_head (h : Registry cell (f :: frames)) (opened : g.opened = f.opened)
    (base : g.base = f.base) (window : g.base ≤ g.top) : Registry cell (g :: frames) where
  window := by
    simpa [window] using fun e member => h.window e (List.mem_cons_of_mem _ member)
  opened := by simpa [opened] using h.opened
  base := by simpa [opened, base] using h.base
  slots := by simpa [opened] using h.slots
  ids := by simpa [opened] using h.ids
  owner := by simpa [opened] using h.owner

theorem push (h : Registry cell frames) (none : f.opened = []) (window : f.base ≤ f.top) :
    Registry cell (f :: frames) where
  window := by simpa [window] using h.window
  opened := by simpa [none] using h.opened
  base := by simpa [none] using h.base
  slots := by simpa [none] using h.slots
  ids := by simpa [none] using h.ids
  owner := by simpa [none] using h.owner

theorem pop (h : Registry cell (f :: frames)) (none : f.opened = []) : Registry cell frames where
  window e member := h.window e (List.mem_cons_of_mem _ member)
  opened e member := h.opened e (List.mem_cons_of_mem _ member)
  base e member := h.base e (List.mem_cons_of_mem _ member)
  slots e member := h.slots e (List.mem_cons_of_mem _ member)
  ids := by simpa [none] using h.ids
  owner := by simpa [none] using h.owner

theorem register (h : Registry cell (f :: frames)) {id : CellId} {slot : Nat}
    (fresh : ∀ slot, cell id ≠ .opened slot) (free : f.opened.lookup slot = none)
    (above : f.base ≤ slot) (here : cell' id = .opened slot)
    (elsewhere : ∀ other, other ≠ id → cell' other = cell other) :
    Registry cell' ({ f with opened := (slot, id) :: f.opened } :: frames) := by
  -- No list names the new cell, because what a list names is open already.
  have unused : ∀ e ∈ f :: frames, ∀ p ∈ e.opened, p.2 ≠ id := by
    intro e member p entry same
    exact fresh p.1 (same ▸ h.opened e member p entry)
  have kept : ∀ e ∈ f :: frames, ∀ p ∈ e.opened, cell' p.2 = .opened p.1 := by
    intro e member p entry
    rw [elsewhere p.2 (unused e member p entry)]
    exact h.opened e member p entry
  have slotFree : slot ∉ f.opened.map Prod.fst := by
    intro taken
    obtain ⟨p, entry, rfl⟩ := List.mem_map.1 taken
    exact absurd (List.lookup_eq_none_iff.1 free p entry) (by simp)
  refine ⟨?_, ?_, ?_, ?_, ?_, ?_⟩
  · simpa using ⟨h.window f (by simp), fun e member => h.window e (by simp [member])⟩
  · intro e member p entry
    rcases List.mem_cons.1 member with rfl | member
    · rcases List.mem_cons.1 entry with rfl | entry
      · exact here
      · exact kept f (by simp) p entry
    · exact kept e (by simp [member]) p entry
  · intro e member p entry
    rcases List.mem_cons.1 member with rfl | member
    · rcases List.mem_cons.1 entry with rfl | entry
      · exact above
      · exact h.base f (by simp) p entry
    · exact h.base e (by simp [member]) p entry
  · intro e member
    rcases List.mem_cons.1 member with rfl | member
    · exact List.nodup_cons.2 ⟨slotFree, h.slots f (by simp)⟩
    · exact h.slots e (by simp [member])
  · have absent : id ∉ ((f :: frames).flatMap Frame.opened).map Prod.snd := by
      intro taken
      obtain ⟨p, entry, same⟩ := List.mem_map.1 taken
      obtain ⟨e, member, entry⟩ := List.mem_flatMap.1 entry
      exact unused e member p entry same
    exact List.nodup_cons.2 ⟨absent, h.ids⟩
  · intro other slot' isOpen
    by_cases same : other = id
    · subst same
      rw [here] at isOpen
      cases isOpen
      exact ⟨_, List.mem_cons_self, List.mem_cons_self⟩
    · rw [elsewhere other same] at isOpen
      obtain ⟨e, member, entry⟩ := h.owner other slot' isOpen
      rcases List.mem_cons.1 member with rfl | member
      · exact ⟨_, List.mem_cons_self, List.mem_cons_of_mem _ entry⟩
      · exact ⟨e, List.mem_cons_of_mem _ member, entry⟩

theorem disjoint (ids : (((f :: frames).flatMap Frame.opened).map Prod.snd).Nodup)
    (member : g ∈ frames) {p q : Nat × CellId} (mine : p ∈ f.opened) (theirs : q ∈ g.opened) :
    p.2 ≠ q.2 := by
  simp only [List.flatMap_cons, List.map_append, List.nodup_append] at ids
  exact ids.2.2 p.2 (List.mem_map_of_mem mine) q.2
    (List.mem_map_of_mem (List.mem_flatMap.2 ⟨g, member, theirs⟩))

theorem index_unique (ids : ((frames.flatMap Frame.opened).map Prod.snd).Nodup) {i j : Nat}
    {p q : Nat × CellId} (first : frames[i]? = some f) (second : frames[j]? = some g)
    (inFirst : p ∈ f.opened) (inSecond : q ∈ g.opened) (same : p.2 = q.2) : i = j := by
  induction frames generalizing i j with
  | nil => simp at first
  | cons e rest ih =>
    have tail : ((rest.flatMap Frame.opened).map Prod.snd).Nodup := by
      simp only [List.flatMap_cons, List.map_append, List.nodup_append] at ids
      exact ids.2.1
    cases i with
    | zero =>
      cases j with
      | zero => rfl
      | succ j =>
        cases Option.some.inj first
        exact absurd same (disjoint ids (List.mem_of_getElem? second) inFirst inSecond)
    | succ i =>
      cases j with
      | zero =>
        cases Option.some.inj second
        exact absurd same.symm (disjoint ids (List.mem_of_getElem? first) inSecond inFirst)
      | succ j => rw [ih tail first second]

theorem close (h : Registry cell (f :: frames)) (low : Nat)
    (closed : ∀ p ∈ f.opened, low ≤ p.1 → ∀ slot, cell' p.2 ≠ .opened slot)
    (elsewhere : ∀ id, (∀ p ∈ f.opened, low ≤ p.1 → p.2 ≠ id) → cell' id = cell id) :
    Registry cell' ({ f with opened := f.opened.filter (¬ low ≤ ·.1) } :: frames) := by
  -- A cell is open on one slot only, so that none below `low` is closed with those above.
  have mine : ∀ p ∈ f.opened, ¬ low ≤ p.1 → cell' p.2 = .opened p.1 := by
    intro p entry below
    rw [elsewhere p.2, h.opened f (by simp) p entry]
    intro q other above same
    have slots : Cell.opened q.1 = .opened p.1 := by
      rw [← h.opened f (by simp) q other, same, h.opened f (by simp) p entry]
    exact below (Cell.opened.inj slots ▸ above)
  have theirs : ∀ e ∈ frames, ∀ p ∈ e.opened, cell' p.2 = .opened p.1 := by
    intro e member p entry
    rw [elsewhere p.2, h.opened e (by simp [member]) p entry]
    exact fun q other _ => disjoint h.ids member other entry
  have shorter : (f.opened.filter (¬ low ≤ ·.1)).Sublist f.opened := List.filter_sublist
  refine ⟨?_, ?_, ?_, ?_, ?_, ?_⟩
  · simpa using ⟨h.window f (by simp), fun e member => h.window e (by simp [member])⟩
  · intro e member p entry
    rcases List.mem_cons.1 member with rfl | member
    · obtain ⟨entry, below⟩ := List.mem_filter.1 entry
      exact mine p entry (by simpa using below)
    · exact theirs e member p entry
  · intro e member p entry
    rcases List.mem_cons.1 member with rfl | member
    · exact h.base f (by simp) p (shorter.subset entry)
    · exact h.base e (by simp [member]) p entry
  · intro e member
    rcases List.mem_cons.1 member with rfl | member
    · exact (h.slots f (by simp)).sublist (shorter.map _)
    · exact h.slots e (by simp [member])
  · exact h.ids.sublist ((shorter.append_right _).map _)
  · intro id slot isOpen
    have untouched : ∀ p ∈ f.opened, low ≤ p.1 → p.2 ≠ id := by
      intro p entry above same
      exact closed p entry above slot (same ▸ isOpen)
    rw [elsewhere id untouched] at isOpen
    obtain ⟨e, member, entry⟩ := h.owner id slot isOpen
    rcases List.mem_cons.1 member with rfl | member
    · refine ⟨_, List.mem_cons_self, List.mem_filter.2 ⟨entry, ?_⟩⟩
      by_cases above : low ≤ slot
      · exact absurd rfl (untouched (slot, id) entry above)
      · simp [above]
    · exact ⟨e, List.mem_cons_of_mem _ member, entry⟩

end Registry

end LuaMachine
