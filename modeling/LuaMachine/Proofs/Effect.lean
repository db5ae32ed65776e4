import LuaMachine.Machine.Metatable
import LuaMachine.Proofs.Registry

set_option autoImplicit false

namespace LuaMachine

/-- Slots below `low` hold what they held, but for those written through a cell that was open on
them. -/
def Kept (low : Nat) (s t : State) : Prop :=
  ∃ written, t.escapes = written ++ s.escapes ∧
    (∀ slot ∈ written, slot < low → ∃ id, s.cell id = .opened slot) ∧
    ∀ slot v, slot < low → slot ∉ written → s.stack[slot]? = some v → t.stack[slot]? = some v

theorem Kept.of_eq {low : Nat} {s t : State} (stack : t.stack = s.stack)
    (escapes : t.escapes = s.escapes) : Kept low s t :=
  ⟨[], by simp [escapes], by simp, fun _ _ _ _ held => by rw [stack]; exact held⟩

structure Untouched (low : Nat) (s t : State) : Prop where
  kept : Kept low s t
  opened : ∀ id slot, slot < low → t.cell id = .opened slot → s.cell id = .opened slot

namespace Untouched

variable {low : Nat} {s t u : State}

theorem refl (low : Nat) (s : State) : Untouched low s s := ⟨.of_eq rfl rfl, fun _ _ _ h => h⟩

theorem trans (first : Untouched low s t) (second : Untouched low t u) : Untouched low s u := by
  obtain ⟨early, escapes, open₁, kept⟩ := first.kept
  obtain ⟨late, escapes', open₂, kept'⟩ := second.kept
  refine ⟨⟨late ++ early, by simp [escapes, escapes'], ?_, ?_⟩, ?_⟩
  · intro slot member below
    rcases List.mem_append.1 member with member | member
    -- What was open below in between was open from the start.
    · obtain ⟨id, isOpen⟩ := open₂ slot member below
      exact ⟨id, first.opened id slot below isOpen⟩
    · exact open₁ slot member below
  · intro slot v below notWritten held
    rw [List.mem_append, not_or] at notWritten
    exact kept' slot v below notWritten.1 (kept slot v below notWritten.2 held)
  · exact fun id slot below isOpen =>
      first.opened id slot below (second.opened id slot below isOpen)

theorem mono {low' : Nat} (h : Untouched low s t) (le : low' ≤ low) : Untouched low' s t := by
  obtain ⟨⟨written, escapes, isOpen, kept⟩, opened⟩ := h
  refine ⟨⟨written, escapes, fun slot member below => ?_, fun slot v below => ?_⟩,
    fun id slot below => ?_⟩
  · exact isOpen slot member (by omega)
  · exact kept slot v (by omega)
  · exact opened id slot (by omega)

end Untouched

structure Effect (low : Nat) (s t : State) : Prop where
  untouched : Untouched low s t
  size : s.stack.size ≤ t.stack.size
  registered : s.Registered → t.Registered

namespace Effect

variable {low : Nat} {s t u : State}

theorem refl (low : Nat) (s : State) : Effect low s s := ⟨.refl low s, Nat.le_refl _, id⟩

theorem trans (first : Effect low s t) (second : Effect low t u) : Effect low s u :=
  ⟨first.untouched.trans second.untouched, Nat.le_trans first.size second.size,
    second.registered ∘ first.registered⟩

theorem of_eq (stack : t.stack = s.stack) (escapes : t.escapes = s.escapes)
    (opened : ∀ id slot, slot < low → t.cell id = .opened slot → s.cell id = .opened slot)
    (registered : s.Registered → t.Registered) : Effect low s t :=
  ⟨⟨.of_eq stack escapes, opened⟩, Nat.le_of_eq (congrArg _ stack.symm), registered⟩

theorem mono {low' : Nat} (h : Effect low s t) (le : low' ≤ low) : Effect low' s t :=
  ⟨h.untouched.mono le, h.size, h.registered⟩

end Effect

structure Still (low : Nat) (s t : State) : Prop extends Effect low s t where
  frames : t.frames = s.frames

namespace Still

variable {low : Nat} {s t u : State}

theorem refl (low : Nat) (s : State) : Still low s s := ⟨.refl low s, rfl⟩

theorem trans (first : Still low s t) (second : Still low t u) : Still low s u :=
  ⟨first.toEffect.trans second.toEffect, second.frames.trans first.frames⟩

theorem mono {low' : Nat} (h : Still low s t) (le : low' ≤ low) : Still low' s t :=
  ⟨h.toEffect.mono le, h.frames⟩

theorem of_cells (kept : Kept low s t) (size : s.stack.size ≤ t.stack.size)
    (frames : t.frames = s.frames)
    (cells : ∀ id slot, t.cell id = .opened slot ↔ s.cell id = .opened slot) : Still low s t where
  untouched := ⟨kept, fun id slot _ => (cells id slot).1⟩
  size := size
  registered h := by
    unfold State.Registered at h ⊢
    rw [frames]
    exact h.congr_cell cells
  frames := frames

end Still

namespace Store

theorem cell_fresh (s : Store) : s.cell ⟨s.cells.size⟩ = .closed .nil := by
  simp [cell, Array.getD]

theorem cell_newCell (s : Store) (c : Cell) (id : CellId) :
    (s.newCell c).2.cell id = if id = ⟨s.cells.size⟩ then c else s.cell id := by
  obtain ⟨index⟩ := id
  simp only [newCell, cell, Array.getD_eq_getD_getElem?, Array.getElem?_push, CellId.mk.injEq]
  split <;> rfl

theorem cell_setCell_closed {s : Store} {id : CellId} {v w : Value} (was : s.cell id = .closed v)
    (other : CellId) (slot : Nat) :
    (s.setCell id w).cell other = .opened slot ↔ s.cell other = .opened slot := by
  simp only [setCell, was]
  by_cases same : id.index = other.index
  · have closed : s.cell other = .closed v := by simpa [cell, ← same] using was
    rw [closed]
    simp only [cell, Array.getD_eq_getD_getElem?, Array.getElem?_setIfInBounds, same, if_true]
    split <;> simp
  · simp [cell, Array.getD_eq_getD_getElem?, same]

theorem cell_closeCell (s : Store) (id other : CellId) :
    (s.closeCell id).cell other = if other = id then .closed (s.getCell id) else s.cell other := by
  unfold closeCell
  cases was : s.cell id with
  | opened slot =>
    have bound : id.index < s.cells.size := by
      refine Classical.byContradiction fun out => ?_
      simp [cell, Array.getD, out] at was
    have held : s.getCell id = s.slotValue slot := by simp [getCell, was]
    by_cases same : other = id
    · subst same
      simp [cell, Array.getD_eq_getD_getElem?, bound, held]
    · have apart : id.index ≠ other.index := by
        intro equal
        exact same (by cases other; cases id; simp_all)
      simp [cell, Array.getD_eq_getD_getElem?, apart, same]
  | closed v =>
    by_cases same : other = id
    · subst same
      simp [getCell, was]
    · simp [same]

theorem getCell_closeCells_head (s : Store) (id other : CellId) :
    (s.closeCell id).getCell other = s.getCell other := by
  by_cases same : other = id
  · rw [same, getCell_closeCell]
  · simp only [getCell, cell_closeCell, same, if_false, slotValue, stack_closeCell]

@[simp] theorem stack_closeCells (s : Store) (ids : List CellId) :
    (s.closeCells ids).stack = s.stack := by
  induction ids generalizing s with
  | nil => rfl
  | cons id rest ih => exact (ih (s.closeCell id)).trans (stack_closeCell s id)

theorem cells_reserve (s : Store) (size : Nat) : (s.reserve size).cells = s.cells := by
  unfold reserve
  split <;> rfl

theorem size_setCell (s : Store) (id : CellId) (v : Value) :
    (s.setCell id v).cells.size = s.cells.size := by
  unfold setCell
  split
  · rfl
  · exact Array.size_setIfInBounds

theorem size_closeCell (s : Store) (id : CellId) :
    (s.closeCell id).cells.size = s.cells.size := by
  unfold closeCell
  split
  · exact Array.size_setIfInBounds
  · rfl

theorem size_closeCells (s : Store) (ids : List CellId) :
    (s.closeCells ids).cells.size = s.cells.size := by
  induction ids generalizing s with
  | nil => rfl
  | cons id rest ih => exact (ih (s.closeCell id)).trans (size_closeCell s id)

theorem cell_closeCells (s : Store) (ids : List CellId) (other : CellId) :
    (s.closeCells ids).cell other =
      if other ∈ ids then .closed (s.getCell other) else s.cell other := by
  induction ids generalizing s with
  | nil => rfl
  | cons id rest ih =>
    change ((s.closeCell id).closeCells rest).cell other = _
    rw [ih, getCell_closeCells_head, cell_closeCell]
    by_cases later : other ∈ rest
    · simp [later]
    · by_cases same : other = id
      · simp [same]
      · simp [later, same]

end Store

namespace Vm

variable {α β : Type}

def after (x : Vm α) (s : State) : State :=
  match x s with
  | .ok _ t => t
  | .error _ t => t

-- Tests of how an action ends, for runs that start in a fixed state.
def returns (x : Vm α) (s : State) (test : α → State → Bool) : Bool :=
  match x s with
  | .ok a t => test a t
  | .error _ _ => false

def raises (x : Vm α) (s : State) (test : LuaError → State → Bool) : Bool :=
  match x s with
  | .error (.raised e) t => test e t
  | _ => false

theorem of_returns {x : Vm α} {s : State} {test : α → State → Bool}
    (passed : x.returns s test = true) : ∃ a t, x s = .ok a t ∧ test a t = true := by
  unfold returns at passed
  split at passed
  next a t ran => exact ⟨a, t, ran, passed⟩
  next => cases passed

theorem of_raises {x : Vm α} {s : State} {test : LuaError → State → Bool}
    (passed : x.raises s test = true) :
    ∃ e t, x s = .error (.raised e) t ∧ test e t = true := by
  unfold raises at passed
  split at passed
  next e t ran => exact ⟨e, t, ran, passed⟩
  next => cases passed

theorem bind_ok {x : Vm α} {s t : State} {a : α} (ran : x s = .ok a t) (f : α → Vm β) :
    (x >>= f) s = f a t := by
  change EStateM.bind x f s = _
  rw [EStateM.bind, ran]

theorem bind_error {x : Vm α} {s t : State} {e : Stop} (ran : x s = .error e t) (f : α → Vm β) :
    (x >>= f) s = .error e t := by
  change EStateM.bind x f s = _
  rw [EStateM.bind, ran]

theorem get_bind (f : State → Vm β) (s : State) : (get >>= f) s = f s s := rfl

theorem frame_bind (f : Frame → Vm β) (s : State) : (frame >>= f) s = f s.frame s := rfl

theorem ok_of_bind {x : Vm α} {f : α → Vm β} {s t : State} {b : β}
    (ran : (x >>= f) s = .ok b t) : ∃ a u, x s = .ok a u ∧ f a u = .ok b t := by
  cases first : x s with
  | ok a u => exact ⟨a, u, rfl, (bind_ok first f).symm.trans ran⟩
  | error e u =>
    rw [bind_error first] at ran
    cases ran

theorem error_of_bind {x : Vm α} {f : α → Vm β} {s t : State} {e : Stop}
    (ran : (x >>= f) s = .error e t) :
    x s = .error e t ∨ ∃ a u, x s = .ok a u ∧ f a u = .error e t := by
  cases first : x s with
  | ok a u => exact .inr ⟨a, u, rfl, (bind_ok first f).symm.trans ran⟩
  | error e' u =>
    rw [bind_error first] at ran
    cases ran
    exact .inl rfl

theorem after_bind_ok {x : Vm α} {s t : State} {a : α} (ran : x s = .ok a t) (f : α → Vm β) :
    (x >>= f).after s = (f a).after t := by
  rw [after, bind_ok ran, after]

theorem after_bind_error {x : Vm α} {s t : State} {e : Stop} (ran : x s = .error e t)
    (f : α → Vm β) : (x >>= f).after s = t := by
  rw [after, bind_error ran]

end Vm

def Quiet (low : Nat) {α : Type} (x : Vm α) : Prop := ∀ s, Still low s (x.after s)

namespace Quiet

open Vm

variable {α β : Type} {low : Nat}

theorem ok {x : Vm α} (h : Quiet low x) {s t : State} {a : α} (ran : x s = .ok a t) :
    Still low s t := by
  have still := h s
  rwa [after, ran] at still

theorem error {x : Vm α} (h : Quiet low x) {s t : State} {e : Stop} (ran : x s = .error e t) :
    Still low s t := by
  have still := h s
  rwa [after, ran] at still

theorem mono {low' : Nat} {x : Vm α} (h : Quiet low x) (le : low' ≤ low) : Quiet low' x :=
  fun s => (h s).mono le

theorem pure (a : α) : Quiet low (pure a : Vm α) := fun s => .refl low s

theorem stop (e : Stop) : Quiet low (throw e : Vm α) := fun s => .refl low s

theorem inspect (f : State → α) : Quiet low (fun s => .ok (f s) s : Vm α) := fun s => .refl low s

theorem bind {x : Vm α} {f : α → Vm β} (first : Quiet low x) (rest : ∀ a, Quiet low (f a)) :
    Quiet low (x >>= f) := by
  intro s
  cases ran : x s with
  | ok a t =>
    rw [after_bind_ok ran]
    exact (first.ok ran).trans (rest a t)
  | error e t =>
    rw [after_bind_error ran]
    exact first.error ran

theorem bindState {f : State → Vm α} (h : ∀ s, Still low s ((f s).after s)) :
    Quiet low (get >>= f) := h

theorem read (slot : Nat) : Quiet low (Vm.read slot) := by
  intro s
  unfold after Vm.read
  cases s.stack[slot]? <;> exact .refl low s

theorem write {slot : Nat} (above : low ≤ slot) (v : Value) : Quiet low (Vm.write slot v) := by
  intro s
  unfold after Vm.write
  split
  next t ran =>
    split at ran <;> cases ran
    refine .of_cells ⟨[], rfl, by simp, ?_⟩ (by simp) rfl fun _ _ => Iff.rfl
    intro other w below _ held
    simp only [Array.getElem?_set, held]
    rw [if_neg (by omega)]
  next t ran =>
    split at ran <;> cases ran
    exact .refl low s

theorem reserve (size : Nat) : Quiet low (Vm.reserve size) := by
  intro s
  refine .of_cells ⟨[], rfl, by simp, ?_⟩ ?_ rfl ?_
  · intro slot v _ _ held
    change (s.toStore.reserve size).stack[slot]? = some v
    unfold Store.reserve
    split
    · obtain ⟨bound, _⟩ := Array.getElem?_eq_some_iff.1 held
      simpa [Array.getElem?_append, bound] using held
    · exact held
  · change s.stack.size ≤ (s.toStore.reserve size).stack.size
    unfold Store.reserve
    split <;> simp
  · intro id slot
    change (s.toStore.reserve size).cell id = _ ↔ _
    unfold Store.reserve
    split <;> exact Iff.rfl

theorem reserveWithHeadroom (size : Nat) : Quiet low (Vm.reserveWithHeadroom size) :=
  bind (inspect id) fun s => reserve (size + s.config.headroom)

theorem readMany (slot n : Nat) : Quiet low (Vm.readMany slot n) := by
  induction n generalizing slot with
  | zero => exact pure []
  | succ n ih => exact bind (read slot) fun v => bind (ih (slot + 1)) fun rest => pure (v :: rest)

theorem writeMany {slot : Nat} (above : low ≤ slot) (values : List Value) :
    Quiet low (Vm.writeMany slot values) := by
  induction values generalizing slot with
  | nil => exact pure ()
  | cons v rest ih => exact bind (write above v) fun _ => ih (by omega)

theorem clear {slot : Nat} (above : low ≤ slot) (n : Nat) : Quiet low (Vm.clear slot n) := by
  induction n generalizing slot with
  | zero => exact pure ()
  | succ n ih => exact bind (write above .nil) fun _ => ih (by omega)

theorem take {slot : Nat} (above : low ≤ slot) : Quiet low (Vm.take slot) :=
  bind (read slot) fun v => bind (write above .nil) fun _ => pure v

theorem takeMany {slot : Nat} (above : low ≤ slot) (n : Nat) : Quiet low (Vm.takeMany slot n) := by
  induction n generalizing slot with
  | zero => exact pure []
  | succ n ih => exact bind (take above) fun v => bind (ih (by omega)) fun rest => pure (v :: rest)

theorem moveDown {source dest : Nat} (source_le : low ≤ source) (dest_le : low ≤ dest) (n : Nat) :
    Quiet low (Vm.moveDown source dest n) := by
  induction n generalizing source dest with
  | zero => exact pure ()
  | succ n ih =>
    exact bind (take source_le) fun v => bind (write dest_le v) fun _ => ih (by omega) (by omega)

theorem shiftUp {slot : Nat} (above : low ≤ slot) (n : Nat) : Quiet low (Vm.shiftUp slot n) := by
  induction n with
  | zero => exact pure ()
  | succ n ih =>
    exact bind (read (slot + n)) fun v => bind (write (by omega) v) fun _ => ih

theorem heap {f : State → α × State} (store : ∀ s, (f s).2.toStore = s.toStore)
    (frames : ∀ s, (f s).2.frames = s.frames) (escapes : ∀ s, (f s).2.escapes = s.escapes) :
    Quiet low (modifyGet f) := by
  intro s
  have stack : (f s).2.stack = s.stack := congrArg Store.stack (store s)
  refine .of_cells (.of_eq stack (escapes s)) (Nat.le_of_eq (congrArg _ stack.symm)) (frames s) ?_
  intro id slot
  change (f s).2.toStore.cell id = _ ↔ _
  rw [store s]

theorem newTable (t : Table) : Quiet low (Vm.newTable t) :=
  heap (fun _ => rfl) (fun _ => rfl) fun _ => rfl

theorem newFunction (c : Closure) : Quiet low (Vm.newFunction c) :=
  heap (fun _ => rfl) (fun _ => rfl) fun _ => rfl

theorem modifyTable (t : TableId) (f : Table → Table) : Quiet low (Vm.modifyTable t f) :=
  heap (fun _ => rfl) (fun _ => rfl) fun _ => rfl

theorem newClosedCell (v : Value) : Quiet low (newCell (.closed v)) := by
  intro s
  refine .of_cells (.of_eq rfl rfl) (Nat.le_refl _) rfl ?_
  intro id slot
  change (s.toStore.newCell (.closed v)).2.cell id = _ ↔ _
  rw [Store.cell_newCell]
  split
  next same => simp [same, Store.cell_fresh]
  next => exact Iff.rfl

theorem newCells (values : List Value) : Quiet low (Vm.newCells values) := by
  induction values with
  | nil => exact pure []
  | cons v rest ih => exact bind (newClosedCell v) fun id => bind ih fun ids => pure (id :: ids)

theorem newNative (f : Native) (captured : List Value) : Quiet low (Vm.newNative f captured) :=
  bind (newCells captured) fun ids => newFunction ⟨.native f, ids.toArray⟩

theorem tick : Quiet low Vm.tick := by
  intro s
  unfold after Vm.tick
  split
  next t ran =>
    split at ran <;> cases ran
    exact .of_cells (.of_eq rfl rfl) (Nat.le_refl _) rfl fun _ _ => Iff.rfl
  next t ran =>
    split at ran <;> cases ran
    exact .refl low s

theorem writeCell (id : CellId) (v : Value) : Quiet low (Vm.writeCell id v) := by
  refine bindState fun s => ?_
  cases was : s.cell id with
  | closed w =>
    have stack : (s.toStore.setCell id v).stack = s.stack := by simp [Store.setCell, was]
    exact .of_cells (.of_eq stack rfl) (Nat.le_of_eq (congrArg _ stack.symm)) rfl
      (Store.cell_setCell_closed was)
  | opened slot =>
    dsimp only
    by_cases bound : slot < s.stack.size
    · have wrote : Vm.write slot v s = .ok () { s with stack := s.stack.set slot v bound } :=
        dif_pos bound
      rw [after_bind_ok wrote]
      have size : s.stack.size ≤ (s.stack.set slot v bound).size := by simp
      -- The write may reach any slot, but the slot is noted.
      refine .of_cells ⟨[slot], rfl, by simpa using fun _ => ⟨id, was⟩, ?_⟩ size rfl
        fun _ _ => Iff.rfl
      intro other w _ notWritten held
      simp only [List.mem_singleton] at notWritten
      exact (Array.getElem?_set_ne bound (Ne.symm notWritten)).trans held
    · have stopped : Vm.write slot v s = .error (.outOfRange slot) s := dif_neg bound
      rw [after_bind_error stopped]
      exact .refl low s

end Quiet

-- An action that may run out of the stack but raises no error.
def Unraised {α : Type} (x : Vm α) : Prop := ∀ s e t, x s ≠ .error (.raised e) t

namespace Unraised

open Vm

variable {α β : Type}

theorem of_total {x : Vm α} (total : ∀ s, ∃ a t, x s = .ok a t) : Unraised x := by
  intro s e t raised
  obtain ⟨a, u, ran⟩ := total s
  rw [ran] at raised
  cases raised

theorem bind {x : Vm α} {f : α → Vm β} (first : Unraised x) (rest : ∀ a, Unraised (f a)) :
    Unraised (x >>= f) := by
  intro s e t raised
  rcases error_of_bind raised with failed | ⟨a, u, -, failed⟩
  · exact first s e t failed
  · exact rest a u e t failed

theorem pure (a : α) : Unraised (pure a : Vm α) := of_total fun s => ⟨a, s, rfl⟩

theorem inspect (f : State → α) : Unraised (fun s => .ok (f s) s : Vm α) :=
  of_total fun s => ⟨f s, s, rfl⟩

theorem modify (f : State → State) : Unraised (modify f : Vm Unit) :=
  of_total fun s => ⟨(), f s, rfl⟩

theorem read (slot : Nat) : Unraised (Vm.read slot) := by
  intro s e t raised
  unfold Vm.read at raised
  split at raised <;> cases raised

theorem write (slot : Nat) (v : Value) : Unraised (Vm.write slot v) := by
  intro s e t raised
  unfold Vm.write at raised
  split at raised <;> cases raised

theorem reserveWithHeadroom (size : Nat) : Unraised (Vm.reserveWithHeadroom size) :=
  bind (inspect id) fun _ => modify _

theorem clear (slot n : Nat) : Unraised (Vm.clear slot n) := by
  induction n generalizing slot with
  | zero => exact pure ()
  | succ n ih => exact bind (write slot .nil) fun _ => ih (slot + 1)

theorem take (slot : Nat) : Unraised (Vm.take slot) :=
  bind (read slot) fun v => bind (write slot .nil) fun _ => pure v

theorem takeMany (slot n : Nat) : Unraised (Vm.takeMany slot n) := by
  induction n generalizing slot with
  | zero => exact pure []
  | succ n ih => exact bind (take slot) fun v => bind (ih (slot + 1)) fun rest => pure (v :: rest)

theorem moveDown (source dest n : Nat) : Unraised (Vm.moveDown source dest n) := by
  induction n generalizing source dest with
  | zero => exact pure ()
  | succ n ih => exact bind (take source) fun v => bind (write dest v) fun _ => ih _ _

theorem readMany (slot n : Nat) : Unraised (Vm.readMany slot n) := by
  induction n generalizing slot with
  | zero => exact pure []
  | succ n ih => exact bind (read slot) fun v => bind (ih (slot + 1)) fun rest => pure (v :: rest)

theorem shiftUp (slot n : Nat) : Unraised (Vm.shiftUp slot n) := by
  induction n with
  | zero => exact pure ()
  | succ n ih => exact bind (read (slot + n)) fun v => bind (write _ v) fun _ => ih

theorem newCells (values : List Value) : Unraised (Vm.newCells values) := by
  induction values with
  | nil => exact pure []
  | cons v rest ih =>
    exact bind (of_total fun _ => ⟨_, _, rfl⟩) fun id => bind ih fun ids => pure (id :: ids)

theorem newNative (f : Native) (captured : List Value) : Unraised (Vm.newNative f captured) :=
  bind (newCells captured) fun _ => of_total fun _ => ⟨_, _, rfl⟩

theorem writeCell (id : CellId) (v : Value) : Unraised (Vm.writeCell id v) := by
  refine bind (inspect fun s => s) fun s => ?_
  split
  · exact bind (write _ v) fun _ => modify _
  · exact modify _

theorem captureSlot (slot : Nat) : Unraised (Vm.captureSlot slot) := by
  refine bind (inspect fun s => s) fun s => ?_
  split
  · exact pure _
  · exact bind (of_total fun _ => ⟨_, _, rfl⟩) fun _ => bind (modify _) fun _ => pure _

end Unraised

end LuaMachine
