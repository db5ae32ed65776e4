import LuaMachine.Command
import LuaMachine.Proofs.Run

set_option autoImplicit false

namespace LuaMachine

open Vm

/-- The states in which a host finds its machine, whatever it and its functions have done. The
budget may end a run before any instruction and any call, so that the states in the middle of a run
are among them. -/
inductive Reachable (host : Host) : State → Prop where
  | new (config : Config) : Reachable host (.new config)
  | allot {s : State} (budget : Nat) : Reachable host s → Reachable host { s with budget }
  | perform {s : State} {α : Type} {x : Vm α} :
    Reachable host s → Interface (Machine.call host) x → Reachable host (x.after s)

theorem State.bare_registered (config : Config) : (bare config).Registered := by
  have closed (id : CellId) : (bare config).cell id = .closed .nil := rfl
  refine ⟨?_, ?_, ?_, ?_, ?_, ?_⟩
  · simp [frames, bare, Frame.host]
  · simp [frames, bare, Frame.host]
  · simp [frames, bare, Frame.host]
  · simp [frames, bare, Frame.host]
  · simp [frames, bare, Frame.host]
  · intro id slot isOpen
    rw [closed] at isOpen
    cases isOpen

theorem Base.openLibrary_quiet (low : Nat) : Quiet low Base.openLibrary := by
  have global (name : String) (v : Value) : Quiet low (setGlobal name v) :=
    .bind (.inspect id) fun s => .modifyTable s.globals _
  have registers (entries : List (String × BaseFunction)) :
      Quiet low (entries.forM fun entry => register entry.1 (.base entry.2)) := by
    induction entries with
    | nil => exact .pure _
    | cons entry rest ih =>
      exact .bind (.bind (.newNative _ _) fun f => global _ (.function f)) fun _ => ih
  exact .bind (registers names) fun _ => .bind (.inspect id) fun s =>
    .bind (global _ (.table s.globals)) fun _ => global _ _

theorem State.new_registered (config : Config) : (new config).Registered := by
  unfold new
  split
  next s ran => exact ((Base.openLibrary_quiet 0).ok ran).registered (bare_registered config)
  next s ran => exact ((Base.openLibrary_quiet 0).error ran).registered (bare_registered config)

theorem Reachable.registered {host : Host} (propagates : host.Propagates) {s : State}
    (reachable : Reachable host s) : s.Registered := by
  induction reachable with
  | new config => exact State.new_registered config
  | allot budget _ ih => exact ih
  | @perform s α x _ interface ih =>
    have acts := interface.acts (Machine.call_balanced propagates) s.frame.base
    have window := ih.window s.frame List.mem_cons_self
    unfold after
    cases ran : x s with
    | ok a t => exact (acts.ok rfl window ran).registered ih
    | error e t => exact (acts.error rfl window ran).registered ih

def SparesCells {α : Type} (x : Vm α) : Prop := ∀ s, (x.after s).cells = s.cells

namespace SparesCells

variable {α β : Type}

theorem pure (a : α) : SparesCells (pure a : Vm α) := fun _ => rfl

theorem bind {x : Vm α} {f : α → Vm β} (first : SparesCells x) (rest : ∀ a, SparesCells (f a)) :
    SparesCells (x >>= f) := by
  intro s
  have same := first s
  unfold after at same
  cases ran : x s with
  | ok a t =>
    rw [ran] at same
    rw [after_bind_ok ran]
    exact (rest a t).trans same
  | error e t =>
    rw [ran] at same
    rw [after_bind_error ran]
    exact same

theorem read (slot : Nat) : SparesCells (Vm.read slot) := by
  intro s
  unfold after Vm.read
  cases s.stack[slot]? <;> rfl

theorem write (slot : Nat) (v : Value) : SparesCells (Vm.write slot v) := by
  intro s
  by_cases bound : slot < s.stack.size
  · rw [after, write_ok bound]
  · simp [after, Vm.write, bound]

theorem take (slot : Nat) : SparesCells (Vm.take slot) :=
  bind (read slot) fun v => bind (write slot .nil) fun _ => pure v

theorem takeMany (slot n : Nat) : SparesCells (Vm.takeMany slot n) := by
  induction n generalizing slot with
  | zero => exact pure []
  | succ n ih => exact bind (take slot) fun v => bind (ih (slot + 1)) fun rest => pure (v :: rest)

theorem moveDown (source dest n : Nat) : SparesCells (Vm.moveDown source dest n) := by
  induction n generalizing source dest with
  | zero => exact pure ()
  | succ n ih => exact bind (take source) fun v => bind (write dest v) fun _ => ih _ _

theorem clear (slot n : Nat) : SparesCells (Vm.clear slot n) := by
  induction n generalizing slot with
  | zero => exact pure ()
  | succ n ih => exact bind (write slot .nil) fun _ => ih (slot + 1)

theorem reserveWithHeadroom (size : Nat) : SparesCells (Vm.reserveWithHeadroom size) := by
  intro s
  change (s.toStore.reserve (size + s.config.headroom)).cells = s.cells
  unfold Store.reserve
  split <;> rfl

theorem popFrame : SparesCells Vm.popFrame := by
  intro s
  rw [after, Vm.popFrame, get_bind]
  cases s.callers.pop? <;> rfl

theorem enterScript (f : FunctionId) (p : Prototype) (func nargs : Nat) :
    SparesCells (Call.enterScript f p func nargs) := by
  unfold Call.enterScript
  dsimp only
  refine iteInduction (fun _ => bind (takeMany _ _) fun varargs => ?_)
    fun _ => bind (pure []) fun varargs => ?_
  all_goals
    exact bind (reserveWithHeadroom _) fun _ => bind (clear _ _) fun _ => fun s => rfl

end SparesCells

/-- Whichever way a call leaves, the cells on its registers get the values of the registers. -/
structure State.ClosesCells (s : State) : Prop where
  returned : ∀ first n, ∀ p ∈ s.frame.opened,
    ((Call.returnFrom first n).after s).cell p.2 = .closed (s.slotValue p.1)
  -- The value that is called may give way to its handler, and the registers move up for it.
  replaced : ∀ call slot nargs f n t, Call.resolve slot nargs s = .ok (f, n) t →
    ∀ code cells, t.function? f = some ⟨.script code, cells⟩ → ∀ p ∈ s.frame.opened,
      ((Call.tail call slot nargs).after s).cell p.2 = .closed (t.slotValue p.1)
  -- A native function is called only when the cells are closed.
  handedOn : ∀ call slot nargs f n t, Call.resolve slot nargs s = .ok (f, n) t →
    (∀ code cells, t.function? f ≠ some ⟨.script code, cells⟩) →
      ∃ u, (∀ p ∈ s.frame.opened, u.cell p.2 = .closed (t.slotValue p.1)) ∧ u.frame.opened = [] ∧
        Call.tail call slot nargs s =
          (do
            let n ← call slot n none
            return .returned (← Call.returnFrom slot n) : Vm Call.Flow) u
  unwound : ∀ gone (caller : State), s.frames = gone ++ caller.frames →
    ∃ t, Call.unwind caller.depth s = .ok () t ∧ t.frames = caller.frames ∧
      ∀ f ∈ gone, ∀ p ∈ f.opened, t.cell p.2 = .closed (s.slotValue p.1)

theorem State.Registered.getCell {s : State} (registered : s.Registered) {f : Frame}
    (member : f ∈ s.frames) {p : Nat × CellId} (entry : p ∈ f.opened) :
    s.getCell p.2 = s.slotValue p.1 := by
  rw [Store.getCell, registered.opened f member p entry]

theorem State.Registered.closed {s : State} (registered : s.Registered) {low : Nat}
    (le : low ≤ s.frame.base) {p : Nat × CellId} (entry : p ∈ s.frame.opened) :
    ((closeFrom low).after s).cell p.2 = .closed (s.slotValue p.1) := by
  have above := registered.base s.frame List.mem_cons_self p entry
  rw [cell_closeFrom, if_pos ⟨p, entry, Nat.le_trans le above, rfl⟩,
    registered.getCell List.mem_cons_self entry]

theorem State.Registered.closesCells {s : State} (registered : s.Registered) : s.ClosesCells where
  returned first n p entry := by
    have closed := registered.closed (Nat.zero_le _) entry
    -- What follows the closing reaches no cell.
    have spares : SparesCells (do let f ← popFrame; moveDown first f.func n; return n) :=
      .bind .popFrame fun f => .bind (.moveDown _ _ _) fun _ => .pure n
    have steps : (Call.returnFrom first n).after s =
        (do let f ← popFrame; moveDown first f.func n; return n : Vm Nat).after
          ((closeFrom 0).after s) := after_bind_ok (closeFrom_run 0 s) _
    rw [steps, Store.cell, spares]
    exact closed
  replaced call slot nargs f n t resolved code cells found p entry := by
    have still := (Call.resolve_quiet slot nargs).ok resolved
    obtain ⟨same, -⟩ := State.frames_injective still.frames
    have listed := still.registered registered
    have closed := State.Registered.closed listed (Nat.le_refl _) (same ▸ entry)
    have spares : SparesCells (do
        let caller ← popFrame
        moveDown slot caller.func (n + 1)
        Call.enterScript f code caller.func n
        return Call.Flow.next) :=
      .bind .popFrame fun c => .bind (.moveDown _ _ _) fun _ =>
        .bind (.enterScript f code c.func n) fun _ => .pure _
    rw [after, Call.tail_script resolved found, ← after, Store.cell, spares]
    exact closed
  handedOn call slot nargs f n t resolved other := by
    have still := (Call.resolve_quiet slot nargs).ok resolved
    obtain ⟨same, -⟩ := State.frames_injective still.frames
    have listed := still.registered registered
    refine ⟨(closeFrom t.frame.base).after t, fun p entry => ?_, ?_,
      Call.tail_native resolved other⟩
    · exact listed.closed (Nat.le_refl _) (same ▸ entry)
    · rw [frame_closeFrom]
      simpa using listed.base t.frame List.mem_cons_self
  unwound gone caller frames := by
    obtain ⟨t, ran, left, discarded⟩ := Call.unwind_run frames
    refine ⟨t, ran, left, fun f member p entry => ?_⟩
    rw [discarded.closed registered f member p entry,
      registered.getCell (frames ▸ List.mem_append_left _ member) entry]

/-- Every open cell is in the list of exactly one call, by its slot, which is a register of the
call; and the lists have no other entries. -/
structure State.Accounted (s : State) : Prop where
  owner : ∀ id slot, s.cell id = .opened slot →
    ∃! i : Nat, ∃ f : Frame, s.frames[i]? = some f ∧ (slot, id) ∈ f.opened
  base : ∀ f ∈ s.frames, ∀ p ∈ f.opened, f.base ≤ p.1
  opened : ∀ f ∈ s.frames, ∀ p ∈ f.opened, s.cell p.2 = .opened p.1
  slots : ∀ f ∈ s.frames, (f.opened.map Prod.fst).Nodup

theorem State.Registered.accounted {s : State} (registered : s.Registered) : s.Accounted where
  owner id slot isOpen := by
    obtain ⟨f, member, entry⟩ := registered.owner id slot isOpen
    obtain ⟨i, found⟩ := List.mem_iff_getElem?.1 member
    refine ⟨i, ⟨f, found, entry⟩, ?_⟩
    rintro j ⟨g, found', entry'⟩
    exact Registry.index_unique registered.ids found' found entry' entry rfl
  base := registered.base
  opened := registered.opened
  slots := registered.slots

theorem Call.Balanced.registered {call : Call} (balanced : call.Balanced) {func : Nat} {s : State}
    (above : s.frame.base ≤ func) (registered : s.Registered) (nargs : Nat) (wanted : Option Nat) :
    ((call func nargs wanted).after s).Registered := by
  unfold after
  cases ran : call func nargs wanted s with
  | ok n t => exact (balanced.ok ran).registered above registered
  | error e t => exact (balanced.error ran).registered registered

/-- No cell is left open on a register whose call is gone. -/
theorem openCells_accounted {host : Host} (propagates : host.Propagates) :
    (∀ s, Reachable host s → s.Registered) ∧
    (∀ call, Machine.Makes host call → ∀ func nargs wanted s, s.frame.base ≤ func →
      s.Registered → ((call func nargs wanted).after s).Registered) ∧
    ∀ s : State, s.Registered → s.Accounted ∧ s.ClosesCells := by
  refine ⟨fun s reachable => reachable.registered propagates, ?_, ?_⟩
  · intro call makes func nargs wanted s above registered
    exact (makes.balanced propagates).registered above registered nargs wanted
  · exact fun s registered => ⟨registered.accounted, registered.closesCells⟩

theorem Command.noHost_propagates : noHost.Propagates :=
  fun name _ => (Windowed.fault (.host name)).interface

namespace Captured

-- A function that makes the first register of its maker true.
def setter : Prototype :=
  { source := "", stackSize := 1, captures := #[.register 0]
    code := #[.ofABC .loadBool 0 1 0, .ofABC .setUpval 0 0 0, .ofABC .ret 0 1 0] }

def maker : Prototype :=
  { source := "", protos := [setter]
    code := #[.ofABC .loadBool 0 0 0, .ofABx .closure 1 0, .ofABC .call 1 1 1, .ofABC .ret 0 1 0] }

def loaded : State := (Machine.loadPrototype maker).after (.new {})

-- The maker, whose first register is captured, is about to call the setter.
def state : State :=
  { (Call.host (Machine.call Command.noHost) 0 none).after { loaded with budget := 3 } with
    budget := 9 }

theorem state_reachable : Reachable Command.noHost state :=
  .allot 9 (.perform (.allot 3 (.perform (.new {}) (.loadPrototype maker))) (.host 0 none))

end Captured

theorem openCells_accounted_captured :
    Captured.state.Accounted ∧ Captured.state.ClosesCells ∧
      ((Machine.call Command.noHost 2 0 none).after Captured.state).Registered ∧
      ∃ id t, Captured.state.cell id = .opened 1 ∧
        ((Call.returnFrom 1 0).after Captured.state).cell id = .closed (.bool false) ∧
        ((Call.tail (Machine.call Command.noHost) 2 0).after Captured.state).cell id =
          .closed (.bool false) ∧
        Call.unwind 1 Captured.state = .ok () t ∧ t.cell id = .closed (.bool false) := by
  have entry : Captured.state.frame.opened = [(1, ⟨0⟩)] := by decide +kernel
  have held : Captured.state.slotValue 1 = .bool false := by decide +kernel
  have single : Captured.state.callers.frames.length = 1 := by decide +kernel
  have below : Captured.state.frame.base ≤ 2 := by decide +kernel
  have resolved : (Call.resolve 2 0).returns Captured.state (fun found t =>
      t.slotValue 1 = .bool false ∧ (t.prototype? (.enter found.1 2 3)).isSome) = true := by
    decide +kernel
  obtain ⟨reachable, called, registered⟩ := openCells_accounted Command.noHost_propagates
  have listed := reachable _ Captured.state_reachable
  obtain ⟨accounted, closes⟩ := registered _ listed
  have later := called _ .outer 2 0 none _ below listed
  -- The state is hidden so that nothing starts to run it.
  generalize Captured.state = s at *
  have member : ((1, ⟨0⟩) : Nat × CellId) ∈ s.frame.opened := by simp [entry]
  obtain ⟨caller, callers⟩ := List.length_eq_one_iff.1 single
  obtain ⟨t, unwound, -, discarded⟩ := closes.unwound [s.frame]
    { s with frame := caller, callers := {} } (by simp [State.frames, callers])
  obtain ⟨⟨f, n⟩, u, ran, ended⟩ := of_returns resolved
  obtain ⟨same, script⟩ := of_decide_eq_true ended
  refine ⟨accounted, closes, later, ⟨0⟩, t, accounted.opened _ List.mem_cons_self _ member, ?_, ?_,
    unwound, ?_⟩
  · rw [closes.returned 1 0 _ member, held]
  · rcases found : u.function? f with _ | ⟨p | g, cells⟩
    · simp [State.prototype?, Frame.enter, found] at script
    · rw [closes.replaced _ 2 0 f n u ran p cells found _ member, same]
    · simp [State.prototype?, Frame.enter, found] at script
  · rw [discarded _ List.mem_cons_self _ member, held]

/-- A call leaves the slots below its function alone, but for those written through a cell that was
open on them. -/
theorem call_isolated {host : Host} (propagates : host.Propagates) {call : Call}
    (makes : Machine.Makes host call) (func nargs : Nat) (wanted : Option Nat) (s : State) :
    ∃ written, ((call func nargs wanted).after s).escapes = written ++ s.escapes ∧
      (∀ slot ∈ written, slot < func → ∃ id, s.cell id = .opened slot) ∧
      ∀ slot v, slot < func → slot ∉ written → s.stack[slot]? = some v →
        ((call func nargs wanted).after s).stack[slot]? = some v := by
  have balanced := makes.balanced propagates
  unfold after
  cases ran : call func nargs wanted s with
  | ok n t => exact (balanced.ok ran).untouched.kept
  | error e t => exact (balanced.error ran).untouched.kept

theorem call_isolated_captured :
    ∃ id t, Captured.state.cell id = .opened 1 ∧ Captured.state.stack[1]? = some (.bool false) ∧
      Machine.call Command.noHost 2 0 (some 0) Captured.state = .ok 0 t ∧
      t.stack[1]? = some (.bool true) ∧ t.stack[0]? = Captured.state.stack[0]? := by
  have before : Captured.state.stack[1]? = some (.bool false) ∧ Captured.state.stack[0]?.isSome ∧
      Captured.state.escapes = [] := by decide +kernel
  have outcome : (Machine.call Command.noHost 2 0 (some 0)).returns Captured.state
      (fun n t => n = 0 ∧ t.stack[1]? = some (.bool true) ∧ t.escapes = [1]) = true := by
    decide +kernel
  have isolated := call_isolated Command.noHost_propagates .outer 2 0 (some 0) Captured.state
  generalize Captured.state = s at *
  obtain ⟨held, present, quiet⟩ := before
  obtain ⟨n, t, ran, ended⟩ := of_returns outcome
  obtain ⟨rfl, changed, noted⟩ := of_decide_eq_true ended
  obtain ⟨v, value⟩ := Option.isSome_iff_exists.1 present
  obtain ⟨written, escapes, opened, kept⟩ := isolated
  rw [after, ran] at escapes kept
  obtain rfl : written = [1] := by simpa [noted, quiet] using escapes.symm
  obtain ⟨id, isOpen⟩ := opened 1 (by simp) (by decide)
  exact ⟨id, t, isOpen, held, ran, changed, by rw [value, kept 0 v (by decide) (by simp) value]⟩

end LuaMachine
