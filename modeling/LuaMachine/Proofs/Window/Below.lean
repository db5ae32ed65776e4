import LuaMachine.Proofs.Values

set_option autoImplicit false

namespace LuaMachine

open Vm

def overlay (low stack : Array Value) : Array Value := low ++ stack.extract low.size stack.size

section

variable {low stack : Array Value} (room : low.size ≤ stack.size)
include room

@[simp] theorem size_overlay : (overlay low stack).size = stack.size := by
  simp [overlay, room]

theorem getElem?_overlay (slot : Nat) :
    (overlay low stack)[slot]? = if slot < low.size then low[slot]? else stack[slot]? := by
  rw [overlay, Array.getElem?_append]
  split
  next => rfl
  next beyond =>
    rw [Array.getElem?_extract]
    grind

theorem overlay_set {slot : Nat} (above : low.size ≤ slot) (v : Value) (inside : slot < stack.size)
    (inside' : slot < (overlay low stack).size) :
    (overlay low stack).set slot v inside' = overlay low (stack.set slot v inside) := by
  refine Array.ext_getElem? fun j => ?_
  rw [getElem?_overlay (by simpa using room), Array.getElem?_set, Array.getElem?_set,
    getElem?_overlay room]
  grind

theorem overlay_append (more : Array Value) :
    overlay low stack ++ more = overlay low (stack ++ more) := by
  refine Array.ext_getElem? fun j => ?_
  have room' : low.size ≤ (stack ++ more).size := by
    rw [Array.size_append]
    omega
  rw [getElem?_overlay room', Array.getElem?_append, Array.getElem?_append, size_overlay room,
    getElem?_overlay room]
  grind

end

theorem overlay_extract {n : Nat} {stack : Array Value} (room : n ≤ stack.size) :
    overlay (stack.extract 0 n) stack = stack := by
  refine Array.ext_getElem? fun j => ?_
  have room' : (stack.extract 0 n).size ≤ stack.size := by
    rw [Array.size_extract]
    omega
  rw [getElem?_overlay room']
  grind

def State.under (s : State) (low : Array Value) : State := { s with stack := overlay low s.stack }

def Vm.under {α : Type} (low : Array Value) :
    EStateM.Result Stop State α → EStateM.Result Stop State α
  | .ok a t => .ok a (t.under low)
  | .error e t => .error e (t.under low)

structure State.From (base : Nat) (s : State) : Prop where
  base_eq : s.frame.base = base
  top_ge : base ≤ s.frame.top
  room : base ≤ s.stack.size

/-- Whatever the slots below the window hold, the action does the same and leaves them as they
are. -/
structure Ignores {α : Type} (base : Nat) (x : Vm α) : Prop where
  keeps : ∀ s, s.From base → (x.after s).From base
  same : ∀ s low, s.From base → low.size = base → x (s.under low) = Vm.under low (x s)

namespace Ignores

variable {α β : Type} {base : Nat}

theorem bind {x : Vm α} {f : α → Vm β} (first : Ignores base x) (rest : ∀ a, Ignores base (f a)) :
    Ignores base (x >>= f) := by
  refine ⟨fun s start => ?_, fun s low start size => ?_⟩
  · have next := first.keeps s start
    cases ran : x s with
    | ok a t =>
      rw [after, ran] at next
      rw [after_bind_ok ran]
      exact (rest a).keeps t next
    | error e t =>
      rw [after, ran] at next
      rwa [after_bind_error ran]
  · have next := first.keeps s start
    have other := first.same s low start size
    cases ran : x s with
    | ok a t =>
      rw [after, ran] at next
      rw [ran, Vm.under] at other
      rw [bind_ok ran, bind_ok other, (rest a).same t low next size]
    | error e t =>
      rw [ran, Vm.under] at other
      rw [bind_error ran, bind_error other, Vm.under]

-- What lies below is there afterwards.
theorem below {s t : State} {x : Vm α} {a : α} (ignores : Ignores base x) (start : s.From base)
    (ran : x s = .ok a t) {slot : Nat} (under : slot < base) : t.stack[slot]? = s.stack[slot]? := by
  have room := start.room
  have size : (s.stack.extract 0 base).size = base := by simp [room]
  have same := ignores.same s _ start size
  rw [State.under, overlay_extract room, ran, Vm.under, State.under] at same
  have stack : t.stack = overlay (s.stack.extract 0 base) t.stack := by
    injection same with _ state
    exact congrArg (·.stack) state
  have reach := (ignores.keeps s start).room
  rw [after, ran] at reach
  rw [stack, getElem?_overlay (size.symm ▸ reach), if_pos (size.symm ▸ under)]
  grind

theorem frame {f : Frame → Vm α}
    (rest : ∀ w : Frame, w.base = base → base ≤ w.top → Ignores base (f w)) :
    Ignores base (Vm.frame >>= f) where
  keeps s start := (rest s.frame start.base_eq start.top_ge).keeps s start
  same s low start size := (rest s.frame start.base_eq start.top_ge).same s low start size

-- Changes of the state that have nothing to do with the stack.
theorem aside {f : State → α × State}
    (kept : ∀ s, (f s).2.stack = s.stack ∧ (f s).2.frame = s.frame)
    (same : ∀ s stack, f { s with stack } = ((f s).1, { (f s).2 with stack })) :
    Ignores base (modifyGet f) where
  keeps s start := by
    obtain ⟨stack, frame⟩ := kept s
    exact ⟨frame ▸ start.base_eq, frame ▸ start.top_ge, stack ▸ start.room⟩
  same s low start size := by
    change EStateM.Result.ok (f (s.under low)).1 (f (s.under low)).2 =
      .ok (f s).1 ((f s).2.under low)
    rw [State.under, same, State.under, (kept s).1]

theorem pure (a : α) : Ignores base (pure a : Vm α) :=
  aside (f := fun s => (a, s)) (fun _ => ⟨rfl, rfl⟩) fun _ _ => rfl

theorem newCell (c : Cell) : Ignores base (Vm.newCell c) :=
  aside (fun _ => ⟨rfl, rfl⟩) fun _ _ => rfl

theorem newFunction (c : Closure) : Ignores base (Vm.newFunction c) :=
  aside (fun _ => ⟨rfl, rfl⟩) fun _ _ => rfl

theorem setTop {top : Nat} (above : base ≤ top) : Ignores base (Vm.setTop top) where
  keeps _ start := ⟨start.base_eq, above, start.room⟩
  same _ _ _ _ := rfl

theorem read {slot : Nat} (above : base ≤ slot) : Ignores base (Vm.read slot) := by
  refine ⟨fun s start => ?_, fun s low start size => ?_⟩
  · unfold after Vm.read
    cases s.stack[slot]? <;> exact start
  · have room := start.room
    have same : (s.under low).stack[slot]? = s.stack[slot]? := by
      rw [State.under, getElem?_overlay (by omega), if_neg (by omega)]
    unfold Vm.read
    rw [same]
    cases s.stack[slot]? <;> rfl

theorem write {slot : Nat} (above : base ≤ slot) (v : Value) : Ignores base (Vm.write slot v) := by
  refine ⟨fun s start => ?_, fun s low start size => ?_⟩ <;>
    by_cases inside : slot < s.stack.size
  · rw [after, write_ok inside]
    exact ⟨start.base_eq, start.top_ge, by simpa using start.room⟩
  · simpa [after, Vm.write, inside] using start
  · have inside' : slot < (s.under low).stack.size := by
      rw [State.under, size_overlay (size ▸ start.room)]
      exact inside
    rw [write_ok inside, write_ok inside', Vm.under]
    simp only [State.under, overlay_set (size ▸ start.room) (size ▸ above) v inside]
  · have inside' : ¬ slot < (s.under low).stack.size := by
      rwa [State.under, size_overlay (size ▸ start.room)]
    rw [Vm.write, Vm.write, dif_neg inside, dif_neg inside', Vm.under]

theorem reserve (size : Nat) : Ignores base (Vm.reserve size) := by
  have ran (s : State) : Vm.reserve size s = .ok () (if s.stack.size < size then
      { s with stack := s.stack ++ Array.replicate (size - s.stack.size) .nil } else s) := by
    change EStateM.Result.ok () { s with toStore := s.toStore.reserve size } = _
    unfold Store.reserve
    split <;> rfl
  refine ⟨fun s start => ?_, fun s low start exact => ?_⟩
  · rw [after, ran]
    dsimp only
    split
    next =>
      refine ⟨start.base_eq, start.top_ge, ?_⟩
      rw [Array.size_append]
      exact Nat.le_add_right_of_le start.room
    next => exact start
  · have room : low.size ≤ s.stack.size := exact ▸ start.room
    have size_eq : (s.under low).stack.size = s.stack.size := size_overlay room
    rw [ran, ran, Vm.under, size_eq]
    split
    next => simp only [State.under, overlay_append room]
    next => rfl

theorem reserveWithHeadroom (size : Nat) : Ignores base (Vm.reserveWithHeadroom size) where
  keeps s start := (reserve (size + s.config.headroom)).keeps s start
  same s low start exact := (reserve (size + s.config.headroom)).same s low start exact

theorem take {slot : Nat} (above : base ≤ slot) : Ignores base (Vm.take slot) :=
  bind (read above) fun v => bind (write above .nil) fun _ => pure v

theorem readMany {slot : Nat} (above : base ≤ slot) (n : Nat) :
    Ignores base (Vm.readMany slot n) := by
  induction n generalizing slot with
  | zero => exact pure []
  | succ n ih => exact bind (read above) fun v => bind (ih (by omega)) fun rest => pure (v :: rest)

theorem clear {slot : Nat} (above : base ≤ slot) (n : Nat) : Ignores base (Vm.clear slot n) := by
  induction n generalizing slot with
  | zero => exact pure ()
  | succ n ih => exact bind (write above .nil) fun _ => ih (by omega)

theorem shiftUp {slot : Nat} (above : base ≤ slot) (n : Nat) :
    Ignores base (Vm.shiftUp slot n) := by
  induction n with
  | zero => exact pure ()
  | succ n ih => exact bind (read (by omega)) fun v => bind (write (by omega) v) fun _ => ih

theorem newCells (values : List Value) : Ignores base (Vm.newCells values) := by
  induction values with
  | nil => exact pure []
  | cons v rest ih => exact bind (newCell (.closed v)) fun id => bind ih fun ids => pure (id :: ids)

theorem newNative (f : Native) (captured : List Value) : Ignores base (Vm.newNative f captured) :=
  bind (newCells captured) fun ids => newFunction ⟨.native f, ids.toArray⟩

theorem size : Ignores base Window.size := frame fun _ _ _ => pure _

theorem value (i : Int) : Ignores base (Window.value i) := by
  refine frame fun w start _ => ?_
  split
  next slot found => exact read (start ▸ (Window.slotOf?_inside found).1)
  next => exact pure _

theorem typeName (i : Int) : Ignores base (Window.typeName i) := by
  refine frame fun w start _ => ?_
  split
  next slot found => exact bind (read (start ▸ (Window.slotOf?_inside found).1)) fun _ => pure _
  next => exact pure _

theorem push (v : Value) : Ignores base (Window.push v) :=
  frame fun _ _ above => bind (reserveWithHeadroom _) fun _ =>
    bind (write above v) fun _ => setTop (by omega)

theorem pop : Ignores base Window.pop := by
  refine frame fun w start above => ?_
  split
  next => exact pure _
  next => exact bind (setTop (by omega)) fun _ => take (by omega)

theorem resize (n : Nat) : Ignores base (Window.resize n) :=
  frame fun _ _ _ => bind (reserve _) fun _ => bind (clear (by omega) _) fun _ => setTop (by omega)

theorem insert (i : Int) : Ignores base (Window.insert i) := by
  refine frame fun w start _ => ?_
  split
  next => exact pure _
  next slot found =>
    obtain ⟨above, below⟩ := Window.slotOf?_inside found
    exact bind (read (by omega)) fun v => bind (shiftUp (by omega) _) fun _ => write (by omega) v

theorem pushNative (f : Native) (captured : Nat) : Ignores base (Window.pushNative f captured) := by
  refine frame fun w start above => ?_
  have low : base ≤ w.top - min captured w.size := by
    unfold Frame.size
    omega
  exact bind (readMany low _) fun values => bind (setTop low) fun _ =>
    bind (newNative f values) fun id => push (.function id)

end Ignores

end LuaMachine
