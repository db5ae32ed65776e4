import LuaMachine.Proofs.Instruction

set_option autoImplicit false

namespace LuaMachine

open LuaMachine.Frame (Keeping SameButTop SameCall)
open Vm

structure Running (func : Nat) (below : List Frame) (s : State) : Prop where
  func_eq : s.frame.func = func
  func_le : func ≤ s.frame.base
  window : s.frame.base ≤ s.frame.top
  callers : s.callers.frames = below

structure Halted (func : Nat) (below : List Frame) (s : State) (e : Stop) (t : State) : Prop
    extends Effect func s t where
  frames : ∃ extra, t.frames = extra ++ below ∧ ∀ error, e = .raised error → extra ≠ []

def Executed (func : Nat) (below : List Frame) (s : State) :
    EStateM.Result Stop State Call.Flow → Prop
  | .ok .next t => Running func below t ∧ Effect func s t
  | .ok (.returned _) t => t.frames = below ∧ Effect func s t
  | .error e t => Halted func below s e t

-- What a call comes to that has been let in: after an error it is still there.
def Call.Completed (func : Nat) (wanted : Option Nat) (s : State) :
    EStateM.Result Stop State Nat → Prop
  | .ok n t => Call.Returned func wanted s n t
  | .error e t => Halted func s.frames s e t

section

variable {func : Nat} {below : List Frame} {s t u : State} {e : Stop}

theorem Running.frames (h : Running func below s) : s.frames = s.frame :: below := by
  rw [State.frames, h.callers]

theorem Running.still (h : Running func below s) (still : Still func s t) :
    Running func below t := by
  obtain ⟨frame, callers⟩ := State.frames_injective still.frames
  exact ⟨frame ▸ h.func_eq, frame ▸ h.func_le, frame ▸ h.window, callers ▸ h.callers⟩

theorem Running.stays (h : Running func below s) (stays : Stays SameCall s.frame.base s t) :
    Running func below t := by
  have base := Keeping.base stays.frame
  exact ⟨stays.frame.2.1.trans h.func_eq, base ▸ h.func_le, base ▸ stays.window,
    stays.callers ▸ h.callers⟩

theorem Halted.after (first : Effect func s t) (h : Halted func below t e u) :
    Halted func below s e u :=
  ⟨first.trans h.toEffect, h.frames⟩

theorem Executed.after (first : Effect func s t) {r : EStateM.Result Stop State Call.Flow}
    (h : Executed func below t r) : Executed func below s r := by
  cases r with
  | ok flow u =>
    cases flow with
    | next => exact ⟨h.1, first.trans h.2⟩
    | returned n => exact ⟨h.1, first.trans h.2⟩
  | error e u => exact Halted.after first h

theorem Call.Completed.after {wanted : Option Nat} {r : EStateM.Result Stop State Nat}
    (first : Still func s t) (h : Call.Completed func wanted t r) :
    Call.Completed func wanted s r := by
  obtain ⟨frame, callers⟩ := State.frames_injective first.frames
  cases r with
  | ok n u =>
    refine ⟨h.callers.trans callers, frame ▸ h.frame, h.count, first.untouched.trans h.untouched,
      Nat.le_trans first.size h.size, h.room, fun above registered => ?_⟩
    exact h.registered (frame ▸ above) (first.registered registered)
  | error e u =>
    obtain ⟨effect, frames⟩ := h
    exact ⟨first.toEffect.trans effect, first.frames ▸ frames⟩

theorem Running.breaks {keep : Frame → Frame → Prop} (h : Running func below s)
    (breaks : Breaks keep s.frame.base s t) : Halted func below s e t := by
  obtain ⟨extra, f, frames, -⟩ := breaks.frames
  refine ⟨breaks.toEffect.mono h.func_le, extra ++ [f], ?_, fun _ _ => by simp⟩
  rw [frames, h.callers]
  simp

theorem Running.halts (h : Running func below s) (still : Still s.frame.base s t) :
    Halted func below s e t :=
  h.breaks (still.stays h.window : Stays SameCall s.frame.base s t).break

-- A stop that is no error may find the call gone.
theorem Halted.of_unraised {α : Type} {x : Vm α} (unraised : Unraised x) (quiet : Quiet func x)
    (frames : s.frames = below) (ran : x s = .error e t) : Halted func below s e t := by
  refine ⟨(quiet.error ran).toEffect, [], (quiet.error ran).frames.trans frames, ?_⟩
  rintro error rfl
  exact absurd ran (unraised s error t)

end

namespace Call

theorem resolve_quiet (func nargs : Nat) : Quiet func (resolve func nargs) := by
  have within (links nargs : Nat) : Quiet func (resolveWithin func links nargs) := by
    induction links generalizing nargs with
    | zero => exact .stop _
    | succ links ih =>
      refine .bind (.read func) fun callee => ?_
      split
      · exact .pure _
      · refine .bind (.inspect _) fun h => ?_
        split
        · exact .stop _
        · exact .bind (.reserveWithHeadroom _) fun _ =>
            .bind (.shiftUp (Nat.le_refl _) _) fun _ =>
              .bind (.write (Nat.le_refl _) h) fun _ => ih _
  exact .bind (.inspect id) fun s => within _ nargs

theorem adjustResults_completed (func n : Nat) (wanted : Option Nat) (s : State) :
    Completed func wanted s (adjustResults func n wanted s) := by
  let count := wanted.getD n
  obtain ⟨stack, reserved, room, -⟩ := reserveWithHeadroom_run (func + count) s
  let t := { s with stack }
  have first : Still func s t := Quiet.ok (.reserveWithHeadroom (func + count)) reserved
  have clears : Quiet func (clear (func + min n count) (count - n)) :=
    .clear (Nat.le_add_right _ _) _
  cases cleared : clear (func + min n count) (count - n) t with
  | error e u =>
    have ran : adjustResults func n wanted s = .error e u :=
      (bind_ok reserved _).trans (bind_error cleared _)
    rw [ran]
    exact Halted.after first.toEffect (.of_unraised (.clear _ _) clears first.frames cleared)
  | ok _ u =>
    have ran : adjustResults func n wanted s =
        .ok count { u with frame := { u.frame with top := func + count } } :=
      (bind_ok reserved _).trans (bind_ok cleared _)
    have still := first.trans (clears.ok cleared)
    obtain ⟨frame, callers⟩ := State.frames_injective still.frames
    rw [ran]
    have untouched := still.untouched
    refine ⟨callers, by rw [frame], ?_, ⟨untouched.kept, untouched.opened⟩, still.size, ?_, ?_⟩
    · rintro k rfl
      rfl
    · exact Nat.le_trans room (clears.ok cleared).size
    · intro above registered
      refine (still.registered registered).congr_head rfl rfl ?_
      change u.frame.base ≤ func + count
      rw [frame]
      omega

end Call

def Begins (func : Nat) {α : Type} (x : Vm α) : Prop :=
  ∀ s, match x s with
    | .ok _ t => Running func s.frames t ∧ Effect func s t
    | .error e t => Halted func s.frames s e t

namespace Begins

variable {α β : Type} {func : Nat}

theorem pushFrame {f : Frame} (func_eq : f.func = func) (func_le : func ≤ f.base)
    (window : f.base ≤ f.top) (none : f.opened = []) : Begins func (Vm.pushFrame f) :=
  fun _ => ⟨⟨func_eq, func_le, window, rfl⟩,
    .of_eq rfl rfl (fun _ _ _ isOpen => isOpen) fun h => Registry.push h none window⟩

theorem after {x : Vm α} {f : α → Vm β} (quiet : Quiet func x) (unraised : Unraised x)
    (rest : ∀ a, Begins func (f a)) : Begins func (x >>= f) := by
  intro s
  cases ran : x s with
  | error e t =>
    rw [bind_error ran]
    exact .of_unraised unraised quiet rfl ran
  | ok a t =>
    have still := quiet.ok ran
    have begins := rest a t
    rw [bind_ok ran]
    rw [still.frames] at begins
    cases last : f a t with
    | ok b u =>
      rw [last] at begins
      exact ⟨begins.1, still.toEffect.trans begins.2⟩
    | error e u =>
      rw [last] at begins
      exact .after still.toEffect begins

theorem next {x : Vm α} (begins : Begins func x) (s : State) :
    Executed func s.frames s ((do let _ ← x; return .next : Vm Call.Flow) s) := by
  have outcome := begins s
  cases ran : x s with
  | ok a t =>
    rw [bind_ok ran]
    rwa [ran] at outcome
  | error e t =>
    rw [bind_error ran]
    rwa [ran] at outcome

end Begins

namespace Call

theorem enterScript_begins (f : FunctionId) (p : Prototype) (func nargs : Nat) :
    Begins func (enterScript f p func nargs) := by
  have enter (varargs : List Value) : Begins func (do
      reserveWithHeadroom (func + 1 + max p.stackSize.toNat nargs)
      clear (func + 1 + min nargs p.params.toNat)
        (max p.stackSize.toNat p.params.toNat - min nargs p.params.toNat)
      pushFrame { Frame.enter f func (func + 1 + p.stackSize.toNat) with
        varargs := varargs.toArray }) :=
    .after (.reserveWithHeadroom _) (.reserveWithHeadroom _) fun _ =>
      .after (.clear (by omega) _) (.clear _ _) fun _ =>
        .pushFrame rfl (Nat.le_succ func) (Nat.le_add_right _ _) rfl
  unfold enterScript
  dsimp only
  split
  · exact .after (.takeMany (by omega) _) (.takeMany _ _) enter
  · exact .after (.pure []) (.pure []) enter

variable {func : Nat} {c : Frame} {rest : List Frame} {s : State}

theorem returnFrom_executed (running : Running func (c :: rest) s) {first : Nat}
    (above : s.frame.base ≤ first) (n : Nat) :
    Executed func (c :: rest) s ((do return .returned (← returnFrom first n) : Vm Flow) s) := by
  obtain ⟨t, popped, frames, gone⟩ :=
    close_pop 0 (fun _ _ _ => Nat.zero_le _) running.callers
  have func_eq : ((closeFrom 0).after s).frame.func = func := by
    rw [frame_closeFrom]
    exact running.func_eq
  have moves : Quiet func (moveDown first func n) :=
    .moveDown (Nat.le_trans running.func_le above) (Nat.le_refl _) n
  have steps : returnFrom first n s = (moveDown first func n >>= fun _ => pure n) t := by
    rw [← func_eq]
    exact (bind_ok (closeFrom_run 0 s) _).trans (bind_ok popped _)
  refine .after (gone.effect func) ?_
  cases moved : moveDown first func n t with
  | ok _ u =>
    rw [bind_ok (steps.trans (bind_ok moved _))]
    exact ⟨(moves.ok moved).frames.trans frames, (moves.ok moved).toEffect⟩
  | error e u =>
    rw [bind_error (steps.trans (bind_error moved _))]
    exact .of_unraised (.moveDown _ _ _) moves frames moved

-- A host function does not close anything when it returns, and need not.
theorem pop_effect (running : Running func (c :: rest) s)
    (none : s.frame.opened = []) :
    ∃ t, popFrame s = .ok s.frame t ∧ t.frames = c :: rest ∧ Effect func s t := by
  obtain ⟨t, popped, frames, store, escapes⟩ := popFrame_run running.callers
  refine ⟨t, popped, frames, .of_eq (congrArg Store.stack store) escapes
    (fun id slot _ isOpen => store ▸ isOpen) fun registered => ?_⟩
  unfold State.Registered
  rw [frames, store]
  exact Registry.pop (running.frames ▸ registered : Registry s.cell (s.frame :: c :: rest)) none

theorem returnFromNative_completed {t : State} (running : Running func s.frames t)
    (none : t.frame.opened = []) (first : Effect func s t) (returned : Nat)
    (wanted : Option Nat) : Completed func wanted s (returnFromNative func returned wanted t) := by
  obtain ⟨u, popped, frames, gone⟩ := pop_effect running none
  let n := min returned t.frame.size
  have left : Still func s u := ⟨first.trans gone, frames⟩
  have moves : Quiet func (moveDown (t.frame.top - n) func n) := by
    refine .moveDown ?_ (Nat.le_refl _) n
    have := running.func_le
    have := running.window
    simp only [n, Frame.size]
    omega
  have steps : returnFromNative func returned wanted t =
      (moveDown (t.frame.top - n) func n >>= fun _ => adjustResults func n wanted) u :=
    bind_ok popped _
  rw [steps]
  cases moved : moveDown (t.frame.top - n) func n u with
  | error e v =>
    rw [bind_error moved]
    exact Halted.after left.toEffect (.of_unraised (.moveDown _ _ _) moves left.frames moved)
  | ok _ v =>
    rw [bind_ok moved]
    exact .after (left.trans (moves.ok moved)) (adjustResults_completed func n wanted v)

-- The state in which a host function begins.
def entered (f : FunctionId) (func nargs : Nat) (s : State) : State :=
  (do
    reserveWithHeadroom (func + 1 + nargs)
    pushFrame (.enter f func (func + 1 + nargs)) : Vm Unit).after s

theorem native_eq (body : Vm Nat) (f : FunctionId) (func nargs : Nat) (wanted : Option Nat)
    (s : State) : native body f func nargs wanted s =
      (body >>= fun returned => returnFromNative func returned wanted)
        (entered f func nargs s) := rfl

theorem entered_room (f : FunctionId) (func nargs : Nat) (s : State) :
    func + 1 + nargs ≤ (entered f func nargs s).stack.size := by
  obtain ⟨stack, reserved, room, -⟩ := reserveWithHeadroom_run (func + 1 + nargs) s
  rw [entered, after_bind_ok reserved]
  exact room

theorem entered_running (f : FunctionId) (func nargs : Nat) (s : State) :
    Running func s.frames (entered f func nargs s) ∧ Effect func s (entered f func nargs s) := by
  have begins : Begins func (do
      reserveWithHeadroom (func + 1 + nargs)
      pushFrame (.enter f func (func + 1 + nargs))) :=
    .after (.reserveWithHeadroom _) (.reserveWithHeadroom _) fun _ =>
      .pushFrame rfl (Nat.le_succ func) (Nat.le_add_right _ _) rfl
  exact begins s

theorem native_completed {body : Vm Nat} (acts : Acts SameButTop (func + 1) body) (f : FunctionId)
    (nargs : Nat) (wanted : Option Nat) (s : State) :
    Completed func wanted s (native body f func nargs wanted s) := by
  obtain ⟨running, begun⟩ := entered_running f func nargs s
  rw [native_eq]
  cases ran : body (entered f func nargs s) with
  | error e u =>
    rw [bind_error ran]
    exact Halted.after begun (running.breaks (acts.error rfl running.window ran))
  | ok n u =>
    rw [bind_ok ran]
    have stays := acts.ok rfl running.window ran
    refine returnFromNative_completed (running.stays (stays.weaken fun _ _ h => h.sameCall)) ?_
      (begun.trans (stays.toEffect.mono (Nat.le_succ func))) n wanted
    rw [stays.frame]
    rfl

section

variable {call : LuaMachine.Call} {slot nargs n : Nat} {f : FunctionId} {t : State}

theorem tail_script (resolved : resolve slot nargs s = .ok (f, n) t) {p : Prototype}
    {cells : Array CellId} (found : t.function? f = some ⟨.script p, cells⟩) :
    tail call slot nargs s =
      (do
        let caller ← popFrame
        moveDown slot caller.func (n + 1)
        enterScript f p caller.func n
        return .next : Vm Flow) ((closeFrom t.frame.base).after t) := by
  have closed : ((closeFrom t.frame.base).after t).function? f = some ⟨.script p, cells⟩ := found
  rw [tail, bind_ok resolved]
  dsimp only
  rw [frame_bind, bind_ok (closeFrom_run _ t), get_bind, closed]

theorem tail_native (resolved : resolve slot nargs s = .ok (f, n) t)
    (other : ∀ p cells, t.function? f ≠ some ⟨.script p, cells⟩) :
    tail call slot nargs s =
      (do
        let n ← call slot n none
        return .returned (← returnFrom slot n) : Vm Flow) ((closeFrom t.frame.base).after t) := by
  rw [tail, bind_ok resolved]
  dsimp only
  rw [frame_bind, bind_ok (closeFrom_run _ t), get_bind]
  rcases found : ((closeFrom t.frame.base).after t).function? f with _ | ⟨p | g, cells⟩
  · rfl
  · exact absurd found (other p cells)
  · rfl

-- A script function goes on in the place of the running call, and any other returns.
theorem tail_ok {flow : Flow} {u : State} (ran : tail call slot nargs s = .ok flow u) :
    ∃ f n t, resolve slot nargs s = .ok (f, n) t ∧
      ((flow = .next ∧ ∃ p cells, t.function? f = some ⟨.script p, cells⟩ ∧
        (do
          let caller ← popFrame
          moveDown slot caller.func (n + 1)
          enterScript f p caller.func n
          return .next : Vm Flow) ((closeFrom t.frame.base).after t) = .ok .next u) ∨
      ((∀ p cells, t.function? f ≠ some ⟨.script p, cells⟩) ∧ ∃ k v m,
        call slot n none ((closeFrom t.frame.base).after t) = .ok k v ∧
          returnFrom slot k v = .ok m u ∧ flow = .returned m)) := by
  cases resolved : resolve slot nargs s with
  | error e t =>
    have failed : tail call slot nargs s = .error e t := bind_error resolved _
    rw [failed] at ran
    cases ran
  | ok target t =>
    obtain ⟨f, n⟩ := target
    refine ⟨f, n, t, rfl, ?_⟩
    by_cases script : ∃ p cells, t.function? f = some ⟨.script p, cells⟩
    · obtain ⟨p, cells, found⟩ := script
      rw [tail_script resolved found] at ran
      obtain ⟨caller, v, popped, rest⟩ := ok_of_bind ran
      obtain ⟨_, w, moved, rest⟩ := ok_of_bind rest
      obtain ⟨_, x, entered, rest⟩ := ok_of_bind rest
      cases rest
      exact .inl ⟨rfl, p, cells, found, ran⟩
    · have other : ∀ p cells, t.function? f ≠ some ⟨.script p, cells⟩ :=
        fun p cells found => script ⟨p, cells, found⟩
      rw [tail_native resolved other] at ran
      obtain ⟨k, v, called, rest⟩ := ok_of_bind ran
      obtain ⟨m, w, returned, rest⟩ := ok_of_bind rest
      cases rest
      exact .inr ⟨other, k, v, m, called, returned, rfl⟩

theorem native_tail_executed (balanced : call.Balanced) (running : Running func (c :: rest) s)
    (above : s.frame.base ≤ slot) (nargs : Nat) :
    Executed func (c :: rest) s ((do
      let n ← call slot nargs none
      return .returned (← returnFrom slot n) : Vm Flow) s) := by
  cases ran : call slot nargs none s with
  | error e t =>
    have stopped : Breaks SameCall s.frame.base s t := (balanced.error ran).breaks above
    rw [bind_error ran]
    exact running.breaks stopped
  | ok n t =>
    have back := ((balanced.ok ran).stays above).weaken fun _ _ h => h.sameCall
    rw [bind_ok ran]
    refine .after (back.toEffect.mono running.func_le) ?_
    exact returnFrom_executed (running.stays back) (Keeping.base back.frame ▸ above) n

theorem tail_executed (balanced : call.Balanced) (running : Running func (c :: rest) s)
    (above : s.frame.base ≤ slot) (nargs : Nat) :
    Executed func (c :: rest) s (tail call slot nargs s) := by
  have resolves := (resolve_quiet slot nargs).mono above
  cases resolved : resolve slot nargs s with
  | error e t =>
    have ran : tail call slot nargs s = .error e t := bind_error resolved _
    rw [ran]
    exact running.halts (resolves.error resolved)
  | ok result t =>
    obtain ⟨f, n⟩ := result
    have still := (resolves.ok resolved).mono running.func_le
    have moved := running.still still
    have same : t.frame = s.frame := (State.frames_injective still.frames).1
    refine .after still.toEffect ?_
    by_cases script : ∃ p cells, t.function? f = some ⟨.script p, cells⟩
    -- The cells are closed before the arguments move down over the registers.
    · obtain ⟨p, cells, found⟩ := script
      obtain ⟨u, popped, frames, gone⟩ :=
        close_pop t.frame.base (fun h => h.base _ List.mem_cons_self) moved.callers
      have begins : Begins func (do
          moveDown slot func (n + 1)
          enterScript f p func n) :=
        .after (.moveDown (Nat.le_trans running.func_le above) (Nat.le_refl _) _) (.moveDown _ _ _)
          fun _ => enterScript_begins f p func n
      have func_eq : ((closeFrom t.frame.base).after t).frame.func = func := by
        rw [frame_closeFrom]
        exact moved.func_eq
      rw [tail_script resolved found, bind_ok popped, func_eq]
      refine .after (gone.effect func) ?_
      rw [← frames]
      exact bind_assoc (moveDown slot func (n + 1)) _ _ ▸ begins.next u
    · have other : ∀ p cells, t.function? f ≠ some ⟨.script p, cells⟩ :=
        fun p cells found => script ⟨p, cells, found⟩
      rw [tail_native resolved other]
      have closed := (Acts.closeFrom t.frame.base).ok rfl moved.window (closeFrom_run _ t)
      have ready := moved.stays closed
      have base := Keeping.base closed.frame
      refine .after (closed.toEffect.mono moved.func_le) ?_
      exact native_tail_executed balanced ready (by rw [base, same]; exact above) n

end

end Call

end LuaMachine
