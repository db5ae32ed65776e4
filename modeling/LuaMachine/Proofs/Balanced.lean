import LuaMachine.Machine.Operation
import LuaMachine.Proofs.Running
import LuaMachine.Proofs.Values

set_option autoImplicit false

namespace LuaMachine

open LuaMachine.Frame (Keeping SameButTop SameCall)

theorem State.depth_eq (s : State) : s.depth = s.frames.length := by
  simp [depth, frames, s.callers.count_eq]

/-- A call has returned `n` results, and the window of its caller ends after them. -/
structure Call.Returned (func : Nat) (wanted : Option Nat) (s : State) (n : Nat) (t : State) :
    Prop where
  callers : t.callers = s.callers
  frame : t.frame = { s.frame with top := func + n }
  count : ∀ k, wanted = some k → n = k
  untouched : Untouched func s t
  size : s.stack.size ≤ t.stack.size
  room : func + n ≤ t.stack.size
  registered : s.frame.base ≤ func → s.Registered → t.Registered

-- A call has stopped; what it began is still above its caller.
structure Call.Failed (func : Nat) (s t : State) : Prop extends Effect func s t where
  frames : ∃ extra, t.frames = extra ++ s.frames

def Call.Balanced (call : Call) : Prop :=
  ∀ func nargs wanted s,
    match call func nargs wanted s with
    | .ok n t => Call.Returned func wanted s n t
    | .error _ t => Call.Failed func s t

section

variable {call : Call} {func nargs : Nat} {wanted : Option Nat} {s t : State}

theorem Call.Balanced.ok {n : Nat} (balanced : call.Balanced)
    (ran : call func nargs wanted s = .ok n t) : Call.Returned func wanted s n t := by
  have returned := balanced func nargs wanted s
  rwa [ran] at returned

theorem Call.Balanced.error {e : Stop} (balanced : call.Balanced)
    (ran : call func nargs wanted s = .error e t) : Call.Failed func s t := by
  have failed := balanced func nargs wanted s
  rwa [ran] at failed

theorem Call.Failed.breaks {keep : Frame → Frame → Prop} [Keeping keep] {base : Nat}
    (h : Call.Failed func s t) (above : base ≤ func) : Breaks keep base s t := by
  obtain ⟨extra, frames⟩ := h.frames
  exact ⟨h.toEffect.mono above, extra, s.frame, frames, Keeping.refl _⟩

theorem Call.Returned.stays {n : Nat} (h : Call.Returned func wanted s n t)
    (above : s.frame.base ≤ func) : Stays SameButTop s.frame.base s t where
  untouched := h.untouched.mono above
  size := h.size
  registered := h.registered above
  callers := h.callers
  frame := by rw [SameButTop, h.frame]
  window := by
    rw [h.frame]
    exact Nat.le_trans above (Nat.le_add_right func n)

end

theorem Callers.pop?_cons {c : Callers} {f : Frame} {rest : List Frame}
    (frames : c.frames = f :: rest) :
    ∃ others, c.pop? = some (f, others) ∧ others.frames = rest := by
  obtain ⟨_, count, exact⟩ := c
  subst frames
  exact ⟨_, rfl, rfl⟩

namespace Vm

theorem popFrame_run {s : State} {c : Frame} {rest : List Frame}
    (waiting : s.callers.frames = c :: rest) :
    ∃ t, popFrame s = .ok s.frame t ∧ t.frames = c :: rest ∧ t.toStore = s.toStore ∧
      t.escapes = s.escapes := by
  obtain ⟨others, popped, frames⟩ := Callers.pop?_cons waiting
  refine ⟨{ s with frame := c, callers := others }, ?_, congrArg (c :: ·) frames, rfl, rfl⟩
  rw [popFrame, get_bind, popped]
  rfl

end Vm

-- The calls `gone` have ended, and their cells have kept their values.
structure Call.Discarded (gone : List Frame) (s t : State) : Prop where
  stack : t.stack = s.stack
  escapes : t.escapes = s.escapes
  cell : ∀ id, t.cell id = s.cell id ∨ t.cell id = .closed (s.getCell id)
  closed : s.Registered → ∀ f ∈ gone, ∀ p ∈ f.opened, t.cell p.2 = .closed (s.getCell p.2)
  registered : s.Registered → t.Registered

namespace Call.Discarded

variable {gone others : List Frame} {s t u : State}

theorem refl (s : State) : Discarded [] s s :=
  ⟨rfl, rfl, fun _ => .inl rfl, by simp, id⟩

theorem getCell (h : Discarded gone s t) (id : CellId) : t.getCell id = s.getCell id := by
  rcases h.cell id with same | closed
  · unfold Store.getCell Store.slotValue
    rw [same, h.stack]
  · rw [Store.getCell, closed]

theorem trans (first : Discarded gone s t) (second : Discarded others t u) :
    Discarded (gone ++ others) s u where
  stack := second.stack.trans first.stack
  escapes := second.escapes.trans first.escapes
  cell id := by
    rcases second.cell id with same | closed
    · rw [same]
      exact first.cell id
    · rw [closed, first.getCell]
      exact .inr rfl
  closed registered f member p entry := by
    rcases List.mem_append.1 member with early | late
    · have closed := first.closed registered f early p entry
      rcases second.cell p.2 with same | again
      · rw [same, closed]
      · rw [again, first.getCell]
    · rw [second.closed (first.registered registered) f late p entry, first.getCell]
  registered := second.registered ∘ first.registered

theorem effect (h : Discarded gone s t) (low : Nat) : Effect low s t := by
  refine .of_eq h.stack h.escapes (fun id slot _ isOpen => ?_) h.registered
  rcases h.cell id with same | closed
  · rw [← same, isOpen]
  · rw [closed] at isOpen
    cases isOpen

end Call.Discarded

theorem Vm.close_pop {s : State} {c : Frame} {rest : List Frame} (low : Nat)
    (all : s.Registered → ∀ p ∈ s.frame.opened, low ≤ p.1)
    (waiting : s.callers.frames = c :: rest) :
    ∃ t, popFrame ((closeFrom low).after s) = .ok ((closeFrom low).after s).frame t ∧
      t.frames = c :: rest ∧ Call.Discarded [s.frame] s t := by
  obtain ⟨t, ran, frames, store, escapes⟩ := popFrame_run (s := (closeFrom low).after s) waiting
  refine ⟨t, ran, frames, ?_, escapes, fun id => ?_, fun registered f member p entry => ?_,
    fun registered => ?_⟩
  · rw [store, stack_closeFrom]
  · rw [store, cell_closeFrom]
    split
    · exact .inr rfl
    · exact .inl rfl
  · cases List.mem_singleton.1 member
    rw [store, cell_closeFrom, if_pos ⟨p, entry, all registered p entry, rfl⟩]
  · have none : ((closeFrom low).after s).frame.opened = [] := by
      rw [frame_closeFrom]
      simpa using all registered
    have closed := registered_closeFrom low s registered
    unfold State.Registered State.frames at closed
    unfold State.Registered
    rw [frames, store]
    rw [callers_closeFrom, waiting] at closed
    exact Registry.pop closed none

theorem Call.discard_run {gone : List Frame} {c : Frame} {rest : List Frame} {s : State}
    (frames : s.frames = gone ++ c :: rest) :
    ∃ t, Call.discard gone.length s = .ok () t ∧ t.frames = c :: rest ∧
      Call.Discarded gone s t := by
  induction gone generalizing s with
  | nil => exact ⟨s, rfl, frames, .refl s⟩
  | cons f gone ih =>
    obtain ⟨running, waiting⟩ := List.cons.inj frames
    -- Below the innermost call is another one to discard, or the one that stays.
    obtain ⟨next, others, split⟩ : ∃ next others, gone ++ c :: rest = next :: others := by
      cases gone <;> exact ⟨_, _, rfl⟩
    obtain ⟨u, popped, frames', first⟩ :=
      Vm.close_pop 0 (fun _ _ _ => Nat.zero_le _) (waiting.trans split)
    obtain ⟨t, ran, left, others⟩ := ih (frames'.trans split.symm)
    have steps : Call.discard (gone.length + 1) s = Call.discard gone.length u :=
      (Vm.bind_ok (Vm.closeFrom_run 0 s) _).trans (Vm.bind_ok popped _)
    exact ⟨t, steps.trans ran, left, running ▸ first.trans others⟩

-- The caller `s` has a call at least, so that the unwinding never reaches below it.
theorem Call.unwind_run {s t : State} {extra : List Frame} (frames : t.frames = extra ++ s.frames) :
    ∃ u, Call.unwind s.depth t = .ok () u ∧ u.frames = s.frames ∧ Call.Discarded extra t u := by
  have count : t.depth - max s.depth 1 = extra.length := by
    rw [State.depth_eq, State.depth_eq, frames]
    simp [State.frames]
  obtain ⟨u, ran, left, h⟩ := Call.discard_run frames
  refine ⟨u, ?_, left, h⟩
  change Call.discard (t.depth - max s.depth 1) t = _
  rw [count]
  exact ran

section

variable {α : Type} {x : Vm α} {s t : State}

theorem Call.guarded_ok {func : Nat} {handle : LuaError → Vm α} {a : α} (ran : x s = .ok a t) :
    Call.guarded func x handle s = .ok a t := by
  rw [Call.guarded, ran]

theorem Call.guarded_raised (func : Nat) (handle : LuaError → Vm α) {e : LuaError}
    {extra : List Frame}
    (ran : x s = .error (.raised e) t) (frames : t.frames = extra ++ s.frames) :
    ∃ u, Call.guarded func x handle s = handle e u ∧ u.callers = s.callers ∧
      u.frame = { s.frame with top := func } ∧ u.stack = t.stack ∧
      (s.frame.base ≤ func → ∀ low, Effect low t u) := by
  obtain ⟨v, unwound, left, h⟩ := Call.unwind_run frames
  obtain ⟨frame, callers⟩ := State.frames_injective left
  refine ⟨{ v with frame := { v.frame with top := func } }, ?_, callers, ?_, h.stack, ?_⟩
  · rw [Call.guarded, ran]
    exact Vm.bind_ok unwound _
  · rw [frame]
  · intro above low
    refine (h.effect low).trans (.of_eq rfl rfl (fun _ _ _ isOpen => isOpen) fun registered => ?_)
    exact registered.congr_head rfl rfl (frame ▸ above)

end

theorem Operation.le_scratch (s : State) : s.frame.top ≤ Operation.scratch s := by
  unfold scratch
  split
  · exact Nat.le_max_left _ _
  · exact Nat.le_refl _

namespace Operation

open Vm

def collect (slot top : Nat) : Vm Value := do
  let result ← take slot
  setTop top
  return result

theorem collect_run {slot : Nat} {s : State} (bound : slot < s.stack.size) (top : Nat) :
    collect slot top s = .ok s.stack[slot]
      { s with stack := s.stack.set slot .nil bound, frame := { s.frame with top } } :=
  bind_ok (take_ok bound) _

-- The handler and its arguments are placed above everything live.
theorem callHandler_placed (call : Call) (h : Value) (args : List Value) (s : State) :
    ∃ stack, Holds stack (scratch s) (h :: args) ∧ Still (scratch s) s { s with stack } ∧
      callHandler call h args s = (call (scratch s) args.length (some 1) >>= fun _ =>
        collect (scratch s) s.frame.top) { s with stack } := by
  let place : Vm Unit := do
    reserveWithHeadroom (scratch s + args.length + 1)
    writeMany (scratch s) (h :: args)
  have steps : callHandler call h args s = (place >>= fun _ =>
      call (scratch s) args.length (some 1) >>= fun _ => collect (scratch s) s.frame.top) s := by
    simp only [place, bind_assoc]
    rfl
  obtain ⟨reserved, grown, room, -⟩ := reserveWithHeadroom_run (scratch s + args.length + 1) s
  obtain ⟨stack, written, held, -⟩ := writeMany_run (scratch s) (h :: args)
    (s := { s with stack := reserved }) (by rw [List.length_cons]; exact room)
  have placed : place s = .ok () { s with stack } := (bind_ok grown _).trans written
  have quiet : Quiet (scratch s) place :=
    .bind (.reserveWithHeadroom _) fun _ => .writeMany (Nat.le_refl _) _
  exact ⟨stack, held, quiet.ok placed, steps.trans (bind_ok placed _)⟩

-- The handler runs there, and the window is as before when it has returned.
theorem callHandler_run {call : Call} (balanced : call.Balanced) (h : Value) (args : List Value)
    (s : State) :
    ∃ t, Still (scratch s) s t ∧
      match call (scratch s) args.length (some 1) t with
      | .error e u => callHandler call h args s = .error e u
      | .ok _ u => ∃ bound : scratch s < u.stack.size, callHandler call h args s =
        .ok u.stack[scratch s]
          { u with
            stack := u.stack.set (scratch s) .nil bound
            frame := { u.frame with top := s.frame.top } } := by
  obtain ⟨stack, -, still, steps⟩ := callHandler_placed call h args s
  refine ⟨_, still, ?_⟩
  rw [steps]
  cases ran : call (scratch s) args.length (some 1) { s with stack } with
  | error e u => exact bind_error ran _
  | ok n u =>
    have returned := balanced.ok ran
    cases returned.count 1 rfl
    exact ⟨returned.room, (bind_ok ran _).trans (collect_run returned.room _)⟩

end Operation

namespace Acts

open Vm

variable {call : Call} {base : Nat}

theorem callHandler (balanced : call.Balanced) (h : Value) (args : List Value) :
    Acts Eq base (Operation.callHandler call h args) := by
  intro s start window
  have above : base ≤ Operation.scratch s := Nat.le_trans window (Operation.le_scratch s)
  obtain ⟨t, placed, asked⟩ := Operation.callHandler_run balanced h args s
  have still := placed.mono above
  obtain ⟨frame, callers⟩ := State.frames_injective still.frames
  cases ran : call (Operation.scratch s) args.length (some 1) t with
  | error e u =>
    rw [ran] at asked
    rw [asked]
    exact (still.stays window).breaks ((balanced.error ran).breaks above)
  | ok n u =>
    rw [ran] at asked
    obtain ⟨bound, result⟩ := asked
    have returned := balanced.ok ran
    have collects : Acts SameButTop base (Operation.collect (Operation.scratch s) s.frame.top) :=
      bind (of_quiet (.take above)) fun v => bind (setTop window) fun _ => of_quiet (.pure v)
    have back : Stays SameButTop base t u := by
      rw [← start, ← frame] at above ⊢
      exact returned.stays above
    have whole := (still.stays window).trans (back.trans
      (collects.ok ((Keeping.base back.frame).trans (frame ▸ start)) back.window
        (Operation.collect_run bound _)))
    rw [result]
    refine ⟨whole.toEffect, whole.callers, ?_, window⟩
    change s.frame = { u.frame with top := s.frame.top }
    rw [returned.frame, frame]

variable {α : Type} {func : Nat}

theorem guarded {x : Vm α} {handle : LuaError → Vm α} (above : base ≤ func)
    (attempted : ∀ s, s.frame.base = base →
      match x s with
      | .ok _ t => Stays SameButTop base s t
      | .error _ t => Call.Failed func s t)
    (handled : ∀ e, Acts SameButTop base (handle e)) :
    Acts SameButTop base (Call.guarded func x handle) := by
  intro s start window
  have outcome := attempted s start
  cases ran : x s with
  | ok a t =>
    rw [ran] at outcome
    rw [Call.guarded_ok ran]
    exact outcome
  | error e t =>
    rw [ran] at outcome
    cases e with
    | raised e =>
      obtain ⟨extra, frames⟩ := outcome.frames
      obtain ⟨u, rest, callers, frame, -, cut⟩ :=
        Call.guarded_raised func handle ran frames
      have recovered : Stays SameButTop base s u := by
        refine ⟨(outcome.toEffect.mono above).trans (cut (start ▸ above) base), callers, ?_,
          frame ▸ above⟩
        rw [SameButTop, frame]
      rw [rest]
      have again := handled e u ((Keeping.base recovered.frame).trans start) recovered.window
      cases last : handle e u with
      | ok a v =>
        rw [last] at again
        exact recovered.trans again
      | error e v =>
        rw [last] at again
        exact recovered.breaks again
    | outOfRange _ | overflow | exhausted =>
      rw [Call.guarded, ran]
      exact outcome.breaks above

theorem guardedCall (balanced : call.Balanced) (above : base ≤ func) (nargs : Nat)
    (wanted : Option Nat) {handle : LuaError → Vm Nat}
    (handled : ∀ e, Acts SameButTop base (handle e)) :
    Acts SameButTop base (Call.guarded func (call func nargs wanted) handle) := by
  refine guarded above (fun s start => ?_) handled
  cases ran : call func nargs wanted s with
  | ok n t => exact start ▸ (balanced.ok ran).stays (start ▸ above)
  | error e t => exact balanced.error ran

theorem host (balanced : call.Balanced) (nargs : Nat) (wanted : Option Nat) :
    Acts SameButTop base (Call.host call nargs wanted) := by
  unfold Call.host Call.funcSlot
  rw [bind_assoc]
  refine bindFrame fun f start window => ?_
  split
  · rw [pure_bind]
    have raises (e : LuaError) : Acts SameButTop base (raise e : Vm Nat) :=
      of_quiet (.stop (.raised e))
    exact bind (guardedCall balanced (by omega) nargs wanted raises) fun _ => of_quiet (.pure _)
  · exact fun s _ window => ((Still.refl base s).stays window).break

theorem attempt (balanced : call.Balanced) (nargs : Nat) (wanted : Option Nat) :
    Acts SameButTop base (Call.attempt call nargs wanted) := by
  refine bindFrame fun f start window => ?_
  split
  next =>
    have above : base ≤ f.top - (nargs + 1) := by omega
    refine guarded above (fun s start => ?_) fun e => bind (push _) fun _ => of_quiet (.pure false)
    cases ran : call (f.top - (nargs + 1)) nargs wanted s with
    | ok n t =>
      rw [bind_ok ran]
      exact start ▸ (balanced.ok ran).stays (start ▸ above)
    | error e t =>
      rw [bind_error ran]
      exact balanced.error ran
  next => exact bind (push _) fun _ => of_quiet (.pure false)

end Acts

end LuaMachine
