import LuaMachine.Proofs.Bounds.Step

set_option autoImplicit false

namespace LuaMachine

open LuaMachine.Frame (SameButTop)
open Vm

structure Calling (f : FunctionId) (c : Closure) (room : Nat) (s : State) : Prop
    extends s.Sound where
  room_le : room ≤ s.stack.size
  known : s.function? f = some c

theorem Calling.of_placed {α : Type} {f : FunctionId} {c : Closure} {room room' : Nat} {x : Vm α}
    (clean : ∀ base, Clean (Placed base room) x fun _ => Placed base room')
    (lasting : Lasting x) : Clean (Calling f c room) x fun _ => Calling f c room' := by
  have known := (Clean.of_placed clean).knowing lasting f c
  refine (known.narrow fun s calling => ?_).weaken fun _ t holds => ?_
  · exact ⟨⟨calling.toSound, calling.room_le⟩, calling.known⟩
  · exact ⟨holds.1.1, holds.1.2, holds.2⟩

namespace Call

variable {call : Call} {base room func nargs : Nat} {f : FunctionId}

-- Each handler in the chain brings the slot for one more argument.
theorem resolveWithin_clean (links : Nat) (inside : func + 1 + nargs ≤ room) :
    Clean (Placed base room) (resolveWithin func links nargs) fun (_, n) s =>
      Placed base room s ∧ func + 1 + n ≤ s.stack.size := by
  induction links generalizing nargs room with
  | zero => exact Clean.raise _ fun _ placed => placed.toSound
  | succ links ih =>
    refine Clean.bind (Safe.read (by omega)) fun callee => ?_
    split
    · exact Clean.pure fun s placed => ⟨placed, Nat.le_trans inside placed.room_le⟩
    · refine Clean.bind (Safe.inspect _) fun h => ?_
      split
      · exact Clean.raise _ fun _ placed => placed.toSound
      · refine Clean.bind (Safe.reserveWithHeadroom _) fun _ =>
          Clean.bind (Safe.shiftUp (by omega)) fun _ =>
            Clean.bind (Safe.write (by omega) h) fun _ => ?_
        exact (ih (by omega)).weaken
          fun _ _ holds => ⟨holds.1.mono (Nat.le_max_left _ _), holds.2⟩

theorem resolve_clean (inside : func + 1 + nargs ≤ room) :
    Clean (Placed base room) (resolve func nargs) fun (_, n) s =>
      Placed base room s ∧ func + 1 + n ≤ s.stack.size :=
  Clean.bind (Safe.inspect id) fun _ => resolveWithin_clean _ inside

theorem adjustResults_safe (low : base ≤ func) (n : Nat) (wanted : Option Nat) :
    Safe base room (adjustResults func n wanted) := by
  refine .withRoom (Safe.reserveWithHeadroom _) fun more _ enough => ?_
  exact .bind (.clear (by omega)) fun _ => .bind (.setTop (by omega) enough) fun _ => .pure _

theorem enterScript_clean {p : Prototype} {cells : Array CellId} :
    Clean (Calling f ⟨.script p, cells⟩ (func + 1 + nargs)) (enterScript f p func nargs)
      fun _ t => t.Sound := by
  refine Clean.given (fun s calling => calling.tidy f p cells calling.known) fun tidy => ?_
  have params := tidy.params
  have enter (varargs : List Value) : Clean (Calling f ⟨.script p, cells⟩ (func + 1 + nargs))
      (do
        reserveWithHeadroom (func + 1 + max p.stackSize.toNat nargs)
        clear (func + 1 + min nargs p.params.toNat)
          (max p.stackSize.toNat p.params.toNat - min nargs p.params.toNat)
        pushFrame { Frame.enter f func (func + 1 + p.stackSize.toNat) with
          varargs := varargs.toArray }) fun _ t => t.Sound := by
    refine Clean.bind
      (Calling.of_placed (fun _ => Safe.reserveWithHeadroom _) (.reserveWithHeadroom _)) fun _ => ?_
    refine Clean.bind
      (Calling.of_placed (fun _ => Safe.clear (.inl (by omega))) (.clear _ _)) fun _ => ?_
    refine Clean.pushFrame.narrow fun s calling => ⟨calling.toSound, ?_⟩
    have enough : func + 1 + p.stackSize.toNat ≤ s.stack.size :=
      Nat.le_trans (by omega) calling.room_le
    refine ⟨Nat.le_succ _, Nat.le_add_right _ _, enough, ?_⟩
    rintro _ ⟨⟩
    refine ⟨_, calling.known, ?_⟩
    rintro _ ⟨⟩
    exact enough
  unfold enterScript
  dsimp only
  split
  · exact Clean.bind (Calling.of_placed (fun _ => Safe.takeMany (by omega)) (.takeMany _ _)) enter
  · exact Clean.bind (Clean.pure fun _ calling => calling) enter

theorem returnFrom_clean {first n : Nat} (low : base ≤ first) (inside : first + n ≤ room ∨ n = 0) :
    Clean (Placed base room) (returnFrom first n) fun _ t => t.Sound := by
  refine Clean.bind (Safe.closeFrom 0) fun _ => Clean.bind Clean.popFrame fun ended => ?_
  refine Clean.given (R := ended.func ≤ base) (fun t holds => ?_) fun le => ?_
  · obtain ⟨-, fits, rfl⟩ := holds
    exact fits.func_le
  · refine Clean.bind (Q := fun _ t => t.Sound) ?_ fun _ => Clean.pure fun _ sound => sound
    have moves := Clean.of_placed fun _ => Safe.moveDown (Nat.le_trans le low) inside
    exact (moves.narrow fun _ holds => holds.1).weaken fun _ _ holds => holds.1

theorem returned_clean {first n : Nat} (low : base ≤ first) (inside : first + n ≤ room ∨ n = 0) :
    Clean (Placed base room) (do return Flow.returned (← returnFrom first n)) fun _ t => t.Sound :=
  Clean.bind (returnFrom_clean low inside) fun _ => Clean.pure fun _ sound => sound

theorem returnFromNative_clean {c : Frame} {rest : List Frame} (low : c.base ≤ func)
    (returned : Nat) (wanted : Option Nat) :
    Clean (fun s => s.Sound ∧ Running func (c :: rest) s) (returnFromNative func returned wanted)
      fun _ t => t.Sound := by
  refine Clean.of_run ?_
  rintro s ⟨sound, running⟩
  obtain ⟨t, popped, frames, -, -⟩ := popFrame_run running.callers
  have placed : Placed s.frame.base s.stack.size s := ⟨sound, rfl, Nat.le_refl _⟩
  obtain ⟨⟨sound', size⟩, fits, -⟩ := Clean.popFrame.ok placed popped
  have caller : t.frame = c := (List.cons.inj frames).1
  let n := min returned s.frame.size
  have count : n ≤ s.frame.top - s.frame.base := Nat.min_le_right _ _
  have func_le := running.func_le
  have window := running.window
  have top_le := fits.top_le
  have rest : Safe c.base t.stack.size
      (moveDown (s.frame.top - n) func n >>= fun _ => adjustResults func n wanted) :=
    .bind (.moveDown (by omega) (by omega)) fun _ => adjustResults_safe low n wanted
  have steps : returnFromNative func returned wanted s =
      (moveDown (s.frame.top - n) func n >>= fun _ => adjustResults func n wanted) t :=
    bind_ok popped _
  rw [steps]
  exact (rest.weaken fun _ _ placed => placed.toSound).run
    ⟨sound', congrArg Frame.base caller, Nat.le_refl _⟩

theorem native_clean {body : Vm Nat} (acts : Acts SameButTop (func + 1) body)
    (safe : Safe (func + 1) 0 body) {n : Native} {cells : Array CellId} (wanted : Option Nat) :
    Clean (fun s => Calling f ⟨.native n, cells⟩ (func + 1 + nargs) s ∧ s.frame.base ≤ func)
      (native body f func nargs wanted) fun _ t => t.Sound := by
  refine Clean.of_run ?_
  rintro s ⟨calling, low⟩
  obtain ⟨running, -⟩ := entered_running f func nargs s
  have enter : Clean (Calling f ⟨.native n, cells⟩ (func + 1 + nargs)) (do
      reserveWithHeadroom (func + 1 + nargs)
      pushFrame (.enter f func (func + 1 + nargs))) fun _ t => t.Sound := by
    refine Clean.bind
      (Calling.of_placed (fun _ => Safe.reserveWithHeadroom _) (.reserveWithHeadroom _)) fun _ => ?_
    refine Clean.pushFrame.narrow fun s calling => ⟨calling.toSound, ?_⟩
    refine ⟨Nat.le_succ _, Nat.le_add_right _ _, Nat.le_trans (Nat.le_max_left _ _) calling.room_le,
      ?_⟩
    rintro _ ⟨⟩
    exact ⟨_, calling.known, nofun⟩
  have sound : (entered f func nargs s).Sound := enter.ok calling rfl
  have placed : Placed (func + 1) 0 (entered f func nargs s) := ⟨sound, rfl, Nat.zero_le _⟩
  rw [native_eq]
  cases ran : body (entered f func nargs s) with
  | error e t =>
    rw [bind_error ran]
    exact safe.error placed ran
  | ok k t =>
    rw [bind_ok ran]
    have stays := (acts.ok rfl running.window ran).weaken fun _ _ h => h.sameCall
    exact (returnFromNative_clean (c := s.frame) low k wanted).run
      ⟨(safe.ok placed ran).toSound, running.stays stays⟩

-- A tail call takes the place of its caller, and its arguments move down.
theorem replacement_clean {p : Prototype} {cells : Array CellId} {n : Nat} (low : base ≤ func) :
    Clean (fun s => Placed base (func + 1 + n) s ∧ s.function? f = some ⟨.script p, cells⟩)
      (do
        let caller ← popFrame
        moveDown func caller.func (n + 1)
        enterScript f p caller.func n
        return Flow.next) fun _ t => t.Sound := by
  refine Clean.bind (Clean.popFrame.knowing .popFrame f _) fun ended => ?_
  refine Clean.given (R := ended.func ≤ base) ?_ fun le => ?_
  · rintro t ⟨⟨-, fits, rfl⟩, -⟩
    exact fits.func_le
  · have moves : Clean (Calling f ⟨.script p, cells⟩ (func + 1 + n))
        (moveDown func ended.func (n + 1))
        fun _ => Calling f ⟨.script p, cells⟩ (ended.func + 1 + n) := by
      refine Calling.of_placed (fun _ => ?_) (.moveDown _ _ _)
      exact (Safe.moveDown (by omega) (by omega)).weaken fun _ _ placed => placed.mono (by omega)
    refine Clean.bind (moves.narrow ?_) fun _ =>
      Clean.bind enterScript_clean fun _ => Clean.pure fun _ sound => sound
    rintro t ⟨⟨⟨sound, size⟩, -⟩, known⟩
    exact ⟨sound, size, known⟩

section

variable (balanced : call.Balanced) (contained : call.Contained)
include balanced contained

theorem handOn_clean {n : Nat} (low : base ≤ func) :
    Clean (Placed base (func + 1 + n))
      (do
        let n ← call func n none
        return Flow.returned (← returnFrom func n)) fun _ t => t.Sound := by
  refine Clean.bind (Safe.calls balanced contained low (Nat.le_refl _) none) fun k => ?_
  refine (returned_clean low (.inl (Nat.le_refl _))).narrow ?_
  rintro t ⟨placed, inside, -⟩
  exact placed.widen inside

theorem tail_clean (low : base ≤ func) (inside : func + 1 + nargs ≤ room) :
    Clean (Placed base room) (tail call func nargs) fun _ t => t.Sound := by
  refine Clean.of_run fun s placed => ?_
  cases resolved : resolve func nargs s with
  | error e t =>
    have steps : tail call func nargs s = .error e t := bind_error resolved _
    rw [steps]
    exact (resolve_clean inside).error placed resolved
  | ok result t =>
    obtain ⟨f, n⟩ := result
    obtain ⟨placed', enough⟩ := (resolve_clean inside).ok placed resolved
    have ready : Placed base (func + 1 + n) ((closeFrom t.frame.base).after t) :=
      (Safe.closeFrom _).ok (placed'.widen enough) (closeFrom_run _ t)
    by_cases script : ∃ p cells, t.function? f = some ⟨.script p, cells⟩
    · obtain ⟨p, cells, found⟩ := script
      rw [tail_script resolved found]
      exact (replacement_clean low).run ⟨ready, found⟩
    · rw [tail_native resolved fun p cells found => script ⟨p, cells, found⟩]
      exact (handOn_clean balanced contained low).run ready

end

end Call

end LuaMachine
