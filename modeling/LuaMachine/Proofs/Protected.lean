import LuaMachine.Proofs.Recovery

set_option autoImplicit false

namespace LuaMachine

open Vm

def Call.Leaves (values : List Value) (s : State) (body : Vm Nat) : Prop :=
  ∃ t, body s = .ok values.length t ∧ t.callers = s.callers ∧
    t.frame = { s.frame with top := s.frame.base + values.length } ∧
    Holds t.stack s.frame.base values

def Call.Yields (values : List Value) (func : Nat) (wanted : Option Nat)
    (r : EStateM.Result Stop State Nat) : Prop :=
  ∃ t, r = .ok (adjusted wanted values).length t ∧ Holds t.stack func (adjusted wanted values)

theorem Call.native_yields {values : List Value} {body : Vm Nat} {f : FunctionId}
    {func nargs : Nat} {s : State} (leaves : Leaves values (entered f func nargs s) body)
    (wanted : Option Nat) :
    Yields values func wanted (native body f func nargs wanted s) := by
  obtain ⟨t, ran, callers, frame, held⟩ := leaves
  have waiting : t.callers.frames = s.frame :: s.callers.frames := by rw [callers]; rfl
  obtain ⟨u, popped, -, store, -⟩ := popFrame_run waiting
  have base : t.frame.base = func + 1 := by rw [frame]; rfl
  have top : t.frame.top = func + 1 + values.length := by rw [frame]; rfl
  have count : min values.length t.frame.size = values.length := by
    simp only [Frame.size, base, top]
    omega
  have source : t.frame.top - values.length = func + 1 := by omega
  have held' : Holds u.stack (func + 1) values := by
    rw [store]
    exact held
  obtain ⟨stack, moved, -, down, -⟩ := moveDown_run (func + 1) func (Nat.le_succ func) held'
  obtain ⟨results, adjusts, -, fits⟩ :=
    adjustResults_run func values.length wanted { u with stack }
  have returns (n : Nat) : returnFromNative func n wanted t =
      (moveDown (t.frame.top - min n t.frame.size) func (min n t.frame.size) >>= fun _ =>
        adjustResults func (min n t.frame.size) wanted) u := bind_ok popped _
  rw [Yields, native_eq, bind_ok ran, returns, count, source, bind_ok moved, adjusts,
    length_adjusted]
  exact ⟨_, rfl, fits values rfl down⟩

namespace Base

variable {call : Call} {s : State} {values : List Value} {n : Nat}

theorem announce_run (ok : Bool) (window : s.frame.top = s.frame.base + values.length)
    (held : Holds s.stack s.frame.base values) :
    Call.Leaves (.bool ok :: values) s (do
      Window.push (.bool ok)
      Window.insert 1
      Window.size) := by
  obtain ⟨stack, pushed, here, kept⟩ := Window.push_run (.bool ok) s
  let t := { s with stack, frame := { s.frame with top := s.frame.top + 1 } }
  have listed : Holds stack s.frame.base (values ++ [.bool ok]) := by
    refine .append (held.congr fun j w _ below => kept j w (by omega)) ?_
    rw [← window]
    exact .cons here (.nil _ _)
  obtain ⟨stack', inserted, first⟩ := Window.insert_first (s := t) (by simp [t, window]) listed
  have length : t.frame.size = (Value.bool ok :: values).length := by
    simp only [t, Frame.size, window, List.length_cons]
    omega
  refine ⟨{ t with stack := stack' }, ?_, rfl, ?_, first⟩
  · rw [bind_ok pushed, bind_ok inserted, ← length]
    rfl
  · simp [t, window, Nat.add_assoc]

theorem pcall_run (balanced : call.Balanced) (window : s.frame.top = s.frame.base + n + 1)
    (room : s.frame.base < s.stack.size) :
    match call s.frame.base n none s with
    | .ok k t => ∃ values, values.length = k ∧ Holds t.stack s.frame.base values ∧
      Call.Leaves (.bool true :: values) s (pcall call)
    | .error (.raised e) _ => Call.Leaves [.bool false, e.toValue] s (pcall call)
    | .error stop t => pcall call s = .error stop t := by
  let announce (ok : Bool) : Vm Nat := do
    Window.push (.bool ok)
    Window.insert 1
    Window.size
  have there : Window.checkAny 1 s = .ok s.stack[s.frame.base] s := by
    have first : Window.slotOf? s.frame (1 : Nat) = some s.frame.base :=
      Window.slotOf?_first (by omega)
    rw [Window.checkAny, frame_bind, first]
    exact read_ok room
  have count : s.frame.size - 1 = n := by
    simp only [Frame.size]
    omega
  have steps : pcall call s = (Call.attempt call n none >>= announce) s := by
    rw [← count]
    exact bind_ok there _
  have recovers := balanced.recovers (s := s) n none (by omega)
  have func_eq : s.frame.top - (n + 1) = s.frame.base := by omega
  unfold Call.Recovers at recovers
  rw [func_eq] at recovers
  dsimp only at recovers
  -- Both outcomes leave values from the base on, and the flag goes before them.
  have transfer {ok : Bool} {t : State} {top : Nat} {values : List Value}
      (attempted : Call.attempt call n none s = .ok ok t)
      (settled : Call.Settled s.frame.base top s t) (length : top = s.frame.base + values.length)
      (held : Holds t.stack s.frame.base values) :
      Call.Leaves (.bool ok :: values) s (pcall call) := by
    have base : t.frame.base = s.frame.base := by rw [settled.frame]
    obtain ⟨u, ran, callers, frame, first⟩ :=
      announce_run (s := t) ok (by rw [settled.frame, length]) (base ▸ held)
    rw [base] at frame first
    refine ⟨u, ?_, callers.trans settled.callers, ?_, first⟩
    · rw [steps, bind_ok attempted]
      exact ran
    · rw [frame, settled.frame]
  cases ran : call s.frame.base n none s with
  | ok k t =>
    rw [ran] at recovers
    obtain ⟨-, attempted, -, settled⟩ := recovers
    obtain ⟨values, length, held⟩ := Holds.exists _ _ (balanced.ok ran).room
    exact ⟨values, length, held, transfer attempted settled (by rw [length]) held⟩
  | error stop t =>
    rw [ran] at recovers
    cases stop with
    | raised e =>
      obtain ⟨-, u, attempted, settled, here⟩ := recovers
      exact transfer attempted settled rfl (.cons here (.nil _ _))
    | outOfRange _ | overflow | exhausted =>
      change pcall call s = _
      rw [steps, bind_error recovers.2]

end Base

namespace Machine

variable {host : Host} {s : State} {f : FunctionId} {func : Nat}

theorem accept_function {closure : Closure} (callee : s.stack[func]? = some (.function f))
    (found : s.function? f = some closure) (paid : s.budget ≠ 0)
    (shallow : s.depth ≤ s.config.maxCallDepth) (nargs : Nat) :
    accept func nargs s = .ok (closure, f, nargs) { s with budget := s.budget - 1 } := by
  let t := { s with budget := s.budget - 1 }
  have here : t.stack[func]? = some (.function f) := callee
  have took : read func t = .ok (.function f) t := by rw [Vm.read, here]
  have resolved : Call.resolve func nargs t = .ok (f, nargs) t := bind_ok took _
  rw [accept_shallow paid shallow]
  exact callee_found resolved found

theorem accept_deep (paid : s.budget ≠ 0) (deep : s.config.maxCallDepth < s.depth) (nargs : Nat) :
    accept func nargs s = .error (.raised .stackOverflow) { s with budget := s.budget - 1 } := by
  let t := { s with budget := s.budget - 1 }
  have ticked : tick s = .ok () t := if_neg paid
  refine (bind_ok ticked _).trans ?_
  change (if t.depth > t.config.maxCallDepth then _ else _ : Vm _) t = _
  rw [if_pos (show t.depth > t.config.maxCallDepth from deep)]
  rfl

/-- The protected call at `func` returns whatever its function does, unless the machine itself
stops. -/
def Protects (host : Host) (fuel : Nat) (f : FunctionId) (func nargs : Nat) (wanted : Option Nat)
    (s : State) : Prop :=
  let t := Call.entered f func (nargs + 1) { s with budget := s.budget - 1 }
  let r := callWithin host (fuel + 1) func (nargs + 1) wanted s
  match callWithin host fuel (func + 1) nargs none t with
  | .ok n u => ∃ values, values.length = n ∧ Holds u.stack (func + 1) values ∧
    Call.Yields (.bool true :: values) func wanted r
  | .error (.raised e) _ => Call.Yields [.bool false, e.toValue] func wanted r
  | .error stop u => r = .error stop u

theorem pcall_protects (propagates : host.Propagates) {cells : Array CellId}
    (callee : s.stack[func]? = some (.function f))
    (found : s.function? f = some ⟨.native (.base .pcall), cells⟩) (paid : s.budget ≠ 0)
    (shallow : s.depth ≤ s.config.maxCallDepth) (fuel nargs : Nat) (wanted : Option Nat) :
    Protects host fuel f func nargs wanted s := by
  let t := Call.entered f func (nargs + 1) { s with budget := s.budget - 1 }
  have steps : callWithin host (fuel + 1) func (nargs + 1) wanted s =
      Call.native (Base.pcall (callWithin host fuel)) f func (nargs + 1) wanted
        { s with budget := s.budget - 1 } := by
    change invoke host (callWithin host fuel) fuel func (nargs + 1) wanted s = _
    rw [invoke_eq, bind_ok (accept_function callee found paid shallow _)]
    rfl
  have room : func + 1 < t.stack.size := by
    have := Call.entered_room f func (nargs + 1) { s with budget := s.budget - 1 }
    change _ ≤ t.stack.size at this
    omega
  have runs := Base.pcall_run (callWithin_balanced propagates fuel) (s := t) (n := nargs)
    (by change func + 1 + (nargs + 1) = func + 1 + nargs + 1; omega) room
  change match callWithin host fuel (func + 1) nargs none t with
    | .ok _ _ => _ | .error (.raised _) _ => _ | .error _ _ => _ at runs
  unfold Protects
  dsimp only
  rw [steps]
  cases ran : callWithin host fuel (func + 1) nargs none t with
  | ok n u =>
    rw [ran] at runs
    obtain ⟨values, length, held, leaves⟩ := runs
    exact ⟨values, length, held, Call.native_yields leaves wanted⟩
  | error stop u =>
    rw [ran] at runs
    cases stop with
    | raised e => exact Call.native_yields runs wanted
    | outOfRange _ | overflow | exhausted => exact bind_error runs _

end Machine

/-- Calls leave the calls in progress as they were, whether they return or fail; of the slots below
the function only those change that are written through a cell that was open on them. A protected
call that has been let in catches every error. -/
theorem calls_recover {host : Host} (propagates : host.Propagates) :
    (∀ call, Machine.Makes host call → ∀ nargs wanted (s : State),
      s.frame.base + nargs + 1 ≤ s.frame.top → Call.Recovers call nargs wanted s) ∧
    (∀ p (s : State), s.frame.base ≤ s.frame.top →
      match Machine.executePrototype host p s with
      | .ok _ t => t.depth = s.depth ∧ t.frame = s.frame
      | .error (.raised _) t => t.depth = s.depth ∧ t.frame = s.frame
      | .error _ _ => True) ∧
    ∀ fuel f func nargs wanted cells (s : State), s.stack[func]? = some (.function f) →
      s.function? f = some ⟨.native (.base .pcall), cells⟩ → s.budget ≠ 0 →
      s.depth ≤ s.config.maxCallDepth → Machine.Protects host fuel f func nargs wanted s := by
  refine ⟨?_, ?_, ?_⟩
  · exact fun call makes nargs wanted s => (makes.balanced propagates).recovers nargs wanted
  · intro p s window
    have same {t : State} (frames : t.frames = s.frames) :
        t.depth = s.depth ∧ t.frame = s.frame :=
      ⟨by rw [State.depth_eq, State.depth_eq, frames], (State.frames_injective frames).1⟩
    have restores := Machine.executePrototype_restores propagates p window
    cases ran : Machine.executePrototype host p s with
    | ok results t =>
      rw [ran] at restores
      exact same restores
    | error stop t =>
      rw [ran] at restores
      cases stop with
      | raised e => exact same restores
      | outOfRange _ | overflow | exhausted => trivial
  · intro fuel f func nargs wanted cells s callee found paid shallow
    exact Machine.pcall_protects propagates callee found paid shallow fuel nargs wanted

def Host.calling : Host := fun _ call => do
  Window.push (← Window.value 1)
  Call.host call 0 (some 0)
  return 0

theorem Host.calling_propagates : Host.calling.Propagates := fun _ _ =>
  (Windowed.bind (.value 1) fun v => .bind (.push v) fun _ => .bind (.host 0 (some 0)) fun _ =>
    .pure 0).interface

namespace Shared

-- A function that makes the third register of its maker false.
def setter : Prototype :=
  { source := "", stackSize := 1, captures := #[.register 2]
    code := #[.ofABC .loadBool 0 0 0, .ofABC .setUpval 0 0 0, .ofABC .ret 0 1 0] }

-- A function that hands the setter and its own third register to its argument.
def caller : Prototype :=
  { source := "", params := 1, stackSize := 3, protos := [setter]
    code := #[.ofABx .closure 1 0, .ofABC .loadBool 2 1 0, .ofABC .call 0 3 1, .ofABC .ret 0 1 0] }

def loaded : State :=
  (do
    Machine.loadPrototype caller
    Window.pushNative (.host "") 0 : Vm Unit).after (State.new {})

def state : State :=
  { (Call.host (Machine.call Host.calling) 1 none).after { loaded with budget := 5 } with
    budget := 9 }

theorem state_reachable : Reachable Host.calling state :=
  .allot 9 (.perform (.allot 5 (.perform (.new {})
    (.bind (.loadPrototype caller) fun _ => .pushNative (.host "") 0))) (.host 1 none))

end Shared

theorem calls_recover_shared :
    Shared.state.frame.base + 0 + 1 ≤ Shared.state.frame.top ∧
      Call.Recovers (Machine.call Host.calling) 0 (some 0) Shared.state := by
  have enough : Shared.state.frame.base + 0 + 1 ≤ Shared.state.frame.top := by decide +kernel
  -- The state is hidden so that nothing starts to run it.
  generalize Shared.state = s at enough ⊢
  exact ⟨enough, (calls_recover Host.calling_propagates).1 _ .outer 0 (some 0) s enough⟩

-- A machine that lets no call in, with the protected call and an argument in its window.
def State.refusing : State :=
  (do
    Window.push (.function ⟨6⟩)
    Window.push .nil : Vm Unit).after (.new { maxCallDepth := 0 })

def Closure.isNative (c : Closure) (g : Native) : Bool :=
  match c.body with
  | .native h => h = g
  | .script _ => false

theorem State.refusing_pcall :
    ∃ cells, refusing.function? ⟨6⟩ = some ⟨.native (.base .pcall), cells⟩ := by
  have sixth : (refusing.function? ⟨6⟩).any (·.isNative (.base .pcall)) = true := by
    decide +kernel
  obtain ⟨⟨body, cells⟩, found, native⟩ := (Option.any_eq_true _ _).1 sixth
  cases body with
  | script p => cases native
  | native g =>
    cases of_decide_eq_true native
    exact ⟨cells, found⟩

theorem calls_recover_limits :
    (∃ t, Reachable Host.calling Shared.state ∧
      Call.host (Machine.call Host.calling) 0 (some 0) Shared.state = .ok () t ∧
      Shared.state.frame.base ≤ 3 ∧ 3 < Shared.state.frame.top - 1 ∧
      Shared.state.stack[3]? = some (.bool true) ∧ t.stack[3]? = some (.bool false)) ∧
    ∃ cells t, Reachable Command.noHost .refusing ∧
      State.refusing.stack[0]? = some (.function ⟨6⟩) ∧ State.refusing.frame.top = 2 ∧
      State.refusing.function? ⟨6⟩ = some ⟨.native (.base .pcall), cells⟩ ∧
      Machine.call Command.noHost 0 1 none .refusing = .error (.raised .stackOverflow) t := by
  constructor
  · have changed : (Call.host (Machine.call Host.calling) 0 (some 0)).returns Shared.state
      (fun _ t => t.stack[3]? = some (.bool false)) = true := by decide +kernel
    obtain ⟨_, t, ran, after⟩ := of_returns changed
    exact ⟨t, Shared.state_reachable, ran, by decide +kernel, by decide +kernel,
      by decide +kernel, of_decide_eq_true after⟩
  · obtain ⟨cells, found⟩ := State.refusing_pcall
    have paid : State.refusing.budget ≠ 0 := by decide +kernel
    have deep : State.refusing.config.maxCallDepth < State.refusing.depth := by decide +kernel
    refine ⟨cells, { State.refusing with budget := State.refusing.budget - 1 }, ?_,
      by decide +kernel, by decide +kernel, found, ?_⟩
    · exact .perform (.new _) (.bind (.push _) fun _ => .push _)
    · rw [Machine.call_eq, Machine.invoke_eq, Vm.bind_error (Machine.accept_deep paid deep 1)]

end LuaMachine
