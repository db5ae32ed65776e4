import LuaMachine.Proofs.Origin

set_option autoImplicit false

namespace LuaMachine

open Vm
open LuaMachine.Frame (SameButTop SameCall)

-- The error is not that of a call that ends although no other waits for it.
def LuaError.Grounded (e : LuaError) : Prop := e.root ≠ .runtime .callStackUnderflow

theorem LuaError.Ordinary.grounded {e : LuaError} (ordinary : e.Ordinary) : e.Grounded := by
  cases e with
  | traced place e => cases ordinary.bare
  | _ => exact ordinary.ne_underflow

theorem LuaError.script_grounded (v : Value) : (LuaError.script v).Grounded := nofun

def Call.Grounded (call : LuaMachine.Call) : Prop :=
  ∀ func nargs wanted s e t, call func nargs wanted s = .error (.raised e) t → e.Grounded

def Host.Grounded (host : Host) : Prop :=
  ∀ name (call : Call), call.Balanced → call.Grounded →
    ∀ s e t, s.frame.base ≤ s.frame.top → host name call s = .error (.raised e) t → e.Grounded

theorem Fails.grounded {keep : Frame → Frame → Prop} {call : Call} {s t : State} {e : LuaError}
    (grounded : call.Grounded) (fails : Fails LuaError.Ordinary keep call s e t) : e.Grounded := by
  cases fails with
  | itself ordinary _ _ => exact ordinary.grounded
  | inside _ _ failed => exact grounded _ _ _ _ _ _ failed
  | handedOn failed _ _ _ => exact grounded _ _ _ _ _ _ failed

/-- Every way in which the running call ends leaves another in its place, and none of them fails for
want of one. -/
structure State.Ends (s : State) : Prop where
  popped : ∃ t, popFrame s = .ok s.frame t ∧ t.frames = s.callers.frames ∧ t.Bounded
  returned : ∀ first n e t, Call.returnFrom first n s ≠ .error (.raised e) t
  returnedNative : ∀ func n wanted e t,
    Call.returnFromNative func n wanted s ≠ .error (.raised e) t
  replaced : ∀ call : Call, call.Balanced → ∀ slot nargs e t,
    Call.tail call slot nargs s = .error (.raised e) t →
      e ≠ .runtime .callStackUnderflow ∨
        ∃ func n wanted u v, call func n wanted u = .error (.raised e) v

theorem State.Bounded.ends {s : State} (bounded : s.Bounded) {f : FunctionId}
    (running : s.frame.function = some f) : s.Ends := by
  obtain ⟨c, rest, waiting⟩ := bounded.caller running
  refine ⟨?_, fun first n e t => Call.returnFrom_unraised waiting first n,
    fun func n wanted e t => Call.returnFromNative_unraised waiting func n wanted, ?_⟩
  · obtain ⟨t, popped, frames, -⟩ := popFrame_run waiting
    obtain ⟨calls, functions, few⟩ := popFrame_bounded popped bounded
    exact ⟨t, popped, waiting ▸ frames, calls, functions, Nat.le_of_succ_le few⟩
  · intro call balanced slot nargs e t raised
    cases Call.tail_fails balanced waiting slot nargs raised with
    | itself ordinary _ _ => exact .inl ordinary.ne_underflow
    | inside _ _ failed => exact .inr ⟨_, _, _, _, _, failed⟩
    | handedOn failed _ _ _ => exact .inr ⟨_, _, _, _, _, failed⟩

theorem Call.unwind_total (s : State) (depth : Nat) :
    ∃ t, unwind depth s = .ok () t ∧ t.depth = min s.depth (max depth 1) := by
  let gone := s.depth - max depth 1
  have positive : 1 ≤ s.depth := Nat.le_add_left 1 _
  have fewer : gone < s.frames.length := by
    rw [← State.depth_eq]
    omega
  have frames : s.frames = s.frames.take gone ++ s.frames[gone] :: s.frames.drop (gone + 1) := by
    rw [← List.drop_eq_getElem_cons fewer, List.take_append_drop]
  have count : (s.frames.take gone).length = gone := List.length_take_of_le (Nat.le_of_lt fewer)
  obtain ⟨t, ran, left, -⟩ := discard_run frames
  rw [count] at ran
  refine ⟨t, ran, ?_⟩
  rw [State.depth_eq, left, List.length_cons, List.length_drop, ← State.depth_eq]
  omega

namespace Machine

variable {host : Host} {call : Call} {s t : State} {e : LuaError} {func : Nat} {c : Frame}
  {rest : List Frame}

theorem activation_ordinary : RaisesOrdinary activation := by
  refine .bind (.of_unraised (.inspect id)) fun s => ?_
  split
  · exact .raise ⟨rfl, nofun⟩
  · split
    · exact .of_unraised (.pure _)
    · exact .raise ⟨rfl, nofun⟩

theorem locate_root (p : Routine) (pc : Nat) (e : LuaError) : (locate p pc e).root = e.root := by
  unfold locate
  split <;> rfl

theorem stepOnce_grounded (balanced : call.Balanced) (grounded : call.Grounded)
    (running : Running func (c :: rest) s) (failed : stepOnce call s = .error (.raised e) t) :
    e.Grounded := by
  rcases activation_run s with ⟨f, p, cells, function, script⟩ | ⟨stop, stopped⟩
  · obtain ⟨w, e₀, -, rfl, stopped⟩ := stepOnce_raised running.callers function script failed
    have fails := Activation.step_fails balanced (advanced_running running) rfl stopped
    have root := fails.grounded grounded
    rwa [LuaError.Grounded, ← locate_root] at root
  · rw [stepOnce, bind_error stopped] at failed
    cases failed
    exact (activation_ordinary s e s stopped).grounded

theorem native_grounded (sober : host.Grounded) (balanced : call.Balanced)
    (grounded : call.Grounded) (n : Native) (window : s.frame.base ≤ s.frame.top)
    (failed : native host call n s = .error (.raised e) t) : e.Grounded := by
  cases n with
  | host name => exact sober name call balanced grounded s e t window failed
  | base g =>
    by_cases isValue : g = .error ∨ g = .assert
    · rcases ((Base.run_observes call isValue).raised s e t failed).2 with ordinary | ⟨v, rfl⟩
      · exact ordinary.grounded
      · exact LuaError.script_grounded v
    · rw [not_or] at isValue
      have fails := (Base.run_windowed call isValue.1 isValue.2).library.fails
        (fun _ ordinary => ordinary) balanced window failed
      exact fails.grounded grounded

theorem enter_grounded (propagates : host.Propagates) (sober : host.Grounded)
    (balanced : call.Balanced) (grounded : call.Grounded) (fuel func : Nat) (wanted : Option Nat)
    (entry : Closure × FunctionId × Nat)
    (failed : enter host call fuel func wanted entry s = .error (.raised e) t) : e.Grounded := by
  obtain ⟨⟨body, cells⟩, f, nargs⟩ := entry
  cases body with
  | native n =>
    have running := (Call.entered_running f func nargs s).1
    exact native_grounded sober balanced grounded n running.window
      (enterNative_raised propagates balanced failed)
  | script p =>
    obtain ⟨u, begun, failed⟩ := enterScript_raised failed
    have begins := Call.enterScript_begins f p func nargs s
    rw [begun] at begins
    obtain ⟨last, v, path, ticked, failed⟩ := loop_raised failed
    have runs := (running_path balanced begins.1 path).1
    exact stepOnce_grounded balanced grounded (runs.still (Quiet.tick.ok ticked)) failed

theorem invoke_grounded (propagates : host.Propagates) (sober : host.Grounded)
    (balanced : call.Balanced) (grounded : call.Grounded) (fuel : Nat) :
    Call.Grounded (invoke host call fuel) := by
  intro func nargs wanted s e t failed
  rw [invoke_eq] at failed
  rcases error_of_bind failed with refused | ⟨entry, u, -, failed⟩
  · exact (accept_ordinary func nargs s e t refused).grounded
  · exact enter_grounded propagates sober balanced grounded fuel func wanted entry failed

theorem Makes.grounded (propagates : host.Propagates) (sober : host.Grounded)
    (makes : Makes host call) : call.Grounded := by
  have within (fuel : Nat) : Call.Grounded (callWithin host fuel) := by
    induction fuel with
    | zero => exact fun _ _ _ _ _ _ failed => by cases failed
    | succ fuel ih =>
      exact invoke_grounded propagates sober ((Makes.nested fuel).balanced propagates) ih fuel
  cases makes with
  | nested fuel => exact within fuel
  | outer =>
    intro func nargs wanted s e t failed
    rw [call_eq] at failed
    exact invoke_grounded propagates sober ((Makes.nested s.budget).balanced propagates)
      (within s.budget) s.budget func nargs wanted s e t failed

end Machine

/-- At every point of every run the host's call is the outermost and at most as many are above it
as allowed. Nothing ends the host's call: a function that returns or gives way to another has a
caller, unwinding stops before the host, and no call fails for want of a caller. A call that would
be one too many is refused and leaves no trace, but a tail call of a script function is none, and
any number of them leaves the depth as it was. -/
theorem depth_bounded {host : Host} (propagates : host.Propagates) :
    (∀ s, Machine.Passes host s →
      s.Bounded ∧ 1 ≤ s.depth ∧ s.depth ≤ s.config.maxCallDepth + 1 ∧
        ∀ g, s.frame.function = some g → s.Ends) ∧
    (∀ s depth, ∃ t, Call.unwind depth s = .ok () t ∧ t.depth = min s.depth (max depth 1)) ∧
    (host.Grounded → ∀ call, Machine.Makes host call → ∀ func nargs wanted s e t,
      call func nargs wanted s = .error (.raised e) t →
        e.root ≠ .runtime .callStackUnderflow) ∧
    (∀ func nargs wanted (s : State), s.config.maxCallDepth < s.depth → s.budget ≠ 0 →
      let refused := .error (.raised .stackOverflow) { s with budget := s.budget - 1 }
      Machine.call host func nargs wanted s = refused ∧
        ∀ fuel, Machine.callWithin host (fuel + 1) func nargs wanted s = refused) ∧
    (∀ s, Machine.Passes host s → ∀ call slot nargs f n p cells t g,
      s.frame.function = some g → Call.resolve slot nargs s = .ok (f, n) t →
      t.function? f = some ⟨.script p, cells⟩ →
      Call.Replaced s.callers.frames f (Call.tail call slot nargs s)) ∧
    ∀ call s t, Relation.ReflTransGen (Machine.TailCalls call) s t → t.depth = s.depth := by
  refine ⟨fun s passes => ?_, Call.unwind_total, ?_, fun func nargs wanted s deep paid =>
    ⟨?_, fun fuel => ?_⟩, ?_, ?_⟩
  · have bounded := passes.bounded propagates
    exact ⟨bounded, Nat.succ_le_succ (Nat.zero_le _), bounded.depth_le, fun g => bounded.ends⟩
  · exact fun sober call makes => makes.grounded propagates sober
  · exact (Machine.call_eq ..).trans (Machine.invoke_deep paid deep ..)
  · exact Machine.invoke_deep paid deep ..
  · intro s passes call slot nargs f n p cells t g running resolved found
    exact Call.tail_replaced (passes.bounded propagates) running resolved found
  · intro call s t tails
    induction tails with
    | refl => rfl
    | tail _ last ih => exact last.depth.trans ih

theorem Command.noHost_grounded : noHost.Grounded := by
  intro name call _ _ s e t _ failed
  cases failed
  nofun

-- A machine that lets one call in, in the middle of that call: it is about to make another.
def State.full : State :=
  let nesting : Prototype :=
    { source := "", code := #[.ofABC .call 0 1 1, .ofABC .ret 0 1 0] }
  let loaded := (Machine.loadPrototype nesting).after (.new { maxCallDepth := 1 })
  { (Call.host (Machine.call Command.noHost) 0 none).after { loaded with budget := 2 } with
    budget := 1 }

theorem State.full_passes : Machine.Passes Command.noHost full :=
  .allot 1 (.perform (.allot 2 (.perform (.new _) .outer (.loadPrototype _))) .outer (.host 0 none))

theorem depth_bounded_full :
    State.full.depth = State.full.config.maxCallDepth + 1 ∧ State.full.Bounded ∧ State.full.Ends ∧
      Call.Grounded (Machine.call Command.noHost) ∧
      ∃ t, Machine.call Command.noHost 1 0 (some 0) .full = .error (.raised .stackOverflow) t ∧
        t.frames = State.full.frames := by
  have full : State.full.depth = State.full.config.maxCallDepth + 1 := by decide +kernel
  have paid : State.full.budget ≠ 0 := by decide +kernel
  have runs : State.full.frame.function.isSome = true := by decide +kernel
  have passes := State.full_passes
  -- The state is hidden so that nothing starts to run it.
  generalize State.full = s at full paid runs passes ⊢
  obtain ⟨g, running⟩ := Option.isSome_iff_exists.1 runs
  obtain ⟨passing, -, grounded, refused, -⟩ := depth_bounded Command.noHost_propagates
  obtain ⟨bounded, -, -, ends⟩ := passing s passes
  have deep : s.config.maxCallDepth < s.depth := by omega
  exact ⟨full, bounded, ends g running, grounded Command.noHost_grounded _ .outer, _,
    (refused 1 0 (some 0) s deep paid).1, rfl⟩

end LuaMachine
