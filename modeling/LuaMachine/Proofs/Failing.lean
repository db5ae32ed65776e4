import LuaMachine.Proofs.Depth

set_option autoImplicit false

namespace LuaMachine

open Vm
open LuaMachine.Frame (Keeping SameButTop SameCall)

-- An action all of whose errors are its own.
def RaisesOrdinary {α : Type} (x : Vm α) : Prop :=
  ∀ s e t, x s = .error (.raised e) t → e.Ordinary

namespace RaisesOrdinary

variable {α β : Type}

theorem of_unraised {x : Vm α} (unraised : Unraised x) : RaisesOrdinary x :=
  fun s e t raised => absurd raised (unraised s e t)

theorem raise {e : LuaError} (ordinary : e.Ordinary) : RaisesOrdinary (Vm.raise e : Vm α) := by
  intro s e' t raised
  cases raised
  exact ordinary

theorem bind {x : Vm α} {f : α → Vm β} (first : RaisesOrdinary x)
    (rest : ∀ a, RaisesOrdinary (f a)) : RaisesOrdinary (x >>= f) := by
  intro s e t raised
  rcases error_of_bind raised with failed | ⟨a, u, -, failed⟩
  · exact first s e t failed
  · exact rest a u e t failed

end RaisesOrdinary

theorem Call.resolve_ordinary (func nargs : Nat) : RaisesOrdinary (resolve func nargs) := by
  have within (links nargs : Nat) : RaisesOrdinary (resolveWithin func links nargs) := by
    induction links generalizing nargs with
    | zero => exact .raise ⟨rfl, nofun⟩
    | succ links ih =>
      refine .bind (.of_unraised (.read func)) fun callee => ?_
      split
      · exact .of_unraised (.pure _)
      · refine .bind (.of_unraised (.inspect _)) fun h => ?_
        split
        · exact .raise ⟨rfl, nofun⟩
        · exact .bind (.of_unraised (.reserveWithHeadroom _)) fun _ =>
            .bind (.of_unraised (.shiftUp _ _)) fun _ =>
              .bind (.of_unraised (.write func h)) fun _ => ih _
  exact .bind (.of_unraised (.inspect id)) fun s => within _ nargs

theorem Vm.tick_unraised : Unraised tick := by
  intro s e t raised
  unfold tick at raised
  split at raised <;> cases raised

theorem Machine.accept_ordinary (func nargs : Nat) : RaisesOrdinary (accept func nargs) := by
  have found : RaisesOrdinary (callee func nargs) := by
    refine .bind (Call.resolve_ordinary func nargs) fun target =>
      .bind (.of_unraised (.inspect id)) fun s => ?_
    split
    · exact .raise ⟨rfl, nofun⟩
    · exact .of_unraised (.pure _)
  refine .bind (.of_unraised tick_unraised) fun _ => .bind (.of_unraised (.inspect id)) fun s => ?_
  dsimp only
  split
  · exact .bind (.raise ⟨rfl, nofun⟩) fun _ => found
  · exact found

/-- How an action of the running call fails whose own errors are such as `own` says, and that keeps
of its frame what `keep` says. -/
inductive Fails (own : LuaError → Prop) (keep : Frame → Frame → Prop) (call : Call) (s : State)
    (e : LuaError) (t : State) : Prop where
  | itself : own e → t.callers = s.callers → keep s.frame t.frame → Fails own keep call s e t
  | inside {u : State} {func nargs : Nat} {wanted : Option Nat} :
    u.callers = s.callers → keep s.frame u.frame →
      call func nargs wanted u = .error (.raised e) t → Fails own keep call s e t
  | handedOn {u v : State} {nargs : Nat} {wanted : Option Nat} :
    call (u.frame.top - (nargs + 1)) nargs wanted u = .error (.raised e) v →
      Call.host call nargs wanted u = .error (.raised e) t → t.callers = s.callers →
      keep s.frame t.frame → Fails own keep call s e t

theorem Fails.mono {own own' : LuaError → Prop} {keep : Frame → Frame → Prop} {call : Call}
    {s t : State} {e : LuaError} (includes : ∀ e, own e → own' e)
    (fails : Fails own keep call s e t) : Fails own' keep call s e t := by
  cases fails with
  | itself owned same kept => exact .itself (includes e owned) same kept
  | inside same kept failed => exact .inside same kept failed
  | handedOn failed handed same kept => exact .handedOn failed handed same kept

section

variable {own : LuaError → Prop} {keep : Frame → Frame → Prop} [Keeping keep] {call : Call}
  {α : Type} {x : Vm α} {s t u : State} {e : LuaError}

theorem Fails.after (callers : u.callers = s.callers) (kept : keep s.frame u.frame)
    (fails : Fails own keep call u e t) : Fails own keep call s e t := by
  cases fails with
  | itself owned same frame => exact .itself owned (same.trans callers) (Keeping.trans kept frame)
  | inside same frame failed => exact .inside (same.trans callers) (Keeping.trans kept frame) failed
  | handedOn failed handed same frame =>
    exact .handedOn failed handed (same.trans callers) (Keeping.trans kept frame)

theorem Operates.fails (balanced : call.Balanced) (operates : Operates call x)
    (window : s.frame.base ≤ s.frame.top) (raised : x s = .error (.raised e) t) :
    Fails LuaError.Ordinary keep call s e t := by
  induction operates generalizing s with
  | bind first _ ih rest =>
    rcases error_of_bind raised with failed | ⟨a, u, ran, failed⟩
    · exact ih window failed
    · have stays := (first.asks.acts balanced s.frame.base).ok rfl window ran
      exact (rest a (stays.frame ▸ window) failed).after stays.callers
        (stays.frame ▸ Keeping.refl _)
  | inspect f => cases raised
  | raise ordinary =>
    cases raised
    exact .itself ordinary rfl (Keeping.refl _)
  | modifyTable i f => cases raised
  | callHandler h args =>
    obtain ⟨u, placed, asked⟩ := Operation.callHandler_run balanced h args s
    obtain ⟨frame, callers⟩ := State.frames_injective placed.frames
    cases ran : call (Operation.scratch s) args.length (some 1) u with
    | ok n v =>
      rw [ran] at asked
      obtain ⟨bound, result⟩ := asked
      rw [result] at raised
      cases raised
    | error stop v =>
      rw [ran] at asked
      rw [asked] at raised
      cases raised
      exact .inside callers (frame ▸ Keeping.refl _) ran

end

namespace Call

variable {call : LuaMachine.Call} {s t : State} {e : LuaError}

theorem host_fails (balanced : call.Balanced) (nargs : Nat) (wanted : Option Nat)
    (raised : host call nargs wanted s = .error (.raised e) t) :
    Fails LuaError.Ordinary SameButTop call s e t := by
  by_cases enough : s.frame.base + nargs + 1 ≤ s.frame.top
  · have recovers := balanced.recovers nargs wanted enough
    unfold Recovers at recovers
    dsimp only at recovers
    cases ran : call (s.frame.top - (nargs + 1)) nargs wanted s with
    | ok n u =>
      rw [ran] at recovers
      rw [recovers.1] at raised
      cases raised
    | error stop u =>
      rw [ran] at recovers
      cases stop with
      | raised e' =>
        obtain ⟨⟨v, handed, settled⟩, -⟩ := recovers
        have same := handed.symm.trans raised
        cases same
        exact .handedOn ran handed settled.callers (by rw [SameButTop, settled.frame])
      | outOfRange _ | overflow | exhausted =>
        rw [recovers.1] at raised
        cases raised
  · have missing : funcSlot nargs s = .error (.raised (.runtime .tooFewValues)) s := by
      change (if _ then _ else _ : Vm Nat) s = _
      rw [if_neg enough]
      rfl
    have failed : host call nargs wanted s = _ := bind_error missing _
    rw [failed] at raised
    cases raised
    exact .itself (.of_fault (by decide)) rfl rfl

-- A protected call raises nothing.
theorem attempt_unraised (balanced : call.Balanced) (nargs : Nat) (wanted : Option Nat) :
    Unraised (attempt call nargs wanted) := by
  intro s e t raised
  by_cases enough : s.frame.base + nargs + 1 ≤ s.frame.top
  · have recovers := balanced.recovers nargs wanted enough
    unfold Recovers at recovers
    dsimp only at recovers
    split at recovers
    next =>
      rw [recovers.2.1] at raised
      cases raised
    next =>
      obtain ⟨-, u, attempted, -⟩ := recovers
      rw [attempted] at raised
      cases raised
    next stop u other _ =>
      rw [recovers.2] at raised
      cases raised
      exact other e rfl
  · have missing : attempt call nargs wanted s =
        (do Window.push (LuaError.runtime .tooFewValues).toValue; return false : Vm Bool) s := by
      change (if _ then _ else _ : Vm Bool) s = _
      rw [if_neg enough]
    rw [missing] at raised
    exact (Unraised.bind (Window.push_unraised _) fun _ => .pure false) s e t raised

end Call

section

variable {own : LuaError → Prop} {call : Call} {α : Type} {x : Vm α} {s t : State} {e : LuaError}

theorem Library.fails (includes : ∀ e : LuaError, e.Ordinary → own e) (balanced : call.Balanced)
    (library : Library own call x) (window : s.frame.base ≤ s.frame.top)
    (raised : x s = .error (.raised e) t) : Fails own SameButTop call s e t := by
  induction library generalizing s with
  | operates operates => exact (operates.fails balanced window raised).mono includes
  | raise owned =>
    cases raised
    exact .itself owned rfl rfl
  | bind first _ ih rest =>
    rcases error_of_bind raised with failed | ⟨a, u, ran, failed⟩
    · exact ih window failed
    · have stays := (first.interface.acts balanced s.frame.base).ok rfl window ran
      exact (rest a (Keeping.base stays.frame ▸ stays.window) failed).after stays.callers
        stays.frame
  | silent _ unraised => exact absurd raised (unraised s e t)
  | host nargs wanted => exact (Call.host_fails balanced nargs wanted raised).mono includes
  | attempt nargs wanted =>
    exact absurd raised (Call.attempt_unraised balanced nargs wanted s e t)

theorem Activation.Works.fails {a : Activation} (balanced : call.Balanced)
    (works : a.Works call x) (base : s.frame.base = a.base) (window : a.base ≤ s.frame.top)
    (raised : x s = .error (.raised e) t) : Fails LuaError.Ordinary SameCall call s e t := by
  induction works generalizing s with
  | operates operates => exact operates.fails balanced (base ▸ window) raised
  | bind first _ ih rest =>
    rcases error_of_bind raised with failed | ⟨b, u, ran, failed⟩
    · exact ih base window failed
    · have stays := (first.within balanced).ok base window ran
      exact (rest b ((Keeping.base stays.frame).trans base) stays.window failed).after
        stays.callers stays.frame
  | read slot => exact absurd raised (Unraised.read slot s e t)
  | write _ v => exact absurd raised (Unraised.write _ v s e t)
  | reserveWithHeadroom size => exact absurd raised (Unraised.reserveWithHeadroom size s e t)
  | writeCell id v => exact absurd raised (Unraised.writeCell id v s e t)
  | captureSlot _ => exact absurd raised (Unraised.captureSlot _ s e t)
  | call _ nargs wanted => exact .inside rfl (Keeping.refl _) raised
  | newTable | newFunction | closeFrom | setTop | movePc | outOfRange => cases raised

end

namespace Call

variable {call : LuaMachine.Call} {s t : State} {c : Frame} {rest : List Frame} {e : LuaError}

theorem returnFrom_unraised (waiting : s.callers.frames = c :: rest) (first n : Nat) :
    returnFrom first n s ≠ .error (.raised e) t := by
  intro raised
  obtain ⟨u, popped, -⟩ := popFrame_run (s := (closeFrom 0).after s) waiting
  have steps : returnFrom first n s = (do
      moveDown first ((closeFrom 0).after s).frame.func n
      return n : Vm Nat) u := (bind_ok (closeFrom_run 0 s) _).trans (bind_ok popped _)
  rw [steps] at raised
  exact (Unraised.bind (.moveDown _ _ _) fun _ => .pure n) u e t raised

theorem returned_unraised (waiting : s.callers.frames = c :: rest) (first n : Nat) :
    (do return .returned (← returnFrom first n) : Vm Flow) s ≠ .error (.raised e) t := by
  intro raised
  rcases error_of_bind raised with failed | ⟨k, u, -, failed⟩
  · exact returnFrom_unraised waiting first n failed
  · cases failed

theorem adjustResults_unraised (func n : Nat) (wanted : Option Nat) :
    Unraised (adjustResults func n wanted) :=
  .bind (.reserveWithHeadroom _) fun _ => .bind (.clear _ _) fun _ => .bind (.modify _) fun _ =>
    .pure _

theorem returnFromNative_unraised (waiting : s.callers.frames = c :: rest) (func returned : Nat)
    (wanted : Option Nat) : returnFromNative func returned wanted s ≠ .error (.raised e) t := by
  intro raised
  obtain ⟨u, popped, -⟩ := popFrame_run waiting
  have steps : returnFromNative func returned wanted s = (do
      let n := min returned s.frame.size
      moveDown (s.frame.top - n) func n
      adjustResults func n wanted : Vm Nat) u := bind_ok popped _
  rw [steps] at raised
  exact (Unraised.bind (.moveDown _ _ _) fun _ => adjustResults_unraised _ _ _) u e t raised

theorem tail_fails (balanced : call.Balanced) (waiting : s.callers.frames = c :: rest)
    (slot nargs : Nat) (raised : tail call slot nargs s = .error (.raised e) t) :
    Fails LuaError.Ordinary SameCall call s e t := by
  cases resolved : resolve slot nargs s with
  | error stop u =>
    have failed : tail call slot nargs s = .error stop u := bind_error resolved _
    rw [failed] at raised
    cases raised
    obtain ⟨frame, callers⟩ :=
      State.frames_injective ((resolve_quiet slot nargs).error resolved).frames
    exact .itself (resolve_ordinary slot nargs s e t resolved) callers (frame ▸ Keeping.refl _)
  | ok callee u =>
    obtain ⟨f, n⟩ := callee
    obtain ⟨frame, callers⟩ :=
      State.frames_injective ((resolve_quiet slot nargs).ok resolved).frames
    by_cases script : ∃ p cells, u.function? f = some ⟨.script p, cells⟩
    · obtain ⟨p, cells, found⟩ := script
      obtain ⟨v, popped, -⟩ := popFrame_run (s := (closeFrom u.frame.base).after u)
        (callers ▸ waiting : u.callers.frames = _)
      rw [tail_script resolved found, bind_ok popped] at raised
      have replaced := replacement_run slot ((closeFrom u.frame.base).after u).frame.func n f p v
      rw [raised] at replaced
      exact replaced.elim
    · let v := (closeFrom u.frame.base).after u
      have kept : SameCall s.frame v.frame := by
        rw [frame_closeFrom, frame]
        exact ⟨rfl, rfl, rfl, rfl⟩
      rw [tail_native resolved fun p cells found => script ⟨p, cells, found⟩] at raised
      rcases error_of_bind raised with failed | ⟨k, w, called, failed⟩
      · exact .inside (u := v) callers kept failed
      · have back : w.callers.frames = c :: rest := by
          rw [(balanced.ok called).callers, callers_closeFrom, callers, waiting]
        exact absurd failed (returned_unraised back slot k)

end Call

theorem Activation.step_fails {call : Call} {a : Activation} {s t : State} {func : Nat} {c : Frame}
    {rest : List Frame} {e : LuaError} (balanced : call.Balanced)
    (running : Running func (c :: rest) s) (base : s.frame.base = a.base) {w : Word}
    (raised : a.step call w s = .error (.raised e) t) :
    Fails LuaError.Ordinary SameCall call s e t := by
  rcases a.step_cases call w s with ⟨n, steps⟩ | ⟨n, steps⟩ | ⟨x, works, steps⟩
  · rw [steps] at raised
    exact Call.tail_fails balanced running.callers _ n raised
  · rw [steps] at raised
    exact absurd raised (Call.returned_unraised running.callers _ n)
  · rw [steps] at raised
    rcases error_of_bind raised with failed | ⟨-, u, -, failed⟩
    · exact works.fails balanced base (base ▸ running.window) failed
    · cases failed

namespace Machine

variable {host : Host} {call : Call} {s t : State} {e : LuaError} {func : Nat} {c : Frame}
  {rest : List Frame}

theorem located_raised {α : Type} {p : Routine} {pc : Nat} {x : Vm α}
    (raised : located p pc x s = .error (.raised e) t) :
    ∃ e₀, x s = .error (.raised e₀) t ∧ e = locate p pc e₀ := by
  unfold located at raised
  split at raised
  next e₀ u ran =>
    cases raised
    exact ⟨e₀, ran, rfl⟩
  next r other => exact (other e t raised).elim

theorem advanced_running (running : Running func (c :: rest) s) :
    Running func (c :: rest) (advanced s) :=
  ⟨running.func_eq, running.func_le, running.window, running.callers⟩

-- An error of a script function is one of the instruction before the program counter.
theorem stepOnce_raised (waiting : s.callers.frames = c :: rest) {f : FunctionId} {p : Prototype}
    {cells : Array CellId} (function : s.frame.function = some f)
    (script : s.function? f = some ⟨.script p, cells⟩)
    (failed : stepOnce call s = .error (.raised e) t) :
    ∃ w e₀, p.code[s.frame.pc]? = some w ∧ e = locate p.toRoutine s.frame.pc e₀ ∧
      Activation.step ⟨cells, p, s.frame.base⟩ call w (advanced s) = .error (.raised e₀) t := by
  have found := activation_script function script
  cases code : p.code[s.frame.pc]? with
  | none =>
    rw [stepOnce_end found code] at failed
    exact absurd failed (Call.returned_unraised waiting _ 0)
  | some w =>
    rw [stepOnce_word found code] at failed
    obtain ⟨e₀, stopped, located⟩ := located_raised failed
    exact ⟨w, e₀, rfl, located, stopped⟩

theorem loop_raised {fuel : Nat} (failed : loop call fuel s = .error (.raised e) t) :
    ∃ last paid, Relation.ReflTransGen (Advances call) s last ∧ tick last = .ok () paid ∧
      stepOnce call paid = .error (.raised e) t := by
  induction fuel generalizing s with
  | zero => cases failed
  | succ fuel ih =>
    rcases error_of_bind failed with unpaid | ⟨_, u, ticked, failed⟩
    · exact absurd unpaid (tick_unraised s e t)
    · rcases error_of_bind failed with failed | ⟨flow, v, stepped, failed⟩
      · exact ⟨s, u, .refl, ticked, failed⟩
      · cases flow with
        | returned n => cases failed
        | next =>
          obtain ⟨last, paid, path, ticked', failed⟩ := ih failed
          exact ⟨last, paid, .head ⟨u, ticked, stepped⟩ path, ticked', failed⟩

theorem enterNative_raised (propagates : host.Propagates) (balanced : call.Balanced) {n : Native}
    {cells : Array CellId} {f : FunctionId} {fuel nargs : Nat} {wanted : Option Nat}
    (failed : enter host call fuel func wanted (⟨.native n, cells⟩, f, nargs) s =
      .error (.raised e) t) :
    native host call n (Call.entered f func nargs s) = .error (.raised e) t := by
  change Call.native (native host call n) f func nargs wanted s = _ at failed
  rw [Call.native_eq] at failed
  rcases error_of_bind failed with failed | ⟨k, u, ran, failed⟩
  · exact failed
  · have running := (Call.entered_running f func nargs s).1
    have stays := (native_acts propagates balanced n (func + 1)).ok rfl running.window ran
    have waiting : u.callers.frames = s.frames := by rw [stays.callers, running.callers]
    exact absurd failed (Call.returnFromNative_unraised waiting func k wanted)

theorem enterScript_raised {p : Prototype} {cells : Array CellId} {f : FunctionId}
    {fuel nargs : Nat} {wanted : Option Nat}
    (failed : enter host call fuel func wanted (⟨.script p, cells⟩, f, nargs) s =
      .error (.raised e) t) :
    ∃ u, Call.enterScript f p func nargs s = .ok () u ∧
      loop call fuel u = .error (.raised e) t := by
  rcases error_of_bind failed with failed | ⟨_, u, begun, failed⟩
  · exact absurd failed (Call.enterScript_unraised f p func nargs s e t)
  · rcases error_of_bind failed with failed | ⟨k, v, -, failed⟩
    · exact ⟨u, begun, failed⟩
    · exact absurd failed (Call.adjustResults_unraised func k wanted v e t)

end Machine

-- An action that only looks at the state, and raises values or errors without a place.
structure Observes {α : Type} (x : Vm α) : Prop where
  ok : ∀ s a t, x s = .ok a t → t = s
  raised : ∀ s e t, x s = .error (.raised e) t → t = s ∧ (e.Ordinary ∨ ∃ v, e = .script v)

namespace Observes

variable {α β : Type}

theorem inspect (f : State → α) : Observes (fun s => .ok (f s) s : Vm α) where
  ok s a t ran := by cases ran; rfl
  raised s e t raised := by cases raised

theorem pure (a : α) : Observes (pure a : Vm α) := inspect fun _ => a

theorem fault {f : Fault} (other : f ≠ .callStackUnderflow) : Observes (Vm.fault f : Vm α) where
  ok s a t ran := by cases ran
  raised s e t raised := by
    cases raised
    exact ⟨rfl, .inl (.of_fault other)⟩

theorem script (v : Value) : Observes (Vm.raise (.script v) : Vm α) where
  ok s a t ran := by cases ran
  raised s e t raised := by cases raised; exact ⟨rfl, .inr ⟨v, rfl⟩⟩

theorem overflow : Observes (throw .overflow : Vm α) where
  ok s a t ran := by cases ran
  raised s e t raised := by cases raised

theorem read (slot : Nat) : Observes (Vm.read slot) where
  ok s a t ran := by
    unfold Vm.read at ran
    split at ran <;> cases ran
    rfl
  raised s e t raised := absurd raised (Unraised.read slot s e t)

theorem bind {x : Vm α} {f : α → Vm β} (first : Observes x) (rest : ∀ a, Observes (f a)) :
    Observes (x >>= f) where
  ok s b t ran := by
    obtain ⟨a, u, ran, again⟩ := ok_of_bind ran
    exact ((rest a).ok u b t again).trans (first.ok s a u ran)
  raised s e t raised := by
    rcases error_of_bind raised with failed | ⟨a, u, ran, failed⟩
    · exact first.raised s e t failed
    · exact first.ok s a u ran ▸ (rest a).raised u e t failed

theorem raiseValue (message : Value) (level : Int64) :
    Observes (Base.raiseValue message level : Vm α) := by
  refine bind (inspect id) fun s => ?_
  split
  · exact script _
  · exact overflow

theorem value (i : Int) : Observes (Window.value i) := by
  refine bind (inspect State.frame) fun f => ?_
  split
  · exact read _
  · exact pure _

theorem badArgument (i : Nat) (complaint : String) :
    Observes (Window.badArgument i complaint : Vm α) := by
  change Observes (get >>= fun s =>
    Vm.fault (.badArgument i (Window.functionName? s) complaint) : Vm α)
  exact bind (inspect id) fun s => fault nofun

theorem badType (i : Nat) (expected : String) : Observes (Window.badType i expected : Vm α) := by
  refine bind (bind (inspect State.frame) fun f => ?_) fun _ => badArgument i _
  split
  · exact bind (read _) fun _ => pure _
  · exact pure _

theorem checkAny (i : Nat) : Observes (Window.checkAny i) := by
  refine bind (inspect State.frame) fun f => ?_
  split
  · exact read _
  · exact badArgument i _

theorem optInteger (i : Nat) (default : Int64) : Observes (Window.optInteger i default) := by
  refine bind (value i) fun v => ?_
  split
  · exact pure _
  · refine bind (value i) fun v => ?_
    split
    · exact pure _
    · split
      · exact badArgument i _
      · exact badType i _

end Observes

theorem Base.error_observes : Observes error :=
  .bind (.optInteger 2 1) fun level => .bind (.value 1) fun message => .raiseValue message level

theorem Base.assert_observes : Observes assert := by
  refine .bind (.checkAny 1) fun condition => .bind (.inspect fun s => s.frame.size) fun n => ?_
  split
  · exact .pure n
  · split
    · exact .bind (.value 2) fun message => .raiseValue message 1
    · exact .raiseValue _ 1

theorem Base.run_observes (call : Call) {g : BaseFunction} (isValue : g = .error ∨ g = .assert) :
    Observes (run call g) := by
  rcases isValue with rfl | rfl
  · exact error_observes
  · exact assert_observes

end LuaMachine
