import LuaMachine.Proofs.Calls
import Mathlib.Logic.Relation

set_option autoImplicit false

namespace LuaMachine

open LuaMachine.Frame (Keeping SameButTop SameCall)
open Vm

section

variable {call : Call} {a : Activation} {func : Nat} {c : Frame} {below rest : List Frame}
  {s : State}

theorem Activation.done_executed {x : Vm Unit} (within : a.Within x)
    (running : Running func below s) (base : s.frame.base = a.base) :
    Executed func below s (done x s) := by
  have window : a.base ≤ s.frame.top := base ▸ running.window
  cases ran : x s with
  | ok _ t =>
    have stays := within.ok base window ran
    have steps : done x s = .ok .next t := bind_ok ran _
    rw [steps]
    exact ⟨running.stays (base ▸ stays), stays.toEffect.mono (base ▸ running.func_le)⟩
  | error e t =>
    have steps : done x s = .error e t := bind_error ran _
    rw [steps]
    exact running.breaks (base ▸ within.error base window ran)

theorem Activation.step_executed (balanced : call.Balanced) (running : Running func (c :: rest) s)
    (base : s.frame.base = a.base) (w : Word) :
    Executed func (c :: rest) s (a.step call w s) := by
  have above : s.frame.base ≤ a.base + w.a := by omega
  rcases a.step_cases call w s with ⟨n, steps⟩ | ⟨n, steps⟩ | ⟨x, works, steps⟩
  · rw [steps]
    exact Call.tail_executed balanced running above n
  · rw [steps]
    exact Call.returnFrom_executed running above n
  · rw [steps]
    exact done_executed (works.within balanced) running base

end

namespace Machine

variable {host : Host} {call : Call} {func : Nat} {c : Frame} {below rest : List Frame} {s : State}

theorem activation_script {f : FunctionId} {p : Prototype} {cells : Array CellId}
    (function : s.frame.function = some f) (found : s.function? f = some ⟨.script p, cells⟩) :
    activation s = .ok ⟨cells, p, s.frame.base⟩ s := by
  rw [activation, get_bind, function]
  dsimp only
  rw [found]
  rfl

theorem activation_run (s : State) :
    (∃ f p cells, s.frame.function = some f ∧ s.function? f = some ⟨.script p, cells⟩) ∨
    ∃ e, activation s = .error e s := by
  rw [activation, get_bind]
  cases s.frame.function with
  | none => exact .inr ⟨_, rfl⟩
  | some f =>
    dsimp only
    rcases found : s.function? f with _ | ⟨p | g, cells⟩
    · exact .inr ⟨_, rfl⟩
    · exact .inl ⟨f, p, cells, rfl, found⟩
    · exact .inr ⟨_, rfl⟩

theorem activation_ok {a : Activation} (ran : activation s = .ok a s) :
    a.base = s.frame.base ∧
      ∃ f, s.frame.function = some f ∧ s.function? f = some ⟨.script a.proto, a.cells⟩ := by
  rcases activation_run s with ⟨f, p, cells, function, found⟩ | ⟨e, failed⟩
  · rw [activation_script function found] at ran
    cases ran
    exact ⟨rfl, f, function, found⟩
  · rw [failed] at ran
    cases ran

theorem located_executed {p : Routine} {pc : Nat} {x : Vm Call.Flow}
    (h : Executed func below s (x s)) : Executed func below s (located p pc x s) := by
  unfold located
  split
  next e t ran =>
    rw [ran] at h
    obtain ⟨extra, frames, here⟩ := h.frames
    exact ⟨h.toEffect, extra, frames, fun _ _ => here e rfl⟩
  next => exact h

-- The instruction that is executed is the one before the program counter.
def advanced (s : State) : State := { s with frame := { s.frame with pc := s.frame.pc + 1 } }

theorem stepOnce_end {a : Activation} (found : activation s = .ok a s)
    (past : a.proto.code[s.frame.pc]? = none) :
    stepOnce call s = (do return .returned (← Call.returnFrom a.base 0) : Vm Call.Flow) s := by
  rw [stepOnce, bind_ok found, frame_bind, past]

theorem stepOnce_word {a : Activation} {w : Word} (found : activation s = .ok a s)
    (code : a.proto.code[s.frame.pc]? = some w) :
    stepOnce call s = located a.proto.toRoutine s.frame.pc (a.step call w) (advanced s) := by
  rw [stepOnce, bind_ok found, frame_bind, code]
  rfl

theorem stepOnce_executed (balanced : call.Balanced) (running : Running func (c :: rest) s) :
    Executed func (c :: rest) s (stepOnce call s) := by
  rcases activation_run s with ⟨f, p, cells, function, script⟩ | ⟨e, failed⟩
  · have found := activation_script function script
    cases code : p.code[s.frame.pc]? with
    | none =>
      rw [stepOnce_end found code]
      exact Call.returnFrom_executed running (Nat.le_refl _) 0
    | some w =>
      have moved : Stays SameCall s.frame.base s (advanced s) :=
        (Acts.movePc fun _ => s.frame.pc + 1).ok rfl running.window rfl
      have executed := Activation.step_executed (a := ⟨cells, p, s.frame.base⟩) balanced
        (running.stays moved) rfl w
      rw [stepOnce_word found code]
      exact .after (moved.toEffect.mono running.func_le) (located_executed executed)
  · have run : stepOnce call s = .error e s := bind_error failed _
    rw [run]
    exact running.halts (.refl _ s)

theorem loop_run (balanced : call.Balanced) (fuel : Nat) (running : Running func (c :: rest) s) :
    match loop call fuel s with
    | .ok _ t => t.frames = c :: rest ∧ Effect func s t
    | .error e t => Halted func (c :: rest) s e t := by
  -- Whichever function a tail call puts in its place, the call runs above the same calls.
  induction fuel generalizing s with
  | zero => exact running.halts (.refl _ s)
  | succ fuel ih =>
    rw [loop]
    cases ticked : tick s with
    | error e t =>
      rw [bind_error ticked]
      exact running.halts (Quiet.tick.error ticked)
    | ok _ t =>
      have paid : Still func s t := Quiet.tick.ok ticked
      have step := Executed.after paid.toEffect (stepOnce_executed balanced (running.still paid))
      rw [bind_ok ticked]
      cases ran : stepOnce call t with
      | error e u =>
        rw [bind_error ran]
        rwa [ran] at step
      | ok flow u =>
        rw [bind_ok ran]
        rw [ran] at step
        cases flow with
        | returned n => exact step
        | next =>
          dsimp only
          have whole := ih step.1
          cases last : loop call fuel u with
          | ok n v =>
            rw [last] at whole
            exact ⟨whole.1, step.2.trans whole.2⟩
          | error e v =>
            rw [last] at whole
            exact .after step.2 whole

-- The first part of a call: it is paid for, and the function behind the value is found.
def accept (func nargs : Nat) : Vm (Closure × FunctionId × Nat) := do
  tick
  let s ← get
  if s.depth > s.config.maxCallDepth then raise .stackOverflow
  let (f, nargs) ← Call.resolve func nargs
  match (← get).function? f with
  | none => fault .noFunction
  | some closure => return (closure, f, nargs)

def callee (func nargs : Nat) : Vm (Closure × FunctionId × Nat) := do
  let (f, nargs) ← Call.resolve func nargs
  match (← get).function? f with
  | none => fault .noFunction
  | some closure => return (closure, f, nargs)

theorem accept_shallow (paid : s.budget ≠ 0) (shallow : s.depth ≤ s.config.maxCallDepth)
    (func nargs : Nat) :
    accept func nargs s = callee func nargs { s with budget := s.budget - 1 } := by
  let t := { s with budget := s.budget - 1 }
  have ticked : tick s = .ok () t := if_neg paid
  have deep : ¬ t.depth > t.config.maxCallDepth := Nat.not_lt.2 shallow
  rw [accept, bind_ok ticked, get_bind, if_neg deep]
  rfl

theorem callee_found {func nargs n : Nat} {f : FunctionId} {closure : Closure} {t : State}
    (resolved : Call.resolve func nargs s = .ok (f, n) t) (found : t.function? f = some closure) :
    callee func nargs s = .ok (closure, f, n) t := by
  rw [callee, bind_ok resolved]
  dsimp only
  rw [get_bind, found]
  rfl

def enter (host : Host) (call : Call) (fuel func : Nat) (wanted : Option Nat) :
    Closure × FunctionId × Nat → Vm Nat
  | (⟨.native n, _⟩, f, nargs) => Call.native (native host call n) f func nargs wanted
  | (⟨.script p, _⟩, f, nargs) => do
    Call.enterScript f p func nargs
    let n ← loop call fuel
    Call.adjustResults func n wanted

theorem invoke_eq (host : Host) (call : Call) (fuel func nargs : Nat) (wanted : Option Nat) :
    invoke host call fuel func nargs wanted =
      accept func nargs >>= enter host call fuel func wanted := by
  unfold invoke accept
  simp only [bind_assoc]
  refine bind_congr fun _ => bind_congr fun s => ?_
  split
  next => rfl
  next =>
    simp only [bind_assoc]
    refine bind_congr fun p => bind_congr fun s => ?_
    match s.function? p.1 with
    | none => rfl
    | some ⟨.native n, _⟩ => rfl
    | some ⟨.script code, _⟩ => rfl

theorem call_eq (host : Host) (func nargs : Nat) (wanted : Option Nat) (s : State) :
    Machine.call host func nargs wanted s =
      invoke host (callWithin host s.budget) s.budget func nargs wanted s := rfl

theorem accept_quiet (func nargs : Nat) : Quiet func (accept func nargs) := by
  refine .bind .tick fun _ => .bind (.inspect id) fun s => ?_
  dsimp only
  refine iteInduction (fun _ => .bind (.stop _) fun _ => ?_) fun _ => ?_
  all_goals
    refine .bind (Call.resolve_quiet func nargs) fun p => .bind (.inspect id) fun s => ?_
    split
    · exact .stop _
    · exact .pure _

theorem accept_resolves {nargs n : Nat} {f : FunctionId} {closure : Closure} {t : State}
    (accepted : accept func nargs s = .ok (closure, f, n) t) :
    s.budget ≠ 0 ∧ s.depth ≤ s.config.maxCallDepth ∧
      Call.resolve func nargs { s with budget := s.budget - 1 } = .ok (f, n) t ∧
      t.function? f = some closure := by
  obtain ⟨_, u, ticked, accepted⟩ := ok_of_bind accepted
  have paid : s.budget ≠ 0 := by
    intro poor
    rw [tick, if_pos poor] at ticked
    cases ticked
  rw [tick, if_neg paid] at ticked
  cases ticked
  rw [get_bind] at accepted
  split at accepted
  next => cases accepted
  next shallow =>
    obtain ⟨⟨g, m⟩, v, resolved, rest⟩ := ok_of_bind accepted
    dsimp only at rest
    rw [get_bind] at rest
    cases found : v.function? g with
    | none =>
      rw [found] at rest
      cases rest
    | some c =>
      rw [found] at rest
      cases rest
      exact ⟨paid, Nat.le_of_not_gt shallow, resolved, found⟩

theorem native_acts (propagates : host.Propagates) (balanced : call.Balanced) (n : Native)
    (base : Nat) : Acts SameButTop base (native host call n) := by
  cases n with
  | base f => exact (Base.run_interface call f).acts balanced base
  | host name => exact (propagates name call).acts balanced base

theorem enter_completed (propagates : host.Propagates) (balanced : call.Balanced)
    (fuel func : Nat) (wanted : Option Nat) (entry : Closure × FunctionId × Nat) (s : State) :
    Call.Completed func wanted s (enter host call fuel func wanted entry s) := by
  obtain ⟨⟨body, cells⟩, f, nargs⟩ := entry
  cases body with
  | native n => exact Call.native_completed (native_acts propagates balanced n _) f nargs wanted s
  | script p =>
    have begins := Call.enterScript_begins f p func nargs s
    change Call.Completed func wanted s
      ((Call.enterScript f p func nargs >>= fun _ => loop call fuel >>= fun n =>
        Call.adjustResults func n wanted) s)
    cases entered : Call.enterScript f p func nargs s with
    | error e t =>
      rw [entered] at begins
      rw [bind_error entered]
      exact begins
    | ok _ t =>
      rw [entered] at begins
      rw [bind_ok entered]
      have runs := loop_run balanced fuel begins.1
      cases ran : loop call fuel t with
      | error e u =>
        rw [ran] at runs
        rw [bind_error ran]
        exact Halted.after begins.2 runs
      | ok n u =>
        rw [ran] at runs
        rw [bind_ok ran]
        exact .after ⟨begins.2.trans runs.2, runs.1⟩ (Call.adjustResults_completed func n wanted u)

theorem invoke_balanced (propagates : host.Propagates) (balanced : call.Balanced) (fuel : Nat) :
    (invoke host call fuel).Balanced := by
  intro func nargs wanted s
  rw [invoke_eq]
  cases accepted : accept func nargs s with
  | error e t =>
    have still := (accept_quiet func nargs).error accepted
    rw [bind_error accepted]
    exact ⟨still.toEffect, [], still.frames⟩
  | ok entry t =>
    have still := (accept_quiet func nargs).ok accepted
    have completed := Call.Completed.after still
      (enter_completed propagates balanced fuel func wanted entry t)
    rw [bind_ok accepted]
    cases entered : enter host call fuel func wanted entry t with
    | ok n u =>
      rw [entered] at completed
      exact completed
    | error e u =>
      rw [entered] at completed
      obtain ⟨extra, frames, -⟩ := completed.frames
      exact ⟨completed.toEffect, extra, frames⟩

theorem callWithin_balanced (propagates : host.Propagates) (fuel : Nat) :
    (callWithin host fuel).Balanced := by
  -- The calls inside a call have less fuel, whoever makes them.
  induction fuel with
  | zero => exact fun func _ _ s => ⟨.refl func s, [], rfl⟩
  | succ fuel ih => exact invoke_balanced propagates ih fuel

theorem call_balanced (propagates : host.Propagates) : (Machine.call host).Balanced :=
  fun func nargs wanted s => callWithin_balanced propagates (s.budget + 1) func nargs wanted s

-- The calls of a machine: those that its host makes, and those inside them.
inductive Makes (host : Host) : Call → Prop where
  | outer : Makes host (Machine.call host)
  | nested (fuel : Nat) : Makes host (callWithin host fuel)

theorem Makes.balanced (makes : Makes host call) (propagates : host.Propagates) :
    call.Balanced := by
  cases makes with
  | outer => exact call_balanced propagates
  | nested fuel => exact callWithin_balanced propagates fuel

section

variable {t : State}

def Advances (call : Call) (s t : State) : Prop :=
  ∃ u, tick s = .ok () u ∧ stepOnce call u = .ok .next t

theorem loop_advances (path : Relation.ReflTransGen (Advances call) s t) :
    ∃ n, ∀ fuel, loop call (fuel + n) s = loop call fuel t := by
  induction path with
  | refl => exact ⟨0, fun _ => rfl⟩
  | tail _ last ih =>
    obtain ⟨n, runs⟩ := ih
    obtain ⟨u, ticked, ran⟩ := last
    refine ⟨n + 1, fun fuel => ?_⟩
    rw [← Nat.add_assoc, Nat.add_right_comm, runs]
    exact (bind_ok ticked _).trans (bind_ok ran _)

theorem loop_returns {fuel n : Nat} (ran : loop call fuel s = .ok n t) :
    ∃ last paid, Relation.ReflTransGen (Advances call) s last ∧ tick last = .ok () paid ∧
      stepOnce call paid = .ok (.returned n) t := by
  induction fuel generalizing s with
  | zero => cases ran
  | succ fuel ih =>
    obtain ⟨_, u, ticked, rest⟩ := ok_of_bind ran
    obtain ⟨flow, v, stepped, rest⟩ := ok_of_bind rest
    cases flow with
    | returned m =>
      cases rest
      exact ⟨s, u, .refl, ticked, stepped⟩
    | next =>
      obtain ⟨last, paid, path, ticked', returned⟩ := ih rest
      exact ⟨last, paid, .head ⟨u, ticked, stepped⟩ path, ticked', returned⟩

theorem Advances.running (balanced : call.Balanced) {func : Nat} {c : Frame} {rest : List Frame}
    (running : Running func (c :: rest) s) (advances : Advances call s t) :
    Running func (c :: rest) t ∧ Effect func s t := by
  obtain ⟨u, ticked, ran⟩ := advances
  have paid : Still func s u := Quiet.tick.ok ticked
  have executed := stepOnce_executed balanced (running.still paid)
  rw [ran] at executed
  exact ⟨executed.1, paid.toEffect.trans executed.2⟩

theorem running_path (balanced : call.Balanced) {func : Nat} {c : Frame} {rest : List Frame}
    (running : Running func (c :: rest) s) (path : Relation.ReflTransGen (Advances call) s t) :
    Running func (c :: rest) t ∧ Effect func s t := by
  induction path with
  | refl => exact ⟨running, .refl func s⟩
  | tail _ last ih =>
    obtain ⟨between, early⟩ := ih
    obtain ⟨running', late⟩ := last.running balanced between
    exact ⟨running', early.trans late⟩

end

end Machine

end LuaMachine
