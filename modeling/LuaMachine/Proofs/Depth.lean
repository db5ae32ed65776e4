import LuaMachine.Proofs.Lasting
import LuaMachine.Proofs.Protected
import Mathlib.Logic.Relation

set_option autoImplicit false

namespace LuaMachine

open Vm

namespace Machine

/-- The states that a machine passes through, in the middle of calls and of instructions too. -/
inductive Passes (host : Host) : State → Prop where
  | new (config : Config) : Passes host (.new config)
  | allot {s : State} (budget : Nat) : Passes host s → Passes host { s with budget }
  -- Some of what a host, one of its functions or one of the base library does.
  | perform {s : State} {call : Call} {α : Type} {x : Vm α} :
    Passes host s → Makes host call → Interface call x → Passes host (x.after s)
  | work {s : State} {call : Call} {a : Activation} {α : Type} {x : Vm α} :
    Passes host s → Makes host call → a.Works call x → Passes host (x.after s)
  | execute {s : State} {call : Call} :
    Passes host s → Makes host call → Passes host ((stepOnce call).after s)
  | accept {s : State} (func nargs : Nat) :
    Passes host s → Passes host ((accept func nargs).after s)
  | enterNative {s t : State} {func nargs n : Nat} {f : FunctionId} {closure : Closure} :
    Passes host s → Machine.accept func nargs s = .ok (closure, f, n) t →
      Passes host (Call.entered f func n t)
  | enterScript {s t : State} {func nargs n : Nat} {f : FunctionId} {closure : Closure}
      (p : Prototype) :
    Passes host s → Machine.accept func nargs s = .ok (closure, f, n) t →
      Passes host ((Call.enterScript f p func n).after t)
  -- A call ends, whether it returns, gives way to another or is discarded after an error.
  | leave {s : State} : Passes host s → Passes host (popFrame.after s)
  | replace {s : State} (slot n : Nat) (f : FunctionId) (p : Prototype) :
    Passes host s →
      Passes host ((do
        let left ← popFrame
        moveDown slot left.func (n + 1)
        Call.enterScript f p left.func n
        return Call.Flow.next : Vm Call.Flow).after s)

inductive Moves (host : Host) : State → State → Prop where
  | allot (s : State) (budget : Nat) : Moves host s { s with budget }
  | perform {call : Call} {α : Type} {x : Vm α} (s : State) :
    Makes host call → Interface call x → Moves host s (x.after s)
  | work {call : Call} {a : Activation} {α : Type} {x : Vm α} (s : State) :
    Makes host call → a.Works call x → Moves host s (x.after s)
  | execute {call : Call} (s : State) : Makes host call → Moves host s ((stepOnce call).after s)
  | accept (s : State) (func nargs : Nat) : Moves host s ((accept func nargs).after s)
  | enterNative {s t : State} {func nargs n : Nat} {f : FunctionId} {closure : Closure} :
    Machine.accept func nargs s = .ok (closure, f, n) t → Moves host s (Call.entered f func n t)
  | enterScript {s t : State} {func nargs n : Nat} {f : FunctionId} {closure : Closure}
      (p : Prototype) :
    Machine.accept func nargs s = .ok (closure, f, n) t →
      Moves host s ((Call.enterScript f p func n).after t)
  | leave (s : State) : Moves host s (popFrame.after s)
  | replace (s : State) (slot n : Nat) (f : FunctionId) (p : Prototype) :
    Moves host s ((do
      let left ← popFrame
      moveDown slot left.func (n + 1)
      Call.enterScript f p left.func n
      return Call.Flow.next : Vm Call.Flow).after s)

end Machine

theorem Base.openLibrary_lasting : Lasting Base.openLibrary := by
  have global (name : String) (v : Value) : Lasting (setGlobal name v) :=
    .bind (.inspect id) fun s => .modifyTable s.globals _
  have registers (entries : List (String × BaseFunction)) :
      Lasting (entries.forM fun entry => register entry.1 (.base entry.2)) := by
    induction entries with
    | nil => exact .pure _
    | cons entry rest ih =>
      exact .bind (.bind (.newNative _ _) fun f => global _ (.function f)) fun _ => ih
  exact .bind (registers names) fun _ => .bind (.inspect id) fun s =>
    .bind (global _ (.table s.globals)) fun _ => global _ _

theorem State.new_bounded (config : Config) : (new config).Bounded := by
  have bare : (bare config).Bounded := ⟨[], rfl, Nat.zero_le _⟩
  unfold new
  split
  next s ran => exact (Base.openLibrary_lasting.ok ran).bounded bare
  next s ran => exact (Base.openLibrary_lasting.error ran).bounded bare

-- The host has no function, so another call waits for one that has.
theorem State.Bounded.caller {s : State} (bounded : s.Bounded) {f : FunctionId}
    (running : s.frame.function = some f) :
    ∃ c rest, s.callers.frames = c :: rest := by
  obtain ⟨calls, functions, -⟩ := bounded
  rw [State.frames, List.map_cons, running] at functions
  cases waiting : s.callers.frames with
  | cons c rest => exact ⟨c, rest, rfl⟩
  | nil =>
    rw [waiting] at functions
    cases calls with
    | nil => cases functions
    | cons g calls => simp at functions

namespace Machine

variable {host : Host} {call : Call} {s t : State}

theorem Moves.later (propagates : host.Propagates) (moves : Moves host s t) : Later s t := by
  cases moves with
  | allot budget => exact .of_eq rfl rfl rfl
  | perform _ makes interface => exact interface.lasting (makes.lasts propagates) s
  | work _ makes works => exact works.lasting (makes.lasts propagates) s
  | execute _ makes => exact stepOnce_lasting (makes.lasts propagates) s
  | accept _ func nargs => exact accept_lasting func nargs s
  | enterNative accepted =>
    exact enters_entered _ _ _ _ _ ((accept_lasting _ _).ok accepted)
      fun _ => (accept_ok accepted).1
  | enterScript p accepted =>
    exact Enters.enterScript _ p _ _ _ _ ((accept_lasting _ _).ok accepted)
      fun _ => (accept_ok accepted).1
  | leave => exact Lasting.popFrame s
  | replace _ slot n f p => exact Lasting.replacement slot n f p s

theorem Passes.bounded (propagates : host.Propagates) (passes : Passes host s) : s.Bounded := by
  -- After the start of a machine, every case is a move.
  have moved {s t : State} (bounded : s.Bounded) (moves : Moves host s t) : t.Bounded :=
    (moves.later propagates).bounded bounded
  induction passes with
  | new config => exact State.new_bounded config
  | allot budget _ ih => exact moved ih (.allot _ budget)
  | perform _ makes interface ih => exact moved ih (.perform _ makes interface)
  | work _ makes works ih => exact moved ih (.work _ makes works)
  | execute _ makes ih => exact moved ih (.execute _ makes)
  | accept func nargs _ ih => exact moved ih (.accept _ func nargs)
  | enterNative _ accepted ih => exact moved ih (.enterNative accepted)
  | enterScript p _ accepted ih => exact moved ih (.enterScript p accepted)
  | leave _ ih => exact moved ih (.leave _)
  | replace slot n f p _ ih => exact moved ih (.replace _ slot n f p)

theorem invoke_deep (paid : s.budget ≠ 0) (deep : s.config.maxCallDepth < s.depth)
    (fuel func nargs : Nat) (wanted : Option Nat) :
    invoke host call fuel func nargs wanted s =
      .error (.raised .stackOverflow) { s with budget := s.budget - 1 } := by
  rw [invoke_eq, bind_error (accept_deep paid deep nargs)]

end Machine

namespace Call

variable {call : LuaMachine.Call} {slot nargs n : Nat} {f : FunctionId} {s t : State}

theorem enterScript_unraised (f : FunctionId) (p : Prototype) (func nargs : Nat) :
    Unraised (enterScript f p func nargs) := by
  unfold enterScript
  dsimp only
  refine iteInduction (fun _ => .bind (.takeMany _ _) fun _ => ?_) fun _ =>
    .bind (.pure _) fun _ => ?_
  all_goals
    exact .bind (.reserveWithHeadroom _) fun _ => .bind (.clear _ _) fun _ => .modify _

theorem enterScript_frame {p : Prototype} {func nargs : Nat}
    (entered : enterScript f p func nargs s = .ok () t) :
    ∃ varargs, t.frame = { Frame.enter f func (func + 1 + p.stackSize.toNat) with varargs } := by
  unfold enterScript at entered
  dsimp only at entered
  split at entered
  all_goals
    obtain ⟨varargs, u, -, entered⟩ := ok_of_bind entered
    obtain ⟨-, v, -, entered⟩ := ok_of_bind entered
    obtain ⟨-, w, -, entered⟩ := ok_of_bind entered
    cases entered
    exact ⟨_, rfl⟩

theorem enterScript_function {p : Prototype} {func nargs : Nat}
    (entered : enterScript f p func nargs s = .ok () t) : t.frame.function = some f := by
  obtain ⟨varargs, frame⟩ := enterScript_frame entered
  rw [frame]
  rfl

/-- What a tail call of a script function comes to: a call of it in the place of the running one,
unless registers are missing. -/
def Replaced (callers : List Frame) (f : FunctionId) : EStateM.Result Stop State Flow → Prop
  | .ok flow t => flow = .next ∧ t.callers.frames = callers ∧ t.frame.function = some f
  | .error (.raised _) _ => False
  | .error _ _ => True

theorem replacement_run (slot func n : Nat) (f : FunctionId) (p : Prototype) (s : State) :
    Replaced s.frames f ((do
      moveDown slot func (n + 1)
      enterScript f p func n
      return .next : Vm Flow) s) := by
  let replace : Vm Flow := do
    moveDown slot func (n + 1)
    enterScript f p func n
    return .next
  have unraised : Unraised replace :=
    .bind (.moveDown _ _ _) fun _ => .bind (enterScript_unraised _ _ _ _) fun _ => .pure _
  change Replaced s.frames f (replace s)
  cases ran : replace s with
  | error e t =>
    cases e with
    | raised e => exact absurd ran (unraised s e t)
    | outOfRange _ | overflow | exhausted => trivial
  | ok flow t =>
    obtain ⟨_, u, moved, ran⟩ := ok_of_bind ran
    obtain ⟨_, v, begun, ran⟩ := ok_of_bind ran
    have moves : Quiet 0 (moveDown slot func (n + 1)) :=
      .moveDown (Nat.zero_le _) (Nat.zero_le _) _
    have begins := enterScript_begins f p func n u
    rw [begun] at begins
    cases ran
    exact ⟨rfl, begins.1.callers.trans (moves.ok moved).frames, enterScript_function begun⟩

theorem tail_replaced (bounded : s.Bounded) {g : FunctionId} (running : s.frame.function = some g)
    (resolved : resolve slot nargs s = .ok (f, n) t) {p : Prototype} {cells : Array CellId}
    (found : t.function? f = some ⟨.script p, cells⟩) :
    Replaced s.callers.frames f (tail call slot nargs s) := by
  obtain ⟨-, callers⟩ := State.frames_injective ((resolve_quiet slot nargs).ok resolved).frames
  obtain ⟨c, rest, waiting⟩ := bounded.caller running
  let u := (closeFrom t.frame.base).after t
  obtain ⟨v, popped, left, -⟩ := popFrame_run (s := u) (callers ▸ waiting : t.callers.frames = _)
  rw [tail_script resolved found, bind_ok popped, waiting, ← left]
  exact replacement_run slot u.frame.func n f p v

-- Only a script function goes on in the place of the running call.
theorem tail_next (ran : tail call slot nargs s = .ok .next t) :
    t.callers.frames = s.callers.frames ∧
      ∃ f p cells, t.frame.function = some f ∧ t.function? f = some ⟨.script p, cells⟩ := by
  obtain ⟨f, n, u, resolved, ⟨-, p, cells, found, replaced⟩ | ⟨-, k, v, m, -, -, other⟩⟩ :=
    tail_ok ran
  · obtain ⟨-, callers⟩ := State.frames_injective ((resolve_quiet slot nargs).ok resolved).frames
    have later := (Lasting.replacement slot n f p).ok replaced
    obtain ⟨left, v, popped, rest⟩ := ok_of_bind replaced
    obtain ⟨caller, others, waiting, -, rfl⟩ := popFrame_ok popped
    have runs := replacement_run slot left.func n f p
      { (closeFrom u.frame.base).after u with frame := caller, callers := others }
    rw [rest] at runs
    obtain ⟨-, frames, function⟩ := runs
    exact ⟨frames.trans (waiting.symm.trans (congrArg Callers.frames callers)), f, p, cells,
      function, later.functions f _ found⟩
  · cases other

end Call

namespace Machine

variable {host : Host} {call : Call} {s t : State}

def TailCalls (call : Call) (s t : State) : Prop :=
  ∃ u a w, tick s = .ok () u ∧ activation u = .ok a u ∧ a.proto.code[u.frame.pc]? = some w ∧
    w.opcode? = some .tailCall ∧ stepOnce call u = .ok .next t

theorem located_ok {α : Type} {p : Routine} {pc : Nat} {x : Vm α} {b : α}
    (ran : located p pc x s = .ok b t) : x s = .ok b t := by
  unfold located at ran
  split at ran
  · cases ran
  · exact ran

theorem TailCalls.depth (tail : TailCalls call s t) : t.depth = s.depth := by
  obtain ⟨u, a, w, ticked, found, code, opcode, ran⟩ := tail
  have paid : Still 0 s u := Quiet.tick.ok ticked
  rw [stepOnce_word found code] at ran
  have steps := a.step_tail call opcode (advanced u)
  have callers : t.callers.frames = u.callers.frames :=
    (Call.tail_next (s := advanced u) (steps ▸ located_ok ran)).1
  rw [State.depth_eq, State.depth_eq, ← paid.frames, State.frames, State.frames, callers]
  rfl

end Machine

end LuaMachine
