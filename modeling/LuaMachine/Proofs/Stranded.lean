import LuaMachine.Proofs.Reachable

set_option autoImplicit false

namespace LuaMachine

open Vm

-- The operations on values that a host and its functions may use.
inductive Operation.Offered (call : Call) : {α : Type} → Vm α → Prop where
  | index (t k : Value) : Offered call (index call t k)
  | setIndex (t k v : Value) : Offered call (setIndex call t k v)
  | arith (op : ArithOp) (a b : Value) : Offered call (arith call op a b)
  | equals (a b : Value) : Offered call (equals call a b)
  | lessThan (a b : Value) : Offered call (lessThan call a b)
  | lessEqual (a b : Value) : Offered call (lessEqual call a b)
  | length (v : Value) : Offered call (length call v)
  | concat (values : List Value) : Offered call (concat call values)
  | tostring (v : Value) : Offered call (tostring call v)

theorem Operation.Offered.asks {call : Call} {α : Type} {x : Vm α}
    (offered : Operation.Offered call x) : Asks call x := by
  cases offered with
  | index t k => exact (Operates.index t k).asks
  | setIndex t k v => exact (Operates.setIndex t k v).asks
  | arith op a b => exact (Operates.arith op a b).asks
  | equals a b => exact (Operates.equals a b).asks
  | lessThan a b => exact (Operates.lessThan a b).asks
  | lessEqual a b => exact (Operates.lessEqual a b).asks
  | length v => exact (Operates.length v).asks
  | concat values => exact (Operates.concat values).asks
  | tostring v => exact (Operates.tostring v).asks

namespace Machine

def Accepts (func nargs : Nat) (s : State) : Prop := ∃ entry t, accept func nargs s = .ok entry t

-- A call that raises an error stays on top of its caller just if it has been let in.
def Strands (call : Call) : Prop :=
  ∀ func nargs wanted s e t, call func nargs wanted s = .error (.raised e) t →
    ¬ Accepts func nargs s ∧ t.frames = s.frames ∨ Accepts func nargs s ∧ s.depth < t.depth

variable {host : Host} {call : Call}

theorem invoke_strands (propagates : host.Propagates) (balanced : call.Balanced) (fuel : Nat) :
    Strands (invoke host call fuel) := by
  intro func nargs wanted s e t raised
  rw [invoke_eq] at raised
  cases accepted : accept func nargs s with
  | error e u =>
    rw [bind_error accepted] at raised
    cases raised
    refine .inl ⟨?_, ((accept_quiet func nargs).error accepted).frames⟩
    rintro ⟨entry, t, again⟩
    rw [accepted] at again
    cases again
  | ok entry u =>
    have completed := enter_completed propagates balanced fuel func wanted entry u
    rw [bind_ok accepted] at raised
    rw [raised] at completed
    obtain ⟨extra, frames, here⟩ := completed.frames
    rw [((accept_quiet func nargs).ok accepted).frames] at frames
    have some : 0 < extra.length := List.length_pos_iff.2 (here e rfl)
    refine .inr ⟨⟨entry, u, accepted⟩, ?_⟩
    rw [State.depth_eq, State.depth_eq, frames, List.length_append]
    omega

theorem Makes.strands (makes : Makes host call) (propagates : host.Propagates) : Strands call := by
  have within (fuel : Nat) : Strands (callWithin host fuel) := by
    cases fuel with
    | zero => exact fun _ _ _ _ _ _ raised => by cases raised
    | succ fuel => exact invoke_strands propagates (callWithin_balanced propagates fuel) fuel
  cases makes with
  | outer => exact fun func nargs wanted s => within (s.budget + 1) func nargs wanted s
  | nested fuel => exact within fuel

end Machine

/-- An operation asked a handler, which was let in and raised the error. -/
def RaisedInside (call : Call) (s : State) (e : LuaError) (t : State) : Prop :=
  ∃ u func nargs, Still s.frame.base s u ∧ Machine.Accepts func nargs u ∧
    call func nargs (some 1) u = .error (.raised e) t

section

variable {call : Call} {s t u : State} {e : LuaError}

theorem RaisedInside.after (still : Still s.frame.base s t) (h : RaisedInside call t e u) :
    RaisedInside call s e u := by
  obtain ⟨v, func, nargs, rest, accepted, raised⟩ := h
  rw [(State.frames_injective still.frames).1] at rest
  exact ⟨v, func, nargs, still.trans rest, accepted, raised⟩

theorem RaisedInside.deeper (strands : Machine.Strands call) (h : RaisedInside call s e t) :
    s.depth < t.depth := by
  obtain ⟨u, func, nargs, still, accepted, raised⟩ := h
  have same : u.depth = s.depth := by rw [State.depth_eq, State.depth_eq, still.frames]
  rcases strands _ _ _ _ _ _ raised with ⟨refused, -⟩ | ⟨-, deeper⟩
  · exact absurd accepted refused
  · omega

theorem Asks.raised (balanced : call.Balanced) (strands : Machine.Strands call) {α : Type}
    {x : Vm α} (asks : Asks call x) (window : s.frame.base ≤ s.frame.top)
    (raised : x s = .error (.raised e) t) : t.frames = s.frames ∨ RaisedInside call s e t := by
  induction asks generalizing s with
  | @bind _ _ x f first _ ih rest =>
    cases ran : x s with
    | error stop u =>
      rw [bind_error ran] at raised
      cases raised
      exact ih window ran
    | ok a u =>
      -- Handlers that have returned left the frames as they were.
      have stays := (first.acts balanced s.frame.base).ok rfl window ran
      have still : Still s.frame.base s u :=
        ⟨stays.toEffect, State.frames_congr stays.frame.symm stays.callers⟩
      rw [bind_ok ran] at raised
      rcases rest a (stays.frame ▸ window) raised with frames | inside
      · exact .inl (frames.trans still.frames)
      · exact .inr (inside.after still)
  | inspect f => cases raised
  | raise e' =>
    cases raised
    exact .inl rfl
  | modifyTable i f => cases raised
  | callHandler h args =>
    obtain ⟨u, placed, asked⟩ := Operation.callHandler_run balanced h args s
    cases ran : call (Operation.scratch s) args.length (some 1) u with
    | ok n v =>
      rw [ran] at asked
      obtain ⟨bound, result⟩ := asked
      rw [result] at raised
      cases raised
    | error stop v =>
      rw [ran] at asked
      rw [asked] at raised
      cases raised
      rcases strands _ _ _ _ _ _ ran with ⟨-, frames⟩ | ⟨accepted, -⟩
      · exact .inl (frames.trans placed.frames)
      · have above := Nat.le_trans window (Operation.le_scratch s)
        exact .inr ⟨u, _, _, placed.mono above, accepted, ran⟩

end

/-- An operation that fails leaves the calls in progress and the window as they were just if no
handler had been let in that raised the error; unwinding would always restore them. -/
theorem operation_failure {host : Host} (propagates : host.Propagates) {call : Call}
    (makes : Machine.Makes host call) {α : Type} {x : Vm α} (offered : Operation.Offered call x)
    {s t : State} {e : LuaError} (window : s.frame.base ≤ s.frame.top)
    (failed : x s = .error (.raised e) t) :
    (t.depth = s.depth ∧ t.frame.size = s.frame.size ↔ ¬ RaisedInside call s e t) ∧
    s.depth ≤ t.depth ∧ ∃ u, Call.unwind s.depth t = .ok () u ∧ u.frames = s.frames := by
  have balanced := makes.balanced propagates
  have strands := makes.strands propagates
  have breaks := (offered.asks.acts balanced s.frame.base).error rfl window failed
  obtain ⟨extra, f, frames, same⟩ := breaks.frames
  subst same
  refine ⟨⟨?_, fun outside => ?_⟩, ?_, ?_⟩
  · intro same inside
    exact absurd same.1 (Nat.ne_of_gt (inside.deeper strands))
  · rcases offered.asks.raised balanced strands window failed with unchanged | inside
    · rw [State.depth_eq, State.depth_eq, unchanged, (State.frames_injective unchanged).1]
      exact ⟨rfl, rfl⟩
    · exact absurd inside outside
  · rw [State.depth_eq, State.depth_eq, frames, List.length_append]
    exact Nat.le_add_left _ _
  · obtain ⟨u, ran, left, -⟩ := Call.unwind_run (s := s) frames
    exact ⟨u, ran, left⟩

-- The last table of this machine asks a host function that fails for its keys.
def State.failing : State :=
  (do
    let f ← newNative (.host "fail") []
    let handlers ← newTable (Table.empty.putText "__index" (.function f))
    let _ ← newTable { Table.empty with metatable := some handlers } : Vm Unit).after (.new {})

theorem operation_failure_failing : ∃ e t,
    Operation.index (Machine.call Command.noHost) (.table ⟨3⟩) .nil .failing =
      .error (.raised e) t ∧
    State.failing.depth = 1 ∧ t.depth = 2 ∧
    RaisedInside (Machine.call Command.noHost) .failing e t := by
  have outcome : (Operation.index (Machine.call Command.noHost) (.table ⟨3⟩) .nil).raises .failing
      (fun _ t => t.depth = 2) = true := by decide +kernel
  have before : State.failing.depth = 1 := by decide +kernel
  obtain ⟨e, t, failed, deeper⟩ := of_raises outcome
  have after := of_decide_eq_true deeper
  refine ⟨e, t, failed, before, after, ?_⟩
  have window : State.failing.frame.base ≤ State.failing.frame.top := by decide +kernel
  obtain ⟨condition, -⟩ :=
    operation_failure Command.noHost_propagates .outer (.index _ _) window failed
  by_contra outside
  have same := (condition.2 outside).1
  omega

end LuaMachine
