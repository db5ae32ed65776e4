import LuaMachine.Proofs.Reachable

set_option autoImplicit false

namespace LuaMachine

open Vm

-- The running call is as it was but for the end of its window.
structure Call.Settled (func top : Nat) (s t : State) : Prop where
  callers : t.callers = s.callers
  frame : t.frame = { s.frame with top }
  kept : Kept func s t

/-- What a call and a protected call make of the outcome of a call. -/
def Call.Recovers (call : Call) (nargs : Nat) (wanted : Option Nat) (s : State) : Prop :=
  let func := s.frame.top - (nargs + 1)
  match call func nargs wanted s with
  | .ok n t =>
    Call.host call nargs wanted s = .ok () t ∧ Call.attempt call nargs wanted s = .ok true t ∧
      (∀ k, wanted = some k → n = k) ∧ Call.Settled func (func + n) s t
  | .error (.raised e) _ =>
    (∃ t, Call.host call nargs wanted s = .error (.raised e) t ∧ Call.Settled func func s t) ∧
      ∃ t, Call.attempt call nargs wanted s = .ok false t ∧ Call.Settled func (func + 1) s t ∧
        t.stack[func]? = some e.toValue
  | .error stop t =>
    Call.host call nargs wanted s = .error stop t ∧ Call.attempt call nargs wanted s = .error stop t

namespace Call

variable {call : LuaMachine.Call} {nargs : Nat} {wanted : Option Nat} {s : State}

theorem host_eq (enough : s.frame.base + nargs + 1 ≤ s.frame.top) :
    host call nargs wanted s =
      (do
        let func := s.frame.top - (nargs + 1)
        let _ ← guarded func (call func nargs wanted) raise) s := by
  have found : funcSlot nargs s = .ok (s.frame.top - (nargs + 1)) s := by
    change (if _ then _ else _ : Vm Nat) s = _
    rw [if_pos enough]
    rfl
  exact bind_ok found _

theorem attempt_eq (enough : s.frame.base + nargs + 1 ≤ s.frame.top) :
    attempt call nargs wanted s =
      (let func := s.frame.top - (nargs + 1)
      guarded func (do let _ ← call func nargs wanted; return true) fun e => do
        Window.push e.toValue
        return false) s := by
  change (if _ then _ else _ : Vm Bool) s = _
  rw [if_pos enough]

theorem Balanced.guarded_raised {α : Type} (balanced : call.Balanced) {func : Nat}
    (above : s.frame.base ≤ func) {x : Vm α} (handle : LuaError → Vm α) {e : LuaError} {t : State}
    (ran : call func nargs wanted s = .error (.raised e) t) (raised : x s = .error (.raised e) t) :
    ∃ u, guarded func x handle s = handle e u ∧ u.callers = s.callers ∧
      u.frame = { s.frame with top := func } ∧ Untouched func s u := by
  have failed := balanced.error ran
  obtain ⟨extra, frames⟩ := failed.frames
  obtain ⟨u, steps, callers, frame, -, cut⟩ :=
    Call.guarded_raised func handle raised frames
  exact ⟨u, steps, callers, frame, failed.untouched.trans (cut above func).untouched⟩

theorem Balanced.recovers (balanced : call.Balanced) (nargs : Nat) (wanted : Option Nat)
    (enough : s.frame.base + nargs + 1 ≤ s.frame.top) : Recovers call nargs wanted s := by
  let func := s.frame.top - (nargs + 1)
  have above : s.frame.base ≤ func := by simp only [func]; omega
  unfold Recovers
  rw [host_eq enough, attempt_eq enough]
  dsimp only
  cases ran : call func nargs wanted s with
  | ok n t =>
    have returned := balanced.ok ran
    refine ⟨?_, ?_, returned.count, returned.callers, returned.frame, returned.untouched.kept⟩
    · exact bind_ok (guarded_ok ran) _
    · exact guarded_ok (bind_ok ran _)
  | error stop t =>
    cases stop with
    | raised e =>
      constructor
      · obtain ⟨u, steps, callers, frame, untouched⟩ :=
          balanced.guarded_raised above raise ran ran
        exact ⟨u, bind_error steps _, callers, frame, untouched.kept⟩
      · obtain ⟨u, steps, callers, frame, untouched⟩ :=
          balanced.guarded_raised above (fun e => do
            Window.push e.toValue
            return false) ran (bind_error ran fun _ => pure true)
        obtain ⟨stack, pushed, here, kept⟩ := Window.push_run e.toValue u
        have top : u.frame.top = func := by rw [frame]
        rw [top] at here kept
        refine ⟨_, steps.trans (bind_ok pushed _), ⟨callers, by rw [frame], ?_⟩, here⟩
        have push : Untouched func u
            { u with stack, frame := { u.frame with top := u.frame.top + 1 } } :=
          ⟨⟨[], rfl, by simp, fun slot v below _ held => kept slot v below held⟩, fun _ _ _ h => h⟩
        exact (untouched.trans push).kept
    | outOfRange _ | overflow | exhausted =>
      constructor
      · exact bind_error (by rw [guarded, ran]) _
      · rw [guarded, bind_error ran]

theorem Recovers.host_settled (recovers : Recovers call nargs wanted s) :
    match host call nargs wanted s with
    | .ok _ t => ∃ top, Settled (s.frame.top - (nargs + 1)) top s t
    | .error (.raised _) t => Settled (s.frame.top - (nargs + 1)) (s.frame.top - (nargs + 1)) s t
    | .error _ _ => True := by
  unfold Recovers at recovers
  dsimp only at recovers
  split at recovers
  next n t _ =>
    rw [recovers.1]
    exact ⟨_, recovers.2.2.2⟩
  next e t _ =>
    obtain ⟨⟨u, ran, settled⟩, -⟩ := recovers
    rw [ran]
    exact settled
  next stop t other _ =>
    rw [recovers.1]
    cases stop with
    | raised e => exact absurd rfl (other e)
    | outOfRange _ | overflow | exhausted => trivial

end Call

namespace Window

theorem values_run {s t : State} {values : List Value} (ran : Window.values s = .ok values t) :
    t.frames = s.frames := by
  have quiet : Quiet 0 Window.values :=
    .bind (.inspect State.frame) fun f => .readMany f.base f.size
  exact (quiet.ok ran).frames

theorem values_unraised : Unraised Window.values :=
  .bind (.inspect State.frame) fun f => .readMany f.base f.size

theorem resize_run {n : Nat} {s t : State} (ran : resize n s = .ok () t) :
    t.frames = { s.frame with top := s.frame.base + n } :: s.callers.frames := by
  let fill : Vm Unit := do
    reserve (s.frame.base + n)
    clear (min s.frame.top (s.frame.base + n)) (s.frame.base + n - s.frame.top)
  have quiet : Quiet 0 fill := .bind (.reserve _) fun _ => .clear (Nat.zero_le _) _
  have steps : resize n s = (fill >>= fun _ => setTop (s.frame.base + n)) s := by
    rw [bind_assoc]
    rfl
  rw [steps] at ran
  cases filled : fill s with
  | ok _ u =>
    obtain ⟨frame, callers⟩ := State.frames_injective (quiet.ok filled).frames
    rw [bind_ok filled] at ran
    cases ran
    change { u.frame with top := s.frame.base + n } :: u.callers.frames = _
    rw [frame, callers]
  | error e u =>
    rw [bind_error filled] at ran
    cases ran

end Window

namespace Machine

def collect (mark : Nat) : Vm (List Value) := do
  let results := (← Window.values).drop mark
  Window.resize mark
  return results

theorem collect_unraised (mark : Nat) : Unraised (collect mark) :=
  .bind Window.values_unraised fun _ => .bind (Window.resize_unraised mark) fun _ => .pure _

theorem collect_run {mark : Nat} {s t : State} {results : List Value}
    (ran : collect mark s = .ok results t) :
    t.frames = { s.frame with top := s.frame.base + mark } :: s.callers.frames := by
  unfold collect at ran
  cases listed : Window.values s with
  | error e u =>
    rw [bind_error listed] at ran
    cases ran
  | ok values u =>
    rw [bind_ok listed] at ran
    obtain ⟨frame, callers⟩ := State.frames_injective (Window.values_run listed)
    cases cut : Window.resize mark u with
    | error e v =>
      rw [bind_error cut] at ran
      cases ran
    | ok _ v =>
      rw [bind_ok cut] at ran
      cases ran
      rw [Window.resize_run cut, frame, callers]

theorem executePrototype_restores {host : Host} (propagates : host.Propagates) (p : Prototype)
    {s : State} (window : s.frame.base ≤ s.frame.top) :
    match executePrototype host p s with
    | .ok _ t => t.frames = s.frames
    | .error (.raised _) t => t.frames = s.frames
    | .error _ _ => True := by
  have steps : executePrototype host p s =
      (makeMain p >>= fun f => Window.push (.function f) >>= fun _ =>
        Call.host (call host) 0 none >>= fun _ => collect s.frame.size) s := by
    rw [← bind_assoc, ← loadPrototype_eq]
    rfl
  rw [steps]
  cases made : makeMain p s with
  | error e t =>
    rw [bind_error made]
    have still := (makeMain_quiet p 0).error made
    cases e with
    | raised _ => exact still.frames
    | outOfRange _ | overflow | exhausted => trivial
  | ok f t =>
    rw [bind_ok made]
    obtain ⟨frame, callers⟩ := State.frames_injective ((makeMain_quiet p 0).ok made).frames
    obtain ⟨stack, pushed, -⟩ := Window.push_run (.function f) t
    rw [bind_ok pushed]
    -- The function is the last value of the window, at the old end of it.
    let u := { t with stack, frame := { t.frame with top := t.frame.top + 1 } }
    have enough : u.frame.base + 0 + 1 ≤ u.frame.top := by
      change t.frame.base + 0 + 1 ≤ t.frame.top + 1
      rw [frame]
      omega
    have outcome :=
      ((call_balanced propagates).recovers 0 none enough).host_settled
    cases ran : Call.host (call host) 0 none u with
    | error e v =>
      rw [ran] at outcome
      rw [bind_error ran]
      cases e with
      | raised _ =>
        have back : v.frame = s.frame := by
          rw [outcome.frame, ← frame]
          rfl
        exact State.frames_congr back (outcome.callers.trans callers)
      | outOfRange _ | overflow | exhausted => trivial
    | ok _ v =>
      rw [ran] at outcome
      rw [bind_ok ran]
      obtain ⟨top, settled⟩ := outcome
      cases collected : collect s.frame.size v with
      | error e w =>
        cases e with
        | raised e => exact absurd collected (collect_unraised _ v e w)
        | outOfRange _ | overflow | exhausted => trivial
      | ok results w =>
        have top_eq : s.frame.base + s.frame.size = s.frame.top := by
          simp only [Frame.size]
          omega
        have back : { v.frame with top := v.frame.base + s.frame.size } = s.frame := by
          have base : v.frame.base = s.frame.base := by
            rw [settled.frame, ← frame]
          rw [base, top_eq, settled.frame, ← frame]
        change w.frames = s.frames
        rw [collect_run collected, back, settled.callers]
        exact congrArg (fun c : Callers => s.frame :: c.frames) callers

end Machine

end LuaMachine
