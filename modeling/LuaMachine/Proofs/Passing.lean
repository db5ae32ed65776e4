import LuaMachine.Proofs.Depth

set_option autoImplicit false

namespace LuaMachine

open Vm

namespace Call

/-- The value `v` with arguments `args` is in at most so many steps the function `f` with arguments
`args'`: a value that is no function gives way to its handler and becomes the first argument. -/
inductive Resolves (handler : Value → Value) :
    (links : Nat) → Value → List Value → FunctionId → List Value → Prop where
  | function (links : Nat) (f : FunctionId) (args : List Value) :
    Resolves handler (links + 1) (.function f) args f args
  | handler {links : Nat} {v : Value} {args args' : List Value} {f : FunctionId} :
    (∀ g, v ≠ .function g) → handler v ≠ .nil →
      Resolves handler links (handler v) (v :: args) f args' →
        Resolves handler (links + 1) v args f args'

variable {s t : State} {func links n : Nat} {v : Value} {args args' : List Value} {f : FunctionId}

theorem resolveWithin_function (held : Holds s.stack func (.function f :: args)) :
    resolveWithin func (links + 1) n s = .ok (f, n) s := by
  have here : Vm.read func s = .ok (.function f) s := by rw [Vm.read, held.head]
  exact bind_ok here _

theorem resolveWithin_other (held : Holds s.stack func (v :: args)) (other : ∀ g, v ≠ .function g)
    (links : Nat) :
    if s.handler v "__call" = .nil then
      resolveWithin func (links + 1) args.length s = .error (.raised (.notCallable v.type)) s
    else
      ∃ stack, Holds stack func (s.handler v "__call" :: v :: args) ∧
        resolveWithin func (links + 1) args.length s =
          resolveWithin func links (v :: args).length { s with stack } := by
  have here : Vm.read func s = .ok v s := by rw [Vm.read, held.head]
  have steps : resolveWithin func (links + 1) args.length s =
      (if (s.handler v "__call").isNil then raise (.notCallable v.type)
      else do
        reserveWithHeadroom (func + 1 + args.length + 1)
        shiftUp func (args.length + 1)
        write func (s.handler v "__call")
        resolveWithin func links (args.length + 1) : Vm (FunctionId × Nat)) s := by
    refine (bind_ok here _).trans ?_
    cases v with
    | function g => exact absurd rfl (other g)
    | _ => rfl
  rw [steps]
  split
  next none =>
    rw [none]
    rfl
  next some =>
    have present : (s.handler v "__call").isNil = false := by
      cases kind : s.handler v "__call" with
      | nil => exact absurd kind some
      | _ => rfl
    obtain ⟨grown, reserved, room, kept⟩ := reserveWithHeadroom_run (func + 1 + args.length + 1) s
    have above : func + (args.length + 1) < grown.size := by omega
    obtain ⟨shifted, moved, size, up, -⟩ := shiftUp_run (s := { s with stack := grown }) above
    have bound : func < shifted.size := by
      rw [size]
      exact Nat.lt_of_le_of_lt (Nat.le_add_right _ _) above
    refine ⟨shifted.set func (s.handler v "__call") bound, .cons (by simp) ?_, ?_⟩
    · intro i w at_i
      obtain ⟨inside, -⟩ := List.getElem?_eq_some_iff.1 at_i
      rw [Array.getElem?_set_ne bound (by omega), up i inside]
      exact kept _ w (held i w at_i)
    · rw [present, if_neg Bool.false_ne_true, bind_ok reserved, bind_ok moved]
      exact bind_ok (write_ok (s := { s with stack := shifted }) bound _) _

theorem resolveWithin_run (resolves : Resolves (s.handler · "__call") links v args f args')
    (held : Holds s.stack func (v :: args)) :
    ∃ stack, resolveWithin func links args.length s = .ok (f, args'.length) { s with stack } ∧
      Holds stack func (.function f :: args') := by
  generalize asked : (s.handler · "__call") = handler at resolves
  induction resolves generalizing s with
  | function links f args => exact ⟨s.stack, resolveWithin_function held, held⟩
  | @handler links v args args' f other present _ ih =>
    subst asked
    have step := resolveWithin_other held other links
    rw [if_neg present] at step
    obtain ⟨stack, held', step⟩ := step
    rw [step]
    exact ih (s := { s with stack }) held' rfl

theorem resolves_of_resolveWithin (held : Holds s.stack func (v :: args))
    (resolved : resolveWithin func links args.length s = .ok (f, n) t) :
    ∃ args', n = args'.length ∧ Resolves (s.handler · "__call") links v args f args' := by
  induction links generalizing s v args with
  | zero => cases resolved
  | succ links ih =>
    by_cases function : ∃ g, v = .function g
    · obtain ⟨g, rfl⟩ := function
      rw [resolveWithin_function held] at resolved
      cases resolved
      exact ⟨args, rfl, .function links f args⟩
    · have other : ∀ g, v ≠ .function g := fun g same => function ⟨g, same⟩
      have step := resolveWithin_other held other links
      by_cases none : s.handler v "__call" = .nil
      · rw [if_pos none] at step
        rw [step] at resolved
        cases resolved
      · rw [if_neg none] at step
        obtain ⟨stack, held', step⟩ := step
        rw [step] at resolved
        obtain ⟨args', length, resolves⟩ := ih (s := { s with stack }) held' resolved
        exact ⟨args', length, .handler other none resolves⟩

def Reaches (s : State) (v : Value) (args : List Value) (f : FunctionId) (args' : List Value) :
    Prop :=
  Resolves (s.handler · "__call") (s.config.maxMetaChain + 1) v args f args'

theorem resolve_run (reaches : Reaches s v args f args') (held : Holds s.stack func (v :: args)) :
    ∃ stack, resolve func args.length s = .ok (f, args'.length) { s with stack } ∧
      Holds stack func (.function f :: args') :=
  resolveWithin_run reaches held

theorem resolve_ok (held : Holds s.stack func (v :: args))
    (resolved : resolve func args.length s = .ok (f, n) t) :
    ∃ args' stack, n = args'.length ∧ Reaches s v args f args' ∧ t = { s with stack } ∧
      Holds stack func (.function f :: args') := by
  obtain ⟨args', length, reaches⟩ := resolves_of_resolveWithin held resolved
  obtain ⟨stack, ran, held'⟩ := resolve_run reaches held
  rw [resolved] at ran
  cases ran
  exact ⟨args', stack, length, reaches, rfl, held'⟩

end Call

namespace Machine

open Call (Reaches)

variable {s t : State} {func n : Nat} {v : Value} {args args' : List Value} {f : FunctionId}
  {closure : Closure}

theorem accept_run (held : Holds s.stack func (v :: args)) (reaches : Reaches s v args f args')
    (found : s.function? f = some closure) (paid : s.budget ≠ 0)
    (shallow : s.depth ≤ s.config.maxCallDepth) :
    ∃ stack, accept func args.length s =
        .ok (closure, f, args'.length) { s with stack, budget := s.budget - 1 } ∧
      Holds stack func (.function f :: args') := by
  obtain ⟨stack, resolved, held'⟩ :=
    Call.resolve_run (s := { s with budget := s.budget - 1 }) reaches held
  refine ⟨stack, ?_, held'⟩
  rw [accept_shallow paid shallow]
  exact callee_found resolved found

theorem accept_reaches (held : Holds s.stack func (v :: args))
    (accepted : accept func args.length s = .ok (closure, f, n) t) :
    ∃ args' stack, n = args'.length ∧ Reaches s v args f args' ∧ s.function? f = some closure ∧
      t = { s with stack, budget := s.budget - 1 } ∧ Holds stack func (.function f :: args') := by
  obtain ⟨-, -, resolved, found⟩ := accept_resolves accepted
  obtain ⟨args', stack, length, reaches, rfl, held'⟩ :=
    Call.resolve_ok (s := { s with budget := s.budget - 1 }) held resolved
  exact ⟨args', stack, length, reaches, found, rfl, held'⟩

end Machine

namespace Call

variable {s t : State} {func : Nat} {v : Value} {args : List Value}

def scriptFrame (f : FunctionId) (p : Prototype) (func : Nat) (args : List Value) : Frame :=
  { Frame.enter f func (func + 1 + p.stackSize.toNat) with
    varargs := if p.vararg then (args.drop p.params.toNat).toArray else #[] }

def begun (f : FunctionId) (p : Prototype) (func : Nat) (args : List Value) (s : State) : State :=
  { s with frame := scriptFrame f p func args, callers := s.callers.push s.frame }

def Registers (p : Prototype) (func : Nat) (args : List Value) (stack : Array Value) : Prop :=
  ∀ i < p.stackSize.toNat, stack[func + 1 + i]? = some ((args.take p.params.toNat).getD i .nil)

theorem enterScript_clears (f : FunctionId) (p : Prototype)
    (held : Holds s.stack func (v :: args)) :
    ∃ stack, enterScript f p func args.length s = (do
        clear (func + 1 + min args.length p.params.toNat)
          (max p.stackSize.toNat p.params.toNat - min args.length p.params.toNat)
        modify (begun f p func args) : Vm Unit) { s with stack } ∧
      func + 1 + max p.stackSize.toNat args.length ≤ stack.size ∧
      Holds stack (func + 1) (args.take p.params.toNat) := by
  obtain ⟨taken, set_aside, kept⟩ : ∃ taken,
      enterScript f p func args.length s = (do
        reserveWithHeadroom (func + 1 + max p.stackSize.toNat args.length)
        clear (func + 1 + min args.length p.params.toNat)
          (max p.stackSize.toNat p.params.toNat - min args.length p.params.toNat)
        modify (begun f p func args) : Vm Unit) { s with stack := taken } ∧
      ∀ j < func + 1 + p.params.toNat, taken[j]? = s.stack[j]? := by
    unfold enterScript begun scriptFrame
    dsimp only
    split
    · obtain ⟨taken, took, -, below⟩ := takeMany_run (held.tail.drop p.params.toNat)
      rw [List.length_drop] at took
      exact ⟨taken, bind_ok took _, below⟩
    · exact ⟨s.stack, rfl, fun _ _ => rfl⟩
  obtain ⟨stack, reserved, room, grown⟩ :=
    reserveWithHeadroom_run (func + 1 + max p.stackSize.toNat args.length) { s with stack := taken }
  refine ⟨stack, set_aside.trans (bind_ok reserved _), room, ?_⟩
  refine (held.tail.take _).congr fun j w _ inside here => ?_
  rw [List.length_take] at inside
  exact grown j w ((kept j (by omega)).trans here)

theorem clear_registers {p : Prototype}
    (placed : Holds s.stack (func + 1) (args.take p.params.toNat))
    (inside : func + 1 + max p.stackSize.toNat p.params.toNat ≤ s.stack.size) :
    ∃ stack, clear (func + 1 + min args.length p.params.toNat)
        (max p.stackSize.toNat p.params.toNat - min args.length p.params.toNat) s =
        .ok () { s with stack } ∧ Registers p func args stack := by
  obtain ⟨stack, cleared, -, nils, below⟩ :=
    clear_run (func + 1 + min args.length p.params.toNat)
      (max p.stackSize.toNat p.params.toNat - min args.length p.params.toNat) (s := s) (by omega)
  refine ⟨stack, cleared, fun i register => ?_⟩
  rw [List.getD_eq_getElem?_getD]
  by_cases given : i < min args.length p.params.toNat
  · have inside : i < (args.take p.params.toNat).length := by
      rw [List.length_take]
      omega
    have here := List.getElem?_eq_getElem inside
    rw [below _ (by omega), here]
    exact placed i _ here
  · have missing : (args.take p.params.toNat)[i]? = none := by
      rw [List.getElem?_eq_none_iff, List.length_take]
      omega
    have cleared := nils (i - min args.length p.params.toNat) .nil
      (List.getElem?_replicate_of_lt (by omega))
    rw [missing]
    rwa [Nat.add_assoc, Nat.add_sub_cancel' (Nat.le_of_not_lt given)] at cleared

theorem enterScript_run (f : FunctionId) {p : Prototype} (held : Holds s.stack func (v :: args))
    (fits : p.params.toNat ≤ p.stackSize.toNat) :
    ∃ stack, enterScript f p func args.length s = .ok () (begun f p func args { s with stack }) ∧
      Registers p func args stack := by
  obtain ⟨placed, steps, room, given⟩ := enterScript_clears f p held
  obtain ⟨stack, cleared, registers⟩ :=
    clear_registers (s := { s with stack := placed }) given (by change _ ≤ placed.size; omega)
  exact ⟨stack, steps.trans (bind_ok cleared _), registers⟩

-- More parameters than registers may find no room, but if they do nothing else is different.
theorem enterScript_registers {f : FunctionId} {p : Prototype}
    (held : Holds s.stack func (v :: args)) (ran : enterScript f p func args.length s = .ok () t) :
    ∃ stack, t = begun f p func args { s with stack } ∧ Registers p func args stack := by
  obtain ⟨placed, steps, room, given⟩ := enterScript_clears f p held
  rw [steps] at ran
  obtain ⟨_, u, cleared, entered⟩ := ok_of_bind ran
  have inside := clear_inside cleared
  change _ ∨ _ ≤ placed.size at inside
  obtain ⟨stack, cleared', registers⟩ :=
    clear_registers (s := { s with stack := placed }) given (by change _ ≤ placed.size; omega)
  rw [cleared] at cleared'
  cases cleared'
  cases entered
  exact ⟨stack, rfl, registers⟩

theorem entered_values (f : FunctionId) (held : Holds s.stack func (v :: args)) :
    Window.values (entered f func args.length s) = .ok args (entered f func args.length s) := by
  obtain ⟨stack, reserved, -, kept⟩ := reserveWithHeadroom_run (func + 1 + args.length) s
  have begins : entered f func args.length s =
      { s with
        stack
        frame := .enter f func (func + 1 + args.length)
        callers := s.callers.push s.frame } := by
    rw [entered, after_bind_ok reserved]
    rfl
  have size : (Frame.enter f func (func + 1 + args.length)).size = args.length :=
    Nat.add_sub_cancel_left _ _
  rw [begins]
  change readMany (func + 1) (Frame.enter f func (func + 1 + args.length)).size _ = _
  rw [size]
  exact readMany_run (held.tail.congr fun j w _ _ here => kept j w here)

theorem returnFrom_moves {first n m : Nat} (above : s.frame.func ≤ first)
    (ran : returnFrom first n s = .ok m t) :
    m = n ∧ ∃ results : List Value, results.length = n ∧ Holds s.stack first results ∧
      Holds t.stack s.frame.func results := by
  obtain ⟨_, u, closed, ran⟩ := ok_of_bind ran
  rw [closeFrom_run] at closed
  cases closed
  obtain ⟨left, w, popped, ran⟩ := ok_of_bind ran
  obtain ⟨caller, rest, -, rfl, rfl⟩ := popFrame_ok popped
  obtain ⟨_, x, moved, ran⟩ := ok_of_bind ran
  rw [frame_closeFrom] at moved
  obtain ⟨stack, results, rfl, length, held, down⟩ := moveDown_moves above moved
  rw [stack_closeFrom] at held
  cases ran
  exact ⟨rfl, results, length, held, down⟩

theorem returnFromNative_moves {returned k : Nat} {wanted : Option Nat}
    (above : func ≤ s.frame.base) (window : s.frame.base ≤ s.frame.top)
    (ran : returnFromNative func returned wanted s = .ok k t) :
    ∃ results : List Value, results.length = min returned s.frame.size ∧
      Holds s.stack (s.frame.top - results.length) results ∧
      k = (adjusted wanted results).length ∧ Holds t.stack func (adjusted wanted results) := by
  obtain ⟨left, u, popped, ran⟩ := ok_of_bind ran
  obtain ⟨caller, rest, -, rfl, rfl⟩ := popFrame_ok popped
  obtain ⟨_, v, moved, ran⟩ := ok_of_bind ran
  have down : func ≤ s.frame.top - min returned s.frame.size := by
    rw [Frame.size]
    omega
  obtain ⟨stack, results, rfl, length, held, placed⟩ := moveDown_moves down moved
  obtain ⟨settled, adjusts, -, fits⟩ := adjustResults_run func (min returned s.frame.size) wanted
    { s with stack, frame := caller, callers := rest }
  rw [ran] at adjusts
  cases adjusts
  rw [← length] at held ⊢
  exact ⟨results, rfl, held, (length_adjusted wanted results).symm, fits results length placed⟩

theorem tail_returned {call : LuaMachine.Call} (balanced : call.Balanced) {slot nargs n : Nat}
    (above : s.frame.func ≤ slot) (ran : tail call slot nargs s = .ok (.returned n) t) :
    ∃ f m u w, ∃ results : List Value, resolve slot nargs s = .ok (f, m) u ∧
      (∀ p cells, u.function? f ≠ some ⟨.script p, cells⟩) ∧
      call slot m none ((closeFrom u.frame.base).after u) = .ok results.length w ∧
      Holds w.stack slot results ∧ results.length = n ∧ Holds t.stack s.frame.func results := by
  obtain ⟨f, m, u, resolved, ⟨next, -⟩ | ⟨other, k, w, m', called, returned, same⟩⟩ := tail_ok ran
  · cases next
  · cases same
    obtain ⟨frame, -⟩ := State.frames_injective ((resolve_quiet slot nargs).ok resolved).frames
    have place : w.frame.func = s.frame.func := by
      rw [(balanced.ok called).frame, frame_closeFrom, frame]
    obtain ⟨rfl, results, rfl, here, held⟩ := returnFrom_moves (place ▸ above) returned
    exact ⟨f, m, u, w, results, resolved, other, called, here, rfl, place ▸ held⟩

end Call

namespace Machine

variable {host : Host} {call : Call} {s t : State} {func n : Nat}

/-- The next instruction is the last one of its call, and these are the results. -/
inductive Ends (call : Call) (s : State) (results : List Value) : Prop where
  | past {a : Activation} :
    activation s = .ok a s → a.proto.code[s.frame.pc]? = none → results = [] → Ends call s results
  | returns {a : Activation} {w : Word} :
    activation s = .ok a s → a.proto.code[s.frame.pc]? = some w → w.opcode? = some .ret →
      results.length = Activation.countAt s (a.base + w.a) w.b →
      Holds s.stack (a.base + w.a) results → Ends call s results
  -- The results of a host function that is called last are returned at once.
  | passes {a : Activation} {w : Word} {f : FunctionId} {m : Nat} {t u : State} :
    activation s = .ok a s → a.proto.code[s.frame.pc]? = some w → w.opcode? = some .tailCall →
      Call.resolve (a.base + w.a) (Activation.countAt s (a.base + w.a + 1) w.b) (advanced s) =
        .ok (f, m) t →
      (∀ p cells, t.function? f ≠ some ⟨.script p, cells⟩) →
      call (a.base + w.a) m none ((closeFrom t.frame.base).after t) = .ok results.length u →
      Holds u.stack (a.base + w.a) results → Ends call s results

theorem step_ends (balanced : call.Balanced) {a : Activation} {w : Word}
    (found : activation s = .ok a s) (code : a.proto.code[s.frame.pc]? = some w)
    (above : s.frame.func ≤ a.base + w.a) (ran : a.step call w (advanced s) = .ok (.returned n) t) :
    ∃ results, Ends call s results ∧ results.length = n ∧ Holds t.stack s.frame.func results := by
  by_cases tail : w.opcode? = some .tailCall
  · rw [a.step_tail call tail] at ran
    obtain ⟨f, m, u, v, results, resolved, other, called, here, length, held⟩ :=
      Call.tail_returned (s := advanced s) balanced above ran
    exact ⟨results, .passes found code tail resolved other called here, length, held⟩
  · by_cases ret : w.opcode? = some .ret
    · rw [a.step_ret call ret] at ran
      obtain ⟨m, u, returned, finished⟩ := ok_of_bind ran
      cases finished
      obtain ⟨count, results, length, here, held⟩ :=
        Call.returnFrom_moves (s := advanced s) above returned
      exact ⟨results, .returns found code ret length here, by rw [length, count], held⟩
    · obtain ⟨x, steps, -⟩ := a.step_works call w tail ret
      rw [steps] at ran
      obtain ⟨_, u, -, finished⟩ := ok_of_bind ran
      cases finished

theorem stepOnce_ends (balanced : call.Balanced) (above : s.frame.func ≤ s.frame.base)
    (ran : stepOnce call s = .ok (.returned n) t) :
    ∃ results, Ends call s results ∧ results.length = n ∧ Holds t.stack s.frame.func results := by
  rcases activation_run s with ⟨f, p, cells, function, script⟩ | ⟨e, failed⟩
  · have found := activation_script function script
    cases code : p.code[s.frame.pc]? with
    | none =>
      rw [stepOnce_end found code] at ran
      obtain ⟨m, u, returned, finished⟩ := ok_of_bind ran
      cases finished
      obtain ⟨count, results, length, -, held⟩ := Call.returnFrom_moves above returned
      refine ⟨results, .past found code (List.length_eq_zero_iff.1 length), ?_, held⟩
      rw [length, count]
    | some w =>
      rw [stepOnce_word found code] at ran
      exact step_ends balanced found code (Nat.le_trans above (Nat.le_add_right _ _))
        (located_ok ran)
  · have stopped : stepOnce call s = .error e s := bind_error failed _
    rw [stopped] at ran
    cases ran

theorem loop_ends (balanced : call.Balanced) {c : Frame} {rest : List Frame}
    (running : Running func (c :: rest) s) {fuel : Nat} (ran : loop call fuel s = .ok n t) :
    ∃ last paid results, Relation.ReflTransGen (Advances call) s last ∧ tick last = .ok () paid ∧
      Ends call paid results ∧ results.length = n ∧ Holds t.stack func results := by
  obtain ⟨last, paid, path, ticked, returned⟩ := loop_returns ran
  have still : Still func last paid := Quiet.tick.ok ticked
  have there := (running_path balanced running path).1.still still
  obtain ⟨results, ends, length, held⟩ :=
    stepOnce_ends balanced (there.func_eq ▸ there.func_le) returned
  exact ⟨last, paid, results, path, ticked, ends, length, there.func_eq ▸ held⟩

/-- The call of a function on `args` at `func`, and its results. -/
def Produces (host : Host) (call : Call) (f : FunctionId) (func : Nat) (args : List Value)
    (s : State) (results : List Value) : FunctionBody → Prop
  | .script p => ∃ stack last paid, Call.Registers p func args stack ∧
    Relation.ReflTransGen (Advances call)
      (Call.begun f p func args { s with stack, budget := s.budget - 1 }) last ∧
    tick last = .ok () paid ∧ Ends call paid results
  | .native g => ∃ stack returned ended,
    let begun := Call.entered f func args.length { s with stack, budget := s.budget - 1 }
    Window.values begun = .ok args begun ∧ native host call g begun = .ok returned ended ∧
      results.length = min returned ended.frame.size ∧
      Holds ended.stack (ended.frame.top - results.length) results

def Starts (host : Host) (call : Call) (fuel : Nat) (f : FunctionId) (func : Nat)
    (args : List Value) (wanted : Option Nat) (s : State) (r : EStateM.Result Stop State Nat) :
    FunctionBody → Prop
  | .script p => p.params.toNat ≤ p.stackSize.toNat → ∃ stack, Call.Registers p func args stack ∧
    r = (do Call.adjustResults func (← loop call fuel) wanted)
      (Call.begun f p func args { s with stack, budget := s.budget - 1 })
  | .native g => ∃ stack,
    let begun := Call.entered f func args.length { s with stack, budget := s.budget - 1 }
    Window.values begun = .ok args begun ∧
      r = (do Call.returnFromNative func (← native host call g) wanted) begun

section

open Call (Reaches)

variable {v : Value} {args args' : List Value} {f : FunctionId} {closure : Closure}
  {wanted : Option Nat} {fuel k : Nat}

theorem invoke_starts (held : Holds s.stack func (v :: args)) (reaches : Reaches s v args f args')
    (found : s.function? f = some closure) (paid : s.budget ≠ 0)
    (shallow : s.depth ≤ s.config.maxCallDepth) (call : Call) (fuel : Nat) (wanted : Option Nat) :
    Starts host call fuel f func args' wanted s (invoke host call fuel func args.length wanted s)
      closure.body := by
  obtain ⟨stack, accepted, held'⟩ := accept_run held reaches found paid shallow
  rw [invoke_eq, bind_ok accepted]
  obtain ⟨body, cells⟩ := closure
  cases body with
  | native g => exact ⟨stack, Call.entered_values f held', Call.native_eq ..⟩
  | script p =>
    intro fits
    obtain ⟨registers, entered, placed⟩ :=
      Call.enterScript_run f (s := { s with stack, budget := s.budget - 1 }) held' fits
    exact ⟨registers, placed, bind_ok entered _⟩

theorem invoke_produces (propagates : host.Propagates) (balanced : call.Balanced)
    (held : Holds s.stack func (v :: args))
    (ran : invoke host call fuel func args.length wanted s = .ok k t) :
    ∃ f args' closure results, Reaches s v args f args' ∧ s.function? f = some closure ∧
      Produces host call f func args' s results closure.body ∧
      k = (Call.adjusted wanted results).length ∧
      Holds t.stack func (Call.adjusted wanted results) := by
  rw [invoke_eq] at ran
  obtain ⟨⟨closure, f, m⟩, u, accepted, ran⟩ := ok_of_bind ran
  obtain ⟨args', stack, rfl, reaches, found, rfl, held'⟩ := accept_reaches held accepted
  refine ⟨f, args', closure, ?_⟩
  obtain ⟨body, cells⟩ := closure
  cases body with
  | native g =>
    obtain ⟨returned, ended, executed, ran⟩ := ok_of_bind ((Call.native_eq ..).symm.trans ran)
    obtain ⟨running, -⟩ := Call.entered_running f func args'.length
      { s with stack, budget := s.budget - 1 }
    have stays := (native_acts propagates balanced g (func + 1)).ok rfl running.window executed
    have base : ended.frame.base = func + 1 := Frame.Keeping.base stays.frame
    obtain ⟨results, length, here, count, settled⟩ :=
      Call.returnFromNative_moves (base ▸ Nat.le_succ func) (base ▸ stays.window) ran
    exact ⟨results, reaches, found,
      ⟨stack, returned, ended, Call.entered_values f held', executed, length, here⟩, count, settled⟩
  | script p =>
    obtain ⟨_, u, entered, rest⟩ := ok_of_bind ran
    obtain ⟨n, w, looped, finished⟩ := ok_of_bind rest
    obtain ⟨registers, rfl, placed⟩ := Call.enterScript_registers held' entered
    let u := Call.begun f p func args' { s with stack := registers, budget := s.budget - 1 }
    have running : Running func (s.frame :: s.callers.frames) u :=
      ⟨rfl, Nat.le_succ func, Nat.le_add_right _ _, rfl⟩
    obtain ⟨last, paid, results, path, ticked, ends, length, here⟩ :=
      loop_ends balanced running looped
    obtain ⟨settled, adjusts, -, fits⟩ := Call.adjustResults_run func n wanted w
    rw [finished] at adjusts
    cases adjusts
    refine ⟨results, reaches, found, ⟨registers, last, paid, placed, path, ticked, ends⟩, ?_,
      fits results length here⟩
    rw [Call.length_adjusted, length]

end

theorem Makes.invokes (makes : Makes host call) {nargs k : Nat} {wanted : Option Nat}
    (ran : call func nargs wanted s = .ok k t) :
    ∃ fuel, invoke host (callWithin host fuel) fuel func nargs wanted s = .ok k t := by
  cases makes with
  | outer => exact ⟨s.budget, ran⟩
  | nested fuel =>
    cases fuel with
    | zero => cases ran
    | succ fuel => exact ⟨fuel, ran⟩

end Machine

theorem Call.tail_enters (call : Call) {s : State} {func : Nat} {v : Value}
    {args args' : List Value} {f : FunctionId} {p : Prototype} {cells : Array CellId}
    (held : Holds s.stack func (v :: args)) (reaches : Reaches s v args f args')
    (found : s.function? f = some ⟨.script p, cells⟩) (waited : s.callers.frames ≠ [])
    (above : s.frame.func ≤ func) :
    ∃ u, tail call func args.length s =
        (do
          enterScript f p s.frame.func args'.length
          return .next : Vm Flow) u ∧
      Holds u.stack s.frame.func (.function f :: args') ∧ u.frames = s.callers.frames ∧
      u.escapes = s.escapes ∧ u.functions = s.functions := by
  obtain ⟨resolved, ran, held'⟩ := resolve_run reaches held
  let closed := (closeFrom s.frame.base).after { s with stack := resolved }
  have place : closed.frame.func = s.frame.func := by rw [frame_closeFrom]
  rcases popFrame_cases closed with ⟨e, failed⟩ | ⟨c, rest, waiting, popped⟩
  · obtain ⟨c, rest, waiting⟩ := List.exists_cons_of_ne_nil waited
    obtain ⟨u, popped, -⟩ := popFrame_run (s := closed) waiting
    rw [failed] at popped
    cases popped
  · have arguments : Holds closed.stack func (.function f :: args') := by
      rw [stack_closeFrom]
      exact held'
    obtain ⟨lowered, moved, -, down, -⟩ :=
      moveDown_run func s.frame.func (s := { closed with frame := c, callers := rest }) above
        arguments
    refine ⟨{ closed with stack := lowered, frame := c, callers := rest }, ?_, down,
      waiting.symm, rfl, rfl⟩
    rw [tail_script ran found, bind_ok popped, place]
    exact bind_ok moved _

theorem Call.tail_begins {call : Call} {s : State} {func : Nat} {v : Value}
    {args args' : List Value} {f : FunctionId} {p : Prototype} {cells : Array CellId}
    (held : Holds s.stack func (v :: args)) (reaches : Reaches s v args f args')
    (found : s.function? f = some ⟨.script p, cells⟩) (waited : s.callers.frames ≠ [])
    (above : s.frame.func ≤ func) (fits : p.params.toNat ≤ p.stackSize.toNat) :
    ∃ t, tail call func args.length s = .ok .next t ∧ t.callers.frames = s.callers.frames ∧
      t.frame = scriptFrame f p s.frame.func args' ∧ Registers p s.frame.func args' t.stack := by
  obtain ⟨u, enters, down, frames, -⟩ := tail_enters call held reaches found waited above
  obtain ⟨stack, entered, registers⟩ := enterScript_run f down fits
  refine ⟨begun f p s.frame.func args' { u with stack }, ?_, frames, rfl, registers⟩
  rw [enters]
  exact bind_ok entered _

/-- Arguments and results are passed as they are: a function that a call of `v` reaches starts on
exactly the arguments, whatever else is on the stack, and a caller finds exactly its results, cut or
filled up to the wanted number, with its window ending after them. -/
theorem calls_pass_values {host : Host} (propagates : host.Propagates) :
    (∀ call fuel func v args f args' closure wanted (s : State),
      Holds s.stack func (v :: args) → Call.Reaches s v args f args' →
      s.function? f = some closure → s.budget ≠ 0 → s.depth ≤ s.config.maxCallDepth →
      Machine.Starts host call fuel f func args' wanted s
        (Machine.invoke host call fuel func args.length wanted s) closure.body) ∧
    (∀ call func v args f args' p cells (s : State),
      Holds s.stack func (v :: args) → Call.Reaches s v args f args' →
      s.function? f = some ⟨.script p, cells⟩ → s.callers.frames ≠ [] → s.frame.func ≤ func →
      p.params.toNat ≤ p.stackSize.toNat →
      ∃ t, Call.tail call func args.length s = .ok .next t ∧
        t.callers.frames = s.callers.frames ∧
        t.frame = Call.scriptFrame f p s.frame.func args' ∧
        Call.Registers p s.frame.func args' t.stack) ∧
    ∀ call, Machine.Makes host call → ∀ func v args wanted k (s t : State),
      Holds s.stack func (v :: args) → call func args.length wanted s = .ok k t →
      ∃ f args' closure inner results, Call.Reaches s v args f args' ∧
        s.function? f = some closure ∧ Machine.Makes host inner ∧
        Machine.Produces host inner f func args' s results closure.body ∧
        k = (Call.adjusted wanted results).length ∧
        Holds t.stack func (Call.adjusted wanted results) ∧
        t.callers = s.callers ∧ t.frame = { s.frame with top := func + k } := by
  refine ⟨?_, ?_, ?_⟩
  · intro call fuel func v args f args' closure wanted s held reaches found paid shallow
    exact Machine.invoke_starts held reaches found paid shallow call fuel wanted
  · intro call func v args f args' p cells s held reaches found waited above fits
    exact Call.tail_begins held reaches found waited above fits
  · intro call makes func v args wanted k s t held ran
    obtain ⟨fuel, invoked⟩ := makes.invokes ran
    obtain ⟨f, args', closure, results, reaches, found, produces, count, settled⟩ :=
      Machine.invoke_produces propagates (Machine.callWithin_balanced propagates fuel) held invoked
    have returned := (makes.balanced propagates).ok ran
    exact ⟨f, args', closure, _, results, reaches, found, .nested fuel, produces, count, settled,
      returned.callers, returned.frame⟩

-- A function of two parameters that returns them and everything after them.
def Prototype.variadic : Prototype :=
  { source := "@t.lua", params := 2, stackSize := 3, vararg := true
    code := #[.ofABC .vararg 2 0 0, .ofABC .ret 0 0 0], lines := #[1, 1] }

-- A table that is called through such a function, and values that nothing refers to above it.
def State.variadic : State :=
  { State.bare {} with
    stack := #[.table ⟨2⟩, .int 1, .int 2, .int 3, .bool true, .bool false]
    tables := #[.empty, .empty, { Table.empty with metatable := some ⟨3⟩ },
      Table.empty.putText "__call" (.function ⟨0⟩)]
    functions := #[⟨.script .variadic, #[]⟩] }

theorem State.variadic_reaches :
    Call.Reaches variadic (.table ⟨2⟩) [.int 1, .int 2, .int 3] ⟨0⟩
      [.table ⟨2⟩, .int 1, .int 2, .int 3] := by
  have callable : variadic.handler (.table ⟨2⟩) "__call" = .function ⟨0⟩ := by decide +kernel
  refine .handler (fun g => by simp) ?_ ?_
  · simp [callable]
  · simp only [callable]
    exact .function ..

theorem State.variadic_holds :
    Holds variadic.stack 0 [.table ⟨2⟩, .int 1, .int 2, .int 3] :=
  .cons rfl (.cons rfl (.cons rfl (.cons rfl (.nil _ _))))

theorem calls_pass_values_variadic :
    Machine.Starts Command.noHost (Machine.callWithin Command.noHost 3) 3 ⟨0⟩ 0
      [.table ⟨2⟩, .int 1, .int 2, .int 3] (some 5) State.variadic
      (Machine.invoke Command.noHost (Machine.callWithin Command.noHost 3) 3 0 3 (some 5)
        State.variadic)
      (.script .variadic) ∧
    ∃ t, Machine.callWithin Command.noHost 4 0 3 (some 5) State.variadic = .ok 5 t ∧
      t.stack.take 5 = #[.table ⟨2⟩, .int 1, .int 2, .int 3, .nil] ∧ t.frame.top = 5 := by
  have outcome : (Machine.callWithin Command.noHost 4 0 3 (some 5)).returns State.variadic
      (fun _ t => t.stack.take 5 = #[.table ⟨2⟩, .int 1, .int 2, .int 3, .nil]) = true := by
    decide +kernel
  have found : State.variadic.function? ⟨0⟩ = some ⟨.script .variadic, #[]⟩ := rfl
  have paid : State.variadic.budget ≠ 0 := by decide +kernel
  have shallow : State.variadic.depth ≤ State.variadic.config.maxCallDepth := by decide +kernel
  have held := State.variadic_holds
  have reaches := State.variadic_reaches
  obtain ⟨starts, -, returns⟩ := calls_pass_values Command.noHost_propagates
  -- The state is hidden so that nothing starts to run it.
  generalize State.variadic = s at outcome found paid shallow held reaches ⊢
  have started := starts (Machine.callWithin Command.noHost 3) 3 0 _ _ ⟨0⟩ _ _ (some 5) s held
    reaches found paid shallow
  refine ⟨started, ?_⟩
  obtain ⟨k, t, ran, after⟩ := of_returns outcome
  obtain ⟨_, _, _, _, results, -, -, -, -, count, -, -, frame⟩ :=
    returns _ (.nested 4) 0 _ _ (some 5) k s t held ran
  rw [Call.length_adjusted] at count
  cases count
  exact ⟨t, ran, of_decide_eq_true after, by rw [frame]; rfl⟩

end LuaMachine
