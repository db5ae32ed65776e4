import LuaMachine.Proofs.Passing

set_option autoImplicit false

namespace LuaMachine

open Vm
open Machine (Makes Advances activation advanced stepOnce)

namespace Machine

variable {call : Call} {func : Nat} {caller s t : State}

/-- The call that runs in `s` was begun at `func` by the one that runs in `caller`, and has come to
`s` instruction by instruction. Tail calls may have replaced it on the way. -/
def Serves (call : Call) (func : Nat) (caller s : State) : Prop :=
  ∃ f p nargs begun, Call.enterScript f p func nargs caller = .ok () begun ∧
    Relation.ReflTransGen (Advances call) begun s

theorem Serves.running (balanced : call.Balanced) (serves : Serves call func caller s) :
    Running func caller.frames s ∧ Effect func caller s := by
  obtain ⟨f, p, nargs, begun, entered, path⟩ := serves
  have begins := Call.enterScript_begins f p func nargs caller
  rw [entered] at begins
  obtain ⟨running, effect⟩ := running_path balanced begins.1 path
  exact ⟨running, begins.2.trans effect⟩

theorem located_of_ok {α : Type} {p : Routine} {pc : Nat} {x : Vm α} {b : α}
    (ran : x s = .ok b t) : located p pc x s = .ok b t := by
  rw [located, ran]

theorem located_ok_iff {α : Type} {p : Routine} {pc : Nat} {x : Vm α} {b : α} :
    located p pc x s = .ok b t ↔ x s = .ok b t :=
  ⟨located_ok, located_of_ok⟩

theorem activation_same {a : Activation} (ran : activation s = .ok a t) : t = s := by
  rcases activation_run s with ⟨f, p, cells, function, found⟩ | ⟨e, failed⟩
  · rw [activation_script function found] at ran
    cases ran
    rfl
  · rw [failed] at ran
    cases ran

-- What the instruction comes to is what the tail call comes to, but for the place of an error.
theorem stepOnce_tail (call : Call) {a : Activation} {w : Word} {nargs : Nat}
    (running : activation s = .ok a s) (fetched : a.proto.code[s.frame.pc]? = some w)
    (tail : w.opcode? = some .tailCall)
    (count : Activation.countAt s (a.base + w.a + 1) w.b = nargs) (flow : Call.Flow) (t : State) :
    stepOnce call s = .ok flow t ↔
      Call.tail call (a.base + w.a) nargs (advanced s) = .ok flow t := by
  subst count
  rw [stepOnce_word running fetched, located_ok_iff, a.step_tail call tail]
  rfl

end Machine

theorem Kept.of_escapes {low : Nat} {s t : State} (kept : Kept low s t)
    (escapes : t.escapes = s.escapes) {slot : Nat} (below : slot < low)
    (inside : slot < s.stack.size) : t.stack[slot]? = s.stack[slot]? := by
  obtain ⟨written, noted, -, kept⟩ := kept
  have none : written = [] := by
    rw [escapes] at noted
    exact List.self_eq_append_left.1 noted
  rw [Array.getElem?_eq_getElem inside]
  exact kept slot _ below (by simp [none]) (Array.getElem?_eq_getElem inside)

theorem Store.slotValue_congr {s t : Store} {slot : Nat} (same : t.stack[slot]? = s.stack[slot]?) :
    t.slotValue slot = s.slotValue slot := by
  rw [slotValue, Array.getD_eq_getD_getElem?, same, ← Array.getD_eq_getD_getElem?, slotValue]

namespace Call

variable {call : LuaMachine.Call} {s t : State} {func slot : Nat} {v : Value}
  {args args' : List Value} {f : FunctionId} {p : Prototype} {cells : Array CellId} {c : Frame}
  {rest : List Frame}

/-- In `t` the function runs in the place of the call that ran in `s`, as if it had been called
there with these arguments. -/
structure Replaces (f : FunctionId) (p : Prototype) (cells : Array CellId) (args : List Value)
    (low : Nat) (s t : State) : Prop where
  callers : t.callers.frames = s.callers.frames
  frame : t.frame = scriptFrame f p s.frame.func args
  activation : activation t = .ok ⟨cells, p, s.frame.func + 1⟩ t
  registers : Registers p s.frame.func args t.stack
  ordinary : ∀ (u v : State) (w : Value), Holds u.stack s.frame.func (w :: args) →
    enterScript f p s.frame.func args.length u = .ok () v →
      v.frame = t.frame ∧ ∀ i < p.stackSize.toNat,
        v.stack[s.frame.func + 1 + i]? = t.stack[s.frame.func + 1 + i]?
  closed : ∀ e ∈ s.frame.opened, e.1 < low → t.cell e.2 = .closed (s.slotValue e.1)
  below : ∀ slot < s.frame.func, t.stack[slot]? = s.stack[slot]?

theorem resolve_below (held : Holds s.stack slot (v :: args)) (reaches : Reaches s v args f args') :
    ∃ stack, resolve slot args.length s = .ok (f, args'.length) { s with stack } ∧
      Holds stack slot (.function f :: args') ∧ ∀ j < slot, stack[j]? = s.stack[j]? := by
  obtain ⟨stack, resolved, held'⟩ := resolve_run reaches held
  have kept := ((resolve_quiet slot args.length).ok resolved).untouched.kept
  refine ⟨stack, resolved, held', fun j below => ?_⟩
  exact kept.of_escapes rfl below (Nat.lt_trans below held.bound)

theorem tail_replaces (balanced : call.Balanced) (running : Running func (c :: rest) s)
    (registered : s.Registered) (above : s.frame.base ≤ slot)
    (held : Holds s.stack slot (v :: args)) (reaches : Reaches s v args f args')
    (found : s.function? f = some ⟨.script p, cells⟩) {flow : Flow}
    (ran : tail call slot args.length s = .ok flow t) :
    flow = .next ∧ Replaces f p cells args' slot s t := by
  have waited : s.callers.frames ≠ [] := by simp [running.callers]
  have low : s.frame.func ≤ s.frame.base := running.func_eq ▸ running.func_le
  have executed := tail_executed balanced running above args.length
  obtain ⟨u, enters, down, frames, escapes, functions⟩ :=
    tail_enters call held reaches found waited (Nat.le_trans low above)
  obtain ⟨resolved, resolves, -, same⟩ := resolve_below held reaches
  have closes := registered.closesCells.replaced call slot args.length f args'.length _ resolves p
    cells found
  rw [Vm.after, ran] at closes
  rw [ran] at executed
  rw [enters] at ran
  obtain ⟨_, w, entered, finished⟩ := ok_of_bind ran
  cases finished
  obtain ⟨stack, rfl, registers⟩ := enterScript_registers down entered
  refine ⟨rfl, frames, rfl, ?_, registers, ?_, ?_, ?_⟩
  · refine Machine.activation_script rfl ?_
    rw [← found, State.function?, State.function?]
    exact congrArg (·[f.index]?) functions
  · intro u' v' w' held' entered'
    obtain ⟨stack', rfl, registers'⟩ := enterScript_registers held' entered'
    exact ⟨rfl, fun i register => (registers' i register).trans (registers i register).symm⟩
  · intro e entry under
    rw [closes e entry, Store.slotValue_congr (same e.1 under)]
  · intro j under
    have inside : j < s.stack.size := by
      have := held.bound
      omega
    exact (executed.2.untouched.kept).of_escapes escapes (running.func_eq ▸ under) inside

theorem returnFrom_run {first : Nat} {results : List Value} (waiting : s.callers.frames = c :: rest)
    (above : s.frame.func ≤ first) (held : Holds s.stack first results) :
    ∃ t, returnFrom first results.length s = .ok results.length t ∧ t.frames = c :: rest ∧
      Holds t.stack s.frame.func results := by
  let closed := (closeFrom 0).after s
  have place : closed.frame.func = s.frame.func := by rw [frame_closeFrom]
  obtain ⟨u, popped, frames, store, -⟩ := popFrame_run (s := closed) waiting
  have there : Holds u.stack first results := by
    rw [store, stack_closeFrom]
    exact held
  obtain ⟨stack, moved, -, down, -⟩ := moveDown_run first s.frame.func above there
  refine ⟨{ u with stack }, ?_, frames, down⟩
  refine (bind_ok (closeFrom_run 0 s) _).trans ((bind_ok popped _).trans ?_)
  rw [place]
  exact bind_ok moved _

theorem handed_back {nargs : Nat} {results : List Value} (balanced : call.Balanced)
    (running : Running func (c :: rest) s) (above : func ≤ slot)
    (called : call slot nargs none s = .ok results.length t) (held : Holds t.stack slot results) :
    ∃ u, (do
          let n ← call slot nargs none
          return .returned (← returnFrom slot n) : Vm Flow) s = .ok (.returned results.length) u ∧
      Holds u.stack func results ∧ u.frames = c :: rest := by
  have returned := balanced.ok called
  have place : t.frame.func = func := by rw [returned.frame, running.func_eq]
  obtain ⟨u, left, frames, down⟩ := returnFrom_run (returned.callers ▸ running.callers)
    (place ▸ above) held
  exact ⟨u, (bind_ok called _).trans (bind_ok left _), place ▸ down, frames⟩

-- A function is reached as it is.
theorem Reaches.function {f g : FunctionId} (reaches : Reaches s (.function f) args g args') :
    g = f ∧ args' = args := by
  cases reaches with
  | function => exact ⟨rfl, rfl⟩
  | handler other => exact absurd rfl (other f)

theorem tail_hands (call : LuaMachine.Call) (running : Running func (c :: rest) s)
    (registered : s.Registered) (above : s.frame.base ≤ slot)
    (held : Holds s.stack slot (v :: args)) (reaches : Reaches s v args f args')
    (other : ∀ p cells, s.function? f ≠ some ⟨.script p, cells⟩) :
    ∃ u, tail call slot args.length s =
        (do
          let n ← call slot args'.length none
          return .returned (← returnFrom slot n) : Vm Flow) u ∧
      Holds u.stack slot (.function f :: args') ∧ Running func (c :: rest) u ∧
      u.functions = s.functions ∧
      ∀ e ∈ s.frame.opened, e.1 < slot → u.cell e.2 = .closed (s.slotValue e.1) := by
  obtain ⟨stack, resolved, held', same⟩ := resolve_below held reaches
  have still := (resolve_quiet slot args.length).ok resolved
  let t := { s with stack }
  refine ⟨(closeFrom t.frame.base).after t, tail_native resolved other, ?_, ?_, rfl, ?_⟩
  · rw [stack_closeFrom]
    exact held'
  · have low : func ≤ slot := Nat.le_trans running.func_le above
    have moved : Running func (c :: rest) t := running.still (still.mono low)
    exact moved.stays ((Acts.closeFrom t.frame.base).ok rfl moved.window (closeFrom_run _ t))
  · intro e entry under
    have listed := still.registered registered
    rw [listed.closed (Nat.le_refl _) entry, Store.slotValue_congr (same e.1 under)]

end Call

namespace Machine

variable {host : Host} {call : Call} {s t : State} {func slot k : Nat} {f : FunctionId}
  {args : List Value} {closure : Closure}

-- The results of a function that is on the stack itself are those of its body.
theorem Makes.produces (propagates : host.Propagates) (makes : Makes host call)
    (held : Holds s.stack slot (.function f :: args)) (found : s.function? f = some closure)
    (ran : call slot args.length none s = .ok k t) :
    ∃ inner results, Makes host inner ∧ Produces host inner f slot args s results closure.body ∧
      k = results.length ∧ Holds t.stack slot results := by
  obtain ⟨fuel, invoked⟩ := makes.invokes ran
  obtain ⟨g, args', closure', results, reaches, found', produces, count, settled⟩ :=
    invoke_produces propagates (callWithin_balanced propagates fuel) held invoked
  obtain ⟨rfl, rfl⟩ := reaches.function
  rw [found] at found'
  cases found'
  exact ⟨_, results, .nested fuel, produces, count, settled⟩

end Machine

/-- A tail call of a script function puts it in the place of the running call, just as any call of
it begins; the cells on registers below the function have kept their values, and nothing below the
call has changed. A host function's results are returned as they are. -/
theorem tailCalls_replace {host : Host} (propagates : host.Propagates) {call : Call}
    (makes : Makes host call) {func : Nat} {caller before s : State}
    (registered : caller.Registered) (serves : Machine.Serves call func caller before)
    (paid : tick before = .ok () s) {a : Activation} {w : Word}
    (running : activation s = .ok a s) (fetched : a.proto.code[s.frame.pc]? = some w)
    (tail : w.opcode? = some .tailCall) {v : Value} {args args' : List Value} {f : FunctionId}
    (held : Holds s.stack (a.base + w.a) (v :: args))
    (count : Activation.countAt s (a.base + w.a + 1) w.b = args.length)
    (reaches : Call.Reaches s v args f args') :
    s.frame.func = func ∧ s.callers.frames = caller.frames ∧
    (∀ p cells, s.function? f = some ⟨.script p, cells⟩ →
      (p.params.toNat ≤ p.stackSize.toNat → ∃ t, stepOnce call s = .ok .next t) ∧
      ∀ flow t, stepOnce call s = .ok flow t →
        flow = .next ∧ Call.Replaces f p cells args' (a.base + w.a) s t) ∧
    ∀ g cells, s.function? f = some ⟨.native g, cells⟩ →
      ∃ u, Holds u.stack (a.base + w.a) (.function f :: args') ∧
        (∀ e ∈ s.frame.opened, e.1 < a.base + w.a → u.cell e.2 = .closed (s.slotValue e.1)) ∧
        (∀ k u', call (a.base + w.a) args'.length none u = .ok k u' →
          ∃ t, stepOnce call s = .ok (.returned k) t) ∧
        ∀ flow t, stepOnce call s = .ok flow t →
          ∃ inner results, Makes host inner ∧
            Machine.Produces host inner f (a.base + w.a) args' u results (.native g) ∧
            flow = .returned results.length ∧ Holds t.stack func results ∧
            t.frames = caller.frames := by
  have balanced := makes.balanced propagates
  obtain ⟨runs, effect⟩ := serves.running balanced
  have still : Still func before s := Quiet.tick.ok paid
  have here := runs.still still
  have listed := still.registered (effect.registered registered)
  have base : s.frame.base ≤ a.base + w.a := by
    rw [(Machine.activation_ok running).1]
    exact Nat.le_add_right _ _
  have moved : Running func caller.frames (advanced s) :=
    ⟨here.func_eq, here.func_le, here.window, here.callers⟩
  have moved_listed : (advanced s).Registered := listed.congr_head rfl rfl here.window
  have low : s.frame.func ≤ a.base + w.a := here.func_eq ▸ Nat.le_trans here.func_le base
  have waited : s.callers.frames ≠ [] := by
    rw [here.callers]
    exact List.cons_ne_nil _ _
  have steps := Machine.stepOnce_tail call running fetched tail count
  refine ⟨here.func_eq, here.callers, ?_, ?_⟩
  · intro p cells found
    refine ⟨fun fits => ?_, fun flow t ran => ?_⟩
    · obtain ⟨t, ran, -⟩ := @Call.tail_begins call (advanced s) _ _ _ _ _ _ _ held reaches found
        waited low fits
      exact ⟨t, (steps .next t).2 ran⟩
    · obtain ⟨next, replaces⟩ := Call.tail_replaces balanced moved moved_listed base held reaches
        found ((steps flow t).1 ran)
      exact ⟨next, replaces.callers, replaces.frame, replaces.activation, replaces.registers,
        replaces.ordinary, replaces.closed, replaces.below⟩
  · intro g cells found
    obtain ⟨u, hands, held', runs', functions, closed⟩ :=
      Call.tail_hands call moved moved_listed base held reaches
        (fun p cells script => by rw [show s.function? f = _ from script] at found; cases found)
    have known : u.function? f = some ⟨.native g, cells⟩ := by
      rw [State.function?, functions]
      exact found
    have results : ∀ k u', call (a.base + w.a) args'.length none u = .ok k u' →
        ∃ inner results t, Makes host inner ∧
          Machine.Produces host inner f (a.base + w.a) args' u results (.native g) ∧
          k = results.length ∧ stepOnce call s = .ok (.returned k) t ∧
          Holds t.stack func results ∧ t.frames = caller.frames := by
      intro k u' called
      obtain ⟨inner, results, made, produces, rfl, settled⟩ :=
        makes.produces propagates held' known called
      obtain ⟨t, returned, down, frames⟩ :=
        Call.handed_back balanced runs' (here.func_eq ▸ low) called settled
      exact ⟨inner, results, t, made, produces, rfl, (steps _ t).2 (hands.trans returned), down,
        frames⟩
    refine ⟨u, held', closed, fun k u' called => ?_, fun flow t ran => ?_⟩
    · obtain ⟨_, _, t, -, -, -, ran, -⟩ := results k u' called
      exact ⟨t, ran⟩
    · obtain ⟨k, u', called, -⟩ := ok_of_bind (hands.symm.trans ((steps flow t).1 ran))
      obtain ⟨inner, results, t', made, produces, rfl, ran', down, frames⟩ := results k u' called
      cases ran.symm.trans ran'
      exact ⟨inner, results, made, produces, rfl, down, frames⟩

-- A function of four parameters that captures the first and then calls the third in its place.
def Prototype.tailing : Prototype :=
  { source := "@t.lua", params := 4, stackSize := 5, lines := #[1, 1]
    code := #[.ofABx .closure 1 0, .ofABC .tailCall 2 2 0]
    protos := [{ source := "@t.lua", captures := #[.register 0] }] }

-- Its arguments are on the stack. The third is a table that is called through a function.
def State.tailing : State :=
  { State.bare {} with
    stack := #[.function ⟨0⟩, .int 7, .nil, .table ⟨2⟩, .int 5]
    tables := #[.empty, .empty, { Table.empty with metatable := some ⟨3⟩ },
      Table.empty.putText "__call" (.function ⟨1⟩)]
    functions := #[⟨.script .tailing, #[]⟩, ⟨.script .variadic, #[]⟩]
    budget := 5 }

theorem State.tailing_registered : tailing.Registered := State.bare_registered {}

def State.Replacing (a : Activation) (s : State) : Prop :=
  a.base = 1 ∧ a.proto.code[s.frame.pc]? = some (.ofABC .tailCall 2 2 0) ∧
    s.stack[3]? = some (.table ⟨2⟩) ∧ s.stack[4]? = some (.int 5) ∧
    s.handler (.table ⟨2⟩) "__call" = .function ⟨1⟩ ∧ s.frame.opened = [(1, ⟨0⟩)] ∧
    s.slotValue 1 = .int 7

instance (a : Activation) (s : State) : Decidable (s.Replacing a) :=
  inferInstanceAs (Decidable (_ ∧ _))

def Machine.proceed (call : Call) : Vm Unit := do
  tick
  match ← stepOnce call with
  | .next => return
  | .returned _ => throw .exhausted

theorem Machine.proceed_ok {call : Call} {s t : State} (ran : proceed call s = .ok () t) :
    ∃ paid, tick s = .ok () paid ∧ stepOnce call paid = .ok .next t := by
  obtain ⟨_, paid, ticked, ran⟩ := ok_of_bind ran
  obtain ⟨flow, after, stepped, ran⟩ := ok_of_bind ran
  cases flow with
  | returned n => cases ran
  | next =>
    cases ran
    exact ⟨paid, ticked, stepped⟩

-- The captured variable keeps its value, and the new call has the table as its first argument.
theorem tailCalls_replace_handler :
    ∃ before s t, Machine.Serves (Machine.callWithin Command.noHost 3) 0 .tailing before ∧
      tick before = .ok () s ∧ stepOnce (Machine.callWithin Command.noHost 3) s = .ok .next t ∧
      t.frame = Call.scriptFrame ⟨1⟩ .variadic 0 [.table ⟨2⟩, .int 5] ∧
      t.cell ⟨0⟩ = .closed (.int 7) ∧ t.callers.frames = State.tailing.frames := by
  let call := Machine.callWithin Command.noHost 3
  have outcome : (do
      Call.enterScript ⟨0⟩ .tailing 0 4
      Machine.proceed call
      tick
      activation : Vm Activation).returns State.tailing
        (fun a s => s.Replacing a) = true := by
    decide +kernel
  obtain ⟨a, s, ran, passed⟩ := of_returns outcome
  obtain ⟨base, fetched, callee, argument, handler, opened, captured⟩ := of_decide_eq_true passed
  obtain ⟨_, begun, entered, ran⟩ := ok_of_bind ran
  obtain ⟨_, before, proceeded, ran⟩ := ok_of_bind ran
  obtain ⟨paid, first, stepped⟩ := Machine.proceed_ok proceeded
  obtain ⟨_, u, second, running⟩ := ok_of_bind ran
  obtain rfl : s = u := Machine.activation_same running
  have serves : Machine.Serves call 0 .tailing before :=
    ⟨⟨0⟩, .tailing, 4, begun, entered, .single ⟨paid, first, stepped⟩⟩
  have enters := Enters.enterScript ⟨0⟩ .tailing 0 4 .tailing .tailing (.refl _)
    fun _ => by decide +kernel
  rw [after, entered] at enters
  have lasts : call.Lasts := (Makes.nested 3).lasts Command.noHost_propagates
  have later : Later .tailing s :=
    (enters.trans (Lasting.tick.ok first)).trans <|
      ((Machine.stepOnce_lasting lasts).ok stepped).trans (Lasting.tick.ok second)
  have found : s.function? ⟨1⟩ = some ⟨.script .variadic, #[]⟩ := later.functions _ _ rfl
  have held : Holds s.stack (a.base + (Word.ofABC .tailCall 2 2 0).a)
      [.table ⟨2⟩, .int 5] := by
    rw [base]
    exact .cons callee (.cons argument (.nil _ _))
  have reaches : Call.Reaches s (.table ⟨2⟩) [.int 5] ⟨1⟩ [.table ⟨2⟩, .int 5] := by
    refine .handler (fun g => by simp) ?_ ?_
    · simp [handler]
    · rw [handler, later.config]
      exact .function 1999 _ _
  have tail : (Word.ofABC .tailCall 2 2 0).opcode? = some .tailCall := by decide +kernel
  obtain ⟨here, frames, scripts, -⟩ := tailCalls_replace Command.noHost_propagates (.nested 3)
    State.tailing_registered serves second running fetched tail held rfl reaches
  obtain ⟨begins, replaced⟩ := scripts _ _ found
  obtain ⟨t, replaces⟩ := begins (by decide)
  obtain ⟨-, r⟩ := replaced _ t replaces
  refine ⟨before, s, t, serves, second, replaces, ?_, ?_, r.callers.trans frames⟩
  · rw [r.frame, here]
  · exact (r.closed (1, ⟨0⟩) (by simp [opened]) (by rw [base]; decide +kernel)).trans
      (congrArg Cell.closed captured)

end LuaMachine
