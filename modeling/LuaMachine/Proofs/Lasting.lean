import LuaMachine.Proofs.Reachable

set_option autoImplicit false

namespace LuaMachine

open Vm

/-- The outermost call is that of the host; all others run functions, and there are no more of them
than allowed. -/
def State.Bounded (s : State) : Prop :=
  ∃ calls : List FunctionId, s.frames.map Frame.function = calls.map some ++ [none] ∧
    calls.length ≤ s.config.maxCallDepth

theorem State.depth_of_functions {s : State} {calls : List FunctionId}
    (functions : s.frames.map Frame.function = calls.map some ++ [none]) :
    s.depth = calls.length + 1 := by
  have length := congrArg List.length functions
  simpa [depth_eq] using length

theorem State.Bounded.depth_le {s : State} (bounded : s.Bounded) :
    s.depth ≤ s.config.maxCallDepth + 1 := by
  obtain ⟨calls, functions, few⟩ := bounded
  rw [depth_of_functions functions]
  omega

structure Later (s t : State) : Prop where
  config : t.config = s.config
  functions : ∀ f c, s.function? f = some c → t.function? f = some c
  cells : s.cells.size ≤ t.cells.size
  bounded : s.Bounded → t.Bounded

namespace Later

variable {s t u : State}

theorem refl (s : State) : Later s s := ⟨rfl, fun _ _ found => found, Nat.le_refl _, id⟩

theorem trans (first : Later s t) (second : Later t u) : Later s u where
  config := second.config.trans first.config
  functions f c found := second.functions f c (first.functions f c found)
  cells := Nat.le_trans first.cells second.cells
  bounded := second.bounded ∘ first.bounded

theorem of_eq (config : t.config = s.config) (functions : t.functions = s.functions)
    (frames : t.frames.map Frame.function = s.frames.map Frame.function)
    (cells : s.cells.size ≤ t.cells.size := by exact Nat.le_refl _) : Later s t where
  config := config
  functions f c found := by
    unfold State.function? at found ⊢
    rw [functions]
    exact found
  cells := cells
  bounded := by
    rintro ⟨calls, same, few⟩
    exact ⟨calls, frames.trans same, config ▸ few⟩

end Later

def Lasting {α : Type} (x : Vm α) : Prop := ∀ s, Later s (x.after s)

namespace Lasting

variable {α β : Type}

theorem ok {x : Vm α} (h : Lasting x) {s t : State} {a : α} (ran : x s = .ok a t) :
    Later s t := by
  have later := h s
  rwa [after, ran] at later

theorem error {x : Vm α} (h : Lasting x) {s t : State} {e : Stop} (ran : x s = .error e t) :
    Later s t := by
  have later := h s
  rwa [after, ran] at later

theorem pure (a : α) : Lasting (pure a : Vm α) := .refl

theorem stop (e : Stop) : Lasting (throw e : Vm α) := .refl

theorem inspect (f : State → α) : Lasting (fun s => .ok (f s) s : Vm α) := .refl

theorem bind {x : Vm α} {f : α → Vm β} (first : Lasting x) (rest : ∀ a, Lasting (f a)) :
    Lasting (x >>= f) := by
  intro s
  cases ran : x s with
  | ok a t =>
    rw [after_bind_ok ran]
    exact (first.ok ran).trans (rest a t)
  | error e t =>
    rw [after_bind_error ran]
    exact first.error ran

theorem read (slot : Nat) : Lasting (Vm.read slot) := by
  intro s
  unfold after Vm.read
  cases s.stack[slot]? <;> exact .refl s

theorem write (slot : Nat) (v : Value) : Lasting (Vm.write slot v) := by
  intro s
  by_cases bound : slot < s.stack.size
  · rw [after, write_ok bound]
    exact .of_eq rfl rfl rfl
  · simp only [after, Vm.write, bound, dite_false]
    exact .refl s

theorem reserve (size : Nat) : Lasting (Vm.reserve size) :=
  fun s => .of_eq rfl rfl rfl (Nat.le_of_eq (congrArg _ (s.toStore.cells_reserve size).symm))

theorem reserveWithHeadroom (size : Nat) : Lasting (Vm.reserveWithHeadroom size) :=
  bind (inspect id) fun s => reserve (size + s.config.headroom)

theorem readMany (slot n : Nat) : Lasting (Vm.readMany slot n) := by
  induction n generalizing slot with
  | zero => exact pure []
  | succ n ih => exact bind (read slot) fun v => bind (ih (slot + 1)) fun rest => pure (v :: rest)

theorem writeMany (slot : Nat) (values : List Value) : Lasting (Vm.writeMany slot values) := by
  induction values generalizing slot with
  | nil => exact pure ()
  | cons v rest ih => exact bind (write slot v) fun _ => ih (slot + 1)

theorem clear (slot n : Nat) : Lasting (Vm.clear slot n) := by
  induction n generalizing slot with
  | zero => exact pure ()
  | succ n ih => exact bind (write slot .nil) fun _ => ih (slot + 1)

theorem take (slot : Nat) : Lasting (Vm.take slot) :=
  bind (read slot) fun v => bind (write slot .nil) fun _ => pure v

theorem takeMany (slot n : Nat) : Lasting (Vm.takeMany slot n) := by
  induction n generalizing slot with
  | zero => exact pure []
  | succ n ih => exact bind (take slot) fun v => bind (ih (slot + 1)) fun rest => pure (v :: rest)

theorem moveDown (source dest n : Nat) : Lasting (Vm.moveDown source dest n) := by
  induction n generalizing source dest with
  | zero => exact pure ()
  | succ n ih => exact bind (take source) fun v => bind (write dest v) fun _ => ih _ _

theorem shiftUp (slot n : Nat) : Lasting (Vm.shiftUp slot n) := by
  induction n with
  | zero => exact pure ()
  | succ n ih => exact bind (read (slot + n)) fun v => bind (write _ v) fun _ => ih

theorem newTable (t : Table) : Lasting (Vm.newTable t) := fun _ => .of_eq rfl rfl rfl

theorem modifyTable (t : TableId) (f : Table → Table) : Lasting (Vm.modifyTable t f) :=
  fun _ => .of_eq rfl rfl rfl

theorem newFunction (c : Closure) : Lasting (Vm.newFunction c) := by
  refine fun s => ⟨rfl, fun f d found => ?_, Nat.le_refl _, id⟩
  change (s.functions.push c)[f.index]? = some d
  obtain ⟨bound, -⟩ := Array.getElem?_eq_some_iff.1 found
  rw [Array.getElem?_push_lt bound]
  exact (Array.getElem?_eq_getElem bound).symm.trans found

theorem newCell (c : Cell) : Lasting (Vm.newCell c) := by
  refine fun s => .of_eq rfl rfl rfl ?_
  change s.cells.size ≤ (s.cells.push c).size
  exact Array.size_push c ▸ Nat.le_succ _

theorem newCells (values : List Value) : Lasting (Vm.newCells values) := by
  induction values with
  | nil => exact pure []
  | cons v rest ih => exact bind (newCell _) fun id => bind ih fun ids => pure (id :: ids)

theorem newNative (f : Native) (captured : List Value) : Lasting (Vm.newNative f captured) :=
  bind (newCells captured) fun _ => newFunction _

theorem tick : Lasting Vm.tick := by
  intro s
  unfold after Vm.tick
  split
  next t ran =>
    split at ran <;> cases ran
    exact .of_eq rfl rfl rfl
  next t ran =>
    split at ran <;> cases ran
    exact .refl s

theorem writeCell (id : CellId) (v : Value) : Lasting (Vm.writeCell id v) := by
  refine bind (inspect fun s => s) fun s => ?_
  split
  · exact bind (write _ v) fun _ _ => .of_eq rfl rfl rfl
  · exact fun s => .of_eq rfl rfl rfl (Nat.le_of_eq (s.toStore.size_setCell id v).symm)

theorem modifyFrame {g : Frame → Frame} (same : ∀ f, (g f).function = f.function) :
    Lasting (Vm.modifyFrame g) := by
  refine fun s => .of_eq rfl rfl ?_
  change (g s.frame).function :: _ = s.frame.function :: _
  rw [same]
  rfl

theorem setTop (top : Nat) : Lasting (Vm.setTop top) := modifyFrame fun _ => rfl

theorem captureSlot (slot : Nat) : Lasting (Vm.captureSlot slot) := by
  refine bind (inspect fun s => s) fun s => ?_
  split
  · exact pure _
  · exact bind (newCell _) fun _ => bind (modifyFrame fun _ => rfl) fun _ => pure _

theorem closeFrom (low : Nat) : Lasting (Vm.closeFrom low) :=
  fun s => .of_eq rfl rfl rfl (Nat.le_of_eq (s.toStore.size_closeCells _).symm)

end Lasting

theorem Callers.frames_of_pop {c rest : Callers} {f : Frame} (popped : c.pop? = some (f, rest)) :
    c.frames = f :: rest.frames := by
  obtain ⟨frames, count, exact⟩ := c
  cases frames with
  | nil => simp [pop?] at popped
  | cons g others =>
    simp only [pop?, Option.some.injEq] at popped
    cases popped
    rfl

namespace Vm

variable {s t : State} {f : Frame}

theorem popFrame_cases (s : State) :
    (∃ e, popFrame s = .error e s) ∨
    ∃ caller rest, s.callers.frames = caller :: rest.frames ∧
      popFrame s = .ok s.frame { s with frame := caller, callers := rest } := by
  rw [popFrame, get_bind]
  cases popped : s.callers.pop? with
  | none => exact .inl ⟨_, rfl⟩
  | some top => exact .inr ⟨top.1, top.2, Callers.frames_of_pop popped, rfl⟩

theorem popFrame_ok (popped : popFrame s = .ok f t) :
    ∃ caller rest, s.callers.frames = caller :: rest.frames ∧ f = s.frame ∧
      t = { s with frame := caller, callers := rest } := by
  rcases popFrame_cases s with ⟨e, failed⟩ | ⟨caller, rest, frames, ran⟩
  · rw [failed] at popped
    cases popped
  · rw [ran] at popped
    cases popped
    exact ⟨caller, rest, frames, rfl, rfl⟩

-- The call that ends is not that of the host, because another waits for it.
theorem popFrame_bounded (popped : popFrame s = .ok f t) (bounded : s.Bounded) :
    ∃ calls : List FunctionId, t.frames.map Frame.function = calls.map some ++ [none] ∧
      calls.length + 1 ≤ t.config.maxCallDepth := by
  obtain ⟨calls, functions, few⟩ := bounded
  obtain ⟨caller, rest, frames, rfl, rfl⟩ := popFrame_ok popped
  rw [State.frames, frames, List.map_cons] at functions
  cases calls with
  | nil => cases (List.cons.inj functions).2
  | cons g calls => exact ⟨calls, (List.cons.inj functions).2, few⟩

end Vm

theorem Lasting.popFrame : Lasting Vm.popFrame := by
  intro s
  rcases popFrame_cases s with ⟨e, failed⟩ | ⟨caller, rest, -, popped⟩
  · rw [after, failed]
    exact .refl s
  · rw [after, popped]
    refine ⟨rfl, fun _ _ found => found, Nat.le_refl _, fun bounded => ?_⟩
    obtain ⟨calls, functions, few⟩ := popFrame_bounded popped bounded
    exact ⟨calls, functions, Nat.le_of_succ_le few⟩

-- Actions that begin a call, where the limit has not been reached since `r`.
def Enters {α : Type} (x : Vm α) : Prop :=
  ∀ r s, Later r s → (r.Bounded → s.depth ≤ s.config.maxCallDepth) → Later r (x.after s)

namespace Enters

variable {α β : Type}

theorem pushFrame {f : Frame} {g : FunctionId} (function : f.function = some g) :
    Enters (Vm.pushFrame f) := by
  refine fun r s later shallow => ⟨later.config, later.functions, later.cells, fun bounded => ?_⟩
  have few := shallow bounded
  obtain ⟨calls, functions, -⟩ := later.bounded bounded
  rw [State.depth_of_functions functions] at few
  refine ⟨g :: calls, ?_, few⟩
  change f.function :: s.frames.map Frame.function = _
  rw [function, functions]
  rfl

theorem after {x : Vm α} {f : α → Vm β} (lasting : Lasting x) (quiet : Quiet 0 x)
    (rest : ∀ a, Enters (f a)) : Enters (x >>= f) := by
  intro r s later shallow
  cases ran : x s with
  | error e t =>
    rw [after_bind_error ran]
    exact later.trans (lasting.error ran)
  | ok a t =>
    have still := lasting.ok ran
    rw [after_bind_ok ran]
    refine rest a r t (later.trans still) fun bounded => ?_
    rw [State.depth_eq, (quiet.ok ran).frames, still.config, ← State.depth_eq]
    exact shallow bounded

theorem before {x : Vm α} {f : α → Vm β} (enters : Enters x) (rest : ∀ a, Lasting (f a)) :
    Enters (x >>= f) := by
  intro r s later shallow
  have entered := enters r s later shallow
  unfold Vm.after at entered
  cases ran : x s with
  | error e t =>
    rw [ran] at entered
    rw [after_bind_error ran]
    exact entered
  | ok a t =>
    rw [ran] at entered
    rw [after_bind_ok ran]
    exact entered.trans (rest a t)

theorem enterScript (f : FunctionId) (p : Prototype) (func nargs : Nat) :
    Enters (Call.enterScript f p func nargs) := by
  unfold Call.enterScript
  dsimp only
  refine iteInduction (fun _ => after (.takeMany _ _) (.takeMany (Nat.zero_le _) _) fun _ => ?_)
    fun _ => after (.pure _) (.pure _) fun _ => ?_
  all_goals
    exact after (.reserveWithHeadroom _) (.reserveWithHeadroom _) fun _ =>
      after (.clear _ _) (.clear (Nat.zero_le _) _) fun _ => pushFrame rfl

end Enters

def Call.Lasts (call : Call) : Prop := ∀ func nargs wanted, Lasting (call func nargs wanted)

namespace Lasting

variable {α : Type} {call : Call}

theorem resolve (func nargs : Nat) : Lasting (Call.resolve func nargs) := by
  have within (links nargs : Nat) : Lasting (Call.resolveWithin func links nargs) := by
    induction links generalizing nargs with
    | zero => exact stop _
    | succ links ih =>
      refine bind (read func) fun callee => ?_
      split
      · exact pure _
      · refine bind (inspect _) fun h => ?_
        split
        · exact stop _
        · exact bind (reserveWithHeadroom _) fun _ => bind (shiftUp _ _) fun _ =>
            bind (write func h) fun _ => ih _
  exact bind (inspect id) fun s => within _ nargs

theorem adjustResults (func n : Nat) (wanted : Option Nat) :
    Lasting (Call.adjustResults func n wanted) :=
  bind (reserveWithHeadroom _) fun _ => bind (clear _ _) fun _ => bind (setTop _) fun _ => pure _

theorem returnFrom (first n : Nat) : Lasting (Call.returnFrom first n) :=
  bind (closeFrom 0) fun _ => bind popFrame fun _ => bind (moveDown _ _ _) fun _ => pure n

theorem returnFromNative (func returned : Nat) (wanted : Option Nat) :
    Lasting (Call.returnFromNative func returned wanted) :=
  bind popFrame fun _ => bind (moveDown _ _ _) fun _ => adjustResults _ _ _

theorem unwind (depth : Nat) : Lasting (Call.unwind depth) := by
  have discard (n : Nat) : Lasting (Call.discard n) := by
    induction n with
    | zero => exact pure ()
    | succ n ih => exact bind (closeFrom 0) fun _ => bind popFrame fun _ => ih
  exact bind (inspect id) fun _ => discard _

theorem guarded {func : Nat} {x : Vm α} {handle : LuaError → Vm α} (first : Lasting x)
    (handled : ∀ e, Lasting (handle e)) : Lasting (Call.guarded func x handle) := by
  intro s
  unfold after Call.guarded
  cases ran : x s with
  | ok a t => exact first.ok ran
  | error stop t =>
    cases stop with
    | raised e =>
      have recovers : Lasting (do Call.unwind s.depth; Vm.setTop func; handle e) :=
        bind (unwind s.depth) fun _ => bind (setTop func) fun _ => handled e
      exact (first.error ran).trans (recovers t)
    | outOfRange _ | overflow | exhausted => exact first.error ran

theorem push (v : Value) : Lasting (Window.push v) :=
  bind (inspect State.frame) fun _ => bind (reserveWithHeadroom _) fun _ =>
    bind (write _ v) fun _ => setTop _

theorem pop : Lasting Window.pop := by
  refine bind (inspect State.frame) fun f => ?_
  split
  · exact pure _
  · exact bind (setTop _) fun _ => take _

theorem resize (n : Nat) : Lasting (Window.resize n) :=
  bind (inspect State.frame) fun _ => bind (reserve _) fun _ => bind (clear _ _) fun _ => setTop _

theorem insert (i : Int) : Lasting (Window.insert i) := by
  refine bind (inspect State.frame) fun f => ?_
  split
  · exact pure ()
  · exact bind (read _) fun v => bind (shiftUp _ _) fun _ => write _ v

theorem pushNative (f : Native) (captured : Nat) : Lasting (Window.pushNative f captured) :=
  bind (inspect State.frame) fun _ => bind (readMany _ _) fun values =>
    bind (setTop _) fun _ => bind (newNative f values) fun _ => push _

theorem loadPrototype (p : Prototype) : Lasting (Machine.loadPrototype p) := by
  have made : Lasting (Machine.makeMain p) := by
    refine bind (newCells _) fun cells => ?_
    cases cells with
    | nil => exact newFunction _
    | cons env rest =>
      exact bind (inspect id) fun s => bind (writeCell env _) fun _ => newFunction _
  rw [Machine.loadPrototype_eq]
  exact bind made fun _ => push _

theorem host (lasts : call.Lasts) (nargs : Nat) (wanted : Option Nat) :
    Lasting (Call.host call nargs wanted) := by
  have funcSlot : Lasting (Call.funcSlot nargs) := by
    refine bind (inspect State.frame) fun f => ?_
    split
    · exact pure _
    · exact stop _
  exact bind funcSlot fun func => bind (guarded (lasts func nargs wanted) fun _ => stop _)
    fun _ => pure _

theorem attempt (lasts : call.Lasts) (nargs : Nat) (wanted : Option Nat) :
    Lasting (Call.attempt call nargs wanted) := by
  refine bind (inspect State.frame) fun f => ?_
  split
  · exact guarded (bind (lasts _ _ _) fun _ => pure _) fun _ => bind (push _) fun _ => pure _
  · exact bind (push _) fun _ => pure _

end Lasting

section

variable {α : Type} {call : Call} {x : Vm α}

theorem Asks.lasting (lasts : call.Lasts) (asks : Asks call x) : Lasting x := by
  induction asks with
  | bind _ _ first rest => exact .bind first rest
  | inspect f => exact .inspect f
  | raise e => exact .stop _
  | modifyTable t f => exact .modifyTable t f
  | callHandler h args =>
    exact .bind (.inspect id) fun s => .bind (.reserveWithHeadroom _) fun _ =>
      .bind (.writeMany _ _) fun _ => .bind (lasts _ _ _) fun _ => .bind (.take _) fun _ =>
        .bind (.setTop _) fun _ => .pure _

theorem Interface.lasting (lasts : call.Lasts) (interface : Interface call x) : Lasting x := by
  induction interface with
  | asks asks => exact asks.lasting lasts
  | bind _ _ first rest => exact .bind first rest
  | read slot => exact .read slot
  | push v => exact .push v
  | pop => exact .pop
  | resize n => exact .resize n
  | insert i => exact .insert i
  | pushNative f captured => exact .pushNative f captured
  | newTable t => exact .newTable t
  | newNative f captured => exact .newNative f captured
  | print f => exact fun _ => .of_eq rfl rfl rfl
  | loadPrototype p => exact .loadPrototype p
  | host nargs wanted => exact .host lasts nargs wanted
  | attempt nargs wanted => exact .attempt lasts nargs wanted
  | overflow => exact .stop _

theorem Activation.Works.lasting {a : Activation} (lasts : call.Lasts) (works : a.Works call x) :
    Lasting x := by
  induction works with
  | operates operates => exact operates.asks.lasting lasts
  | bind _ _ first rest => exact .bind first rest
  | read slot => exact .read slot
  | write _ v => exact .write _ v
  | reserveWithHeadroom size => exact .reserveWithHeadroom size
  | newTable t => exact .newTable t
  | newFunction c => exact .newFunction c
  | writeCell id v => exact .writeCell id v
  | captureSlot _ => exact .captureSlot _
  | closeFrom low => exact .closeFrom low
  | setTop _ => exact .setTop _
  | movePc g => exact .modifyFrame fun _ => rfl
  | call _ nargs wanted => exact lasts _ nargs wanted
  | outOfRange slot => exact .stop _

-- A tail call takes its own call away before it begins the other.
theorem Lasting.replacement (slot n : Nat) (f : FunctionId) (p : Prototype) :
    Lasting (do
      let caller ← Vm.popFrame
      Vm.moveDown slot caller.func (n + 1)
      Call.enterScript f p caller.func n
      return Call.Flow.next) := by
  intro s
  rcases popFrame_cases s with ⟨e, failed⟩ | ⟨caller, rest, -, popped⟩
  · rw [after_bind_error failed]
    exact .refl s
  · have enters : Enters (do
        Vm.moveDown slot s.frame.func (n + 1)
        Call.enterScript f p s.frame.func n
        return Call.Flow.next) :=
      .after (.moveDown _ _ _) (.moveDown (Nat.zero_le _) (Nat.zero_le _) _) fun _ =>
        .before (.enterScript _ _ _ _) fun _ => .pure _
    rw [after_bind_ok popped]
    refine enters s _ (popFrame.ok popped) fun bounded => ?_
    obtain ⟨calls, functions, few⟩ := popFrame_bounded popped bounded
    rw [State.depth_of_functions functions]
    exact few

theorem Lasting.tail (lasts : call.Lasts) (slot nargs : Nat) :
    Lasting (Call.tail call slot nargs) := by
  refine bind (resolve slot nargs) fun (f, n) => bind (inspect State.frame) fun _ =>
    bind (closeFrom _) fun _ => bind (inspect id) fun s => ?_
  split
  · exact replacement slot n f _
  · exact bind (lasts _ _ _) fun _ => bind (returnFrom _ _) fun _ => pure _

end

namespace Machine

variable {host : Host} {call : Call}

theorem step_lasting (lasts : call.Lasts) (a : Activation) (w : Word) :
    Lasting (a.step call w) := by
  intro s
  rcases a.step_cases call w s with ⟨n, steps⟩ | ⟨n, steps⟩ | ⟨x, works, steps⟩
  · rw [after, steps, ← after]
    exact Lasting.tail lasts _ n s
  · rw [after, steps, ← after]
    exact Lasting.bind (.returnFrom _ n) (fun _ => .pure _) s
  · rw [after, steps, ← after]
    exact Lasting.bind (works.lasting lasts) (fun _ => .pure _) s

theorem located_lasting {α : Type} {p : Routine} {pc : Nat} {x : Vm α} (lasting : Lasting x) :
    Lasting (located p pc x) := by
  intro s
  have later := lasting s
  unfold after at later
  unfold after located
  cases ran : x s with
  | ok a t =>
    rw [ran] at later
    exact later
  | error e t =>
    rw [ran] at later
    cases e <;> exact later

theorem activation_lasting : Lasting activation := by
  intro s
  rcases activation_run s with ⟨f, p, cells, function, found⟩ | ⟨e, failed⟩
  · rw [after, activation_script function found]
    exact .refl s
  · rw [after, failed]
    exact .refl s

theorem stepOnce_lasting (lasts : call.Lasts) : Lasting (stepOnce call) := by
  refine .bind activation_lasting fun a => .bind (.inspect State.frame) fun f => ?_
  dsimp only
  split
  · exact .bind (.returnFrom _ _) fun _ => .pure _
  · exact .bind (.modifyFrame fun _ => rfl) fun _ => located_lasting (step_lasting lasts a _)

theorem loop_lasting (lasts : call.Lasts) (fuel : Nat) : Lasting (loop call fuel) := by
  induction fuel with
  | zero => exact .stop _
  | succ fuel ih =>
    refine .bind .tick fun _ => .bind (stepOnce_lasting lasts) fun flow => ?_
    cases flow with
    | next => exact ih
    | returned n => exact .pure n

theorem accept_lasting (func nargs : Nat) : Lasting (accept func nargs) := by
  have found : Lasting (callee func nargs) := by
    refine .bind (.resolve func nargs) fun target => .bind (.inspect id) fun s => ?_
    split
    · exact .stop _
    · exact .pure _
  refine .bind .tick fun _ => .bind (.inspect id) fun s => ?_
  dsimp only
  split
  · exact .bind (.stop _) fun _ => found
  · exact found

-- Who is let in was not nested too deep, and is a function.
theorem accept_ok {func nargs n : Nat} {s t : State} {closure : Closure} {f : FunctionId}
    (accepted : accept func nargs s = .ok (closure, f, n) t) :
    t.depth ≤ t.config.maxCallDepth ∧ t.function? f = some closure := by
  obtain ⟨-, shallow, resolved, found⟩ := accept_resolves accepted
  refine ⟨?_, found⟩
  rw [State.depth_eq, ((Call.resolve_quiet func nargs).ok resolved).frames,
    ((Lasting.resolve func nargs).ok resolved).config]
  exact State.depth_eq s ▸ shallow

theorem native_lasting (propagates : host.Propagates) (lasts : call.Lasts) (n : Native) :
    Lasting (native host call n) := by
  cases n with
  | base f => exact (Base.run_interface call f).lasting lasts
  | host name => exact (propagates name call).lasting lasts

theorem enters_entered (f : FunctionId) (func nargs : Nat) :
    Enters (do
      reserveWithHeadroom (func + 1 + nargs)
      pushFrame (.enter f func (func + 1 + nargs))) :=
  .after (.reserveWithHeadroom _) (.reserveWithHeadroom _) fun _ => .pushFrame rfl

theorem enter_enters (propagates : host.Propagates) (lasts : call.Lasts) (fuel func : Nat)
    (wanted : Option Nat) (entry : Closure × FunctionId × Nat) :
    Enters (enter host call fuel func wanted entry) := by
  obtain ⟨⟨body, cells⟩, f, nargs⟩ := entry
  cases body with
  | script p =>
    exact .before (.enterScript f p func nargs) fun _ =>
      .bind (loop_lasting lasts fuel) fun _ => .adjustResults _ _ _
  | native n =>
    exact .after (.reserveWithHeadroom _) (.reserveWithHeadroom _) fun _ =>
      .before (.pushFrame rfl) fun _ => .bind (native_lasting propagates lasts n) fun _ =>
        .returnFromNative _ _ _

theorem invoke_lasts (propagates : host.Propagates) (lasts : call.Lasts) (fuel : Nat) :
    (invoke host call fuel).Lasts := by
  intro func nargs wanted s
  rw [invoke_eq]
  cases accepted : accept func nargs s with
  | error e t =>
    rw [after_bind_error accepted]
    exact (accept_lasting func nargs).error accepted
  | ok entry t =>
    rw [after_bind_ok accepted]
    exact enter_enters propagates lasts fuel func wanted entry s t
      ((accept_lasting func nargs).ok accepted) fun _ => (accept_ok accepted).1

theorem callWithin_lasts (propagates : host.Propagates) (fuel : Nat) :
    (callWithin host fuel).Lasts := by
  induction fuel with
  | zero => exact fun _ _ _ => .stop _
  | succ fuel ih => exact invoke_lasts propagates ih fuel

theorem Makes.lasts (makes : Makes host call) (propagates : host.Propagates) : call.Lasts := by
  cases makes with
  | outer =>
    intro func nargs wanted s
    rw [after, call_eq, ← after]
    have lasts := callWithin_lasts propagates s.budget
    exact invoke_lasts propagates lasts s.budget func nargs wanted s
  | nested fuel => exact callWithin_lasts propagates fuel

end Machine

end LuaMachine
