import LuaMachine.Proofs.Bounds.Calls

set_option autoImplicit false

namespace LuaMachine

open Vm

/-- What a host and its functions may do that name no slot. The code they load is tidy. -/
inductive Indexed (call : Call) : {α : Type} → Vm α → Prop where
  | asks {α : Type} {x : Vm α} : Asks call x → Indexed call x
  | windowed {α : Type} {x : Vm α} : Windowed call x → Indexed call x
  | bind {α β : Type} {x : Vm α} {f : α → Vm β} :
    Indexed call x → (∀ a, Indexed call (f a)) → Indexed call (x >>= f)
  | values : Indexed call Window.values
  | pop : Indexed call Window.pop
  | newTable (t : Table) : Indexed call (Vm.newTable t)
  | newNative (f : Native) (captured : List Value) : Indexed call (Vm.newNative f captured)
  | loadPrototype {p : Prototype} (tidy : p.Tidy) : Indexed call (Machine.loadPrototype p)

def Host.Careful (host : Host) : Prop := ∀ name call, Indexed call (host name call)

theorem Indexed.interface {call : Call} {α : Type} {x : Vm α} (indexed : Indexed call x) :
    Interface call x := by
  induction indexed with
  | asks asks => exact .asks asks
  | windowed windowed => exact windowed.interface
  | bind _ _ first rest => exact .bind first rest
  | values =>
    have readMany (slot n : Nat) : Interface call (Vm.readMany slot n) := by
      induction n generalizing slot with
      | zero => exact .asks (.inspect fun _ => [])
      | succ n ih =>
        exact .bind (.read slot) fun v => .bind (ih (slot + 1)) fun rest =>
          .asks (.inspect fun _ => v :: rest)
    exact .bind (.asks (.inspect State.frame)) fun f => readMany _ _
  | pop => exact .pop
  | newTable t => exact .newTable t
  | newNative f captured => exact .newNative f captured
  | loadPrototype tidy => exact .loadPrototype _

theorem Host.Careful.propagates {host : Host} (careful : host.Careful) : host.Propagates :=
  fun name call => (careful name call).interface

namespace Safe

variable {α : Type} {base room : Nat} {call : Call}

theorem value (i : Int) : Safe base room (Window.value i) := by
  refine bindFrame fun f more _ _ _ top_le => ?_
  split
  next slot found => exact read (Nat.lt_of_lt_of_le (Window.slotOf?_inside found).2 top_le)
  next => exact pure _

theorem typeName (i : Int) : Safe base room (Window.typeName i) := by
  refine bindFrame fun f more _ _ _ top_le => ?_
  split
  next slot found =>
    exact bind (read (Nat.lt_of_lt_of_le (Window.slotOf?_inside found).2 top_le)) fun _ => pure _
  next => exact pure _

theorem checkAny (i : Nat) : Safe base room (Window.checkAny i) := by
  refine bindFrame fun f more _ _ _ top_le => ?_
  split
  next slot found => exact read (Nat.lt_of_lt_of_le (Window.slotOf?_inside found).2 top_le)
  next => exact bind (bind (inspect id) fun _ => pure _) fun e => raise e

theorem values : Safe base room Window.values := by
  refine bindFrame fun f more start window _ top_le => readMany ?_
  unfold Frame.size
  omega

theorem push (v : Value) : Safe base room (Window.push v) := by
  refine bindFrame fun f more _ window _ _ => ?_
  refine withRoom (reserveWithHeadroom _) fun most _ enough => ?_
  exact bind (write enough v) fun _ => setTop (by omega) enough

theorem pop : Safe base room Window.pop := by
  refine bindFrame fun f more start window _ top_le => ?_
  split
  · exact pure _
  · exact bind (setTop (by omega) (by omega)) fun _ => take (by omega)

theorem resize (n : Nat) : Safe base room (Window.resize n) := by
  refine bindFrame fun f more start window _ top_le => ?_
  refine withRoom (reserve _) fun most _ enough => ?_
  exact bind (clear (by omega)) fun _ => setTop (by omega) enough

theorem insert (i : Int) : Safe base room (Window.insert i) := by
  refine bindFrame fun f more _ _ _ top_le => ?_
  split
  next => exact pure _
  next slot found =>
    have inside := Window.slotOf?_inside found
    exact bind (read (by omega)) fun v => bind (shiftUp (by omega)) fun _ => write (by omega) v

theorem pushNative (f : Native) (captured : Nat) :
    Safe base room (Window.pushNative f captured) := by
  refine bindFrame fun w more start window _ top_le => ?_
  have few : min captured w.size ≤ w.top - w.base := Nat.min_le_right _ _
  exact bind (readMany (by omega)) fun values => bind (setTop (by omega) (by omega)) fun _ =>
    bind (newNative f values) fun _ => push _

theorem loadPrototype {p : Prototype} (tidy : p.Tidy) :
    Safe base room (Machine.loadPrototype p) := by
  rw [Machine.loadPrototype_eq]
  have main (cells : Array CellId) : Safe base room (Vm.newFunction ⟨.script p, cells⟩) := by
    refine newFunction ?_
    rintro _ ⟨⟩
    exact tidy
  refine bind (bind (newCells _) fun cells => ?_) fun f => push _
  cases cells with
  | nil => exact main _
  | cons env rest => exact bind (inspect id) fun s => bind (writeCell env _) fun _ => main _

theorem discard (n : Nat) : Clean (fun s => s.Sound ∧ room ≤ s.stack.size) (Call.discard n)
    fun _ t => t.Sound ∧ room ≤ t.stack.size := by
  induction n with
  | zero => exact Clean.pure fun _ holds => holds
  | succ n ih =>
    refine Clean.bind (Clean.of_placed fun _ => closeFrom 0) fun _ => ?_
    refine Clean.of_run fun s holds => ?_
    have pops : Clean (Placed s.frame.base room) Vm.popFrame
        fun _ t => t.Sound ∧ room ≤ t.stack.size :=
      Clean.popFrame.weaken fun _ _ ended => ended.1
    exact (Clean.bind pops fun _ => ih).run ⟨holds.1, rfl, holds.2⟩

-- After an error the calls above are gone, and the handler finds the caller where it was.
theorem guarded {func : Nat} {x : Vm α} {handle : LuaError → Vm α} (low : base ≤ func)
    (inside : func ≤ room) (attempted : Safe base room x)
    (fails : ∀ s e t, x s = .error e t → Call.Failed func s t)
    (handled : ∀ e, Safe base room (handle e)) : Safe base room (Call.guarded func x handle) := by
  refine Clean.of_run fun s placed => ?_
  cases ran : x s with
  | ok a t =>
    rw [Call.guarded_ok ran]
    exact attempted.ok placed ran
  | error e t =>
    have stopped := attempted.error placed ran
    have failed := fails s e t ran
    unfold Call.guarded
    rw [ran]
    cases e with
    | raised e =>
      obtain ⟨extra, frames⟩ := failed.frames
      obtain ⟨u, unwound, left, -⟩ := Call.unwind_run frames
      have sound := (discard _).ok
        ⟨stopped.1, Nat.le_trans placed.room_le failed.toEffect.size⟩ unwound
      have rest : Safe base room (do Vm.setTop func; handle e) :=
        bind (setTop low inside) fun _ => handled e
      have steps : (do Call.unwind s.depth; Vm.setTop func; handle e : Vm α) t =
          (do Vm.setTop func; handle e : Vm α) u := bind_ok unwound _
      dsimp only
      rw [steps]
      refine rest.run ⟨sound.1, ?_, sound.2⟩
      rw [(State.frames_injective left).1]
      exact placed.base_eq
    | outOfRange _ | overflow | exhausted => exact stopped

section

variable (balanced : call.Balanced) (contained : call.Contained)
include balanced contained

theorem guardedCall {func nargs : Nat} (low : base ≤ func) (inside : func + 1 + nargs ≤ room)
    (wanted : Option Nat) {handle : LuaError → Vm Nat} (handled : ∀ e, Safe base room (handle e)) :
    Safe base room (Call.guarded func (call func nargs wanted) handle) := by
  refine guarded low (by omega) ?_ (fun s e t ran => balanced.error ran) handled
  exact (calls balanced contained low inside wanted).weaken fun _ _ holds => holds.1

theorem host (nargs : Nat) (wanted : Option Nat) :
    Safe base room (Call.host call nargs wanted) := by
  unfold Call.host Call.funcSlot
  rw [bind_assoc]
  refine bindFrame fun f more start window _ top_le => ?_
  split
  · rw [pure_bind]
    exact bind (guardedCall balanced contained (by omega) (by omega) wanted fun e => raise e)
      fun _ => pure _
  · exact Clean.of_run fun s placed => ⟨placed.toSound, trivial⟩

theorem attempt (nargs : Nat) (wanted : Option Nat) :
    Safe base room (Call.attempt call nargs wanted) := by
  refine bindFrame fun f more start window _ top_le => ?_
  split
  next =>
    refine guarded (by omega) (by omega) ?_ (fun s e t ran => ?_)
      fun e => bind (push _) fun _ => pure false
    · exact bindCall balanced contained (by omega) (by omega) wanted fun _ _ _ _ => pure true
    · rcases error_of_bind ran with failed | ⟨n, u, -, stopped⟩
      · exact balanced.error failed
      · cases stopped
  next => exact bind (push _) fun _ => pure false

theorem windowed {x : Vm α} (windowed : Windowed call x) : Safe base room x := by
  induction windowed generalizing room with
  | operates operates => exact .operates balanced contained operates
  | bind _ _ first rest => exact bind first fun a => rest a
  | value i => exact value i
  | typeName i => exact typeName i
  | checkAny i => exact checkAny i
  | push v => exact push v
  | resize n => exact resize n
  | insert i => exact insert i
  | pushNative f captured => exact pushNative f captured
  | print f => exact heap (fun _ => rfl) (fun _ => rfl) fun _ => rfl
  | host nargs wanted => exact host balanced contained nargs wanted
  | attempt nargs wanted => exact attempt balanced contained nargs wanted

theorem indexed {x : Vm α} (indexed : Indexed call x) : Safe base room x := by
  induction indexed with
  | asks asks => exact .asks balanced contained asks
  | windowed h => exact windowed balanced contained h
  | bind _ _ first rest => exact bind first rest
  | values => exact values
  | pop => exact pop
  | newTable t => exact newTable t
  | newNative f captured => exact newNative f captured
  | loadPrototype tidy => exact loadPrototype tidy

end

end Safe

namespace Base

variable {base room : Nat} {call : Call}

theorem raiseValue_clean {α : Type} {P : State → Prop} {Q : α → State → Prop} {message : Value}
    {level : Int64} (sound : ∀ s, P s → s.Sound)
    (due : ∀ s, P s → Oversteps s message level → s.Oversteps) :
    Clean P (raiseValue message level : Vm α) Q := by
  refine Clean.of_run fun s pre => ?_
  rw [raiseValue_run]
  rcases raisedValue?_cases s message level with ⟨oversteps, none⟩ | ⟨-, w, raised, -⟩
  · rw [none]
    exact ⟨sound s pre, due s pre oversteps⟩
  · rw [raised]
    exact ⟨sound s pre, trivial⟩

variable (balanced : call.Balanced) (contained : call.Contained)
include balanced contained

theorem error_safe : Safe base room error := by
  refine Clean.of_run fun s placed => ?_
  have inside : s.Inside := ⟨placed.frame.base_le, placed.frame.top_le⟩
  cases asked : Window.optInteger 2 1 s with
  | error e t =>
    rw [show error s = .error e t from bind_error asked _]
    exact (Safe.windowed balanced contained (.optInteger 2 1)).error placed asked
  | ok level t =>
    obtain ⟨rfl, asks⟩ := optInteger_ok inside asked
    rw [error_run inside asks]
    have raises : Clean (· = t) (raiseValue (t.argument 0) level : Vm Nat)
        fun _ => Placed base room := by
      refine raiseValue_clean ?_ ?_
      · rintro _ rfl
        exact placed.toSound
      · rintro _ rfl oversteps
        exact .inl ⟨level, asks, oversteps⟩
    exact raises.run rfl

theorem assert_safe : Safe base room assert := by
  have raises (message : Value) : Safe base room (raiseValue message 1 : Vm Nat) := by
    refine raiseValue_clean (fun s placed => placed.toSound) fun s _ oversteps => ?_
    have far := oversteps.2
    rw [Int64.toInt_one] at far
    exact .inr (by omega)
  refine .bind (.checkAny 1) fun condition =>
    .bind (.windowed balanced contained .size) fun n => ?_
  split
  · exact .pure n
  · split
    · exact .bind (.value 2) raises
    · exact raises _

theorem run_safe (f : BaseFunction) : Safe base room (run call f) := by
  by_cases isError : f = .error
  · subst isError
    exact error_safe balanced contained
  · by_cases isAssert : f = .assert
    · subst isAssert
      exact assert_safe balanced contained
    · exact .windowed balanced contained (run_windowed call isError isAssert)

end Base

end LuaMachine
