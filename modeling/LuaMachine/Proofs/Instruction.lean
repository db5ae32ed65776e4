import LuaMachine.Proofs.Interface

set_option autoImplicit false

namespace LuaMachine

open LuaMachine.Frame (SameCall)

theorem ForLoop.start_grounded {init limit step : Value} {f : Fault}
    (failed : start init limit step = .error f) : f ≠ .callStackUnderflow := by
  have floats (failed : floatStart init limit step = .error f) : f ≠ .callStackUnderflow := by
    unfold floatStart at failed
    split at failed <;> cases failed
    all_goals nofun
  unfold start at failed
  split at failed
  · split at failed
    · exact floats failed
    · split at failed <;> cases failed
  · exact floats failed

namespace Activation

/-- What instructions do that neither replace nor end their call. -/
inductive Works (a : Activation) (call : Call) : {α : Type} → Vm α → Prop where
  | operates {α : Type} {x : Vm α} : Operates call x → Works a call x
  | bind {α β : Type} {x : Vm α} {f : α → Vm β} :
    Works a call x → (∀ b, Works a call (f b)) → Works a call (x >>= f)
  | read (slot : Nat) : Works a call (Vm.read slot)
  | write {slot : Nat} (above : a.base ≤ slot) (v : Value) : Works a call (Vm.write slot v)
  | reserveWithHeadroom (size : Nat) : Works a call (Vm.reserveWithHeadroom size)
  | newTable (t : Table) : Works a call (Vm.newTable t)
  | newFunction (c : Closure) : Works a call (Vm.newFunction c)
  | writeCell (id : CellId) (v : Value) : Works a call (Vm.writeCell id v)
  | captureSlot {slot : Nat} (above : a.base ≤ slot) : Works a call (Vm.captureSlot slot)
  | closeFrom (low : Nat) : Works a call (Vm.closeFrom low)
  | setTop {top : Nat} (above : a.base ≤ top) : Works a call (Vm.setTop top)
  | movePc (g : Frame → Nat) : Works a call (Vm.modifyFrame fun f => { f with pc := g f })
  | call {func : Nat} (above : a.base ≤ func) (nargs : Nat) (wanted : Option Nat) :
    Works a call (call func nargs wanted)
  | outOfRange {α : Type} (slot : Nat) : Works a call (throw (.outOfRange slot) : Vm α)

inductive Computes (a : Activation) (call : Call) : {α : Type} → Vm α → Prop where
  | operates {α : Type} {x : Vm α} : Operates call x → Computes a call x
  | bind {α β : Type} {x : Vm α} {f : α → Vm β} :
    Computes a call x → (∀ b, Computes a call (f b)) → Computes a call (x >>= f)
  | read (slot : Nat) : Computes a call (Vm.read slot)
  | write {slot : Nat} (above : a.base ≤ slot) (v : Value) : Computes a call (Vm.write slot v)
  | reserveWithHeadroom (size : Nat) : Computes a call (Vm.reserveWithHeadroom size)
  | newTable (t : Table) : Computes a call (Vm.newTable t)
  | newFunction (c : Closure) : Computes a call (Vm.newFunction c)
  | writeCell (id : CellId) (v : Value) : Computes a call (Vm.writeCell id v)
  | setTop {top : Nat} (above : a.base ≤ top) : Computes a call (Vm.setTop top)
  | movePc (g : Frame → Nat) : Computes a call (Vm.modifyFrame fun f => { f with pc := g f })
  | call {func : Nat} (above : a.base ≤ func) (nargs : Nat) (wanted : Option Nat) :
    Computes a call (call func nargs wanted)
  | outOfRange {α : Type} (slot : Nat) : Computes a call (throw (.outOfRange slot) : Vm α)

variable {α : Type} {call : Call} {a : Activation}

theorem Computes.works {x : Vm α} (computes : a.Computes call x) : a.Works call x := by
  induction computes with
  | operates operates => exact .operates operates
  | bind _ _ first rest => exact .bind first rest
  | read slot => exact .read slot
  | write above v => exact .write above v
  | reserveWithHeadroom size => exact .reserveWithHeadroom size
  | newTable t => exact .newTable t
  | newFunction c => exact .newFunction c
  | writeCell id v => exact .writeCell id v
  | setTop above => exact .setTop above
  | movePc g => exact .movePc g
  | call above nargs wanted => exact .call above nargs wanted
  | outOfRange slot => exact .outOfRange slot

abbrev Within (a : Activation) (x : Vm α) : Prop := Acts SameCall a.base x

theorem call_within (balanced : call.Balanced) {func : Nat} (above : a.base ≤ func) (nargs : Nat)
    (wanted : Option Nat) : a.Within (call func nargs wanted) := by
  intro s start window
  cases ran : call func nargs wanted s with
  | ok n t => exact start ▸ ((balanced.ok ran).stays (start ▸ above)).weaken fun _ _ h => h.sameCall
  | error e t => exact (balanced.error ran).breaks above

theorem Works.within (balanced : call.Balanced) {x : Vm α} (works : a.Works call x) :
    a.Within x := by
  induction works with
  | operates operates => exact .of_eq (operates.asks.acts balanced a.base)
  | bind _ _ first rest => exact .bind first rest
  | read slot => exact .of_quiet (.read slot)
  | write above v => exact .of_quiet (.write above v)
  | reserveWithHeadroom size => exact .of_quiet (.reserveWithHeadroom size)
  | newTable t => exact .of_quiet (.newTable t)
  | newFunction c => exact .of_quiet (.newFunction c)
  | writeCell id v => exact .of_quiet (.writeCell id v)
  | captureSlot above => exact .captureSlot above
  | closeFrom low => exact .closeFrom low
  | setTop above => exact (Acts.setTop above).sameCall
  | movePc g => exact .movePc g
  | call above nargs wanted => exact call_within balanced above nargs wanted
  | outOfRange slot => exact .of_quiet (.stop _)

namespace Computes

theorem pure (b : α) : a.Computes call (pure b : Vm α) := operates (.pure b)

theorem inspect (f : State → α) : a.Computes call (fun s => .ok (f s) s : Vm α) :=
  operates (.inspect f)

theorem fault (f : Fault) (other : f ≠ .callStackUnderflow := by nofun) :
    a.Computes call (Vm.fault f : Vm α) := operates (.fault f other)

theorem frame : a.Computes call Vm.frame := inspect fun s => s.frame

theorem readMany (slot n : Nat) : a.Computes call (Vm.readMany slot n) := by
  induction n generalizing slot with
  | zero => exact pure []
  | succ n ih => exact bind (read slot) fun v => bind (ih (slot + 1)) fun rest => pure (v :: rest)

theorem writeMany {slot : Nat} (above : a.base ≤ slot) (values : List Value) :
    a.Computes call (Vm.writeMany slot values) := by
  induction values generalizing slot with
  | nil => exact pure ()
  | cons v rest ih => exact bind (write above v) fun _ => ih (by omega)

theorem clear {slot : Nat} (above : a.base ≤ slot) (n : Nat) :
    a.Computes call (Vm.clear slot n) := by
  induction n generalizing slot with
  | zero => exact pure ()
  | succ n ih => exact bind (write above .nil) fun _ => ih (by omega)

theorem constant (k : Nat) : a.Computes call (a.constant k) := by
  unfold Activation.constant
  split
  · exact pure _
  · exact fault _

theorem rk (x : Nat) : a.Computes call (a.rk x) := by
  unfold Activation.rk
  split
  · exact constant _
  · exact read _

theorem cell (i : Nat) : a.Computes call (a.cell i) := by
  unfold Activation.cell
  split
  · exact pure _
  · exact fault _

theorem upvalue (i : Nat) : a.Computes call (a.upvalue i) := bind (cell i) fun _ => inspect _

theorem resetTop : a.Computes call a.resetTop := setTop (Nat.le_add_right _ _)

theorem skip : a.Computes call skip := movePc fun f => f.pc + 1

theorem skipIf (b : Bool) : a.Computes call (skipIf b) := by
  unfold Activation.skipIf
  split
  · exact skip
  · exact pure ()

theorem jump (offset : Int) : a.Computes call (jump offset) := by
  refine bind frame fun f => ?_
  dsimp only
  split
  · exact fault _
  · exact movePc fun _ => _

theorem extraArg : a.Computes call a.extraArg := by
  refine bind frame fun f => ?_
  dsimp only
  split
  · split
    · exact bind (movePc fun _ => _) fun _ => pure _
    · exact fault _
  · exact fault _

theorem argCount (ra b : Nat) : a.Computes call (argCount ra b) := by
  unfold Activation.argCount
  split
  · exact inspect _
  · exact pure _

theorem callRegister {ra : Nat} (above : a.base ≤ ra) (b c : Nat) :
    a.Computes call (a.callRegister call ra b c) := by
  refine bind (argCount ra b) fun nargs => ?_
  split
  · exact bind (.call above _ _) fun _ => pure ()
  · exact bind (.call above _ _) fun _ => resetTop

theorem callIterator {ra : Nat} (above : a.base ≤ ra) (c : Nat) :
    a.Computes call (a.callIterator call ra c) := by
  have after : a.base ≤ ra + 3 := by omega
  exact bind (reserveWithHeadroom _) fun _ => bind (readMany _ _) fun _ =>
    bind (writeMany after _) fun _ => bind (.call after 2 _) fun _ => resetTop

theorem prepareLoop {ra : Nat} (above : a.base ≤ ra) (offset : Int) :
    a.Computes call (prepareLoop ra offset) := by
  have write (i : Nat) (v : Value) : a.Computes call (Vm.write (ra + i) v) := write (by omega) v
  refine bind (read _) fun init => bind (read _) fun limit => bind (read _) fun step => ?_
  split
  next f failed => exact fault f (ForLoop.start_grounded failed)
  · exact jump _
  · exact bind (write 1 _) fun _ => bind (read _) fun v => write 3 v
  · refine bind (write 1 _) fun _ => bind (write 2 _) fun _ => bind (write 0 _) fun _ => ?_
    split
    · exact write 3 _
    · exact jump _

theorem nextRound {ra : Nat} (above : a.base ≤ ra) (offset : Int) :
    a.Computes call (nextRound ra offset) := by
  have write (i : Nat) (v : Value) : a.Computes call (Vm.write (ra + i) v) := write (by omega) v
  refine bind (read _) fun index => bind (read _) fun limit => bind (read _) fun step => ?_
  split
  · split
    · exact bind (jump _) fun _ => bind (write 1 _) fun _ => bind (write 0 _) fun _ => write 3 _
    · exact pure ()
  · split
    · dsimp only
      split
      · exact bind (jump _) fun _ => bind (write 0 _) fun _ => write 3 _
      · exact pure ()
    · exact fault _

theorem setList {ra : Nat} (b c : Nat) : a.Computes call (a.setList ra b c) := by
  unfold Activation.setList
  dsimp only
  -- Two operands that may be zero give four ways to the same end.
  refine iteInduction (fun _ => bind (inspect _) fun n => ?_) fun _ => bind (pure b) fun n => ?_
  all_goals
    refine iteInduction (fun _ => bind extraArg fun block => ?_)
      fun _ => bind (pure c) fun block => ?_
  all_goals
    refine bind (read _) fun v => ?_
    split
    · exact bind (readMany _ _) fun _ => bind (operates (.modifyTable _ _)) fun _ => resetTop
    · exact fault _

theorem loadVarargs {ra : Nat} (above : a.base ≤ ra) (b : Nat) :
    a.Computes call (loadVarargs ra b) := by
  refine bind frame fun f => ?_
  dsimp only
  split
  · exact bind (reserveWithHeadroom _) fun _ => bind (writeMany above _) fun _ =>
      setTop (by omega)
  · exact writeMany above _

theorem concatRegisters {ra : Nat} (above : a.base ≤ ra) (b c : Nat) :
    a.Computes call (a.concatRegisters call ra b c) := by
  have join : a.Computes call (do
      let values ← Vm.readMany (a.base + b) (c + 1 - b)
      Vm.write ra (← Operation.concat call values)) :=
    bind (readMany _ _) fun values => bind (operates (.concat values)) fun v => write above v
  unfold Activation.concatRegisters
  split
  · exact bind (outOfRange _) fun _ => join
  · exact join

theorem arith {ra : Nat} (above : a.base ≤ ra) (op : ArithOp) (w : Word) :
    a.Computes call (a.arith call op ra w) :=
  bind (rk _) fun x => bind (rk _) fun y => bind (operates (.arith op x y)) fun v => write above v

theorem arithUnary {ra : Nat} (above : a.base ≤ ra) (op : ArithOp) (w : Word) :
    a.Computes call (a.arithUnary call op ra w) :=
  bind (read _) fun x => bind (operates (.arith op x x)) fun v => write above v

theorem compare {test : Value → Value → Vm Bool} (tests : ∀ x y, Operates call (test x y))
    (w : Word) : a.Computes call (a.compare test w) :=
  bind (rk _) fun x => bind (rk _) fun y => bind (operates (tests x y)) fun _ => skipIf _

end Computes

namespace Works

theorem capture (captures : List Capture) : a.Works call (a.capture captures) := by
  have pure {α : Type} (x : α) : a.Works call (Pure.pure x) := (Computes.pure x).works
  induction captures with
  | nil => exact pure _
  | cons c rest ih =>
    cases c with
    | register r => exact bind (captureSlot (Nat.le_add_right _ _)) fun _ => bind ih fun _ => pure _
    | upvalue i => exact bind (Computes.cell _).works fun _ => bind ih fun _ => pure _

theorem makeClosure {ra : Nat} (above : a.base ≤ ra) (i : Nat) :
    a.Works call (a.makeClosure ra i) := by
  unfold Activation.makeClosure
  split
  · exact (Computes.fault _).works
  · exact bind (capture _) fun _ => bind (newFunction _) fun _ => write above _

end Works

theorem step_computes (a : Activation) (call : Call) (w : Word)
    (notTail : w.opcode? ≠ some .tailCall) (notReturn : w.opcode? ≠ some .ret)
    (notClosure : w.opcode? ≠ some .closure) (notJump : w.opcode? ≠ some .jmp) :
    ∃ x, a.step call w = done x ∧ a.Computes call x := by
  have ra : a.base ≤ a.base + w.a := Nat.le_add_right _ _
  have next : a.base ≤ a.base + w.a + 1 := by omega
  unfold step
  split
  next => exact ⟨Vm.fault _, rfl, .fault _⟩
  next op found =>
    rw [found] at notTail notReturn notClosure notJump
    cases op with
    | move => exact ⟨_, rfl, .bind (.read _) fun v => .write ra v⟩
    | loadK => exact ⟨_, rfl, .bind (.constant _) fun v => .write ra v⟩
    | loadKX =>
      exact ⟨_, rfl, .bind .extraArg fun k => .bind (.constant k) fun v => .write ra v⟩
    | loadBool => exact ⟨_, rfl, .bind (.write ra _) fun _ => .skipIf _⟩
    | loadNil => exact ⟨_, rfl, .clear ra _⟩
    | getUpval => exact ⟨_, rfl, .bind (.upvalue _) fun v => .write ra v⟩
    | setUpval =>
      exact ⟨_, rfl, .bind (.read _) fun v => .bind (.cell _) fun id => .writeCell id v⟩
    | getTabUp =>
      exact ⟨_, rfl, .bind (.upvalue _) fun t => .bind (.rk _) fun k =>
        .bind (.operates (.index t k)) fun v => .write ra v⟩
    | getTable =>
      exact ⟨_, rfl, .bind (.read _) fun t => .bind (.rk _) fun k =>
        .bind (.operates (.index t k)) fun v => .write ra v⟩
    | setTabUp =>
      exact ⟨_, rfl, .bind (.upvalue _) fun t => .bind (.rk _) fun k =>
        .bind (.rk _) fun v => .operates (.setIndex t k v)⟩
    | setTable =>
      exact ⟨_, rfl, .bind (.read _) fun t => .bind (.rk _) fun k =>
        .bind (.rk _) fun v => .operates (.setIndex t k v)⟩
    | newTable => exact ⟨_, rfl, .bind (.newTable _) fun t => .write ra _⟩
    | self =>
      exact ⟨_, rfl, .bind (.read _) fun object => .bind (.rk _) fun k =>
        .bind (.write next object) fun _ =>
          .bind (.operates (.index object k)) fun v => .write ra v⟩
    | unm => exact ⟨_, rfl, .arithUnary ra .unm w⟩
    | bnot => exact ⟨_, rfl, .arithUnary ra .bnot w⟩
    | not => exact ⟨_, rfl, .bind (.read _) fun v => .write ra _⟩
    | len =>
      exact ⟨_, rfl, .bind (.read _) fun v => .bind (.operates (.length v)) fun n => .write ra n⟩
    | concat => exact ⟨_, rfl, .concatRegisters ra w.b w.c⟩
    | jmp => exact absurd rfl notJump
    | eq => exact ⟨_, rfl, .compare Operates.equals w⟩
    | lt => exact ⟨_, rfl, .compare Operates.lessThan w⟩
    | le => exact ⟨_, rfl, .compare Operates.lessEqual w⟩
    | test => exact ⟨_, rfl, .bind (.read _) fun v => .skipIf _⟩
    | testSet =>
      refine ⟨_, rfl, .bind (.read _) fun v => ?_⟩
      split
      · exact .skip
      · exact .write ra v
    | call => exact ⟨_, rfl, .callRegister ra w.b w.c⟩
    | tailCall => exact absurd rfl notTail
    | ret => exact absurd rfl notReturn
    | forLoop => exact ⟨_, rfl, .nextRound ra _⟩
    | forPrep => exact ⟨_, rfl, .prepareLoop ra _⟩
    | tforCall => exact ⟨_, rfl, .callIterator ra w.c⟩
    | tforLoop =>
      refine ⟨_, rfl, .bind (.read _) fun control => ?_⟩
      split
      · exact .bind (.write ra control) fun _ => .jump _
      · exact .pure ()
    | setList => exact ⟨_, rfl, .setList w.b w.c⟩
    | closure => exact absurd rfl notClosure
    | vararg => exact ⟨_, rfl, .loadVarargs ra w.b⟩
    | extraArg => exact ⟨Vm.fault _, rfl, .fault _⟩
    | add | sub | mul | mod | pow | div | idiv | band | bor | bxor | shl | shr =>
      exact ⟨_, rfl, .arith ra _ w⟩

theorem step_closure (a : Activation) (call : Call) {w : Word}
    (closure : w.opcode? = some .closure) :
    a.step call w = done (a.makeClosure (a.base + w.a) w.bx) := by
  unfold step
  rw [closure]

theorem step_jump (a : Activation) (call : Call) {w : Word} (jumps : w.opcode? = some .jmp) :
    a.step call w = done (do
      if w.a ≠ 0 then Vm.closeFrom (a.base + w.a - 1)
      jump w.sbx) := by
  unfold step
  rw [jumps]

theorem step_works (a : Activation) (call : Call) (w : Word) (notTail : w.opcode? ≠ some .tailCall)
    (notReturn : w.opcode? ≠ some .ret) : ∃ x, a.step call w = done x ∧ a.Works call x := by
  by_cases closure : w.opcode? = some .closure
  · exact ⟨_, a.step_closure call closure, .makeClosure (Nat.le_add_right _ _) _⟩
  by_cases jumps : w.opcode? = some .jmp
  · refine ⟨_, a.step_jump call jumps, ?_⟩
    split
    · exact .bind (.closeFrom _) fun _ => (Computes.jump _).works
    · exact (Computes.jump _).works
  obtain ⟨x, steps, computes⟩ := a.step_computes call w notTail notReturn closure jumps
  exact ⟨x, steps, computes.works⟩

def countAt (s : State) (slot b : Nat) : Nat := if b = 0 then s.frame.top - slot else b - 1

theorem step_tail (a : Activation) (call : Call) {w : Word} (tail : w.opcode? = some .tailCall)
    (s : State) : a.step call w s =
      Call.tail call (a.base + w.a) (countAt s (a.base + w.a + 1) w.b) s := by
  have counted : argCount (a.base + w.a) w.b s = .ok (countAt s (a.base + w.a + 1) w.b) s := by
    unfold argCount countAt
    split <;> rfl
  unfold step
  rw [tail]
  exact Vm.bind_ok counted _

theorem step_ret (a : Activation) (call : Call) {w : Word} (ret : w.opcode? = some .ret)
    (s : State) : a.step call w s =
      (do return .returned (← Call.returnFrom (a.base + w.a) (countAt s (a.base + w.a) w.b)) :
        Vm Call.Flow) s := by
  unfold step countAt
  rw [ret]
  dsimp only
  split <;> rfl

theorem step_cases (a : Activation) (call : Call) (w : Word) (s : State) :
    (∃ n, a.step call w s = Call.tail call (a.base + w.a) n s) ∨
    (∃ n, a.step call w s =
      (do return .returned (← Call.returnFrom (a.base + w.a) n) : Vm Call.Flow) s) ∨
    ∃ x, a.Works call x ∧ a.step call w s = done x s := by
  by_cases tail : w.opcode? = some .tailCall
  · exact .inl ⟨_, step_tail a call tail s⟩
  · by_cases ret : w.opcode? = some .ret
    · exact .inr (.inl ⟨_, step_ret a call ret s⟩)
    · obtain ⟨x, steps, works⟩ := step_works a call w tail ret
      exact .inr (.inr ⟨x, works, by rw [steps]⟩)

end Activation

end LuaMachine
