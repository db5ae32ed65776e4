import LuaMachine.Proofs.Bounds.Sound

set_option autoImplicit false

namespace LuaMachine

open Vm

def Call.Contained (call : Call) : Prop :=
  ∀ func nargs wanted,
    Clean (fun s => s.Sound ∧ s.frame.base ≤ func ∧ func + 1 + nargs ≤ s.stack.size)
      (call func nargs wanted) fun _ t => t.Sound

namespace Safe

variable {α β : Type} {base room : Nat} {call : Call}

-- A number that was counted on the stack comes with the slots it counts.
theorem afterCount {x : Vm Nat} {f : Nat → Vm β} {slots : Nat → Nat}
    (first : Clean (Placed base room) x fun n s => Placed base room s ∧ slots n ≤ s.stack.size)
    (rest : ∀ n more, room ≤ more → slots n ≤ more → Safe base more (f n)) :
    Safe base room (x >>= f) := by
  refine after first fun n s holds => ?_
  obtain ⟨placed, inside⟩ := holds
  exact ⟨_, placed.room_le, placed.widen (Nat.le_refl _),
    rest n _ placed.room_le inside⟩

section

variable (balanced : call.Balanced) (contained : call.Contained)
include balanced contained

theorem calls {func nargs : Nat} (low : base ≤ func) (inside : func + 1 + nargs ≤ room)
    (wanted : Option Nat) : Clean (Placed base room) (call func nargs wanted) fun n s =>
      Placed base room s ∧ func + n ≤ s.stack.size ∧ ∀ k, wanted = some k → n = k := by
  refine Clean.of_run fun s placed => ?_
  have pre : s.Sound ∧ s.frame.base ≤ func ∧ func + 1 + nargs ≤ s.stack.size :=
    ⟨placed.toSound, placed.base_eq ▸ low, Nat.le_trans inside placed.room_le⟩
  cases ran : call func nargs wanted s with
  | ok n t =>
    have returned := balanced.ok ran
    refine ⟨⟨(contained func nargs wanted).ok pre ran, ?_, ?_⟩, returned.room, returned.count⟩
    · rw [returned.frame]
      exact placed.base_eq
    · exact Nat.le_trans placed.room_le returned.size
  | error e t => exact (contained func nargs wanted).error pre ran

theorem callHandler (h : Value) (args : List Value) :
    Safe base room (Operation.callHandler call h args) := by
  refine bindState fun s placed le => ?_
  have above := Operation.le_scratch s
  have low := placed.frame.base_le
  rw [placed.base_eq] at low
  refine withRoom (reserveWithHeadroom _) fun more more_le enough => ?_
  refine bind (writeMany (by simp only [List.length_cons]; omega)) fun _ => ?_
  refine after (calls balanced contained (by omega) (by omega) (some 1)) fun n t holds => ?_
  obtain ⟨placed', inside, one⟩ := holds
  cases one 1 rfl
  refine ⟨_, placed'.room_le, placed'.widen (Nat.le_refl _), ?_⟩
  have := placed'.room_le
  have := placed.frame.top_le
  exact bind (take (by omega)) fun v => bind (setTop low (by omega)) fun _ => pure v

theorem asks {x : Vm α} (asks : Asks call x) : Safe base room x := by
  induction asks with
  | bind _ _ first rest => exact bind first rest
  | inspect f => exact inspect f
  | raise e => exact raise e
  | modifyTable t f => exact modifyTable t f
  | callHandler h args => exact callHandler balanced contained h args

theorem operates {x : Vm α} (operates : Operates call x) : Safe base room x :=
  asks balanced contained operates.asks

end

-- A call for its effect on the stack.
theorem bindCall (balanced : call.Balanced) (contained : call.Contained) {func nargs : Nat}
    (low : base ≤ func) (inside : func + 1 + nargs ≤ room) (wanted : Option Nat) {f : Nat → Vm β}
    (rest : ∀ n more, room ≤ more → func + n ≤ more → Safe base more (f n)) :
    Safe base room (call func nargs wanted >>= f) :=
  afterCount ((calls balanced contained low inside wanted).weaken
    fun _ _ holds => ⟨holds.1, holds.2.1⟩) rest

end Safe

namespace Activation

variable {a : Activation} {call : Call} {room : Nat}

-- Whatever is counted up to the end of the window is on the stack.
theorem countFrom_clean {base slot : Nat} (inside : slot ≤ room) :
    Clean (Placed base room) (countFrom slot) fun n s =>
      Placed base room s ∧ slot + n ≤ s.stack.size := by
  refine Clean.of_run fun s placed => ?_
  have := placed.frame.top_le
  have := placed.room_le
  exact ⟨placed, by omega⟩

theorem given_clean {base n : Nat} (slot : Nat) (inside : slot + n ≤ room) :
    Clean (Placed base room) (pure n) fun n s =>
      Placed base room s ∧ slot + n ≤ s.stack.size :=
  Clean.pure fun _ placed => ⟨placed, Nat.le_trans inside placed.room_le⟩

theorem argCount_clean {base ra b : Nat} (inside : ra + max b 1 ≤ room) :
    Clean (Placed base room) (argCount ra b) fun n s =>
      Placed base room s ∧ ra + 1 + n ≤ s.stack.size := by
  unfold argCount
  split
  · exact countFrom_clean (by omega)
  · exact given_clean _ (by omega)

theorem constant_safe (k : Nat) : Safe a.base room (a.constant k) := by
  unfold constant
  split
  · exact .pure _
  · exact .fault _

theorem rk_safe {x : Nat} (inside : a.base + RK.reach x ≤ room) : Safe a.base room (a.rk x) := by
  unfold rk
  unfold RK.reach at inside
  split
  · exact constant_safe _
  next register =>
    rw [if_neg register] at inside
    exact .read (by omega)

theorem cell_safe (i : Nat) : Safe a.base room (a.cell i) := by
  unfold cell
  split
  · exact .pure _
  · exact .fault _

theorem upvalue_safe (i : Nat) : Safe a.base room (a.upvalue i) :=
  .bind (cell_safe i) fun _ => .inspect _

theorem resetTop_safe (registers : a.base + a.proto.stackSize.toNat ≤ room) :
    Safe a.base room a.resetTop := .setTop (Nat.le_add_right _ _) registers

theorem skipIf_safe {base : Nat} (b : Bool) : Safe base room (skipIf b) := by
  unfold skipIf
  split
  · exact .movePc fun f => f.pc + 1
  · exact .pure ()

theorem jump_safe {base : Nat} (offset : Int) : Safe base room (jump offset) := by
  refine .bind (.inspect State.frame) fun f => ?_
  dsimp only
  split
  · exact .fault _
  · exact .movePc fun _ => _

theorem extraArg_safe : Safe a.base room a.extraArg := by
  refine .bind (.inspect State.frame) fun f => ?_
  dsimp only
  split
  · split
    · exact .bind (.movePc fun _ => _) fun _ => .pure _
    · exact .fault _
  · exact .fault _

theorem capture_safe {captures : List Capture}
    (inside : ∀ r, .register r ∈ captures → a.base + r.toNat < room) :
    Safe a.base room (a.capture captures) := by
  induction captures with
  | nil => exact .pure _
  | cons c rest ih =>
    have others := ih fun r member => inside r (List.mem_cons_of_mem _ member)
    cases c with
    | register r =>
      exact .bind (.captureSlot (inside r List.mem_cons_self)) fun _ =>
        .bind others fun _ => .pure _
    | upvalue i => exact .bind (cell_safe _) fun _ => .bind others fun _ => .pure _

theorem makeClosure_safe (tidy : a.proto.Tidy)
    (registers : a.base + a.proto.stackSize.toNat ≤ room) {ra : Nat} (inside : ra < room)
    (i : Nat) : Safe a.base room (a.makeClosure ra i) := by
  unfold makeClosure
  split
  · exact .fault _
  next p found =>
    have nested := List.mem_of_getElem? found
    refine .bind (capture_safe fun r member => ?_) fun cells => ?_
    · have := tidy.captured_lt nested (Array.mem_toList_iff.1 member)
      omega
    · refine .bind (.newFunction ?_) fun f => .write inside _
      rintro _ ⟨⟩
      exact tidy.nested nested

theorem setList_safe (registers : a.base + a.proto.stackSize.toNat ≤ room) {ra b : Nat}
    (inside : ra + b + 1 ≤ room) (c : Nat) : Safe a.base room (a.setList ra b c) := by
  unfold setList
  dsimp only
  -- Two operands that may be zero give four ways to the same end.
  refine iteInduction
    (fun _ => .afterCount (countFrom_clean (by omega)) fun n more le enough => ?_)
    fun _ => .afterCount (given_clean (ra + 1) (by omega)) fun n more le enough => ?_
  all_goals
    refine iteInduction (fun _ => .bind extraArg_safe fun block => ?_)
      fun _ => .bind (.pure c) fun block => ?_
  all_goals
    refine .bind (.read (by omega)) fun v => ?_
    split
    · exact .bind (.readMany enough) fun _ => .bind (.modifyTable _ _) fun _ =>
        resetTop_safe (Nat.le_trans registers le)
    · exact .fault _

theorem loadVarargs_safe {base ra b : Nat} (low : base ≤ ra) (inside : ra + (b - 1) ≤ room) :
    Safe base room (loadVarargs ra b) := by
  refine .bindFrame fun f more _ _ le _ => ?_
  dsimp only
  split
  · refine .withRoom (Safe.reserveWithHeadroom _) fun most more_le enough => ?_
    exact .bind (.writeMany (by simpa using enough)) fun _ => .setTop (by omega) enough
  · refine .writeMany ?_
    rw [List.length_map, List.length_range]
    omega

theorem prepareLoop_safe {base ra : Nat} (inside : ra + 4 ≤ room) (offset : Int) :
    Safe base room (prepareLoop ra offset) := by
  refine .bind (.read (by omega)) fun init => .bind (.read (by omega)) fun limit =>
    .bind (.read (by omega)) fun step => ?_
  split
  · exact .fault _
  · exact jump_safe _
  · exact .bind (.write (by omega) _) fun _ => .bind (.read (by omega)) fun v => .write (by omega) v
  · refine .bind (.write (by omega) _) fun _ => .bind (.write (by omega) _) fun _ =>
      .bind (.write (by omega) _) fun _ => ?_
    split
    · exact .write (by omega) _
    · exact jump_safe _

theorem nextRound_safe {base ra : Nat} (inside : ra + 4 ≤ room) (offset : Int) :
    Safe base room (nextRound ra offset) := by
  refine .bind (.read (by omega)) fun index => .bind (.read (by omega)) fun limit =>
    .bind (.read (by omega)) fun step => ?_
  split
  · split
    · exact .bind (jump_safe _) fun _ => .bind (.write (by omega) _) fun _ =>
        .bind (.write (by omega) _) fun _ => .write (by omega) _
    · exact .pure ()
  · split
    · dsimp only
      split
      · exact .bind (jump_safe _) fun _ => .bind (.write (by omega) _) fun _ => .write (by omega) _
      · exact .pure ()
    · exact .fault _

section

variable (balanced : call.Balanced) (contained : call.Contained)
include balanced contained

theorem callRegister_safe (registers : a.base + a.proto.stackSize.toNat ≤ room) {ra b : Nat}
    (low : a.base ≤ ra) (inside : ra + max b 1 ≤ room) (c : Nat) :
    Safe a.base room (a.callRegister call ra b c) := by
  refine .afterCount (argCount_clean inside) fun nargs more le enough => ?_
  split
  · exact .bindCall balanced contained low enough none fun _ _ _ _ => .pure ()
  · exact .bindCall balanced contained low enough (some (c - 1)) fun n most more_le _ =>
      resetTop_safe (by omega)

theorem callIterator_safe (registers : a.base + a.proto.stackSize.toNat ≤ room) {ra : Nat}
    (low : a.base ≤ ra) (c : Nat) : Safe a.base room (a.callIterator call ra c) := by
  refine .withRoom (Safe.reserveWithHeadroom _) fun more le enough => ?_
  refine .bindMany (by omega) fun values three => .bind (.writeMany (by omega)) fun _ => ?_
  exact .bindCall balanced contained (by omega) (by omega) (some c) fun n most more_le _ =>
    resetTop_safe (by omega)

theorem concatRegisters_safe {ra b c : Nat} (inside : ra < room) (last : a.base + c + 1 ≤ room)
    (ordered : b ≤ c + 1) : Safe a.base room (a.concatRegisters call ra b c) := by
  unfold concatRegisters
  rw [if_neg (by omega)]
  exact .bind (.readMany (by omega)) fun values =>
    .bind (.operates balanced contained (.concat values)) fun v => .write inside v

theorem arith_safe {ra : Nat} {w : Word} (inside : ra < room)
    (left : a.base + RK.reach w.b ≤ room) (right : a.base + RK.reach w.c ≤ room) (op : ArithOp) :
    Safe a.base room (a.arith call op ra w) :=
  .bind (rk_safe left) fun x => .bind (rk_safe right) fun y =>
    .bind (.operates balanced contained (.arith op x y)) fun v => .write inside v

theorem arithUnary_safe {ra : Nat} {w : Word} (inside : ra < room) (operand : a.base + w.b < room)
    (op : ArithOp) : Safe a.base room (a.arithUnary call op ra w) :=
  .bind (.read operand) fun x => .bind (.operates balanced contained (.arith op x x)) fun v =>
    .write inside v

theorem compare_safe {test : Value → Value → Vm Bool} (tests : ∀ x y, Operates call (test x y))
    {w : Word} (left : a.base + RK.reach w.b ≤ room) (right : a.base + RK.reach w.c ≤ room) :
    Safe a.base room (a.compare test w) :=
  .bind (rk_safe left) fun x => .bind (rk_safe right) fun y =>
    .bind (.operates balanced contained (tests x y)) fun _ => skipIf_safe _

theorem step_safe (tidy : a.proto.Tidy) (registers : a.base + a.proto.stackSize.toNat ≤ room)
    {w : Word} (reach : w.reach ≤ a.proto.stackSize.toNat)
    (ordered : w.opcode? = some .concat → w.b ≤ w.c + 1) (notTail : w.opcode? ≠ some .tailCall)
    (notReturn : w.opcode? ≠ some .ret) :
    ∃ x, a.step call w = done x ∧ Safe a.base room x := by
  unfold Word.reach at reach
  unfold step
  split
  next => exact ⟨Vm.fault _, rfl, .fault _⟩
  next op found =>
    rw [found] at reach ordered notTail notReturn
    have ra : a.base ≤ a.base + w.a := Nat.le_add_right _ _
    cases op with dsimp only at reach
    | move => exact ⟨_, rfl, .bind (.read (by omega)) fun v => .write (by omega) v⟩
    | loadK => exact ⟨_, rfl, .bind (constant_safe _) fun v => .write (by omega) v⟩
    | loadKX =>
      exact ⟨_, rfl, .bind extraArg_safe fun k => .bind (constant_safe k) fun v =>
        .write (by omega) v⟩
    | loadBool => exact ⟨_, rfl, .bind (.write (by omega) _) fun _ => skipIf_safe _⟩
    | loadNil => exact ⟨_, rfl, .clear (.inl (by omega))⟩
    | getUpval => exact ⟨_, rfl, .bind (upvalue_safe _) fun v => .write (by omega) v⟩
    | setUpval =>
      exact ⟨_, rfl, .bind (.read (by omega)) fun v => .bind (cell_safe _) fun id =>
        .writeCell id v⟩
    | getTabUp =>
      exact ⟨_, rfl, .bind (upvalue_safe _) fun t => .bind (rk_safe (by omega)) fun k =>
        .bind (.operates balanced contained (.index t k)) fun v => .write (by omega) v⟩
    | getTable =>
      exact ⟨_, rfl, .bind (.read (by omega)) fun t => .bind (rk_safe (by omega)) fun k =>
        .bind (.operates balanced contained (.index t k)) fun v => .write (by omega) v⟩
    | setTabUp =>
      exact ⟨_, rfl, .bind (upvalue_safe _) fun t => .bind (rk_safe (by omega)) fun k =>
        .bind (rk_safe (by omega)) fun v => .operates balanced contained (.setIndex t k v)⟩
    | setTable =>
      exact ⟨_, rfl, .bind (.read (by omega)) fun t => .bind (rk_safe (by omega)) fun k =>
        .bind (rk_safe (by omega)) fun v => .operates balanced contained (.setIndex t k v)⟩
    | newTable => exact ⟨_, rfl, .bind (.newTable _) fun t => .write (by omega) _⟩
    | self =>
      exact ⟨_, rfl, .bind (.read (by omega)) fun object => .bind (rk_safe (by omega)) fun k =>
        .bind (.write (by omega) object) fun _ =>
          .bind (.operates balanced contained (.index object k)) fun v => .write (by omega) v⟩
    | unm => exact ⟨_, rfl, arithUnary_safe balanced contained (by omega) (by omega) .unm⟩
    | bnot => exact ⟨_, rfl, arithUnary_safe balanced contained (by omega) (by omega) .bnot⟩
    | not => exact ⟨_, rfl, .bind (.read (by omega)) fun v => .write (by omega) _⟩
    | len =>
      exact ⟨_, rfl, .bind (.read (by omega)) fun v =>
        .bind (.operates balanced contained (.length v)) fun n => .write (by omega) n⟩
    | concat =>
      exact ⟨_, rfl, concatRegisters_safe balanced contained (by omega) (by omega) (ordered rfl)⟩
    | jmp =>
      refine ⟨_, rfl, ?_⟩
      split
      · exact .bind (.closeFrom _) fun _ => jump_safe _
      · exact jump_safe _
    | eq => exact ⟨_, rfl, compare_safe balanced contained Operates.equals (by omega) (by omega)⟩
    | lt => exact ⟨_, rfl, compare_safe balanced contained Operates.lessThan (by omega) (by omega)⟩
    | le => exact ⟨_, rfl, compare_safe balanced contained Operates.lessEqual (by omega) (by omega)⟩
    | test => exact ⟨_, rfl, .bind (.read (by omega)) fun v => skipIf_safe _⟩
    | testSet =>
      refine ⟨_, rfl, .bind (.read (by omega)) fun v => ?_⟩
      split
      · exact .movePc fun f => f.pc + 1
      · exact .write (by omega) v
    | call => exact ⟨_, rfl, callRegister_safe balanced contained registers ra (by omega) w.c⟩
    | tailCall => exact absurd rfl notTail
    | ret => exact absurd rfl notReturn
    | forLoop => exact ⟨_, rfl, nextRound_safe (by omega) _⟩
    | forPrep => exact ⟨_, rfl, prepareLoop_safe (by omega) _⟩
    | tforCall => exact ⟨_, rfl, callIterator_safe balanced contained registers ra w.c⟩
    | tforLoop =>
      refine ⟨_, rfl, .bind (.read (by omega)) fun control => ?_⟩
      split
      · exact .bind (.write (by omega) control) fun _ => jump_safe _
      · exact .pure ()
    | setList => exact ⟨_, rfl, setList_safe registers (by omega) w.c⟩
    | closure => exact ⟨_, rfl, makeClosure_safe tidy registers (by omega) _⟩
    | vararg => exact ⟨_, rfl, loadVarargs_safe ra (by omega)⟩
    | extraArg => exact ⟨Vm.fault _, rfl, .fault _⟩
    | add | sub | mul | mod | pow | div | idiv | band | bor | bxor | shl | shr =>
      exact ⟨_, rfl, arith_safe balanced contained (by omega) (by omega) (by omega) _⟩

end

end Activation

end LuaMachine
