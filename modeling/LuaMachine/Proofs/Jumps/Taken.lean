import LuaMachine.Proofs.ForLoop.Rounds

set_option autoImplicit false

namespace LuaMachine

open Vm

inductive Opcode.IsJump : Opcode → Prop where
  | jmp : IsJump .jmp
  | forLoop : IsJump .forLoop
  | tforLoop : IsJump .tforLoop
  | forPrep : IsJump .forPrep

def Opcode.landing (op : Opcode) (target : Nat) : Nat :=
  if op = .forPrep then target + 1 else target

inductive Jumps (stack : Array Value) (ra : Nat) : Opcode → Prop where
  | jmp : Jumps stack ra .jmp
  | counted {index left step : Int64} {old : Value} :
    Holds stack ra [.int index, .int left, .int step, old] → 0 < left.toUInt64 →
      Jumps stack ra .forLoop
  | floats {index limit step old : Value} {x y z : Double} :
    Holds stack ra [index, limit, step, old] →
      (∀ i l s, index = .int i → limit = .int l → step = .int s → False) →
      index.toDouble? = some x → limit.toDouble? = some y → step.toDouble? = some z →
      ForLoop.continues (x.add z) y z = true → Jumps stack ra .forLoop
  | generic {old control : Value} :
    Holds stack ra [old, control] → control.isNil = false → Jumps stack ra .tforLoop
  | skipped {init limit step : Value} :
    Holds stack ra [init, limit, step] → ForLoop.start init limit step = .ok .skip →
      Jumps stack ra .forPrep
  | passed {init limit step : Value} {x y z : Double} :
    Holds stack ra [init, limit, step] → ForLoop.start init limit step = .ok (.floats x y z) →
      ForLoop.continues x y z = false → Jumps stack ra .forPrep

-- The same call goes on in `t`, next with the instruction at `pc`.
structure Moved (s t : State) (pc : Nat) : Prop where
  functions : t.functions = s.functions
  function : t.frame.function = s.frame.function
  base : t.frame.base = s.frame.base
  pc_eq : t.frame.pc = pc

theorem Moved.trans {s t u : State} {pc target : Nat} (first : Moved s t pc)
    (second : Moved t u target) : Moved s u target where
  functions := second.functions.trans first.functions
  function := second.function.trans first.function
  base := second.base.trans first.base
  pc_eq := second.pc_eq

theorem Moved.restacked (s : State) (stack : Array Value) :
    Moved s { s with stack } s.frame.pc := ⟨rfl, rfl, rfl, rfl⟩

namespace Activation

def branch (op : Opcode) (ra a : Nat) (offset : Int) : Vm Unit :=
  match op with
  | .jmp => do
    if a ≠ 0 then closeFrom (ra - 1)
    jump offset
  | .forLoop => nextRound ra offset
  | .forPrep => prepareLoop ra offset
  | .tforLoop => do
    let control ← read (ra + 1)
    if !control.isNil then
      write ra control
      jump offset
  | _ => return

theorem step_branch (a : Activation) (call : Call) {w : Word} {op : Opcode}
    (named : w.opcode? = some op) (jumps : op.IsJump) :
    a.step call w = done (branch op (a.base + w.a) w.a w.sbx) := by
  unfold step
  rw [named]
  cases jumps <;> rfl

variable {s t : State} {ra a target : Nat} {offset : Int}

section Actions

theorem read_inv {slot : Nat} {v : Value} (ran : read slot s = .ok v t) :
    s.stack[slot]? = some v ∧ t = s := by
  unfold Vm.read at ran
  split at ran
  next held =>
    cases ran
    exact ⟨held, rfl⟩
  next => cases ran

theorem write_inv {slot : Nat} {v : Value} (ran : write slot v s = .ok () t) :
    ∃ stack, slot < s.stack.size ∧ stack.size = s.stack.size ∧ t = { s with stack } := by
  unfold Vm.write at ran
  split at ran
  next bound =>
    cases ran
    exact ⟨_, bound, Array.size_set bound, rfl⟩
  next => cases ran

theorem write_then {slot : Nat} {v : Value} {f : Unit → Vm Unit}
    (ran : (write slot v >>= f) s = .ok () t) :
    ∃ stack, slot < s.stack.size ∧ stack.size = s.stack.size ∧
      f () { s with stack } = .ok () t := by
  obtain ⟨_, _, wrote, rest⟩ := ok_of_bind ran
  obtain ⟨stack, room, size, rfl⟩ := write_inv wrote
  exact ⟨stack, room, size, rest⟩

theorem jump_inv (ran : jump offset s = .ok () t) : t.stack = s.stack := by
  change (if (s.frame.pc : Int) + offset < 0 then _ else _ : Vm Unit) s = _ at ran
  split at ran
  next => cases ran
  next =>
    cases ran
    rfl

-- Loops begin with reading their three registers.
theorem readThree {f : Value → Value → Value → Vm Unit} :
    (do f (← read ra) (← read (ra + 1)) (← read (ra + 2)) : Vm Unit) s = .ok () t ↔
      ∃ x y z, Holds s.stack ra [x, y, z] ∧ f x y z s = .ok () t := by
  constructor
  · intro ran
    obtain ⟨x, _, ran₀, ran₁⟩ := ok_of_bind ran
    obtain ⟨y, _, ran₂, ran₃⟩ := ok_of_bind ran₁
    obtain ⟨z, _, ran₄, ran₅⟩ := ok_of_bind ran₃
    obtain ⟨first, rfl⟩ := read_inv ran₀
    obtain ⟨second, rfl⟩ := read_inv ran₂
    obtain ⟨third, rfl⟩ := read_inv ran₄
    exact ⟨x, y, z, .cons first (.cons second (.cons third (.nil _ _))), ran₅⟩
  · rintro ⟨x, y, z, holds, ran⟩
    exact (bind_ok (holds.read (i := 0) rfl) _).trans
      ((bind_ok (holds.read (i := 1) rfl) _).trans
        ((bind_ok (holds.read (i := 2) rfl) _).trans ran))

end Actions

section Taken

theorem jump_moves (lands : (s.frame.pc : Int) + offset = target) :
    ∃ t, jump offset s = .ok () t ∧ Moved s t target :=
  ⟨_, jump_run lands, rfl, rfl, rfl, rfl⟩

theorem nextRound_floats {index limit step old : Value} {x y z : Double}
    (holds : Holds s.stack ra [index, limit, step, old])
    (mixed : ∀ i l s, index = .int i → limit = .int l → step = .int s → False)
    (first : index.toDouble? = some x) (second : limit.toDouble? = some y)
    (third : step.toDouble? = some z) (again : ForLoop.continues (x.add z) y z = true)
    (lands : (s.frame.pc : Int) + offset = target) :
    ∃ t, nextRound ra offset s = .ok () t ∧ Moved s t target := by
  let u := { s with frame := { s.frame with pc := target } }
  obtain ⟨moved, wrote, held⟩ :=
    Holds.write (s := u) holds (i := 0) (by simp) (.float (x.add z))
  obtain ⟨stack, wrote', -⟩ :=
    Holds.write (s := { u with stack := moved }) held (i := 3) (by simp) (.float (x.add z))
  refine ⟨{ u with stack }, ?_, rfl, rfl, rfl, rfl⟩
  refine readThree.2 ⟨index, limit, step, holds.take 3, ?_⟩
  split
  next => exact absurd rfl fun same => mixed _ _ _ same rfl rfl
  next =>
    rw [first, second, third]
    dsimp only
    rw [if_pos again]
    exact (bind_ok (jump_run lands) _).trans ((bind_ok wrote _).trans wrote')

theorem nextRound_moves (jumps : Jumps s.stack ra .forLoop)
    (lands : (s.frame.pc : Int) + offset = target) :
    ∃ t, nextRound ra offset s = .ok () t ∧ Moved s t target := by
  cases jumps with
  | @counted index left step old holds more =>
    have holds : Holds s.stack ra
      [.int index, .int left.toUInt64.toInt64, .int step, old] := holds
    obtain ⟨stack, ran, -⟩ := nextRound_again holds more lands
    exact ⟨_, ran, rfl, rfl, rfl, rfl⟩
  | floats holds mixed first second third again =>
    exact nextRound_floats holds mixed first second third again lands

theorem prepareLoop_moves (jumps : Jumps s.stack ra .forPrep)
    (lands : (s.frame.pc : Int) + offset = target) :
    ∃ t, prepareLoop ra offset s = .ok () t ∧ Moved s t (target + 1) := by
  have lands : (s.frame.pc : Int) + (offset + 1) = (target + 1 : Nat) := by omega
  cases jumps with
  | skipped holds started =>
    obtain ⟨t, ran, moved⟩ := jump_moves lands
    refine ⟨t, ?_, moved⟩
    refine readThree.2 ⟨_, _, _, holds, ?_⟩
    rw [started]
    exact ran
  | @passed _ _ _ x y z holds started ended =>
    obtain ⟨limited, wrote₁, held₁⟩ := holds.write (i := 1) (by simp) (.float y)
    obtain ⟨stepped, wrote₂, held₂⟩ :=
      Holds.write (s := { s with stack := limited }) held₁ (i := 2) (by simp) (.float z)
    obtain ⟨stack, wrote₀, -⟩ :=
      Holds.write (s := { s with stack := stepped }) held₂ (i := 0) (by simp) (.float x)
    obtain ⟨t, ran, moved⟩ := jump_moves (s := { s with stack }) lands
    refine ⟨t, ?_, (Moved.restacked s stack).trans moved⟩
    refine readThree.2 ⟨_, _, _, holds, ?_⟩
    rw [started]
    refine (bind_ok wrote₁ _).trans ((bind_ok wrote₂ _).trans ((bind_ok wrote₀ _).trans ?_))
    rw [ended]
    exact ran

theorem jmp_moves (lands : (s.frame.pc : Int) + offset = target) :
    ∃ t, branch .jmp ra a offset s = .ok () t ∧ Moved s t target := by
  unfold branch
  split
  next =>
    obtain ⟨u, closed, kept⟩ : ∃ u, closeFrom (ra - 1) s = .ok () u ∧ Moved s u s.frame.pc :=
      ⟨_, rfl, rfl, rfl, rfl, rfl⟩
    obtain ⟨t, ran, moved⟩ := jump_moves (s := u) (kept.pc_eq ▸ lands)
    exact ⟨t, (bind_ok closed _).trans ran, kept.trans moved⟩
  next => exact jump_moves lands

theorem tforLoop_moves (jumps : Jumps s.stack ra .tforLoop)
    (lands : (s.frame.pc : Int) + offset = target) :
    ∃ t, branch .tforLoop ra a offset s = .ok () t ∧ Moved s t target := by
  cases jumps with
  | @generic old control holds goes =>
    obtain ⟨stack, wrote, -⟩ := holds.write (i := 0) (by simp) control
    obtain ⟨t, ran, moved⟩ := jump_moves (s := { s with stack }) lands
    refine ⟨t, ?_, (Moved.restacked s stack).trans moved⟩
    refine (bind_ok (holds.read (i := 1) rfl) _).trans ?_
    rw [goes]
    exact (bind_ok wrote _).trans ran

theorem branch_moves {op : Opcode} (jumps : Jumps s.stack ra op)
    (lands : (s.frame.pc : Int) + offset = target) :
    ∃ t, branch op ra a offset s = .ok () t ∧ Moved s t (op.landing target) := by
  cases op with
  | jmp => exact jmp_moves lands
  | forLoop => exact nextRound_moves jumps lands
  | forPrep => exact prepareLoop_moves jumps lands
  | tforLoop => exact tforLoop_moves jumps lands
  | _ => cases jumps

end Taken

section Fallen

-- A round that was begun has written the variable behind the three registers.
theorem nextRound_falls (ran : nextRound ra offset s = .ok () t)
    (stays : ¬ Jumps s.stack ra .forLoop) : t = s := by
  obtain ⟨index, limit, step, registers, ran⟩ := readThree.1 ran
  have holds (room : ra + 3 < s.stack.size) :
      Holds s.stack ra ([index, limit, step] ++ [s.stack[ra + 3]]) :=
    registers.append (.cons (Array.getElem?_eq_getElem room) (.nil _ _))
  split at ran
  next =>
    split at ran
    next more =>
      obtain ⟨_, _, jumped, ran⟩ := ok_of_bind ran
      obtain ⟨_, -, size, ran⟩ := write_then ran
      obtain ⟨_, -, size', ran⟩ := write_then ran
      obtain ⟨_, room, -, -⟩ := write_inv ran
      have room : ra + 3 < s.stack.size := by
        rw [← jump_inv jumped, ← size, ← size']
        exact room
      exact absurd (.counted (holds room) more) stays
    next =>
      cases ran
      rfl
  next mixed =>
    cases first : index.toDouble? <;> cases second : limit.toDouble? <;>
      cases third : step.toDouble? <;> rw [first, second, third] at ran
    case some.some.some x y z =>
      dsimp only at ran
      split at ran
      next again =>
        obtain ⟨_, _, jumped, ran⟩ := ok_of_bind ran
        obtain ⟨_, -, size, ran⟩ := write_then ran
        obtain ⟨_, room, -, -⟩ := write_inv ran
        have room : ra + 3 < s.stack.size := by
          rw [← jump_inv jumped, ← size]
          exact room
        exact absurd (.floats (holds room) mixed first second third again) stays
      next =>
        cases ran
        rfl
    all_goals cases ran

theorem prepareLoop_falls (ran : prepareLoop ra offset s = .ok () t)
    (stays : ¬ Jumps s.stack ra .forPrep) : Moved s t s.frame.pc := by
  obtain ⟨init, limit, step, holds, ran⟩ := readThree.1 ran
  rcases started : ForLoop.start init limit step with f | _ | rounds | ⟨x, y, z⟩ <;>
    rw [started] at ran
  · cases ran
  · exact absurd (.skipped holds started) stays
  · obtain ⟨_, -, -, ran⟩ := write_then ran
    obtain ⟨_, _, held, ran⟩ := ok_of_bind ran
    obtain ⟨-, rfl⟩ := read_inv held
    obtain ⟨_, -, -, rfl⟩ := write_inv ran
    exact .restacked s _
  · obtain ⟨_, -, -, ran⟩ := write_then ran
    obtain ⟨_, -, -, ran⟩ := write_then ran
    obtain ⟨_, -, -, ran⟩ := write_then ran
    split at ran
    next =>
      obtain ⟨_, -, -, rfl⟩ := write_inv ran
      exact .restacked s _
    next ended => exact absurd (.passed holds started (by simpa using ended)) stays

theorem tforLoop_falls (ran : branch .tforLoop ra a offset s = .ok () t)
    (stays : ¬ Jumps s.stack ra .tforLoop) : t = s := by
  obtain ⟨control, u, held, goesOn⟩ := ok_of_bind ran
  obtain ⟨second, rfl⟩ := read_inv held
  split at goesOn
  next goes =>
    obtain ⟨_, room, -, -⟩ := write_then goesOn
    have holds : Holds u.stack ra [u.stack[ra], control] :=
      .cons (Array.getElem?_eq_getElem room) (.cons second (.nil _ _))
    exact absurd (.generic holds (by simpa using goes)) stays
  next =>
    cases goesOn
    rfl

theorem branch_falls {op : Opcode} (jumps : op.IsJump) (ran : branch op ra a offset s = .ok () t)
    (stays : ¬ Jumps s.stack ra op) : Moved s t s.frame.pc := by
  have same : Moved s s s.frame.pc := .restacked s s.stack
  cases jumps with
  | jmp => exact absurd .jmp stays
  | forLoop => exact nextRound_falls ran stays ▸ same
  | forPrep => exact prepareLoop_falls ran stays
  | tforLoop => exact tforLoop_falls ran stays ▸ same

end Fallen

end Activation

namespace Machine

variable {call : Call} {s t : State} {p : Prototype} {base pc target : Nat} {w : Word}
  {op : Opcode}

theorem At.moved (here : At p base pc s) (moved : Moved (fetched s) t target) :
    At p base target t := by
  obtain ⟨⟨f, cells, function, found⟩, rfl, -⟩ := here
  refine ⟨⟨f, cells, moved.function.trans function, ?_⟩, moved.base, moved.pc_eq⟩
  rw [State.function?, moved.functions]
  exact found

theorem branch_advances (here : At p base pc s) (code : p.code[pc]? = some w)
    (named : w.opcode? = some op) (jumps : op.IsJump) :
    Advances call s t ↔ s.budget ≠ 0 ∧
      Activation.branch op (base + w.a) w.a w.sbx (fetched s) = .ok () t :=
  here.advances code fun cells => Activation.step_branch ⟨cells, p, base⟩ call named jumps

end Machine

/-- The instruction `w` at `pc` goes on where it leads to if its registers make it jump, and behind
itself if they do not. -/
structure Leads (p : Prototype) (pc : Nat) (w : Word) (op : Opcode) (landing : Nat) : Prop where
  taken : ∀ {call base s}, Machine.At p base pc s → Jumps s.stack (base + w.a) op →
    s.budget ≠ 0 → ∃ t, Machine.Advances call s t
  lands : ∀ {call base s t}, Machine.At p base pc s → Machine.Advances call s t →
    Jumps s.stack (base + w.a) op → Machine.At p base landing t
  falls : ∀ {call base s t}, Machine.At p base pc s → Machine.Advances call s t →
    ¬ Jumps s.stack (base + w.a) op → Machine.At p base (pc + 1) t

theorem leads_of_offset {p : Prototype} {pc target : Nat} {w : Word} {op : Opcode}
    (code : p.code[pc]? = some w) (named : w.opcode? = some op) (jumps : op.IsJump)
    (offset : (pc : Int) + 1 + w.sbx = target) : Leads p pc w op (op.landing target) := by
  have runs {base : Nat} {s : State} (here : Machine.At p base pc s)
      (taken : Jumps s.stack (base + w.a) op) :
      ∃ t, Activation.branch op (base + w.a) w.a w.sbx (Machine.fetched s) = .ok () t ∧
        Moved (Machine.fetched s) t (op.landing target) := by
    apply Activation.branch_moves (s := Machine.fetched s) taken
    rw [← offset, ← here.pc_eq]
    rfl
  constructor
  · intro call base s here taken paid
    obtain ⟨t, ran, -⟩ := runs here taken
    exact ⟨t, (Machine.branch_advances here code named jumps).2 ⟨paid, ran⟩⟩
  · intro call base s t here advances taken
    obtain ⟨u, ran, moved⟩ := runs here taken
    cases ran.symm.trans ((Machine.branch_advances here code named jumps).1 advances).2
    exact here.moved moved
  · intro call base s t here advances stays
    have ran := ((Machine.branch_advances here code named jumps).1 advances).2
    have moved := Activation.branch_falls jumps ran stays
    rw [← here.pc_eq]
    exact here.moved moved

end LuaMachine
