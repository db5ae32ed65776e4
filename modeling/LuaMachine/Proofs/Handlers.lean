import LuaMachine.Proofs.Origin

set_option autoImplicit false

namespace LuaMachine

open Vm
open Machine (Scripted Makes)

/-- The same call is running, with the same window. Of what is below `low` only the slots `dest`
have changed, and those written through a cell that was open on them. -/
structure Hidden (dest : List Nat) (low : Nat) (s t : State) : Prop where
  kept : ∃ written, t.escapes = written ++ s.escapes ∧
    (∀ slot ∈ written, slot < low → ∃ id, s.cell id = .opened slot) ∧
    ∀ slot v, slot < low → slot ∉ dest → slot ∉ written → s.stack[slot]? = some v →
      t.stack[slot]? = some v
  opened : ∀ id slot, slot < low → t.cell id = .opened slot → s.cell id = .opened slot
  callers : t.callers = s.callers
  frame : t.frame = { s.frame with pc := t.frame.pc }
  later : Later s t

namespace Hidden

variable {dest : List Nat} {low : Nat} {s t u : State}

theorem of_untouched (untouched : Untouched low s t) (callers : t.callers = s.callers)
    (frame : t.frame = s.frame) (later : Later s t) : Hidden dest low s t where
  kept := by
    obtain ⟨written, escapes, isOpen, kept⟩ := untouched.kept
    exact ⟨written, escapes, isOpen, fun slot v below _ => kept slot v below⟩
  opened := untouched.opened
  callers := callers
  frame := by rw [frame]
  later := later

theorem trans (first : Hidden dest low s t) (second : Hidden dest low t u) :
    Hidden dest low s u where
  kept := by
    obtain ⟨early, escapes, open₁, kept⟩ := first.kept
    obtain ⟨late, escapes', open₂, kept'⟩ := second.kept
    refine ⟨late ++ early, by simp [escapes, escapes'], ?_, ?_⟩
    · intro slot member below
      rcases List.mem_append.1 member with member | member
      · obtain ⟨id, isOpen⟩ := open₂ slot member below
        exact ⟨id, first.opened id slot below isOpen⟩
      · exact open₁ slot member below
    · intro slot v below other notWritten held
      rw [List.mem_append, not_or] at notWritten
      exact kept' slot v below other notWritten.1 (kept slot v below other notWritten.2 held)
  opened id slot below isOpen := first.opened id slot below (second.opened id slot below isOpen)
  callers := second.callers.trans first.callers
  frame := by rw [second.frame, first.frame]
  later := first.later.trans second.later

theorem scripted (hidden : Hidden dest low s t) (scripted : Scripted s) : Scripted t :=
  scripted.later hidden.later (by rw [hidden.frame])

-- Handlers run above the same slot as before.
theorem scratch (hidden : Hidden dest low s t) (scripted : Scripted s) :
    Operation.scratch t = Operation.scratch s := by
  obtain ⟨f, p, cells, function, found⟩ := scripted
  have same : t.frame.function = some f := by rw [hidden.frame, function]
  unfold Operation.scratch
  rw [State.prototype?_script function found,
    State.prototype?_script same (hidden.later.functions f _ found), hidden.frame]

end Hidden

def Hides (dest : List Nat) {α : Type} (x : Vm α) : Prop :=
  ∀ s t b, Scripted s → x s = .ok b t → Hidden dest (Operation.scratch s) s t

namespace Hides

variable {α β : Type} {dest : List Nat} {call : Call} {a : Activation}

theorem bind {x : Vm α} {f : α → Vm β} (first : Hides dest x) (rest : ∀ b, Hides dest (f b)) :
    Hides dest (x >>= f) := by
  intro s u c scripted ran
  obtain ⟨b, t, ran₁, ran₂⟩ := ok_of_bind ran
  have hidden := first s t b scripted ran₁
  have again := rest b t u c (hidden.scripted scripted) ran₂
  exact hidden.trans (hidden.scratch scripted ▸ again)

theorem of_quiet {x : Vm α} (quiet : ∀ low, Quiet low x) (lasting : Lasting x) : Hides dest x := by
  intro s t b scripted ran
  have still := (quiet (Operation.scratch s)).ok ran
  obtain ⟨frame, callers⟩ := State.frames_injective still.frames
  exact .of_untouched still.untouched callers frame (lasting.ok ran)

theorem pure (b : α) : Hides dest (pure b : Vm α) := of_quiet (fun _ => .pure b) (.pure b)

theorem stop (e : Stop) : Hides dest (throw e : Vm α) := of_quiet (fun _ => .stop e) (.stop e)

theorem inspect (f : State → α) : Hides dest (fun s => .ok (f s) s : Vm α) :=
  of_quiet (fun _ => .inspect f) (.inspect f)

theorem read (slot : Nat) : Hides dest (Vm.read slot) := of_quiet (fun _ => .read slot) (.read slot)

theorem write {slot : Nat} (member : slot ∈ dest) (v : Value) : Hides dest (Vm.write slot v) := by
  intro s t b scripted ran
  by_cases bound : slot < s.stack.size
  · rw [write_ok bound] at ran
    cases ran
    refine ⟨⟨[], rfl, by simp, ?_⟩, fun _ _ _ isOpen => isOpen, rfl, rfl, .of_eq rfl rfl rfl⟩
    intro other w below apart _ held
    have different : slot ≠ other := fun same => apart (same ▸ member)
    simpa [Array.getElem?_set, different] using held
  · simp [Vm.write, bound] at ran

theorem movePc (g : Frame → Nat) : Hides dest (modifyFrame fun f => { f with pc := g f }) := by
  intro s t b scripted ran
  cases ran
  exact ⟨⟨[], rfl, by simp, fun _ _ _ _ _ held => held⟩, fun _ _ _ isOpen => isOpen, rfl, rfl,
    .of_eq rfl rfl rfl⟩

theorem callHandler (balanced : call.Balanced) (lasts : call.Lasts) (h : Value)
    (args : List Value) : Hides dest (Operation.callHandler call h args) := by
  intro s v result scripted ran
  have later : Later s v := (Asks.callHandler h args).lasting lasts |>.ok ran
  obtain ⟨t, placed, asked⟩ := Operation.callHandler_run balanced h args s
  obtain ⟨frame, callers⟩ := State.frames_injective placed.frames
  cases called : call (Operation.scratch s) args.length (some 1) t with
  | error e u =>
    rw [called] at asked
    rw [asked] at ran
    cases ran
  | ok n u =>
    rw [called] at asked
    obtain ⟨bound, collected⟩ := asked
    have returned := balanced.ok called
    have below : Untouched (Operation.scratch s) s u := placed.untouched.trans returned.untouched
    rw [collected] at ran
    cases ran
    -- The slot of the result is given back, and so is the end of the window.
    have given : Untouched (Operation.scratch s) u
        { u with
          stack := u.stack.set (Operation.scratch s) .nil bound
          frame := { u.frame with top := s.frame.top } } := by
      refine ⟨⟨[], rfl, by simp, ?_⟩, fun _ _ _ isOpen => isOpen⟩
      intro slot w less _ held
      have different : Operation.scratch s ≠ slot := by omega
      simpa [Array.getElem?_set, different] using held
    refine .of_untouched (below.trans given) (returned.callers.trans callers) ?_ later
    change { u.frame with top := s.frame.top } = s.frame
    rw [returned.frame, frame]

theorem asks (balanced : call.Balanced) (lasts : call.Lasts) {x : Vm α} (asks : Asks call x) :
    Hides dest x := by
  induction asks with
  | bind _ _ first rest => exact bind first rest
  | inspect f => exact inspect f
  | raise e => exact stop (.raised e)
  | modifyTable t f => exact of_quiet (fun _ => .modifyTable t f) (.modifyTable t f)
  | callHandler h args => exact callHandler balanced lasts h args

theorem readMany (slot n : Nat) : Hides dest (Vm.readMany slot n) :=
  of_quiet (fun _ => .readMany slot n) (.readMany slot n)

theorem constant (k : Nat) : Hides dest (a.constant k) := by
  unfold Activation.constant
  split
  · exact pure _
  · exact stop _

theorem rk (x : Nat) : Hides dest (a.rk x) := by
  unfold Activation.rk
  split
  · exact constant _
  · exact read _

theorem upvalue (i : Nat) : Hides dest (a.upvalue i) := by
  refine bind ?_ fun _ => inspect _
  unfold Activation.cell
  split
  · exact pure _
  · exact stop _

theorem skipIf (b : Bool) : Hides dest (Activation.skipIf b) := by
  unfold Activation.skipIf
  split
  · exact movePc fun f => f.pc + 1
  · exact pure ()

section

variable (balanced : call.Balanced) (lasts : call.Lasts)
include balanced lasts

theorem operates {x : Vm α} (operates : Operates call x) : Hides dest x :=
  asks balanced lasts operates.asks

theorem arith {ra : Nat} (member : ra ∈ dest) (op : ArithOp) (w : Word) :
    Hides dest (a.arith call op ra w) :=
  bind (rk _) fun x => bind (rk _) fun y =>
    bind (operates balanced lasts (.arith op x y)) fun v => write member v

theorem arithUnary {ra : Nat} (member : ra ∈ dest) (op : ArithOp) (w : Word) :
    Hides dest (a.arithUnary call op ra w) :=
  bind (read _) fun x => bind (operates balanced lasts (.arith op x x)) fun v => write member v

theorem concatRegisters {ra : Nat} (member : ra ∈ dest) (b c : Nat) :
    Hides dest (a.concatRegisters call ra b c) := by
  have join : Hides dest (Vm.readMany (a.base + b) (c + 1 - b) >>= fun values =>
      Operation.concat call values >>= fun v => Vm.write ra v) :=
    bind (readMany _ _) fun values => bind (operates balanced lasts (.concat values)) fun v =>
      write member v
  unfold Activation.concatRegisters
  split
  · exact bind (stop _) fun _ => join
  · exact join

theorem compare {test : Value → Value → Vm Bool} (tests : ∀ x y, Operates call (test x y))
    (w : Word) : Hides dest (a.compare test w) :=
  bind (rk _) fun x => bind (rk _) fun y => bind (operates balanced lasts (tests x y)) fun _ =>
    skipIf _

end

end Hides

def Opcode.asksHandlers : Opcode → Bool
  | getTabUp | getTable | setTabUp | setTable | self => true
  | add | sub | mul | mod | pow | div | idiv | band | bor | bxor | shl | shr => true
  | unm | bnot | len | concat => true
  | eq | lt | le => true
  | _ => false

namespace Activation

def destinations (a : Activation) (w : Word) : Opcode → List Nat
  | .setTabUp | .setTable | .eq | .lt | .le => []
  | .self => [a.base + w.a, a.base + w.a + 1]
  | _ => [a.base + w.a]

theorem step_hides (a : Activation) {call : Call} (balanced : call.Balanced) (lasts : call.Lasts)
    {w : Word} {op : Opcode} (decoded : w.opcode? = some op) (asks : op.asksHandlers = true) :
    ∃ x, a.step call w = done x ∧ Hides (a.destinations w op) x := by
  have operates {α : Type} {dest : List Nat} {x : Vm α} (found : Operates call x) : Hides dest x :=
    .operates balanced lasts found
  unfold step
  rw [decoded]
  cases op with
  | getTabUp =>
    exact ⟨_, rfl, .bind (.upvalue _) fun t => .bind (.rk _) fun k =>
      .bind (operates (.index t k)) fun v => .write (by simp [destinations]) v⟩
  | getTable =>
    exact ⟨_, rfl, .bind (.read _) fun t => .bind (.rk _) fun k =>
      .bind (operates (.index t k)) fun v => .write (by simp [destinations]) v⟩
  | setTabUp =>
    exact ⟨_, rfl, .bind (.upvalue _) fun t => .bind (.rk _) fun k =>
      .bind (.rk _) fun v => operates (.setIndex t k v)⟩
  | setTable =>
    exact ⟨_, rfl, .bind (.read _) fun t => .bind (.rk _) fun k =>
      .bind (.rk _) fun v => operates (.setIndex t k v)⟩
  | self =>
    exact ⟨_, rfl, .bind (.read _) fun object => .bind (.rk _) fun k =>
      .bind (.write (by simp [destinations]) object) fun _ =>
        .bind (operates (.index object k)) fun v => .write (by simp [destinations]) v⟩
  | unm => exact ⟨_, rfl, .arithUnary balanced lasts (by simp [destinations]) .unm w⟩
  | bnot => exact ⟨_, rfl, .arithUnary balanced lasts (by simp [destinations]) .bnot w⟩
  | len =>
    exact ⟨_, rfl, .bind (.read _) fun v => .bind (operates (.length v)) fun n =>
      .write (by simp [destinations]) n⟩
  | concat => exact ⟨_, rfl, .concatRegisters balanced lasts (by simp [destinations]) w.b w.c⟩
  | eq => exact ⟨_, rfl, .compare balanced lasts Operates.equals w⟩
  | lt => exact ⟨_, rfl, .compare balanced lasts Operates.lessThan w⟩
  | le => exact ⟨_, rfl, .compare balanced lasts Operates.lessEqual w⟩
  | add | sub | mul | mod | pow | div | idiv | band | bor | bxor | shl | shr =>
    exact ⟨_, rfl, .arith balanced lasts (by simp [destinations]) _ w⟩
  | _ => cases asks

end Activation

/-- An instruction that asks handlers, however deep their calls are nested, changes nothing live in
its own call but its destinations and what is written through cells that were open before; the
window ends where it did. -/
theorem dispatch_hidden {host : Host} (propagates : host.Propagates) {call : Call}
    (makes : Makes host call) {s t : State} {a : Activation} {w : Word} {op : Opcode}
    {flow : Call.Flow} (running : Machine.activation s = .ok a s)
    (fetched : a.proto.code[s.frame.pc]? = some w) (decoded : w.opcode? = some op)
    (asks : op.asksHandlers = true) (ran : Machine.stepOnce call s = .ok flow t) :
    flow = .next ∧ t.callers = s.callers ∧ t.frame = { s.frame with pc := t.frame.pc } ∧
    ∃ written, t.escapes = written ++ s.escapes ∧
      (∀ slot ∈ written, slot < max s.frame.top (s.frame.base + a.proto.stackSize.toNat) →
        ∃ id, s.cell id = .opened slot) ∧
      ∀ slot v, slot < max s.frame.top (s.frame.base + a.proto.stackSize.toNat) →
        slot ∉ a.destinations w op → slot ∉ written → s.stack[slot]? = some v →
          t.stack[slot]? = some v := by
  obtain ⟨-, f, function, found⟩ := Machine.activation_ok running
  obtain ⟨x, steps, hides⟩ := a.step_hides (makes.balanced propagates) (makes.lasts propagates)
    decoded asks
  rw [Machine.stepOnce_word running fetched] at ran
  have stepped := Machine.located_ok ran
  rw [steps] at stepped
  obtain ⟨b, u, executed, finished⟩ := ok_of_bind stepped
  cases finished
  have hidden := hides (Machine.advanced s) t b ⟨f, a.proto, a.cells, function, found⟩ executed
  have low : Operation.scratch (Machine.advanced s) =
      max s.frame.top (s.frame.base + a.proto.stackSize.toNat) := by
    unfold Operation.scratch
    rw [State.prototype?_script (t := Machine.advanced s) (f := (Machine.advanced s).frame) function
      found]
    rfl
  rw [low] at hidden
  exact ⟨rfl, hidden.callers, hidden.frame, hidden.kept⟩

-- A function that is about to index a table, with a function for `__index` that returns the key.
def State.indexing : State :=
  let main : Prototype :=
    { source := "@t.lua", stackSize := 3, code := #[.ofABC .getTable 0 1 2], lines := #[1] }
  let byKey : Prototype :=
    { source := "@t.lua", params := 2, stackSize := 2, code := #[.ofABC .ret 1 2 0], lines := #[2] }
  { State.bare {} with
    stack := #[.function ⟨0⟩, .nil, .table ⟨2⟩, .int 7]
    tables := #[.empty, .empty, { Table.empty with metatable := some ⟨3⟩ },
      Table.empty.putText "__index" (.function ⟨1⟩)]
    functions := #[⟨.script main, #[]⟩, ⟨.script byKey, #[]⟩]
    frame := .enter ⟨0⟩ 0 4
    callers := (State.bare {}).callers.push .host }

-- The result is in the first register, and the others are as they were.
theorem dispatch_hidden_indexing :
    ∃ flow t, Machine.stepOnce (Machine.callWithin Command.noHost 3) State.indexing = .ok flow t ∧
      t.stack[1]? = some (.int 7) ∧ t.stack[2]? = some (.table ⟨2⟩) ∧ t.frame.top = 4 := by
  have outcome : (Machine.stepOnce (Machine.callWithin Command.noHost 3)).returns State.indexing
      (fun _ t => t.stack[1]? = some (.int 7) ∧ t.escapes = []) = true := by decide +kernel
  have decoded : Word.opcode? (.ofABC .getTable 0 1 2) = some .getTable := by decide +kernel
  obtain ⟨flow, t, ran, after⟩ := of_returns outcome
  obtain ⟨found, none⟩ := of_decide_eq_true after
  obtain ⟨-, -, frame, written, escapes, -, kept⟩ := dispatch_hidden Command.noHost_propagates
    (.nested 3) (a := ⟨#[], _, 1⟩) (Machine.activation_script rfl rfl) rfl decoded rfl ran
  have empty : written = [] := by
    rw [none] at escapes
    exact (List.append_eq_nil_iff.1 escapes.symm).1
  refine ⟨flow, t, ran, found, ?_, by rw [frame]; rfl⟩
  exact kept 2 _ (by decide +kernel) (by decide +kernel) (by simp [empty]) rfl

end LuaMachine
