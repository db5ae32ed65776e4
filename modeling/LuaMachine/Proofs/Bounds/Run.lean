import LuaMachine.Proofs.Bounds.Hosts
import LuaMachine.Proofs.Origin

set_option autoImplicit false

namespace LuaMachine

open Vm

section

variable {call : Call} (balanced : call.Balanced) (contained : call.Contained)

namespace Activation

variable {a : Activation} {room : Nat} {w : Word}

theorem step_crossed (a : Activation) (call : Call) (concat : w.opcode? = some .concat)
    (crossed : w.c + 1 < w.b) (s : State) :
    a.step call w s = .error (.outOfRange (a.base + w.b)) s := by
  unfold step
  rw [concat]
  dsimp only
  unfold concatRegisters
  rw [if_pos crossed]
  rfl

include balanced contained in
theorem tailCall_clean (inside : a.base + w.a + max w.b 1 ≤ room)
    (tail : w.opcode? = some .tailCall) :
    Clean (Placed a.base room) (a.step call w) fun _ t => t.Sound := by
  unfold step
  rw [tail]
  refine Clean.bind (argCount_clean inside) fun n => ?_
  exact (Call.tail_clean balanced contained (Nat.le_add_right _ _) (Nat.le_refl _)).narrow
    fun _ holds => holds.1.widen holds.2

theorem ret_clean (inside : a.base + w.a + (w.b - 1) ≤ room) (ret : w.opcode? = some .ret) :
    Clean (Placed a.base room) (a.step call w) fun _ t => t.Sound := by
  have returns (n : Nat) :
      Clean (fun s => Placed a.base room s ∧ a.base + w.a + n ≤ s.stack.size)
        (do return Call.Flow.returned (← Call.returnFrom (a.base + w.a) n)) fun _ t => t.Sound :=
    (Call.returned_clean (Nat.le_add_right _ _) (.inl (Nat.le_refl _))).narrow
      fun _ holds => holds.1.widen holds.2
  unfold step
  rw [ret]
  dsimp only
  split
  · exact Clean.bind (countFrom_clean (by omega)) returns
  · exact Clean.bind (given_clean _ inside) returns

include balanced contained in
theorem step_clean (tidy : a.proto.Tidy) (registers : a.base + a.proto.stackSize.toNat ≤ room)
    (reach : w.reach ≤ a.proto.stackSize.toNat) :
    Clean (fun s => Placed a.base room s ∧ (w.opcode? = some .concat → w.c + 1 < w.b → s.Crossed))
      (a.step call w) fun _ t => t.Sound := by
  by_cases tail : w.opcode? = some .tailCall
  · simp only [Word.reach, tail] at reach
    exact (tailCall_clean balanced contained (by omega) tail).narrow fun _ holds => holds.1
  by_cases ret : w.opcode? = some .ret
  · simp only [Word.reach, ret] at reach
    exact (ret_clean (by omega) ret).narrow fun _ holds => holds.1
  by_cases crossed : w.opcode? = some .concat ∧ w.c + 1 < w.b
  · refine Clean.of_run ?_
    rintro s ⟨placed, here⟩
    rw [step_crossed a call crossed.1 crossed.2]
    exact ⟨placed.toSound, here crossed.1 crossed.2⟩
  · have ordered (concat : w.opcode? = some .concat) : w.b ≤ w.c + 1 :=
      Nat.le_of_not_lt fun lt => crossed ⟨concat, lt⟩
    obtain ⟨x, steps, safe⟩ :=
      step_safe balanced contained tidy registers reach ordered tail ret
    rw [steps]
    exact Clean.bind (safe.narrow fun _ holds => holds.1)
      fun _ => Clean.pure fun _ placed => placed.toSound

end Activation

namespace Machine

variable {s : State}

theorem located_clean {α : Type} {P : State → Prop} {Q : α → State → Prop} {x : Vm α}
    (clean : Clean P x Q) (p : Routine) (pc : Nat) : Clean P (located p pc x) Q := by
  refine Clean.of_run fun s pre => ?_
  unfold located
  cases ran : x s with
  | ok a t => exact clean.ok pre ran
  | error e t =>
    have stopped := clean.error pre ran
    cases e with
    | raised e => exact ⟨stopped.1, trivial⟩
    | outOfRange _ | overflow | exhausted => exact stopped

theorem activation_safe {base room : Nat} : Safe base room activation := by
  refine .bind (.inspect id) fun s => ?_
  split
  · exact .fault _
  · split
    · exact .pure _
    · exact .fault _

theorem script_of_prototype? {f : Frame} {p : Prototype} (found : s.prototype? f = some p) :
    ∃ g cells, f.function = some g ∧ s.function? g = some ⟨.script p, cells⟩ := by
  unfold State.prototype? at found
  obtain ⟨g, calls, found⟩ := Option.bind_eq_some_iff.1 found
  obtain ⟨⟨body, cells⟩, known, found⟩ := Option.bind_eq_some_iff.1 found
  cases body with
  | script q =>
    cases found
    exact ⟨g, cells, calls, known⟩
  | native n => cases found

theorem stepOnce_crossed (call : Call) (crossed : (advanced s).Crossed) :
    ∃ slot, stepOnce call s = .error (.outOfRange slot) (advanced s) := by
  obtain ⟨p, w, running, -, code, concat, reversed⟩ := crossed
  obtain ⟨f, cells, function, script⟩ := script_of_prototype? running
  have found : activation s = .ok ⟨cells, p, s.frame.base⟩ s := activation_script function script
  refine ⟨s.frame.base + w.b, ?_⟩
  rw [stepOnce_word found code, located, Activation.step_crossed _ call concat reversed]

include balanced contained in
theorem stepOnce_clean : Clean State.Sound (stepOnce call) fun _ t => t.Sound := by
  refine Clean.of_run fun s sound => ?_
  rcases activation_run s with ⟨f, p, cells, function, script⟩ | ⟨e, failed⟩
  · have found := activation_script function script
    obtain ⟨c, known, registers⟩ := sound.frame.registers f function
    cases script.symm.trans known
    have tidy := sound.tidy f p cells script
    have placed : Placed s.frame.base (s.frame.base + p.stackSize.toNat) s :=
      ⟨sound, rfl, registers p rfl⟩
    cases code : p.code[s.frame.pc]? with
    | none =>
      rw [stepOnce_end found code]
      exact (Call.returned_clean (Nat.le_refl _) (.inr rfl)).run placed
    | some w =>
      have moved : Placed s.frame.base (s.frame.base + p.stackSize.toNat) (advanced s) :=
        (Safe.movePc fun f => f.pc + 1).ok placed rfl
      rw [stepOnce_word found code]
      have steps := Activation.step_clean (a := ⟨cells, p, s.frame.base⟩) balanced contained tidy
        (Nat.le_refl _) (tidy.reach_le code)
      exact (located_clean steps _ _).run
        ⟨moved, fun concat crossed =>
          ⟨p, w, State.prototype?_script function script, Nat.succ_pos _, code, concat, crossed⟩⟩
  · have run : stepOnce call s = .error e s := bind_error failed _
    rw [run]
    have placed : Placed s.frame.base 0 s := ⟨sound, rfl, Nat.zero_le _⟩
    exact activation_safe.error placed failed

include balanced contained in
theorem loop_clean (fuel : Nat) : Clean State.Sound (loop call fuel) fun _ t => t.Sound := by
  induction fuel with
  | zero => exact Clean.of_run fun s sound => ⟨sound, trivial⟩
  | succ fuel ih =>
    have ticks : Clean State.Sound tick fun _ t => t.Sound :=
      ((Clean.of_placed fun _ => Safe.tick).narrow fun _ sound => ⟨sound, Nat.zero_le _⟩).weaken
        fun _ _ holds => holds.1
    refine Clean.bind ticks fun _ => Clean.bind (stepOnce_clean balanced contained) fun flow => ?_
    cases flow with
    | next => exact ih
    | returned n => exact Clean.pure fun _ sound => sound

theorem accept_clean {base room func nargs : Nat} (inside : func + 1 + nargs ≤ room) :
    Clean (Placed base room) (accept func nargs) fun (c, f, n) t =>
      Calling f c (func + 1 + n) t ∧ t.frame.base = base := by
  have finds : Clean (Placed base room) (callee func nargs) fun entry t =>
      Calling entry.2.1 entry.1 (func + 1 + entry.2.2) t ∧ t.frame.base = base := by
    refine Clean.bind (Call.resolve_clean inside) fun found => ?_
    obtain ⟨f, n⟩ := found
    refine Clean.bind (Clean.inspect id) fun s => ?_
    dsimp only
    split
    next => exact Clean.raise _ fun _ holds => holds.1.1.toSound
    next closure found =>
      refine Clean.pure ?_
      rintro t ⟨⟨placed, enough⟩, rfl⟩
      exact ⟨⟨placed.toSound, enough, found⟩, placed.base_eq⟩
  refine Clean.bind Safe.tick fun _ => Clean.bind (Safe.inspect id) fun s => ?_
  dsimp only
  split
  · exact Clean.bind (Safe.raise _) fun _ => finds
  · exact finds

variable {host : Host} (careful : host.Careful)

include balanced contained careful in
theorem native_safe {base room : Nat} (n : Native) : Safe base room (native host call n) := by
  cases n with
  | base f => exact Base.run_safe balanced contained f
  | host name => exact .indexed balanced contained (careful name call)

include balanced contained careful in
theorem enter_clean (fuel : Nat) {func n : Nat} {c : Closure} {f : FunctionId}
    (wanted : Option Nat) :
    Clean (fun s => Calling f c (func + 1 + n) s ∧ s.frame.base ≤ func)
      (enter host call fuel func wanted (c, f, n)) fun _ t => t.Sound := by
  obtain ⟨body, cells⟩ := c
  cases body with
  | native m =>
    exact Call.native_clean (native_acts careful.propagates balanced m _)
      (native_safe balanced contained careful m) wanted
  | script p =>
    refine Clean.of_run ?_
    rintro s ⟨calling, low⟩
    have steps : enter host call fuel func wanted (⟨.script p, cells⟩, f, n) s =
        (Call.enterScript f p func n >>= fun _ => loop call fuel >>= fun n =>
          Call.adjustResults func n wanted) s := rfl
    rw [steps]
    have begins := Call.enterScript_begins f p func n s
    cases entered : Call.enterScript f p func n s with
    | error e t =>
      rw [bind_error entered]
      exact Call.enterScript_clean.error calling entered
    | ok _ t =>
      rw [entered] at begins
      rw [bind_ok entered]
      have sound : t.Sound := Call.enterScript_clean.ok calling entered
      have runs := loop_run balanced fuel begins.1
      cases ran : loop call fuel t with
      | error e u =>
        rw [bind_error ran]
        exact (loop_clean balanced contained fuel).error sound ran
      | ok k u =>
        -- The call has ended, and its caller is where it was.
        rw [ran] at runs
        rw [bind_ok ran]
        have caller : u.frame = s.frame := (State.frames_injective runs.1).1
        have placed : Placed s.frame.base 0 u :=
          ⟨(loop_clean balanced contained fuel).ok sound ran, congrArg Frame.base caller,
            Nat.zero_le _⟩
        exact ((Call.adjustResults_safe low k wanted).weaken fun _ _ placed =>
          placed.toSound).run placed

include balanced contained careful in
theorem invoke_contained (fuel : Nat) : (invoke host call fuel).Contained := by
  intro func nargs wanted
  rw [invoke_eq]
  refine Clean.of_run ?_
  rintro s ⟨sound, low, inside⟩
  have enters : Clean (Placed s.frame.base (func + 1 + nargs))
      (accept func nargs >>= enter host call fuel func wanted) fun _ t => t.Sound := by
    refine Clean.bind (accept_clean (Nat.le_refl _)) fun entry => ?_
    obtain ⟨c, f, n⟩ := entry
    refine (enter_clean balanced contained careful fuel wanted).narrow ?_
    rintro t ⟨calling, same⟩
    exact ⟨calling, same ▸ low⟩
  exact enters.run ⟨sound, rfl, inside⟩

end Machine

end

namespace Machine

variable {host : Host} (careful : host.Careful)
include careful

theorem callWithin_contained (fuel : Nat) : (callWithin host fuel).Contained := by
  induction fuel with
  | zero => exact fun _ _ _ => Clean.of_run fun s pre => ⟨pre.1, trivial⟩
  | succ fuel ih =>
    exact invoke_contained (callWithin_balanced careful.propagates fuel) ih careful fuel

theorem call_contained : (Machine.call host).Contained := fun func nargs wanted =>
  Clean.of_run fun s pre =>
    (callWithin_contained careful (s.budget + 1) func nargs wanted).run pre

end Machine

theorem State.bare_sound (config : Config) : (bare config).Sound where
  frames f member := by
    cases List.mem_singleton.1 member
    exact ⟨Nat.le_refl _, Nat.le_refl _, Nat.zero_le _, nofun⟩
  cells id slot isOpen := by
    have closed : (bare config).cell id = .closed .nil := rfl
    rw [closed] at isOpen
    cases isOpen
  tidy f p cells found := by
    have none : (bare config).function? f = none := rfl
    rw [none] at found
    cases found

theorem Base.openLibrary_safe (base room : Nat) : Safe base room Base.openLibrary := by
  have global (name : String) (v : Value) : Safe base room (setGlobal name v) :=
    .bind (.inspect id) fun s => .modifyTable s.globals _
  unfold openLibrary
  generalize names = entries
  refine .bind ?_ fun _ => .bind (.inspect id) fun s =>
    .bind (global _ (.table s.globals)) fun _ => global _ _
  induction entries with
  | nil => exact .pure _
  | cons entry rest ih =>
    exact .bind (.bind (.newNative _ _) fun f => global _ (.function f)) fun _ => ih

theorem State.new_sound (config : Config) : (new config).Sound := by
  have placed : Placed 0 0 (bare config) := ⟨bare_sound config, rfl, Nat.zero_le _⟩
  unfold new
  split
  next s ran => exact ((Base.openLibrary_safe 0 0).ok placed ran).toSound
  next s ran => exact ((Base.openLibrary_safe 0 0).error placed ran).1

theorem Machine.executePrototype_indexed (host : Host) {p : Prototype} (tidy : p.Tidy) :
    Indexed (Machine.call host) (Machine.executePrototype host p) :=
  .bind (.windowed .size) fun mark => .bind (.loadPrototype tidy) fun _ =>
    .bind (.windowed (.host 0 none)) fun _ => .bind .values fun _ =>
      .bind (.windowed (.resize mark)) fun _ => .windowed (.pure _)

/-- The action leaves a sound state. Where it has no result there is an error, or the budget is used
up, or a concatenation is crossed, or a script asks `error` for a level beyond all calls. -/
structure Vm.Orderly {α : Type} (x : Vm α) (s : State) : Prop where
  sound : (x.after s).Sound
  stop : ∀ {e : Stop} {t : State}, x s = .error e t →
    (∃ error, e = .raised error) ∨ e = .exhausted ∨
      (∃ slot, e = .outOfRange slot) ∧ t.Crossed ∨ e = .overflow ∧ t.Oversteps

theorem Indexed.orderly {host : Host} (careful : host.Careful) {α : Type} {x : Vm α}
    (indexed : Indexed (Machine.call host) x) {s : State} (sound : s.Sound) : x.Orderly s := by
  have safe : Safe s.frame.base 0 x :=
    .indexed (Machine.call_balanced careful.propagates) (Machine.call_contained careful) indexed
  have placed : Placed s.frame.base 0 s := ⟨sound, rfl, Nat.zero_le _⟩
  constructor
  · unfold after
    cases ran : x s with
    | ok a t => exact (safe.ok placed ran).toSound
    | error e t => exact (safe.error placed ran).1
  · intro e t ran
    have stopped := safe.error placed ran
    cases e with
    | raised error => exact .inl ⟨error, rfl⟩
    | exhausted => exact .inr (.inl rfl)
    | outOfRange slot => exact .inr (.inr (.inl ⟨⟨slot, rfl⟩, stopped.2⟩))
    | overflow => exact .inr (.inr (.inr ⟨rfl, stopped.2⟩))

/-- What is computed from operands is in the range of the integers it is computed in: offsets of
jumps in 32 bits with a sign, their targets and the keys of list items in 64, the blocks of lists in
32 without. -/
structure Word.InRange (w : Word) : Prop where
  offset : -2 ^ 31 ≤ w.sbx ∧ w.sbx + 1 < 2 ^ 31
  -- A memory of 64 bits has no room for more than 2 ^ 61 words.
  target : ∀ (p : Prototype) (pc : Nat), p.code[pc]? = some w → p.code.size ≤ 2 ^ 61 →
    -2 ^ 63 ≤ pc + 1 + w.sbx ∧ pc + 1 + (w.sbx + 1) < 2 ^ 63
  block : ∀ block, block = w.c ∨ block = w.ax → (block - 1) * Activation.listBlock < 2 ^ 32
  key : ∀ block, block = w.c ∨ block = w.ax → ∀ j, j < 2 ^ 62 →
    (block - 1) * Activation.listBlock + j < 2 ^ 63
  -- A size of 8 or more is shifted by one less than its upper bits.
  shift : ∀ size, size = w.b ∨ size = w.c → 8 ≤ size → 1 ≤ size >>> 3 ∧ size >>> 3 - 1 < 64

theorem Word.inRange (w : Word) : w.InRange := by
  have b : w.b < 2 ^ 9 := w.field_lt 23 9
  have c : w.c < 2 ^ 9 := w.field_lt 14 9
  have bx : w.bx < 2 ^ 18 := w.field_lt 14 18
  have ax : w.ax < 2 ^ 26 := w.field_lt 6 26
  have block (n : Nat) (operand : n = w.c ∨ n = w.ax) :
      (n - 1) * Activation.listBlock < 2 ^ 32 := by
    unfold Activation.listBlock
    omega
  refine ⟨?_, fun p pc found small => ?_, block, fun n operand j few => ?_,
    fun n operand large => ?_⟩
  · unfold sbx bias
    omega
  · have := (Array.getElem?_eq_some_iff.1 found).1
    unfold sbx bias
    omega
  · have := block n operand
    omega
  · rw [Nat.shiftRight_eq_div_pow]
    omega

/-- Tidy code keeps to the stack whatever its other operands are, for any budget and whatever ran
before it. The one exception is a concatenation whose last register is more than one before its
first: it stops the machine without an error. Only `error` may do so too, when it is asked for a
level so far below all calls that 64 bits do not count it. -/
theorem tidyCode_contained {host : Host} (careful : host.Careful) :
    (∀ config, (State.new config).Sound) ∧
    (∀ p : Prototype, p.Tidy → ∀ s : State, s.Sound →
      (Machine.executePrototype host p).Orderly s) ∧
    (∀ {α : Type} (x : Vm α), Indexed (Machine.call host) x → ∀ s : State, s.Sound →
      x.Orderly s) ∧
    (∀ (call : Call) (s : State), (Machine.advanced s).Crossed →
      ∃ slot, Machine.stepOnce call s = .error (.outOfRange slot) (Machine.advanced s)) ∧
    ∀ w : Word, w.InRange :=
  ⟨State.new_sound,
    fun _ tidy _ sound => (Machine.executePrototype_indexed host tidy).orderly careful sound,
    fun _ indexed _ sound => indexed.orderly careful sound,
    fun call _ crossed => Machine.stepOnce_crossed call crossed,
    Word.inRange⟩

theorem Command.noHost_careful : noHost.Careful := fun name _ => .windowed (.fault (.host name))

-- Concatenates registers 2 to 0.
def crossedCode : Prototype :=
  { source := "", stackSize := 4, code := #[.ofABC .concat 0 2 0, .ofABC .ret 0 1 0] }

theorem crossedCode_tidy : crossedCode.Tidy := by
  refine .intro (by decide) ?_ ?_ ?_
  · decide +kernel
  · exact fun q inside => absurd inside List.not_mem_nil
  · exact fun q inside => absurd inside List.not_mem_nil

theorem tidyCode_contained_crossed : crossedCode.Tidy ∧ (State.new {}).Sound ∧
    (Machine.executePrototype Command.noHost crossedCode).Orderly (.new {}) := by
  have ⟨new, runs, _⟩ := tidyCode_contained Command.noHost_careful
  exact ⟨crossedCode_tidy, new {}, runs crossedCode crossedCode_tidy (.new {}) (new {})⟩

def outOfRange? {α : Type} : EStateM.Result Stop State α → Option Nat
  | .error (.outOfRange slot) _ => some slot
  | _ => none

theorem tidyCode_outOfRange : crossedCode.Tidy ∧
    outOfRange? (Machine.executePrototype Command.noHost crossedCode (.new {})) = some 3 :=
  ⟨crossedCode_tidy, by decide +kernel⟩

end LuaMachine
