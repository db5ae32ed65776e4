import LuaMachine.Proofs.Bounds.Registers
import LuaMachine.Proofs.Lasting
import LuaMachine.Proofs.Raising

set_option autoImplicit false

namespace LuaMachine

open Vm

structure State.Fits (s : State) (f : Frame) : Prop where
  func_le : f.func ≤ f.base
  base_le : f.base ≤ f.top
  top_le : f.top ≤ s.stack.size
  registers : ∀ g, f.function = some g → ∃ c, s.function? g = some c ∧
    ∀ p, c.body = .script p → f.base + p.stackSize.toNat ≤ s.stack.size

structure State.Sound (s : State) : Prop where
  frames : ∀ f ∈ s.frames, s.Fits f
  cells : ∀ id slot, s.cell id = .opened slot → slot < s.stack.size
  tidy : ∀ f p cells, s.function? f = some ⟨.script p, cells⟩ → p.Tidy

/-- The running call executes a concatenation whose last register is more than one before its
first. -/
def State.Crossed (s : State) : Prop :=
  ∃ p w, s.prototype? s.frame = some p ∧ 0 < s.frame.pc ∧ p.code[s.frame.pc - 1]? = some w ∧
    w.opcode? = some .concat ∧ w.c + 1 < w.b

/-- The running call raises a string for a call further below it than 64 bits count. -/
def State.Oversteps (s : State) : Prop :=
  (∃ level, s.AsksLevel level ∧ Base.Oversteps s (s.argument 0) level) ∨ 2 ^ 63 + 1 < s.depth

def Stop.Due (e : Stop) (s : State) : Prop :=
  match e with
  | .outOfRange _ => s.Crossed
  | .overflow => s.Oversteps
  | _ => True

section

variable {s t : State} {f : Frame}

theorem State.Fits.mono (fits : s.Fits f) (size : s.stack.size ≤ t.stack.size)
    (functions : ∀ g c, s.function? g = some c → t.function? g = some c) : t.Fits f where
  func_le := fits.func_le
  base_le := fits.base_le
  top_le := Nat.le_trans fits.top_le size
  registers g calls := by
    obtain ⟨c, found, registers⟩ := fits.registers g calls
    exact ⟨c, functions g c found, fun p script => Nat.le_trans (registers p script) size⟩

theorem State.Sound.frame (sound : s.Sound) : s.Fits s.frame := sound.frames _ List.mem_cons_self

theorem State.Sound.update (sound : s.Sound) (size : s.stack.size ≤ t.stack.size)
    (functions : t.functions = s.functions) (frames : ∀ f ∈ t.frames, f ∈ s.frames ∨ t.Fits f)
    (cells : ∀ id slot, t.cell id = .opened slot →
      s.cell id = .opened slot ∨ slot < t.stack.size) : t.Sound := by
  have same (g : FunctionId) : t.function? g = s.function? g := by
    unfold State.function?
    rw [functions]
  refine ⟨fun f member => ?_, fun id slot isOpen => ?_, fun g p cells found => ?_⟩
  · rcases frames f member with old | fits
    · exact (sound.frames f old).mono size fun g c found => (same g).trans found
    · exact fits
  · rcases cells id slot isOpen with old | inside
    · exact Nat.lt_of_lt_of_le (sound.cells id slot old) size
    · exact inside
  · exact sound.tidy g p cells ((same g).symm.trans found)

end

/-- Where `P` holds the action ends with `Q` or stops in a sound state. It asks for a slot outside
the stack only at a crossed concatenation. -/
structure Clean {α : Type} (P : State → Prop) (x : Vm α) (Q : α → State → Prop) : Prop where
  ok : ∀ {s t : State} {a : α}, P s → x s = .ok a t → Q a t
  error : ∀ {s t : State} {e : Stop}, P s → x s = .error e t →
    t.Sound ∧ e.Due t

namespace Clean

variable {α β : Type} {P P' : State → Prop} {Q Q' : α → State → Prop} {R : β → State → Prop}

theorem of_run {x : Vm α}
    (runs : ∀ s, P s →
      match x s with
      | .ok a t => Q a t
      | .error e t => t.Sound ∧ e.Due t) : Clean P x Q where
  ok pre ran := by
    have post := runs _ pre
    rwa [ran] at post
  error pre ran := by
    have post := runs _ pre
    rwa [ran] at post

theorem run {x : Vm α} (h : Clean P x Q) {s : State} (pre : P s) :
    match x s with
    | .ok a t => Q a t
    | .error e t => t.Sound ∧ e.Due t := by
  cases ran : x s with
  | ok a t => exact h.ok pre ran
  | error e t => exact h.error pre ran

theorem narrow {x : Vm α} (h : Clean P x Q) (pre : ∀ s, P' s → P s) : Clean P' x Q where
  ok holds ran := h.ok (pre _ holds) ran
  error holds ran := h.error (pre _ holds) ran

theorem weaken {x : Vm α} (h : Clean P x Q) (post : ∀ a s, Q a s → Q' a s) : Clean P x Q' where
  ok holds ran := post _ _ (h.ok holds ran)
  error := h.error

-- What is done next may depend on the state in which the first part ends.
theorem bindWith {x : Vm α} {f : α → Vm β} (first : Clean P x Q)
    (rest : ∀ a t, Q a t → Clean (· = t) (f a) R) : Clean P (x >>= f) R where
  ok pre ran := by
    obtain ⟨a, t, begun, goesOn⟩ := ok_of_bind ran
    exact (rest a t (first.ok pre begun)).ok rfl goesOn
  error pre ran := by
    rcases error_of_bind ran with failed | ⟨a, t, begun, failed⟩
    · exact first.error pre failed
    · exact (rest a t (first.ok pre begun)).error rfl failed

theorem bind {x : Vm α} {f : α → Vm β} (first : Clean P x Q) (rest : ∀ a, Clean (Q a) (f a) R) :
    Clean P (x >>= f) R := by
  refine bindWith first fun a t post => (rest a).narrow ?_
  rintro _ rfl
  exact post

theorem pure {a : α} (post : ∀ s, P s → Q a s) : Clean P (pure a : Vm α) Q := .of_run post

theorem inspect (f : State → α) :
    Clean P (fun s => .ok (f s) s : Vm α) (fun a s => P s ∧ a = f s) :=
  .of_run fun _ pre => ⟨pre, rfl⟩

theorem raise (e : LuaError) (sound : ∀ s, P s → s.Sound) : Clean P (Vm.raise e : Vm α) Q :=
  .of_run fun s pre => ⟨sound s pre, trivial⟩

end Clean

structure Placed (base room : Nat) (s : State) : Prop extends s.Sound where
  base_eq : s.frame.base = base
  room_le : room ≤ s.stack.size

theorem Placed.widen {base room room' : Nat} {s : State} (placed : Placed base room s)
    (le : room' ≤ s.stack.size) : Placed base room' s :=
  ⟨placed.toSound, placed.base_eq, le⟩

theorem Placed.mono {base room room' : Nat} {s : State} (placed : Placed base room s)
    (le : room' ≤ room) : Placed base room' s := placed.widen (Nat.le_trans le placed.room_le)

abbrev Safe (base room : Nat) {α : Type} (x : Vm α) : Prop :=
  Clean (Placed base room) x fun _ => Placed base room

theorem Placed.update {base room : Nat} {s t : State} (placed : Placed base room s)
    (size : s.stack.size ≤ t.stack.size) (functions : t.functions = s.functions)
    (frames : t.frames = s.frames)
    (cells : ∀ id slot, t.cell id = .opened slot → s.cell id = .opened slot ∨ slot < t.stack.size) :
    Placed base room t where
  toSound := placed.toSound.update size functions
    (fun _ member => .inl (frames ▸ member)) cells
  base_eq := (State.frames_injective frames).1 ▸ placed.base_eq
  room_le := Nat.le_trans placed.room_le size

-- The running call keeps its place, though its window or its program counter may move.
theorem Placed.reframe {base room : Nat} {s : State} (placed : Placed base room s) {f : Frame}
    (function : f.function = s.frame.function) (func : f.func = s.frame.func)
    (base_eq : f.base = s.frame.base) (low : f.base ≤ f.top) (high : f.top ≤ s.stack.size) :
    Placed base room { s with frame := f } where
  toSound := by
    refine placed.toSound.update (Nat.le_refl _) rfl (fun g member => ?_) fun _ _ => .inl
    have fits := placed.frame
    rcases List.mem_cons.1 member with rfl | waiting
    · refine .inr ⟨func ▸ base_eq ▸ fits.func_le, low, high, fun g calls => ?_⟩
      rw [base_eq]
      exact fits.registers g (function ▸ calls)
    · exact .inl (List.mem_cons_of_mem _ waiting)
  base_eq := base_eq.trans placed.base_eq
  room_le := placed.room_le

namespace Safe

variable {α β : Type} {base room room' : Nat}

theorem pure (a : α) : Safe base room (pure a : Vm α) := Clean.pure fun _ placed => placed

theorem inspect (f : State → α) : Safe base room (fun s => .ok (f s) s : Vm α) :=
  Clean.of_run fun _ placed => placed

theorem raise (e : LuaError) : Safe base room (Vm.raise e : Vm α) :=
  Clean.raise e fun _ placed => placed.toSound

theorem fault (f : Fault) : Safe base room (Vm.fault f : Vm α) := raise _

theorem bind {x : Vm α} {f : α → Vm β} (first : Safe base room x)
    (rest : ∀ a, Safe base room (f a)) : Safe base room (x >>= f) := Clean.bind first rest

-- What follows may count on more room than what is asked for the whole.
theorem after {Q : α → State → Prop} {x : Vm α} {f : α → Vm β}
    (first : Clean (Placed base room) x Q)
    (rest : ∀ a s, Q a s → ∃ more, room ≤ more ∧ Placed base more s ∧ Safe base more (f a)) :
    Safe base room (x >>= f) := by
  refine Clean.bindWith first fun a s holds => ?_
  obtain ⟨more, le, placed, safe⟩ := rest a s holds
  refine (safe.narrow ?_).weaken fun _ _ kept => kept.mono le
  rintro _ rfl
  exact placed

theorem bindState {f : State → Vm α}
    (rest : ∀ s, Placed base s.stack.size s → room ≤ s.stack.size →
      Safe base s.stack.size (f s)) : Safe base room (get >>= f) := by
  refine after (Clean.inspect fun s => s) fun s t holds => ?_
  obtain ⟨placed, rfl⟩ := holds
  have most : Placed base s.stack.size s := placed.widen (Nat.le_refl _)
  exact ⟨_, placed.room_le, most, rest s most placed.room_le⟩

theorem bindFrame {f : Frame → Vm α}
    (rest : ∀ frame more, frame.base = base → base ≤ frame.top → room ≤ more →
      frame.top ≤ more → Safe base more (f frame)) : Safe base room (Vm.frame >>= f) :=
  bindState fun s placed le =>
    rest s.frame _ placed.base_eq (placed.base_eq ▸ placed.frame.base_le) le placed.frame.top_le

theorem total {x : Vm α}
    (runs : ∀ s, Placed base room s → ∃ a t, x s = .ok a t ∧ Placed base room t) :
    Safe base room x := by
  refine Clean.of_run fun s placed => ?_
  obtain ⟨a, t, ran, placed'⟩ := runs s placed
  rw [ran]
  exact placed'

theorem read {slot : Nat} (inside : slot < room) : Safe base room (Vm.read slot) :=
  total fun s placed =>
    ⟨_, s, read_ok (Nat.lt_of_lt_of_le inside placed.room_le), placed⟩

theorem write {slot : Nat} (inside : slot < room) (v : Value) : Safe base room (Vm.write slot v) :=
  total fun s placed =>
    ⟨_, _, write_ok (Nat.lt_of_lt_of_le inside placed.room_le) v,
      placed.update (by simp) rfl rfl fun _ _ => .inl⟩

theorem reserve (size : Nat) :
    Clean (Placed base room) (Vm.reserve size) fun _ => Placed base (max room size) := by
  refine Clean.of_run fun s placed => ?_
  obtain ⟨stack, ran, large, kept⟩ := reserve_run size s
  have still : Still 0 s _ := (Quiet.reserve size).ok ran
  have placed' : Placed base room { s with stack } :=
    placed.update still.size rfl rfl fun _ _ => .inl
  rw [ran]
  exact placed'.widen (Nat.max_le.2 ⟨placed'.room_le, large⟩)

theorem reserveWithHeadroom (size : Nat) :
    Clean (Placed base room) (Vm.reserveWithHeadroom size)
      fun _ => Placed base (max room size) := by
  refine Clean.bind (Clean.inspect id) fun s => ?_
  exact ((reserve (size + s.config.headroom)).narrow fun _ holds => holds.1).weaken
    fun _ _ placed => placed.mono (by omega)

theorem withRoom {x : Vm Unit} {f : Unit → Vm β} {size : Nat}
    (first : Clean (Placed base room) x fun _ => Placed base (max room size))
    (rest : ∀ more, room ≤ more → size ≤ more → Safe base more (f ())) :
    Safe base room (x >>= f) :=
  after first fun _ _ placed => ⟨_, Nat.le_max_left _ _, placed,
    rest _ (Nat.le_max_left _ _) (Nat.le_max_right _ _)⟩

theorem readMany_length {slot n : Nat} (inside : slot + n ≤ room) :
    Clean (Placed base room) (Vm.readMany slot n) fun values s =>
      Placed base room s ∧ values.length = n := by
  induction n generalizing slot with
  | zero => exact Clean.pure fun _ placed => ⟨placed, rfl⟩
  | succ n ih =>
    refine Clean.bind (read (by omega)) fun v => Clean.bind (ih (by omega)) fun rest => ?_
    exact Clean.pure fun _ holds => ⟨holds.1, congrArg (· + 1) holds.2⟩

theorem bindMany {slot n : Nat} {f : List Value → Vm β} (inside : slot + n ≤ room)
    (rest : ∀ values, values.length = n → Safe base room (f values)) :
    Safe base room (Vm.readMany slot n >>= f) :=
  after (readMany_length inside) fun values _ holds =>
    ⟨room, Nat.le_refl _, holds.1, rest values holds.2⟩

theorem readMany {slot n : Nat} (inside : slot + n ≤ room) :
    Safe base room (Vm.readMany slot n) :=
  (readMany_length inside).weaken fun _ _ holds => holds.1

theorem writeMany {slot : Nat} {values : List Value} (inside : slot + values.length ≤ room) :
    Safe base room (Vm.writeMany slot values) := by
  induction values generalizing slot with
  | nil => exact pure ()
  | cons v rest ih =>
    rw [List.length_cons] at inside
    exact bind (write (by omega) v) fun _ => ih (by omega)

theorem clear {slot n : Nat} (inside : slot + n ≤ room ∨ n = 0) :
    Safe base room (Vm.clear slot n) := by
  induction n generalizing slot with
  | zero => exact pure ()
  | succ n ih => exact bind (write (by omega) .nil) fun _ => ih (by omega)

theorem take {slot : Nat} (inside : slot < room) : Safe base room (Vm.take slot) :=
  bind (read inside) fun v => bind (write inside .nil) fun _ => pure v

theorem takeMany {slot n : Nat} (inside : slot + n ≤ room ∨ n = 0) :
    Safe base room (Vm.takeMany slot n) := by
  induction n generalizing slot with
  | zero => exact pure []
  | succ n ih =>
    exact bind (take (by omega)) fun v => bind (ih (by omega)) fun rest => pure (v :: rest)

theorem moveDown {source dest n : Nat} (le : dest ≤ source) (inside : source + n ≤ room ∨ n = 0) :
    Safe base room (Vm.moveDown source dest n) := by
  induction n generalizing source dest with
  | zero => exact pure ()
  | succ n ih =>
    exact bind (take (by omega)) fun v => bind (write (by omega) v) fun _ =>
      ih (by omega) (by omega)

theorem shiftUp {slot n : Nat} (inside : slot + n < room) :
    Safe base room (Vm.shiftUp slot n) := by
  induction n with
  | zero => exact pure ()
  | succ n ih =>
    exact bind (read (by omega)) fun v => bind (write (by omega) v) fun _ => ih (by omega)

theorem heap {f : State → α × State} (store : ∀ s, (f s).2.toStore = s.toStore)
    (functions : ∀ s, (f s).2.functions = s.functions) (frames : ∀ s, (f s).2.frames = s.frames) :
    Safe base room (modifyGet f) := by
  refine total fun s placed => ⟨_, _, rfl, placed.update ?_ (functions s) (frames s) ?_⟩
  · exact Nat.le_of_eq (congrArg (·.stack.size) (store s).symm)
  · intro id slot isOpen
    rw [store s] at isOpen
    exact .inl isOpen

theorem newTable (t : Table) : Safe base room (Vm.newTable t) :=
  heap (fun _ => rfl) (fun _ => rfl) fun _ => rfl

theorem modifyTable (t : TableId) (f : Table → Table) : Safe base room (Vm.modifyTable t f) :=
  heap (fun _ => rfl) (fun _ => rfl) fun _ => rfl

theorem newFunction {c : Closure} (tidy : ∀ p, c.body = .script p → p.Tidy) :
    Safe base room (Vm.newFunction c) := by
  refine total fun s placed => ⟨_, _, rfl, ⟨?_, ?_, ?_⟩, placed.base_eq, placed.room_le⟩
  · intro f member
    exact (placed.frames f member).mono (Nat.le_refl _) ((Lasting.newFunction c).ok rfl).functions
  · exact placed.cells
  · intro g p cells found
    change (s.functions.push c)[g.index]? = _ at found
    rw [Array.getElem?_push] at found
    split at found
    · exact tidy p (Option.some.inj found ▸ rfl)
    · exact placed.tidy g p cells found

theorem newCell {c : Cell} (inside : ∀ slot, c = .opened slot → slot < room) :
    Safe base room (Vm.newCell c) := by
  refine total fun s placed => ⟨_, _, rfl, placed.update (Nat.le_refl _) rfl rfl ?_⟩
  intro id slot isOpen
  change (s.toStore.newCell c).2.cell id = _ at isOpen
  rw [Store.cell_newCell] at isOpen
  split at isOpen
  · exact .inr (Nat.lt_of_lt_of_le (inside slot isOpen) placed.room_le)
  · exact .inl isOpen

theorem newCells (values : List Value) : Safe base room (Vm.newCells values) := by
  induction values with
  | nil => exact pure []
  | cons v rest ih => exact bind (newCell nofun) fun id => bind ih fun ids => pure (id :: ids)

theorem newNative (f : Native) (captured : List Value) :
    Safe base room (Vm.newNative f captured) :=
  bind (newCells captured) fun _ => newFunction nofun

theorem tick : Safe base room Vm.tick := by
  refine Clean.of_run fun s placed => ?_
  unfold Vm.tick
  split
  next a t ran =>
    split at ran <;> cases ran
    exact placed.update (Nat.le_refl _) rfl rfl fun _ _ => .inl
  next e t ran =>
    split at ran <;> cases ran
    exact ⟨placed.toSound, trivial⟩

theorem setCell (id : CellId) (v : Value) :
    Safe base room (modify fun s => { s with toStore := s.toStore.setCell id v }) := by
  refine total fun s placed => ⟨_, _, rfl, ?_⟩
  cases was : s.cell id with
  | opened slot =>
    have set : s.toStore.setCell id v = s.toStore.setSlot slot v := by
      simp only [Store.setCell, was, Store.setSlot]
    refine placed.update ?_ rfl rfl fun other slot isOpen => ?_
    · simp [set, Store.setSlot]
    · change (s.toStore.setCell id v).cell other = _ at isOpen
      rw [set] at isOpen
      exact .inl isOpen
  | closed w =>
    have stack : (s.toStore.setCell id v).stack = s.stack := by simp [Store.setCell, was]
    refine placed.update (Nat.le_of_eq (congrArg _ stack.symm)) rfl rfl fun other slot isOpen => ?_
    exact .inl ((Store.cell_setCell_closed was other slot).1 isOpen)

theorem writeCell (id : CellId) (v : Value) : Safe base room (Vm.writeCell id v) := by
  refine bindState fun s placed le => ?_
  split
  next slot was =>
    refine bind (write (placed.cells id slot was) v) fun _ => ?_
    exact heap (fun _ => rfl) (fun _ => rfl) fun _ => rfl
  next => exact setCell id v

theorem modifyFrame {g : Frame → Frame} (function : ∀ f, (g f).function = f.function)
    (func : ∀ f, (g f).func = f.func) (base_eq : ∀ f, (g f).base = f.base)
    (window : ∀ f, f.base = base → f.base ≤ f.top → (g f).base ≤ (g f).top ∧
      ((g f).top ≤ f.top ∨ (g f).top ≤ room)) : Safe base room (Vm.modifyFrame g) := by
  refine total fun s placed => ⟨_, _, rfl, ?_⟩
  have fits := placed.frame
  have room_le := placed.room_le
  obtain ⟨low, high⟩ := window s.frame placed.base_eq fits.base_le
  refine placed.reframe (function _) (func _) (base_eq _) low ?_
  have := fits.top_le
  omega

theorem setTop {top : Nat} (low : base ≤ top) (high : top ≤ room) :
    Safe base room (Vm.setTop top) :=
  modifyFrame (fun _ => rfl) (fun _ => rfl) (fun _ => rfl)
    fun _ base_eq _ => ⟨base_eq ▸ low, .inr high⟩

theorem movePc (g : Frame → Nat) :
    Safe base room (Vm.modifyFrame fun f => { f with pc := g f }) :=
  modifyFrame (fun _ => rfl) (fun _ => rfl) (fun _ => rfl)
    fun f _ window => ⟨window, .inl (Nat.le_refl f.top)⟩

theorem captureSlot {slot : Nat} (inside : slot < room) :
    Safe base room (Vm.captureSlot slot) := by
  refine bindState fun s placed le => ?_
  split
  · exact pure _
  · refine bind (newCell ?_) fun id => bind ?_ fun _ => pure id
    · rintro _ ⟨⟩
      omega
    · exact modifyFrame (fun _ => rfl) (fun _ => rfl) (fun _ => rfl)
        fun f _ window => ⟨window, .inl (Nat.le_refl f.top)⟩

theorem closeFrom (low : Nat) : Safe base room (Vm.closeFrom low) := by
  refine total fun s placed => ⟨_, _, closeFrom_run low s, ?_⟩
  have fits := placed.frame
  have moved := placed.reframe (f := ((Vm.closeFrom low).after s).frame) (by rw [frame_closeFrom])
    (by rw [frame_closeFrom]) (by rw [frame_closeFrom])
    (by rw [frame_closeFrom]; exact fits.base_le) (by rw [frame_closeFrom]; exact fits.top_le)
  refine moved.update ?_ rfl rfl fun id slot isOpen => .inl (opened_closeFrom low s id slot isOpen)
  exact Nat.le_of_eq (congrArg Array.size (stack_closeFrom low s).symm)

end Safe

namespace Clean

variable {α : Type} {base room : Nat}

-- What is safe in every call is so in the one that happens to be running.
theorem of_placed {room' : Nat} {x : Vm α}
    (clean : ∀ base, Clean (Placed base room) x fun _ => Placed base room') :
    Clean (fun s => s.Sound ∧ room ≤ s.stack.size) x
      fun _ t => t.Sound ∧ room' ≤ t.stack.size := by
  have placed {s : State} (pre : s.Sound ∧ room ≤ s.stack.size) : Placed s.frame.base room s :=
    ⟨pre.1, rfl, pre.2⟩
  refine ⟨fun pre ran => ?_, fun pre ran => (clean _).error (placed pre) ran⟩
  have placed' := (clean _).ok (placed pre) ran
  exact ⟨placed'.toSound, placed'.room_le⟩

theorem knowing {P : State → Prop} {Q : α → State → Prop} {x : Vm α} (clean : Clean P x Q)
    (lasting : Lasting x) (f : FunctionId) (c : Closure) :
    Clean (fun s => P s ∧ s.function? f = some c) x
      fun a t => Q a t ∧ t.function? f = some c where
  ok pre ran := ⟨clean.ok pre.1 ran, (lasting.ok ran).functions f c pre.2⟩
  error pre ran := clean.error pre.1 ran

theorem given {R : Prop} {P : State → Prop} {Q : α → State → Prop} {x : Vm α}
    (always : ∀ s, P s → R) (clean : R → Clean P x Q) : Clean P x Q where
  ok pre ran := (clean (always _ pre)).ok pre ran
  error pre ran := (clean (always _ pre)).error pre ran

theorem pushFrame {f : Frame} :
    Clean (fun s => s.Sound ∧ s.Fits f) (Vm.pushFrame f) fun _ t => t.Sound := by
  refine Clean.of_run ?_
  rintro s ⟨sound, fits⟩
  refine sound.update (Nat.le_refl _) rfl (fun g member => ?_) fun _ _ => .inl
  rcases List.mem_cons.1 member with rfl | waiting
  · exact .inr ⟨fits.func_le, fits.base_le, fits.top_le, fits.registers⟩
  · exact .inl waiting

theorem popFrame : Clean (Placed base room) Vm.popFrame fun f t =>
    (t.Sound ∧ room ≤ t.stack.size) ∧ t.Fits f ∧ f.base = base := by
  refine Clean.bind (Clean.inspect fun s => s) fun s => ?_
  split
  next => exact Clean.raise _ fun _ holds => holds.1.toSound
  next caller rest popped =>
    refine Clean.of_run ?_
    rintro _ ⟨placed, rfl⟩
    have sound := placed.toSound
    refine ⟨⟨sound.update (Nat.le_refl _) rfl (fun g member => .inl ?_) fun _ _ => .inl,
      placed.room_le⟩, sound.frame.mono (Nat.le_refl _) fun _ _ found => found, placed.base_eq⟩
    rw [State.frames, Callers.frames_of_pop popped]
    exact List.mem_cons_of_mem _ member

end Clean

end LuaMachine
