import LuaMachine.Proofs.Depth
import LuaMachine.Proofs.ForLoop.Count

set_option autoImplicit false

namespace LuaMachine

open Vm

namespace Holds

variable {s : State} {slot i : Nat} {v : Value} {values : List Value}

theorem read (h : Holds s.stack slot values) (found : values[i]? = some v) :
    Vm.read (slot + i) s = .ok v s := by
  unfold Vm.read
  rw [h i v found]

theorem write (h : Holds s.stack slot values) (inside : i < values.length) (v : Value) :
    ∃ stack, Vm.write (slot + i) v s = .ok () { s with stack } ∧
      Holds stack slot (values.set i v) := by
  obtain ⟨bound, -⟩ := Array.getElem?_eq_some_iff.1 (h i _ (List.getElem?_eq_getElem inside))
  refine ⟨_, write_ok bound v, fun j w found => ?_⟩
  rw [List.getElem?_set] at found
  by_cases same : i = j
  · subst same
    rw [if_pos rfl, if_pos inside] at found
    rw [Array.getElem?_set_self bound]
    exact found
  · rw [if_neg same] at found
    rw [Array.getElem?_set_ne bound (by omega)]
    exact h j w found

end Holds

namespace Activation

variable {s : State} {ra : Nat} {offset : Int} {init limit step old : Value}

theorem jump_run {target : Nat} (lands : (s.frame.pc : Int) + offset = target) :
    jump offset s = .ok () { s with frame := { s.frame with pc := target } } := by
  change (if (s.frame.pc : Int) + offset < 0 then _ else _ : Vm Unit) s = _
  rw [lands, if_neg (by omega)]
  rfl

theorem prepareLoop_skip (holds : Holds s.stack ra [init, limit, step, old])
    (started : ForLoop.start init limit step = .ok .skip) :
    prepareLoop ra offset s = jump (offset + 1) s := by
  refine (bind_ok (holds.read (i := 0) rfl) _).trans ((bind_ok (holds.read (i := 1) rfl) _).trans
    ((bind_ok (holds.read (i := 2) rfl) _).trans ?_))
  rw [started]

theorem prepareLoop_counted (holds : Holds s.stack ra [init, limit, step, old]) {rounds : UInt64}
    (started : ForLoop.start init limit step = .ok (.counted rounds)) :
    ∃ stack, prepareLoop ra offset s = .ok () { s with stack } ∧
      Holds stack ra [init, .int rounds.toInt64, step, init] := by
  obtain ⟨counted, wrote, held⟩ := holds.write (i := 1) (by simp) (.int rounds.toInt64)
  obtain ⟨stack, wrote', held'⟩ :=
    Holds.write (s := { s with stack := counted }) held (i := 3) (by simp) init
  refine ⟨stack, ?_, held'⟩
  refine (bind_ok (holds.read (i := 0) rfl) _).trans ((bind_ok (holds.read (i := 1) rfl) _).trans
    ((bind_ok (holds.read (i := 2) rfl) _).trans ?_))
  rw [started]
  refine (bind_ok wrote _).trans ?_
  exact (bind_ok (Holds.read (s := { s with stack := counted }) held (i := 0) rfl) _).trans wrote'

variable {index stride : Int64} {left : UInt64}

theorem nextRound_over
    (holds : Holds s.stack ra [.int index, .int (0 : UInt64).toInt64, .int stride, old]) :
    nextRound ra offset s = .ok () s :=
  (bind_ok (holds.read (i := 0) rfl) _).trans ((bind_ok (holds.read (i := 1) rfl) _).trans
    (bind_ok (holds.read (i := 2) rfl) _))

theorem nextRound_again (holds : Holds s.stack ra [.int index, .int left.toInt64, .int stride, old])
    (more : 0 < left) {target : Nat} (lands : (s.frame.pc : Int) + offset = target) :
    ∃ stack, nextRound ra offset s =
        .ok () { s with stack, frame := { s.frame with pc := target } } ∧
      Holds stack ra
        [.int (index + stride), .int (left - 1).toInt64, .int stride, .int (index + stride)] := by
  let u := { s with frame := { s.frame with pc := target } }
  obtain ⟨counted, wrote₁, held₁⟩ :=
    Holds.write (s := u) holds (i := 1) (by simp) (.int (left - 1).toInt64)
  obtain ⟨moved, wrote₀, held₀⟩ :=
    Holds.write (s := { u with stack := counted }) held₁ (i := 0) (by simp) (.int (index + stride))
  obtain ⟨stack, wrote₃, held₃⟩ :=
    Holds.write (s := { u with stack := moved }) held₀ (i := 3) (by simp) (.int (index + stride))
  refine ⟨stack, ?_, held₃⟩
  refine (bind_ok (holds.read (i := 0) rfl) _).trans ((bind_ok (holds.read (i := 1) rfl) _).trans
    ((bind_ok (holds.read (i := 2) rfl) _).trans ?_))
  change (if left.toInt64.toUInt64 > 0 then _ else _ : Vm Unit) s = _
  rw [UInt64.toUInt64_toInt64, if_pos more]
  exact (bind_ok (jump_run lands) _).trans
    ((bind_ok wrote₁ _).trans ((bind_ok wrote₀ _).trans wrote₃))

end Activation

namespace Machine

variable {call : Call} {s t : State}

structure At (p : Prototype) (base pc : Nat) (s : State) : Prop where
  script : ∃ f cells, s.frame.function = some f ∧ s.function? f = some ⟨.script p, cells⟩
  base_eq : s.frame.base = base
  pc_eq : s.frame.pc = pc

section

variable {p : Prototype} {base pc : Nat}

theorem At.goto (here : At p base pc s) (target budget : Nat) (stack : Array Value) :
    At p base target { s with stack, budget, frame := { s.frame with pc := target } } :=
  ⟨here.script, here.base_eq, rfl⟩

def fetched (s : State) : State := advanced { s with budget := s.budget - 1 }

theorem At.advances {w : Word} {x : Vm Unit} (here : At p base pc s)
    (code : p.code[pc]? = some w)
    (step : ∀ cells, Activation.step ⟨cells, p, base⟩ call w = Activation.done x) :
    Advances call s t ↔ s.budget ≠ 0 ∧ x (fetched s) = .ok () t := by
  obtain ⟨⟨f, cells, function, found⟩, rfl, rfl⟩ := here
  let u := { s with budget := s.budget - 1 }
  have steps : stepOnce call u =
      located p.toRoutine u.frame.pc (Activation.done x) (advanced u) := by
    rw [stepOnce_word (activation_script (s := u) function found) code, ← step cells]
  constructor
  · rintro ⟨v, ticked, ran⟩
    unfold tick at ticked
    split at ticked
    · cases ticked
    next paid =>
      cases ticked
      rw [steps] at ran
      obtain ⟨_, _, ran, last⟩ := ok_of_bind (located_ok ran)
      cases last
      exact ⟨paid, ran⟩
  · rintro ⟨paid, ran⟩
    refine ⟨u, if_neg paid, ?_⟩
    have did : Activation.done x (advanced u) = .ok .next t := bind_ok ran _
    rw [steps, located, did]

end

end Machine

/-- A numeric loop in the code of `p`: the instruction at `first` prepares it, that at `last` begins
the next round or lets control go on after it. -/
structure NumericLoop (p : Prototype) where
  first : Nat
  last : Nat
  prepare : Word
  next : Word
  prepare_at : p.code[first]? = some prepare
  next_at : p.code[last]? = some next
  prepare_op : prepare.opcode? = some .forPrep
  next_op : next.opcode? = some .forLoop
  same_register : next.a = prepare.a
  enters : (first : Int) + 1 + prepare.sbx = last
  returns : (last : Int) + 1 + next.sbx = first + 1

namespace NumericLoop

open Machine

variable {p : Prototype}

theorem apart (l : NumericLoop p) : l.first ≠ l.last := by
  intro same
  have words := l.prepare_at.symm.trans (same ▸ l.next_at)
  have opcodes := l.prepare_op.symm.trans (Option.some.inj words ▸ l.next_op)
  cases opcodes

variable (l : NumericLoop p) (call : Call) (base : Nat)

def slot : Nat := base + l.prepare.a

structure Ready (init limit step : Value) (s : State) : Prop where
  running : ∃ func c rest, Running func (c :: rest) s
  here : At p base l.first s
  holds : ∃ old, Holds s.stack (l.slot base) [init, limit, step, old]

structure Body (b e : State) : Prop where
  run : Relation.ReflTransGen
    (fun s t => ¬ At p base l.first s ∧ ¬ At p base l.last s ∧ Advances call s t) b e
  falls : At p base l.last e
  spared : ∀ i < 3, e.stack[l.slot base + i]? = b.stack[l.slot base + i]?

/-- After the preparation in `s` the rounds with these values of the variable have run, and the
instruction that follows them has led to `t`. -/
inductive Rounds (s : State) : List Value → State → Prop where
  | prepared {t : State} : At p base l.first s → Advances call s t → Rounds s [] t
  | round {values : List Value} {b e t : State} {v : Value} :
    Rounds s values b → At p base (l.first + 1) b → b.stack[l.slot base + 3]? = some v →
      l.Body call base b e → Advances call e t → Rounds s (values ++ [v]) t

/-- The loop that begins in `s` visits these values, and no others. -/
structure Visits (s : State) (indices : List Int64) : Prop where
  visited : ∀ values t, l.Rounds call base s values t → values <+: indices.map Value.int
  continues : ∀ values t, l.Rounds call base s values t →
    match indices[values.length]? with
    | some i => At p base (l.first + 1) t ∧ t.stack[l.slot base + 3]? = some (.int i)
    | none => At p base (l.last + 1) t
  completes : s.budget ≠ 0 →
    (∀ values b, l.Rounds call base s values b → At p base (l.first + 1) b →
      ∃ e, l.Body call base b e ∧ e.budget ≠ 0) →
    ∃ t, l.Rounds call base s (indices.map Value.int) t
  executed : ∀ values t, l.Rounds call base s values t →
    ∃ n, ∀ fuel, loop call (fuel + n) s = loop call fuel t

-- Where the machine stands after `k` rounds: at the beginning of the next one, or after the loop.
def Standing (indices : List Int64) (stride : Int64) (k : Nat) (t : State) : Prop :=
  match indices[k]? with
  | some i => At p base (l.first + 1) t ∧ Holds t.stack (l.slot base)
      [.int i, .int (UInt64.ofNat (indices.length - 1 - k)).toInt64, .int stride, .int i]
  | none => At p base (l.last + 1) t

variable {l call base} {s t : State} {init stride i : Int64} {limit old : Value}
  {plan : ForLoop.Start} {indices : List Int64} {k : Nat}

theorem standing_some (found : indices[k]? = some i) : l.Standing base indices stride k t ↔
    At p base (l.first + 1) t ∧ Holds t.stack (l.slot base)
      [.int i, .int (UInt64.ofNat (indices.length - 1 - k)).toInt64, .int stride, .int i] := by
  rw [Standing, found]

theorem standing_none (ended : indices[k]? = none) :
    l.Standing base indices stride k t ↔ At p base (l.last + 1) t := by
  rw [Standing, ended]

theorem prepare_advances (here : At p base l.first s) : Advances call s t ↔
    s.budget ≠ 0 ∧ Activation.prepareLoop (l.slot base) l.prepare.sbx (fetched s) = .ok () t := by
  refine here.advances l.prepare_at fun cells => ?_
  unfold Activation.step
  rw [l.prepare_op]
  rfl

theorem next_advances (here : At p base l.last s) : Advances call s t ↔
    s.budget ≠ 0 ∧ Activation.nextRound (l.slot base) l.next.sbx (fetched s) = .ok () t := by
  refine here.advances l.next_at fun cells => ?_
  unfold Activation.step
  rw [l.next_op, slot, ← l.same_register]

theorem prepare_standing (here : At p base l.first s)
    (holds : Holds s.stack (l.slot base) [.int init, limit, .int stride, old])
    (started : ForLoop.start (.int init) limit (.int stride) = .ok plan)
    (integers : ∀ x y z, plan ≠ .floats x y z) :
    ∃ t, Activation.prepareLoop (l.slot base) l.prepare.sbx (fetched s) = .ok () t ∧
      l.Standing base (plan.indices init stride) stride 0 t := by
  have pc : (fetched s).frame.pc = l.first + 1 := congrArg (· + 1) here.pc_eq
  cases plan with
  | floats x y z => exact absurd rfl (integers x y z)
  | skip =>
    have lands : ((fetched s).frame.pc : Int) + (l.prepare.sbx + 1) = (l.last + 1 : Nat) := by
      have := l.enters
      omega
    refine ⟨_, ?_, (standing_none rfl).2 (here.goto (l.last + 1) (s.budget - 1) s.stack)⟩
    rw [Activation.prepareLoop_skip (s := fetched s) holds started]
    exact Activation.jump_run lands
  | counted rounds =>
    obtain ⟨stack, ran, held⟩ := Activation.prepareLoop_counted (s := fetched s) holds started
    refine ⟨_, ran, (standing_some (i := init) ?_).2 ⟨⟨here.script, here.base_eq, pc⟩, ?_⟩⟩
    · simp [ForLoop.Start.indices]
    · simpa [ForLoop.Start.indices] using held

-- One round later the index is one step further, and one round less is left.
theorem next_standing (here : At p base l.last s) (found : (plan.indices init stride)[k]? = some i)
    (holds : Holds s.stack (l.slot base)
      [.int i, .int (UInt64.ofNat ((plan.indices init stride).length - 1 - k)).toInt64,
        .int stride, old]) :
    ∃ t, Activation.nextRound (l.slot base) l.next.sbx (fetched s) = .ok () t ∧
      l.Standing base (plan.indices init stride) stride (k + 1) t := by
  obtain ⟨inside, -⟩ := List.getElem?_eq_some_iff.1 found
  have few := ForLoop.Start.length_indices_le plan init stride
  have pc : (fetched s).frame.pc = l.last + 1 := congrArg (· + 1) here.pc_eq
  cases next : (plan.indices init stride)[k + 1]? with
  | none =>
    have past := List.getElem?_eq_none_iff.1 next
    have none_left : (plan.indices init stride).length - 1 - k = 0 := by omega
    rw [none_left] at holds
    refine ⟨_, Activation.nextRound_over (s := fetched s) holds, (standing_none next).2 ?_⟩
    exact ⟨here.script, here.base_eq, pc⟩
  | some j =>
    obtain ⟨more, -⟩ := List.getElem?_eq_some_iff.1 next
    have step : i + stride = j := by
      rw [ForLoop.Start.index_eq found, ForLoop.Start.index_eq next, Int64.ofNat_add,
        Int64.add_mul, Int64.add_assoc]
      simp
    have lands : ((fetched s).frame.pc : Int) + l.next.sbx = (l.first + 1 : Nat) := by
      have := l.returns
      omega
    -- The count that is left, as the predecessor of the one before.
    obtain ⟨n, before, after⟩ : ∃ n, (plan.indices init stride).length - 1 - k = n + 1 ∧
        (plan.indices init stride).length - 1 - (k + 1) = n := ⟨_, by omega, rfl⟩
    have some_left : 0 < UInt64.ofNat (n + 1) := by
      rw [UInt64.lt_iff_toNat_lt, UInt64.toNat_ofNat_of_lt' (by simp only [UInt64.size]; omega)]
      exact Nat.succ_pos n
    have one_less : UInt64.ofNat (n + 1) - 1 = .ofNat n := by
      rw [UInt64.ofNat_add]
      exact UInt64.add_sub_cancel _ _
    rw [before] at holds
    obtain ⟨stack, ran, held⟩ :=
      Activation.nextRound_again (s := fetched s) holds some_left lands
    refine ⟨_, ran, (standing_some next).2 ⟨here.goto _ (s.budget - 1) stack, ?_⟩⟩
    rw [after, ← one_less, ← step]
    exact held

section

variable {func : Nat} {c : Frame} {rest : List Frame} {b e : State}

theorem Body.path (body : l.Body call base b e) : Relation.ReflTransGen (Advances call) b e :=
  body.run.lift id fun _ _ step => step.2.2

theorem Body.running (balanced : call.Balanced) (running : Running func (c :: rest) b)
    (body : l.Body call base b e) :
    Running func (c :: rest) e ∧ Effect func b e :=
  Machine.running_path balanced running body.path

theorem Rounds.path {values : List Value} (rounds : l.Rounds call base s values t) :
    Relation.ReflTransGen (Advances call) s t := by
  induction rounds with
  | prepared _ advances => exact .single advances
  | round _ _ _ body advances ih => exact (ih.trans body.path).tail advances

-- The body may have changed its variable, but the slot is still there.
theorem Body.holds (balanced : call.Balanced) (running : Running func (c :: rest) b)
    (body : l.Body call base b e) {x y z v : Value}
    (holds : Holds b.stack (l.slot base) [x, y, z, v]) :
    ∃ v', Holds e.stack (l.slot base) [x, y, z, v'] := by
  have grown := (body.running balanced running).2.size
  obtain ⟨bound, -⟩ := Array.getElem?_eq_some_iff.1 (holds 3 v rfl)
  have counted : Holds e.stack (l.slot base) [x, y, z] := by
    refine (holds.take 3).congr fun j w low high held => ?_
    obtain ⟨i, rfl⟩ := Nat.exists_eq_add_of_le low
    rw [body.spared i (by simp at high; omega)]
    exact held
  have there := Array.getElem?_eq_getElem (Nat.lt_of_lt_of_le bound grown)
  exact ⟨_, counted.append (.cons there (.nil _ _))⟩

theorem Rounds.standing (balanced : call.Balanced) (running : Running func (c :: rest) s)
    (holds : Holds s.stack (l.slot base) [.int init, limit, .int stride, old])
    (started : ForLoop.start (.int init) limit (.int stride) = .ok plan)
    (integers : ∀ x y z, plan ≠ .floats x y z) {values : List Value}
    (rounds : l.Rounds call base s values t) :
    Running func (c :: rest) t ∧ values <+: (plan.indices init stride).map Value.int ∧
      l.Standing base (plan.indices init stride) stride values.length t := by
  induction rounds with
  | prepared here advances =>
    obtain ⟨u, ran, standing⟩ := prepare_standing here holds started integers
    cases ran.symm.trans ((prepare_advances here).1 advances).2
    exact ⟨(advances.running balanced running).1, List.nil_prefix, standing⟩
  | @round values b e t v _ atStart held body advances ih =>
    obtain ⟨between, visited, standing⟩ := ih
    cases found : (plan.indices init stride)[values.length]? with
    | none =>
      have ended := (standing_none found).1 standing
      have same : l.last + 1 = l.first + 1 := ended.pc_eq.symm.trans atStart.pc_eq
      exact absurd (Nat.succ.inj same).symm l.apart
    | some i =>
      obtain ⟨-, counting⟩ := (standing_some found).1 standing
      obtain ⟨v', counting'⟩ := body.holds balanced between counting
      obtain ⟨u, ran, standing'⟩ := next_standing body.falls found counting'
      cases ran.symm.trans ((next_advances body.falls).1 advances).2
      have variable_eq : v = .int i := Option.some.inj (held.symm.trans (counting 3 _ rfl))
      refine ⟨(advances.running balanced (body.running balanced between).1).1, ?_, ?_⟩
      · obtain ⟨later, whole⟩ := visited
        have next : ((plan.indices init stride).map Value.int)[values.length]? = some v := by
          rw [List.getElem?_map, found, variable_eq]
          rfl
        rw [← whole, List.getElem?_append_right (Nat.le_refl _), Nat.sub_self] at next
        cases later with
        | nil => cases next
        | cons w later =>
          cases next
          exact ⟨later, by rw [← whole, List.append_assoc]; rfl⟩
      · rw [List.length_append]
        exact standing'

end

theorem visits (balanced : call.Balanced) (ready : l.Ready base (.int init) limit (.int stride) s)
    (started : ForLoop.start (.int init) limit (.int stride) = .ok plan)
    (integers : ∀ x y z, plan ≠ .floats x y z) :
    l.Visits call base s (plan.indices init stride) := by
  obtain ⟨⟨func, c, rest, running⟩, here, old, holds⟩ := ready
  refine ⟨fun values t rounds => ?_, fun values t rounds => ?_, fun paid falls => ?_,
    fun values t rounds => loop_advances rounds.path⟩
  · exact (rounds.standing balanced running holds started integers).2.1
  · have standing := (rounds.standing balanced running holds started integers).2.2
    cases found : (plan.indices init stride)[values.length]? with
    | none => exact (standing_none found).1 standing
    | some i =>
      obtain ⟨atStart, counting⟩ := (standing_some found).1 standing
      exact ⟨atStart, counting 3 _ rfl⟩
  · -- One round after another, as long as there are indices.
    have upTo (k : Nat) (few : k ≤ (plan.indices init stride).length) :
        ∃ t, l.Rounds call base s (((plan.indices init stride).map Value.int).take k) t := by
      induction k with
      | zero =>
        obtain ⟨t, ran, -⟩ := prepare_standing here holds started integers
        exact ⟨t, .prepared here ((prepare_advances here).2 ⟨paid, ran⟩)⟩
      | succ k ih =>
        obtain ⟨b, rounds⟩ := ih (by omega)
        obtain ⟨between, -, standing⟩ := rounds.standing balanced running holds started integers
        have found := List.getElem?_eq_getElem (Nat.lt_of_succ_le few)
        rw [List.length_take, List.length_map, Nat.min_eq_left (by omega)] at standing
        obtain ⟨atStart, counting⟩ := (standing_some found).1 standing
        obtain ⟨e, body, left⟩ := falls _ b rounds atStart
        obtain ⟨v, counting'⟩ := body.holds balanced between counting
        obtain ⟨t, ran, -⟩ := next_standing body.falls found counting'
        refine ⟨t, ?_⟩
        rw [List.take_add_one, List.getElem?_map, found]
        exact .round rounds atStart (counting 3 _ rfl) body
          ((next_advances body.falls).2 ⟨left, ran⟩)
    obtain ⟨t, rounds⟩ := upTo _ (Nat.le_refl _)
    rw [List.take_of_length_le (by simp)] at rounds
    exact ⟨t, rounds⟩

theorem visits_upTo (balanced : call.Balanced)
    (ready : l.Ready base (.int init) limit (.int stride) s) {cut : Int64 × Bool}
    (limited : ForLoop.limit? limit stride = some cut) :
    l.Visits call base s ((ForLoop.Start.upTo cut init stride).indices init stride) :=
  visits balanced ready (ForLoop.start_limited init limited) (ForLoop.Start.upTo_ne _ _ _)

end NumericLoop

/-- A loop over integers visits the terms of its sequence that have not passed the limit, all of
them in their order and nothing else. -/
theorem integerLoop_exact {host : Host} (propagates : host.Propagates) {call : Call}
    (makes : Machine.Makes host call) {p : Prototype} (l : NumericLoop p) {base : Nat} {s : State}
    {init limit step : Int64} (nonzero : step ≠ 0)
    (ready : l.Ready base (.int init) (.int limit) (.int step) s) :
    ∃ terms : List Int64,
      (∀ k : Nat, k < terms.length ↔
        ForLoop.Within limit.toInt step.toInt (init.toInt + k * step.toInt)) ∧
      (∀ (k : Nat) i, terms[k]? = some i → i.toInt = init.toInt + k * step.toInt) ∧
      l.Visits call base s terms := by
  have limited : ForLoop.limit? (.int limit) step = some (limit, false) := rfl
  have visits := NumericLoop.visits_upTo (makes.balanced propagates) ready limited
  rw [ForLoop.Start.upTo_integer] at visits
  exact ⟨_, ForLoop.length_indices init limit nonzero,
    fun k i => ForLoop.toInt_indices init limit nonzero, visits⟩

namespace NumericLoop

def bare : Prototype :=
  { source := "", stackSize := 4, code := #[.ofAsBx .forPrep 0 0, .ofAsBx .forLoop 0 (-1)] }

def bareLoop : NumericLoop bare where
  first := 0
  last := 1
  prepare := .ofAsBx .forPrep 0 0
  next := .ofAsBx .forLoop 0 (-1)
  prepare_at := rfl
  next_at := rfl
  prepare_op := by decide
  next_op := by decide
  same_register := by decide
  enters := by decide
  returns := by decide

def bareState (init limit step : Value) : State :=
  { State.bare {} with
    functions := #[⟨.script bare, #[]⟩]
    frame := { function := some ⟨0⟩, func := 0, base := 1, top := 5 }
    callers := (State.bare {}).callers.push .host
    stack := #[.function ⟨0⟩, init, limit, step, .nil] }

theorem bareState_ready (init limit step : Value) :
    bareLoop.Ready 1 init limit step (bareState init limit step) where
  running := ⟨0, .host, [], rfl, Nat.zero_le 1, (by decide : 1 ≤ 5), rfl⟩
  here := ⟨⟨_, _, rfl, rfl⟩, rfl, rfl⟩
  holds := ⟨.nil, .cons rfl (.cons rfl (.cons rfl (.cons rfl (.nil _ _))))⟩

end NumericLoop

-- Down from the greatest integer in the longest steps there are.
theorem integerLoop_exact_longest :
    NumericLoop.bareLoop.Visits (Machine.call Command.noHost) 1
      (NumericLoop.bareState (.int Int64.maxValue) (.int Int64.minValue) (.int Int64.minValue))
      [Int64.maxValue, -1] := by
  obtain ⟨terms, length, value, visits⟩ := integerLoop_exact Command.noHost_propagates .outer
    NumericLoop.bareLoop (by decide) (NumericLoop.bareState_ready
      (.int Int64.maxValue) (.int Int64.minValue) (.int Int64.minValue))
  have two : terms.length = 2 := by
    have : 1 < terms.length := (length 1).2 (by decide)
    have : ¬ 2 < terms.length := fun more => absurd ((length 2).1 more) (by decide)
    omega
  obtain ⟨x, y, rfl⟩ := List.length_eq_two.1 two
  cases (Int64.toInt_inj.1 (value 0 x rfl) : x = Int64.maxValue)
  cases (Int64.toInt_inj.1 (value 1 y rfl) : y = -1)
  exact visits

end LuaMachine
