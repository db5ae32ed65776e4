import LuaMachine.Prototype.Builder

set_option autoImplicit false

namespace LuaMachine

/-- Constants of the same kind with the same content; floats are told apart by their bits. -/
def Constant.Identical : Constant → Constant → Prop
  | nil, nil => True
  | bool a, bool b => a = b
  | int m, int n => m = n
  | float x, float y => x.bits = y.bits
  | str s, str t => s = t
  | _, _ => False

theorem Constant.identical_iff {c d : Constant} : c.Identical d ↔ c = d := by
  constructor
  · intro same
    unfold Identical at same
    split at same
    next => rfl
    next => rw [same]
    next => rw [same]
    next x y => exact congrArg (fun bits => float ⟨bits⟩) same
    next => rw [same]
    next => cases same
  · rintro rfl
    cases c <;> trivial

namespace Builder

inductive Op where
  | params (n : UInt8)
  | vararg
  | stackSize (n : UInt8)
  | setLine (line : UInt32)
  | emit (w : Word)
  | patchJump (pc target : Nat)
  | pc
  | constant (c : Constant)
  | int (n : Int64)
  | float (x : Double)
  | str (s : String)
  | upvalue (name : String) (capture : Capture)
  | child (p : Prototype)
  | localVariable (v : LocalVariable)

namespace Op

def index (given : UInt32 × Builder) : Option Nat × Builder := given.map (some ·.toNat) id

-- What an operation returns, if anything, and what it makes of the builder, which is left as it
-- is where the program stops.
def perform (b : Builder) : Op → Option Nat × Builder
  | .params n => (none, b.params n)
  | .vararg => (none, b.vararg)
  | .stackSize n => (none, b.stackSize n)
  | .setLine line => (none, b.setLine line)
  | .emit w => (b.emit w).map some id
  | .patchJump position target => (none, (b.patchJump position target).getD b)
  | .pc => (some b.pc, b)
  | .constant c => index (b.constant c)
  | .int n => index (b.int n)
  | .float x => index (b.float x)
  | .str s => index (b.str s)
  | .upvalue name capture => index (b.upvalue name capture)
  | .child p => index (b.child p)
  | .localVariable v => (none, b.localVariable v)

def requested? : Op → Option Constant
  | .constant c => some c
  | .int n => some (.int n)
  | .float x => some (.float x)
  | .str s => some (.str (Utf8.encode s))
  | _ => none

end Op

def after (b : Builder) (ops : List Op) : Builder := ops.foldl (fun b op => (op.perform b).2) b

variable {b : Builder} {op : Op} {c d : Constant} {i j : Nat}

theorem after_append (b : Builder) (before after : List Op) :
    b.after (before ++ after) = (b.after before).after after := List.foldl_append

section Pool

def Distinct (pool : Array Constant) : Prop :=
  ∀ (i j : Nat) c, pool[i]? = some c → pool[j]? = some c → i = j

def Keeps (pool later : Array Constant) : Prop :=
  ∀ (i : Nat) c, pool[i]? = some c → later[i]? = some c

theorem Keeps.refl (pool : Array Constant) : Keeps pool pool := fun _ _ held => held

theorem Keeps.push (pool : Array Constant) (c : Constant) : Keeps pool (pool.push c) := by
  intro i d held
  obtain ⟨inside, -⟩ := Array.getElem?_eq_some_iff.1 held
  rw [Array.getElem?_push, if_neg (Nat.ne_of_lt inside)]
  exact held

theorem Distinct.push {pool : Array Constant} (distinct : Distinct pool) (missing : c ∉ pool) :
    Distinct (pool.push c) := by
  intro i j d first second
  rw [Array.getElem?_push] at first second
  split at first <;> split at second
  next last last' => exact last.trans last'.symm
  next =>
    cases first
    exact absurd (Array.mem_of_getElem? second) missing
  next =>
    cases second
    exact absurd (Array.mem_of_getElem? first) missing
  next => exact distinct i j d first second

theorem constant_cases (b : Builder) (c : Constant) :
    (∃ i, b.proto.constants[i]? = some c ∧ b.constant c = (.ofNat i, b)) ∨
    (c ∉ b.proto.constants ∧ b.constant c = (.ofNat b.proto.constants.size,
      { b with proto.constants := b.proto.constants.push c })) := by
  cases found : b.proto.constants.idxOf? c with
  | some i =>
    refine .inl ⟨i, ?_, by simp only [constant, found]⟩
    rw [Array.idxOf?_eq_map_finIdxOf?_val, Option.map_eq_some_iff] at found
    obtain ⟨k, found, rfl⟩ := found
    exact Array.getElem?_eq_some_iff.2 ⟨k.isLt, (Array.finIdxOf?_eq_some_iff.1 found).1⟩
  | none => exact .inr ⟨Array.idxOf?_eq_none_iff.1 found, by simp only [constant, found]⟩

theorem constant_holds (b : Builder) (c : Constant) :
    ∃ i, (b.constant c).1 = .ofNat i ∧ (b.constant c).2.proto.constants[i]? = some c := by
  obtain ⟨i, held, same⟩ | ⟨-, added⟩ := constant_cases b c
  · rw [same]
    exact ⟨i, rfl, held⟩
  · rw [added]
    exact ⟨_, rfl, Array.getElem?_push_size⟩

theorem constant_keeps (b : Builder) (c : Constant) :
    Keeps b.proto.constants (b.constant c).2.proto.constants := by
  obtain ⟨i, -, same⟩ | ⟨-, added⟩ := constant_cases b c
  · rw [same]
    exact .refl _
  · rw [added]
    exact .push _ c

theorem constant_distinct (distinct : Distinct b.proto.constants) (c : Constant) :
    Distinct (b.constant c).2.proto.constants := by
  obtain ⟨i, -, same⟩ | ⟨missing, added⟩ := constant_cases b c
  · rw [same]
    exact distinct
  · rw [added]
    exact distinct.push missing

theorem constant_size (b : Builder) (c : Constant) :
    (b.constant c).2.proto.constants.size ≤ b.proto.constants.size + 1 := by
  obtain ⟨i, -, same⟩ | ⟨-, added⟩ := constant_cases b c
  · simp [same]
  · simp [added]

end Pool

section Steps

theorem perform_request (request : op.requested? = some c) :
    op.perform b = Op.index (b.constant c) := by
  cases op with
  | constant c | int n | float x | str s =>
    cases request
    rfl
  | _ => cases request

theorem patchJump_cases {b' : Builder} {pc target : Nat}
    (patched : b.patchJump pc target = some b') :
    b' = b ∨ ∃ w, b' = { b with proto.code := b.proto.code.setIfInBounds pc w } := by
  unfold patchJump at patched
  obtain ⟨w, -, patched⟩ := Option.bind_eq_some_iff.1 patched
  split at patched
  next => exact .inl (Option.some.inj patched).symm
  next =>
    obtain ⟨next, -, patched⟩ := Option.bind_eq_some_iff.1 patched
    obtain ⟨offset, -, patched⟩ := Option.bind_eq_some_iff.1 patched
    obtain ⟨jump, -, patched⟩ := Option.bind_eq_some_iff.1 patched
    exact .inr ⟨jump, (Option.some.inj patched).symm⟩

theorem perform_patchJump (b : Builder) (pc target : Nat) :
    ((Op.patchJump pc target).perform b).2 = b ∨
    ∃ w, ((Op.patchJump pc target).perform b).2 =
      { b with proto.code := b.proto.code.setIfInBounds pc w } := by
  change (b.patchJump pc target).getD b = b ∨ ∃ w, (b.patchJump pc target).getD b = _
  cases patched : b.patchJump pc target with
  | none => exact .inl rfl
  | some b' => exact patchJump_cases patched

theorem setLine_constants (b : Builder) (line : UInt32) :
    (b.setLine line).proto.constants = b.proto.constants := by
  unfold setLine
  split <;> rfl

theorem perform_other (other : op.requested? = none) :
    (op.perform b).2.proto.constants = b.proto.constants := by
  cases op with
  | constant c | int n | float x | str s => cases other
  | setLine line => exact setLine_constants b line
  | patchJump pc target =>
    obtain same | ⟨w, patched⟩ := perform_patchJump b pc target
    · rw [same]
    · rw [patched]
  | _ => rfl

theorem perform_keeps (b : Builder) (op : Op) :
    Keeps b.proto.constants (op.perform b).2.proto.constants := by
  cases request : op.requested? with
  | some c =>
    rw [perform_request request]
    exact constant_keeps b c
  | none =>
    rw [perform_other request]
    exact .refl _

theorem perform_distinct (distinct : Distinct b.proto.constants) (op : Op) :
    Distinct (op.perform b).2.proto.constants := by
  cases request : op.requested? with
  | some c =>
    rw [perform_request request]
    exact constant_distinct distinct c
  | none =>
    rw [perform_other request]
    exact distinct

theorem after_keeps (b : Builder) (ops : List Op) :
    Keeps b.proto.constants (b.after ops).proto.constants := by
  induction ops generalizing b with
  | nil => exact .refl _
  | cons op ops ih => exact fun i c held => ih (op.perform b).2 i c (perform_keeps b op i c held)

theorem after_distinct (distinct : Distinct b.proto.constants) (ops : List Op) :
    Distinct (b.after ops).proto.constants := by
  induction ops generalizing b with
  | nil => exact distinct
  | cons op ops ih => exact ih (perform_distinct distinct op)

theorem after_size (b : Builder) (ops : List Op) :
    (b.after ops).proto.constants.size ≤
      b.proto.constants.size + (ops.filterMap Op.requested?).length := by
  induction ops generalizing b with
  | nil => exact Nat.le_refl _
  | cons op ops ih =>
    have rest := ih (op.perform b).2
    rw [after, List.foldl_cons]
    cases request : op.requested? with
    | some c =>
      have first := constant_size b c
      rw [perform_request request] at rest ⊢
      rw [List.filterMap_cons_some request, List.length_cons]
      exact Nat.le_trans rest (by simp only [Op.index, Prod.map, id]; omega)
    | none =>
      rw [perform_other request] at rest
      rw [List.filterMap_cons_none request]
      exact rest

end Steps

theorem after_cons (b : Builder) (before : List Op) (op : Op) (later : List Op) :
    b.after (before ++ op :: later) = (op.perform (b.after before)).2.after later :=
  after_append b before (op :: later)

theorem start_distinct (source : String) : Distinct (start source).proto.constants := by
  intro i j c held
  simp [start] at held

-- What a request returns denotes the constant, whatever is done later.
theorem request_denotes (b : Builder) (request : op.requested? = some c) :
    ∃ i, (op.perform b).1 = some (i % 2 ^ 32) ∧ i ≤ b.proto.constants.size ∧
      ∀ ops, ((op.perform b).2.after ops).proto.constants[i]? = some c := by
  rw [perform_request request]
  obtain ⟨i, given, held⟩ := constant_holds b c
  refine ⟨i, ?_, ?_, fun ops => after_keeps (b.constant c).2 ops i c held⟩
  · rw [Op.index, Prod.map_fst, given]
    rfl
  · have inside := (Array.getElem?_eq_some_iff.1 held).1
    have size := constant_size b c
    omega

/-- The index that a request gives denotes the constant asked for then and after whatever follows.
Two requests give the same index just if they ask for identical constants, and no two entries of
the pool are identical; there are no more of them than there were requests. An index is a word: it
loses nothing before there were `2 ^ 32` requests. -/
theorem constants_interned (source : String) :
    (∀ (before : List Op) (op : Op) (later : List Op) (c : Constant), op.requested? = some c →
      ∃ i, (op.perform ((start source).after before)).1 = some (i % 2 ^ 32) ∧
        i ≤ (before.filterMap Op.requested?).length ∧
        ∃ d, ((start source).after (before ++ op :: later)).proto.constants[i]? = some d ∧
          d.Identical c) ∧
    (∀ (before : List Op) (op : Op) (between : List Op) (op' : Op) (c c' : Constant),
      op.requested? = some c → op'.requested? = some c' →
      (c.Identical c' → (op.perform ((start source).after before)).1 =
        (op'.perform ((start source).after (before ++ op :: between))).1) ∧
      (((before ++ op :: between).filterMap Op.requested?).length < 2 ^ 32 →
        (op.perform ((start source).after before)).1 =
          (op'.perform ((start source).after (before ++ op :: between))).1 → c.Identical c')) ∧
    (∀ (ops : List Op) (i j : Nat) (c d : Constant),
      ((start source).after ops).proto.constants[i]? = some c →
      ((start source).after ops).proto.constants[j]? = some d → c.Identical d → i = j) ∧
    ∀ ops : List Op, ((start source).after ops).proto.constants.size ≤
      (ops.filterMap Op.requested?).length := by
  have distinct (ops : List Op) : Distinct ((start source).after ops).proto.constants :=
    after_distinct (start_distinct source) ops
  have size (ops : List Op) : ((start source).after ops).proto.constants.size ≤
      (ops.filterMap Op.requested?).length := by
    simpa [start] using after_size (start source) ops
  simp only [Constant.identical_iff]
  refine ⟨fun before op later c request => ?_, fun before op between op' c c' first second => ?_,
    ?_, size⟩
  · obtain ⟨i, given, place, denotes⟩ := request_denotes ((start source).after before) request
    rw [after_cons]
    exact ⟨i, given, Nat.le_trans place (size before), c, denotes later, rfl⟩
  · -- Both places are looked up in the pool after the second request.
    obtain ⟨i, given, place, denotes⟩ := request_denotes ((start source).after before) first
    obtain ⟨j, given', place', denotes'⟩ :=
      request_denotes ((start source).after (before ++ op :: between)) second
    have held : _ = some c := denotes (between ++ [op'])
    have held' : _ = some c' := denotes' []
    rw [← after_cons, ← List.cons_append, ← List.append_assoc] at held
    rw [← after_cons] at held'
    rw [given, given', Option.some.injEq]
    constructor
    · rintro rfl
      rw [distinct _ i j c held held']
    · intro few same
      have before_le : (before.filterMap Op.requested?).length ≤
          ((before ++ op :: between).filterMap Op.requested?).length := by
        rw [List.filterMap_append, List.length_append]
        omega
      have := size before
      have := size (before ++ op :: between)
      obtain rfl : i = j := by omega
      exact Option.some.inj (held.symm.trans held')
  · rintro ops i j c _ first second rfl
    exact distinct ops i j c first second

-- Both zeros, two patterns of NaN, and one as an integer and as a float.
example : ((start "").after [.float ⟨0⟩, .float ⟨0x8000000000000000⟩, .float ⟨0x7FF8000000000000⟩,
    .float ⟨0x7FF8000000000001⟩, .int 1, .float ⟨0x3FF0000000000000⟩, .float ⟨0⟩]).proto.constants =
    #[.float ⟨0⟩, .float ⟨0x8000000000000000⟩, .float ⟨0x7FF8000000000000⟩,
      .float ⟨0x7FF8000000000001⟩, .int 1, .float ⟨0x3FF0000000000000⟩] := by
  decide +kernel

end Builder

end LuaMachine
