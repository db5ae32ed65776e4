import LuaMachine.Proofs.Chunk.Reads

set_option autoImplicit false

namespace LuaMachine

-- Counts have 32 bits, sizes of strings 64.
structure Routine.Fits (r : Routine) : Prop where
  source : (Utf8.encode r.source).length + 1 < 2 ^ 64
  code : r.code.size < 2 ^ 32
  constants : r.constants.size < 2 ^ 32
  captures : r.captures.size < 2 ^ 32
  lines : r.lines.size < 2 ^ 32
  locals : r.locals.size < 2 ^ 32
  captureNames : r.captureNames.size < 2 ^ 32
  strings : ∀ c ∈ r.constants, c.Fits
  localNames : ∀ v ∈ r.locals, (Utf8.encode v.name).length + 1 < 2 ^ 64
  names : ∀ s ∈ r.captureNames, (Utf8.encode s).length + 1 < 2 ^ 64

namespace Prototype

inductive Inside : Prototype → Nat → Prototype → Prop where
  | self (p : Prototype) : Inside p 0 p
  | inner {p c q : Prototype} {n : Nat} : c ∈ p.protos → Inside c n q → Inside p (n + 1) q

def Fits (p : Prototype) : Prop :=
  ∀ n q, p.Inside n q → q.toRoutine.Fits ∧ q.protos.length < 2 ^ 32

mutual

/-- Every function without a source gets that of the nearest function around it that has one,
or else `outer`. -/
def named (outer : String) : Prototype → Prototype
  | ⟨p, protos⟩ =>
    let source := if p.source = "" then outer else p.source
    ⟨{ p with source }, namedAll source protos⟩

def namedAll (outer : String) : List Prototype → List Prototype
  | [] => []
  | p :: ps => p.named outer :: namedAll outer ps

end

end Prototype

namespace Chunk

-- Code is refused at its first word that names no operation.
def checked (code : Array Word) : Except ChunkError (Array Word) := do
  return (← collect checkedWord 0 code.toList).toArray

-- What is read where `p` was written.
def restore : Nat → String → Prototype → Except ChunkError Prototype
  | 0, _, _ => .error (.tooDeep maxNesting)
  | depth + 1, parent, p => do
    let source := if p.source = "" then parent else p.source
    let code ← checked p.code
    let protos ← collect (fun _ q => restore depth source q) 0 p.protos
    return { p with source, protos, code }

theorem prototypes_eq (parent : String) (ps : List Prototype) :
    Write.prototypes parent ps = ps.flatMap (Write.prototype (some parent)) := by
  induction ps with
  | nil => simp [Write.prototypes]
  | cons p ps ih => simp [Write.prototypes, ih]

theorem source_restored {parent s : String} {outer : Option String}
    (known : ∀ s, outer = some s → s ≠ "" → parent = s) :
    (let given := if outer = some s then "" else s
      if given.isEmpty then parent else given) = if s = "" then parent else s := by
  by_cases same : outer = some s
  · by_cases nameless : s = ""
    · simp [same, nameless]
    · simp [same, nameless, known s same nameless]
  · simp [same]

section Written

-- Everything that is counted takes a byte or more.

theorem string_ne_nil (s : Bytes) : Write.string s ≠ [] := by
  unfold Write.string
  dsimp only
  split <;> simp

theorem u32_ne_nil (n : UInt32) : Write.u32 n ≠ [] := by
  simp [Write.u32, le]

theorem constant_ne_nil (c : Constant) : Write.constant c ≠ [] := by
  cases c <;> simp [Write.constant]

theorem localVariable_ne_nil (v : LocalVariable) : Write.localVariable v ≠ [] := by
  simp [Write.localVariable, Write.name, string_ne_nil]

theorem prototype_ne_nil (outer : Option String) (p : Prototype) :
    Write.prototype outer p ≠ [] := by
  obtain ⟨r, protos⟩ := p
  simp [Write.prototype, Write.front, u32_ne_nil]

end Written

theorem reads_prototype {count : Reader Nat} (counts : Counts count) (depth : Nat)
    {parent : String} {outer : Option String} {p : Prototype} (fits : p.Fits)
    (known : ∀ s, outer = some s → s ≠ "" → parent = s) :
    Reads (Read.prototype count depth parent) (Write.prototype outer p)
      (restore depth parent p) := by
  induction depth generalizing parent outer p with
  | zero => exact .throw _
  | succ depth ih =>
    obtain ⟨r, protos⟩ := p
    obtain ⟨sizes, inner⟩ := fits 0 _ (.self _)
    have three (a b c : UInt8) : [a, b, c] = [a] ++ ([b] ++ [c]) := rfl
    simp only [Write.prototype, Write.front, Write.back, prototypes_eq, three, List.append_assoc]
    unfold Read.prototype restore
    refine (reads_source outer sizes.source).next ?_
    have source := source_restored (s := r.source) known
    dsimp only at source ⊢
    rw [source]
    refine (reads_u32 r.lineDefined).next ?_
    refine (reads_u32 r.lastLine).next ?_
    refine (reads_byte r.params).next ?_
    refine (reads_byte _).next ?_
    refine (reads_byte r.stackSize).next ?_
    refine (reads_array counts sizes.code (fun w _ => u32_ne_nil w.bits) fun i w _ =>
      reads_instruction i w).bind fun code _ => ?_
    refine (reads_all counts sizes.constants (fun c _ => constant_ne_nil c) fun _ c member =>
      reads_constant (sizes.strings c member)).next ?_
    refine (reads_all counts sizes.captures (fun _ _ => List.cons_ne_nil _ _) fun _ c _ =>
      reads_capture c).next ?_
    rw [← List.append_assoc (Write.count _)]
    refine (reads_list counts inner (fun q _ => prototype_ne_nil _ q) fun _ q member =>
      ih ?_ ?_).bind fun protos _ => ?_
    · exact fun n q' inside => fits (n + 1) q' (.inner member inside)
    · rintro s ⟨⟩ nonempty
      exact if_neg nonempty
    refine (reads_all counts sizes.lines (fun n _ => u32_ne_nil n) fun _ n _ =>
      reads_u32 n).next ?_
    refine (reads_all counts sizes.locals (fun v _ => localVariable_ne_nil v) fun _ v member =>
      reads_local (sizes.localNames v member)).next ?_
    rw [← List.append_nil (Write.list Write.name _)]
    refine (reads_all counts sizes.captureNames (fun s _ => string_ne_nil _) fun _ s member =>
      reads_name (sizes.names s member)).next ?_
    have vararg : decide ((if r.vararg then (1 : UInt8) else 0) ≠ 0) = r.vararg := by
      cases r.vararg <;> rfl
    rw [vararg]
    exact .pure _

section Restored

theorem checked_ok {code : Array Word} (valid : ∀ w ∈ code, w.opcode? ≠ none) :
    checked code = .ok code := by
  have each (pc : Nat) (w : Word) (member : w ∈ code.toList) : checkedWord pc w = .ok (id w) := by
    have names := valid w (by simpa using member)
    simp [checkedWord, names]
  rw [checked, collect_ok each]
  simp [pure, Except.pure, bind, Except.bind]

theorem checked_error {code : Array Word} {w : Word} (member : w ∈ code)
    (invalid : w.opcode? = none) : ∃ e, checked code = .error e := by
  have refused (pc : Nat) : ∃ e, checkedWord pc w = .error e :=
    ⟨.badOpcode pc w.opNumber, by simp [checkedWord, invalid]⟩
  have listed : w ∈ code.toList := by simpa using member
  obtain ⟨e, failed⟩ := collect_error listed refused 0
  exact ⟨e, by rw [checked, failed]; rfl⟩

theorem namedAll_eq (outer : String) (ps : List Prototype) :
    Prototype.namedAll outer ps = ps.map (·.named outer) := by
  induction ps with
  | nil => simp [Prototype.namedAll]
  | cons p ps ih => simp [Prototype.namedAll, ih]

theorem restore_ok {depth : Nat} {parent : String} {p : Prototype}
    (valid : ∀ n q, p.Inside n q → n < depth ∧ ∀ w ∈ q.code, w.opcode? ≠ none) :
    restore depth parent p = .ok (p.named parent) := by
  induction depth generalizing parent p with
  | zero => exact absurd (valid 0 p (.self p)).1 (Nat.not_lt_zero 0)
  | succ depth ih =>
    obtain ⟨r, protos⟩ := p
    have code : checked r.code = .ok r.code := checked_ok (valid 0 _ (.self _)).2
    have inner (source : String) : collect (fun _ q => restore depth source q) 0 protos =
        .ok (protos.map (·.named source)) := by
      apply collect_ok
      intro _ c member
      apply ih
      intro n q inside
      obtain ⟨level, names⟩ := valid (n + 1) q (.inner member inside)
      exact ⟨by omega, names⟩
    rw [restore, Prototype.named, namedAll_eq]
    dsimp only
    rw [code, inner]
    rfl

theorem restore_error {depth n : Nat} {parent : String} {p q : Prototype} (inside : p.Inside n q)
    (invalid : depth ≤ n ∨ ∃ w ∈ q.code, w.opcode? = none) :
    ∃ e, restore depth parent p = .error e := by
  induction inside generalizing depth parent with
  | self p =>
    cases depth with
    | zero => exact ⟨_, rfl⟩
    | succ depth =>
      rcases invalid with deep | ⟨w, member, invalid⟩
      · exact absurd deep (by omega)
      · obtain ⟨e, failed⟩ := checked_error member invalid
        exact ⟨e, by rw [restore, failed]; rfl⟩
  | @inner p c q n member inside ih =>
    cases depth with
    | zero => exact ⟨_, rfl⟩
    | succ depth =>
      have invalid : depth ≤ n ∨ ∃ w ∈ q.code, w.opcode? = none := by
        rcases invalid with deep | names
        · exact .inl (by omega)
        · exact .inr names
      have refused (_ : Nat) :
          ∃ e, restore depth (if p.source = "" then parent else p.source) c = .error e :=
        ih invalid
      obtain ⟨e, failed⟩ := collect_error member refused 0
      rw [restore]
      cases checked p.code with
      | error e => exact ⟨e, rfl⟩
      | ok code => exact ⟨e, by rw [failed]; rfl⟩

end Restored

theorem reads_header : Reads Read.header header (.ok ()) := fun _ _ => rfl

theorem read_write_eq {p : Prototype} (fits : p.Fits) :
    read (write p) = restore (maxNesting + 1) unknownSource p := by
  have body : Reads (Read.prototype Read.count (maxNesting + 1) unknownSource)
      (Write.prototype none p) (restore (maxNesting + 1) unknownSource p) :=
    reads_prototype counts_count _ fits fun _ same => by cases same
  have chunk : Reads (Read.chunk Read.count) (write p)
      (restore (maxNesting + 1) unknownSource p) :=
    reads_header.next ((reads_byte _).next body)
  have run := chunk [] 0
  rw [List.append_nil] at run
  rw [read, readWith, run]
  cases restore (maxNesting + 1) unknownSource p <;> rfl

/-- A chunk reads back as the function it was written from, but that functions without a source
have that of the nearest one around them; it does not read back where a function in it is too deep
or has a word that names no operation. -/
theorem read_write (p : Prototype) (fits : p.Fits) :
    ((∀ n q, p.Inside n q → n ≤ 200 ∧ ∀ w ∈ q.code, w.opcode? ≠ none) →
      read (write p) = .ok (p.named "=?")) ∧
    ((∃ n q, p.Inside n q ∧ (200 < n ∨ ∃ w ∈ q.code, w.opcode? = none)) →
      ∃ e, read (write p) = .error e) := by
  rw [read_write_eq fits]
  constructor
  · intro valid
    apply restore_ok
    intro n q inside
    obtain ⟨level, names⟩ := valid n q inside
    exact ⟨Nat.lt_succ_of_le level, names⟩
  · rintro ⟨n, q, inside, invalid⟩
    exact restore_error inside invalid

-- A function with one word of code around a function without a source.
def nested (w : Word) : Prototype :=
  { source := "@m", code := #[w], constants := #[.str [0]], protos := [{ source := "" }] }

theorem inside_nested {w : Word} {n : Nat} {q : Prototype} (inside : (nested w).Inside n q) :
    n = 0 ∧ q = nested w ∨ n = 1 ∧ q = { source := "" } := by
  cases inside with
  | self => exact .inl ⟨rfl, rfl⟩
  | inner member inside =>
    rw [List.mem_singleton.1 member] at inside
    cases inside with
    | self => exact .inr ⟨rfl, rfl⟩
    | inner member _ => cases member

theorem fits_nested (w : Word) : (nested w).Fits := by
  have named : (Utf8.encode "@m").length + 1 < 2 ^ 64 := by decide
  have nameless : (Utf8.encode "").length + 1 < 2 ^ 64 := by decide
  intro n q inside
  rcases inside_nested inside with ⟨-, rfl⟩ | ⟨-, rfl⟩
  · refine ⟨⟨named, ?_, ?_, ?_, ?_, ?_, ?_, ?_, ?_, ?_⟩, ?_⟩ <;> simp [nested, Constant.Fits]
  · refine ⟨⟨nameless, ?_, ?_, ?_, ?_, ?_, ?_, ?_, ?_, ?_⟩, ?_⟩ <;> simp

theorem read_write_nested :
    read (write (nested ⟨0⟩)) = .ok ((nested ⟨0⟩).named "=?") ∧
    ∃ e, read (write (nested ⟨63⟩)) = .error e := by
  refine ⟨(read_write _ (fits_nested _)).1 fun n q inside => ?_,
    (read_write _ (fits_nested _)).2 ⟨0, _, .self _, .inr ⟨⟨63⟩, ?_, ?_⟩⟩⟩
  · rcases inside_nested inside with ⟨rfl, rfl⟩ | ⟨rfl, rfl⟩
    · exact ⟨by decide, by decide⟩
    · exact ⟨by decide, by simp⟩
  · simp [nested]
  · decide

end Chunk

end LuaMachine
