import LuaMachine.Chunk.Reader
import LuaMachine.Chunk.Writer
import LuaMachine.Proofs.Text.Utf8

set_option autoImplicit false

namespace LuaMachine

-- Sizes of strings have 64 bits.
def Constant.Fits : Constant → Prop
  | str s => s.length + 1 < 2 ^ 64
  | _ => True

namespace Chunk

variable {α β : Type}

-- `r` takes the bytes `bs` and no others, and gives `x`.
def Reads (r : Reader α) (bs : Bytes) (x : Except ChunkError α) : Prop :=
  ∀ rest offset, r ⟨bs ++ rest, offset⟩ = x.map fun a => (a, ⟨rest, offset + bs.length⟩)

namespace Reads

variable {r : Reader α} {f : α → Reader β} {bs cs : Bytes}

theorem pure (a : α) : Reads (pure a) [] (.ok a) := fun _ _ => rfl

theorem throw (e : ChunkError) : Reads (throw e : Reader α) bs (.error e) := fun _ _ => rfl

theorem bind {x : Except ChunkError α} {g : α → Except ChunkError β} (first : Reads r bs x)
    (rest : ∀ a, x = .ok a → Reads (f a) cs (g a)) : Reads (r >>= f) (bs ++ cs) (x >>= g) := by
  intro after offset
  have run := first (cs ++ after) offset
  rw [← List.append_assoc] at run
  change (r ⟨bs ++ cs ++ after, offset⟩ >>= fun p => f p.1 p.2) = _
  rw [run]
  cases x with
  | error e => rfl
  | ok a =>
    have next := rest a rfl after (offset + bs.length)
    rw [Nat.add_assoc, ← List.length_append] at next
    exact next

theorem next {x : Except ChunkError β} {a : α} (first : Reads r bs (.ok a))
    (rest : Reads (f a) cs x) : Reads (r >>= f) (bs ++ cs) x := by
  have both := bind (g := fun _ => x) first fun b same => by cases same; exact rest
  exact both

theorem map (g : α → β) {a : α} (first : Reads r bs (.ok a)) :
    Reads (r >>= fun a => Pure.pure (g a)) bs (.ok (g a)) := by
  have both := first.next (f := fun a => Pure.pure (g a)) (pure (g a))
  rwa [List.append_nil] at both

end Reads

theorem enough_eq (n : Nat) (s : Bytes) : Read.enough n s = decide (n ≤ s.length) := by
  induction n generalizing s with
  | zero => simp [Read.enough]
  | succ n ih => cases s <;> simp [Read.enough, ih]

section Fields

theorem reads_bytes (bs : Bytes) : Reads (Read.bytes bs.length) bs (.ok bs) := by
  intro rest offset
  simp [Read.bytes, enough_eq, Except.map]

theorem reads_byte (b : UInt8) : Reads Read.byte [b] (.ok b) := by
  have read := (reads_bytes [b]).map fun bs => bs.headD 0
  exact read

theorem reads_le (width n : Nat) : Reads (Read.bytes width) (le width n) (.ok (le width n)) := by
  simpa using reads_bytes (le width n)

theorem reads_u32 (n : UInt32) : Reads Read.u32 (Write.u32 n) (.ok n) := by
  have bound : n.toNat < 256 ^ 4 := n.toNat_lt
  have value : UInt32.ofNat (ofLE (le 4 n.toNat)) = n := by
    rw [ofLE_le, Nat.mod_eq_of_lt bound, UInt32.ofNat_toNat]
  have read := (reads_le 4 n.toNat).map fun bs => UInt32.ofNat (ofLE bs)
  rwa [value] at read

theorem reads_u64 (n : UInt64) : Reads Read.u64 (le 8 n.toNat) (.ok n) := by
  have bound : n.toNat < 256 ^ 8 := n.toNat_lt
  have value : UInt64.ofNat (ofLE (le 8 n.toNat)) = n := by
    rw [ofLE_le, Nat.mod_eq_of_lt bound, UInt64.ofNat_toNat]
  have read := (reads_le 8 n.toNat).map fun bs => UInt64.ofNat (ofLE bs)
  rwa [value] at read

-- What is read once the size of a string is known.
theorem reads_sized (s : Bytes) : Reads
    (if s.length + 1 = 0 then pure none
      else do return some (← Read.bytes (s.length + 1 - 1))) s (.ok (some s)) := by
  rw [if_neg (Nat.succ_ne_zero _), Nat.add_sub_cancel]
  exact (reads_bytes s).map some

theorem reads_string {s : Bytes} (fits : s.length + 1 < 2 ^ 64) :
    Reads Read.string (Write.string s) (.ok (some s)) := by
  unfold Write.string Read.string
  by_cases short : s.length + 1 < 0xFF
  · have size : (UInt8.ofNat (s.length + 1)).toNat = s.length + 1 :=
      Utf8.toNat_byte (by omega)
    have one : UInt8.ofNat (s.length + 1) ≠ 0xFF := by
      rw [Ne, ← UInt8.toNat_inj, size]
      exact Nat.ne_of_lt short
    simp only [if_pos short]
    refine (reads_byte _).next ?_
    simp only [if_neg one, size]
    exact (Reads.pure _).next (reads_sized s)
  · have size : (UInt64.ofNat (s.length + 1)).toNat = s.length + 1 :=
      UInt64.toNat_ofNat_of_lt' fits
    have number := reads_u64 (.ofNat (s.length + 1))
    rw [size] at number
    simp only [if_neg short, List.cons_append]
    rw [← List.singleton_append]
    refine (reads_byte 0xFF).next ?_
    rw [if_pos rfl]
    refine number.next ?_
    rw [size]
    exact (Reads.pure _).next (reads_sized s)

theorem reads_absent : Reads Read.string [0] (.ok none) :=
  (reads_byte 0).next (.pure none)

theorem reads_name {s : String} (fits : (Utf8.encode s).length + 1 < 2 ^ 64) :
    Reads Read.name (Write.name s) (.ok s) := by
  have read := (reads_string fits).map fun s => Utf8.decodeLossy (s.getD [])
  rwa [Option.getD_some, Utf8.decodeLossy_encode] at read

-- The source that stands in a chunk, empty where it was left out.
theorem reads_source (parent : Option String) {s : String}
    (fits : (Utf8.encode s).length + 1 < 2 ^ 64) :
    Reads Read.name (Write.source parent s) (.ok (if parent = some s then "" else s)) := by
  unfold Write.source
  by_cases same : parent = some s
  · rw [if_pos same, if_pos same]
    exact reads_absent.map fun s => Utf8.decodeLossy (s.getD [])
  · rw [if_neg same, if_neg same]
    exact reads_name fits

theorem reads_constant {c : Constant} (fits : c.Fits) :
    Reads Read.constant (Write.constant c) (.ok c) := by
  unfold Read.constant
  cases c with
  | nil =>
    refine (reads_byte nilTag).next ?_
    exact .pure _
  | bool b =>
    refine (reads_byte boolTag).next ?_
    have read := (reads_byte (if b then 1 else 0)).map fun b => Constant.bool (b ≠ 0)
    cases b <;> exact read
  | float x =>
    refine (reads_byte floatTag).next ?_
    exact (reads_u64 x.bits).map fun bits => Constant.float ⟨bits⟩
  | int n =>
    refine (reads_byte intTag).next ?_
    exact (reads_u64 n.toUInt64).map fun bits => Constant.int bits.toInt64
  | str s =>
    have read := (reads_string fits).map fun s => Constant.str (s.getD [])
    by_cases short : s.length ≤ maxShort
    · rw [Write.constant, if_pos short]
      exact (reads_byte shortTag).next read
    · rw [Write.constant, if_neg short]
      exact (reads_byte longTag).next read

-- A word is refused just if it names no operation.
def checkedWord (pc : Nat) (w : Word) : Except ChunkError Word :=
  if w.opcode?.isNone then .error (.badOpcode pc w.opNumber) else .ok w

theorem reads_instruction (pc : Nat) (w : Word) :
    Reads (Read.instruction pc) (Write.u32 w.bits) (checkedWord pc w) := by
  unfold Read.instruction checkedWord
  rw [← List.append_nil (Write.u32 w.bits)]
  refine (reads_u32 w.bits).next ?_
  dsimp only
  split
  · exact .throw _
  · exact .pure _

theorem reads_capture (c : Capture) : Reads Read.capture (Write.capture c) (.ok c) := by
  cases c with
  | register r => exact (reads_byte 1).next ((reads_byte r).map (Capture.ofRaw 1))
  | upvalue i => exact (reads_byte 0).next ((reads_byte i).map (Capture.ofRaw 0))

theorem reads_local {v : LocalVariable} (fits : (Utf8.encode v.name).length + 1 < 2 ^ 64) :
    Reads Read.localVariable (Write.localVariable v) (.ok v) := by
  unfold Write.localVariable Read.localVariable
  rw [List.append_assoc]
  exact (reads_name fits).next ((reads_u32 v.start).next ((reads_u32 v.stop).map _))

end Fields

section Lists

-- The results for the items of a list, up to the first that fails.
def collect (result : Nat → β → Except ChunkError α) : Nat → List β → Except ChunkError (List α)
  | _, [] => .ok []
  | i, x :: xs => do return (← result i x) :: (← collect result (i + 1) xs)

theorem collect_ok {result : Nat → β → Except ChunkError α} {g : β → α} {xs : List β}
    (ok : ∀ i, ∀ x ∈ xs, result i x = .ok (g x)) (i : Nat) :
    collect result i xs = .ok (xs.map g) := by
  induction xs generalizing i with
  | nil => rfl
  | cons x xs ih =>
    rw [collect, ok i x (by simp), ih fun j y member => ok j y (by simp [member])]
    rfl

theorem collect_error {result : Nat → β → Except ChunkError α} {xs : List β} {x : β}
    (member : x ∈ xs) (error : ∀ i, ∃ e, result i x = .error e) (i : Nat) :
    ∃ e, collect result i xs = .error e := by
  induction xs generalizing i with
  | nil => cases member
  | cons y xs ih =>
    rw [collect]
    cases first : result i y with
    | error e => exact ⟨e, rfl⟩
    | ok a =>
      rcases List.mem_cons.1 member with rfl | member
      · obtain ⟨e, failed⟩ := error i
        rw [first] at failed
        cases failed
      · obtain ⟨e, failed⟩ := ih member (i + 1)
        rw [failed]
        exact ⟨e, rfl⟩

variable {item : Nat → Reader α} {write : β → Bytes} {result : Nat → β → Except ChunkError α}

theorem reads_items {xs : List β} (each : ∀ i, ∀ x ∈ xs, Reads (item i) (write x) (result i x))
    (i : Nat) : Reads (Read.items item xs.length i) (xs.flatMap write) (collect result i xs) := by
  induction xs generalizing i with
  | nil => exact .pure []
  | cons x xs ih =>
    have rest := ih fun j y member => each j y (by simp [member])
    rw [List.flatMap_cons]
    refine (each i x (by simp)).bind fun a _ => ?_
    rw [← List.append_nil (xs.flatMap write)]
    refine (rest (i + 1)).bind fun as _ => ?_
    exact .pure _

def Counts (count : Reader Nat) : Prop :=
  ∀ n bs offset, n < 2 ^ 32 → n ≤ bs.length →
    count ⟨Write.count n ++ bs, offset⟩ = .ok (n, ⟨bs, offset + 4⟩)

theorem counts_count : Counts Read.count := by
  intro n bs offset bound enough
  have size : (UInt32.ofNat n).toNat = n := UInt32.toNat_ofNat_of_lt' bound
  have number := reads_u32 (.ofNat n) bs offset
  rw [Write.u32, size, length_le] at number
  have checked : Read.enough (UInt32.ofNat n).toNat bs = true := by simp [enough_eq, size, enough]
  change (Read.u32 ⟨le 4 n ++ bs, offset⟩ >>= fun p =>
    (do
      let c ← get
      if Read.enough p.1.toNat c.rest then return p.1.toNat
      else throw (.truncated c.offset p.1.toNat) : Reader Nat) p.2) = _
  rw [number]
  change (if Read.enough (UInt32.ofNat n).toNat bs then _ else _ : Reader Nat) _ = _
  rw [if_pos checked, size]
  rfl

theorem length_le_flatMap {xs : List β} (filled : ∀ x ∈ xs, write x ≠ []) :
    xs.length ≤ (xs.flatMap write).length := by
  induction xs with
  | nil => simp
  | cons x xs ih =>
    have rest := ih fun y member => filled y (by simp [member])
    have first := List.length_pos_iff.2 (filled x (by simp))
    simp only [List.flatMap_cons, List.length_append, List.length_cons]
    omega

theorem reads_list {count : Reader Nat} (counts : Counts count) {xs : List β}
    (fits : xs.length < 2 ^ 32) (filled : ∀ x ∈ xs, write x ≠ [])
    (each : ∀ i, ∀ x ∈ xs, Reads (item i) (write x) (result i x)) :
    Reads (Read.list count item) (Write.count xs.length ++ xs.flatMap write)
      (collect result 0 xs) := by
  intro rest offset
  have enough : xs.length ≤ (xs.flatMap write ++ rest).length := by
    rw [List.length_append]
    exact Nat.le_add_right_of_le (length_le_flatMap filled)
  have counted := counts xs.length (xs.flatMap write ++ rest) offset fits enough
  change (count ⟨_, offset⟩ >>= fun p => Read.items item p.1 0 p.2) = _
  rw [List.append_assoc, counted]
  change Read.items item xs.length 0 _ = _
  rw [reads_items each 0 rest (offset + 4), List.length_append, Write.count, length_le,
    Nat.add_assoc]

theorem reads_array {count : Reader Nat} (counts : Counts count) {xs : Array β}
    (fits : xs.size < 2 ^ 32) (filled : ∀ x ∈ xs, write x ≠ [])
    (each : ∀ i, ∀ x ∈ xs, Reads (item i) (write x) (result i x)) :
    Reads (Read.array count item) (Write.list write xs)
      (collect result 0 xs.toList >>= fun as => .ok as.toArray) := by
  have fits : xs.toList.length < 2 ^ 32 := fits
  have read := reads_list counts fits (by simpa using filled) (by simpa using each)
  rw [Write.list, ← List.append_nil (_ ++ _)]
  exact read.bind fun as _ => .pure as.toArray

theorem reads_all {item : Nat → Reader β} {count : Reader Nat} (counts : Counts count)
    {xs : Array β} (fits : xs.size < 2 ^ 32) (filled : ∀ x ∈ xs, write x ≠ [])
    (each : ∀ i, ∀ x ∈ xs, Reads (item i) (write x) (.ok x)) :
    Reads (Read.array count item) (Write.list write xs) (.ok xs) := by
  have whole : collect (fun _ x => .ok x) 0 xs.toList = .ok xs.toList := by
    simpa using collect_ok (g := id) (fun _ x (_ : x ∈ xs.toList) => rfl) 0
  have read := reads_array counts fits filled each
  rwa [whole] at read

end Lists

end Chunk

end LuaMachine
