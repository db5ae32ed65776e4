import LuaMachine.Proofs.Chunk.RoundTrip

set_option autoImplicit false

namespace LuaMachine

namespace Chunk

variable {α β : Type}

/-- Where `r` accepts its input, of at most `size` bytes, it takes `least` bytes or more, would
take them before any others too, and gives a result that satisfies `P`. -/
def Takes (size least : Nat) (r : Reader α) (P : α → Prop) : Prop :=
  ∀ c a c', c.rest.length ≤ size → r c = .ok (a, c') →
    P a ∧ ∃ bs, c.rest = bs ++ c'.rest ∧ least ≤ bs.length ∧ Reads r bs (.ok a)

theorem bind_accepts {r : Reader α} {f : α → Reader β} {c c' : Cursor} {b : β}
    (ran : (r >>= f) c = .ok (b, c')) : ∃ a d, r c = .ok (a, d) ∧ f a d = .ok (b, c') := by
  change (r c >>= fun p => f p.1 p.2) = _ at ran
  cases first : r c with
  | error e =>
    rw [first] at ran
    cases ran
  | ok p =>
    rw [first] at ran
    exact ⟨p.1, p.2, rfl, ran⟩

namespace Takes

variable {size least m n : Nat} {r : Reader α} {f : α → Reader β} {P : α → Prop} {Q : β → Prop}

theorem pure {a : α} (holds : P a) : Takes size 0 (pure a : Reader α) P := by
  rintro c _ _ - ⟨⟩
  exact ⟨holds, [], rfl, Nat.le_refl 0, .pure a⟩

theorem throw (e : ChunkError) : Takes size least (throw e : Reader α) P := by
  rintro c a c' - ⟨⟩

theorem bind (first : Takes size m r P) (rest : ∀ a, P a → Takes size n (f a) Q) :
    Takes size (m + n) (r >>= f) Q := by
  intro c b c' within ran
  obtain ⟨a, d, ran, ran'⟩ := bind_accepts ran
  obtain ⟨holds, bs, split, enough, reads⟩ := first c a d within ran
  have length : c.rest.length = bs.length + d.rest.length := by rw [split, List.length_append]
  obtain ⟨holds', cs, split', enough', reads'⟩ := rest a holds d b c' (by omega) ran'
  refine ⟨holds', bs ++ cs, ?_, ?_, reads.next reads'⟩
  · rw [split, split', List.append_assoc]
  · rw [List.length_append]
    omega

theorem mono (h : Takes size n r P) (le : m ≤ n) : Takes size m r P := by
  intro c a c' within ran
  obtain ⟨holds, bs, split, enough, reads⟩ := h c a c' within ran
  exact ⟨holds, bs, split, Nat.le_trans le enough, reads⟩

theorem next (first : Takes size n r P) (rest : ∀ a, P a → Takes size 0 (f a) Q)
    (le : m ≤ n := by omega) : Takes size m (r >>= f) Q :=
  (first.bind rest).mono le

theorem map (g : α → β) (first : Takes size n r P) (holds : ∀ a, P a → Q (g a)) :
    Takes size n (r >>= fun a => Pure.pure (g a)) Q :=
  first.next (fun a was => .pure (holds a was)) (Nat.le_refl n)

end Takes

section Fields

variable {size : Nat}

theorem bytes_takes (n : Nat) :
    Takes size n (Read.bytes n) fun bs => bs.length = n ∧ bs.length ≤ size := by
  intro c a c' within ran
  unfold Read.bytes at ran
  split at ran
  next enough =>
    cases ran
    rw [enough_eq, decide_eq_true_eq] at enough
    have length : (c.rest.take n).length = n := List.length_take_of_le enough
    have reads := reads_bytes (c.rest.take n)
    rw [length] at reads
    exact ⟨⟨length, by omega⟩, _, (List.take_append_drop n c.rest).symm, by omega, reads⟩
  next => cases ran

theorem byte_takes : Takes size 1 Read.byte fun _ => True :=
  (bytes_takes 1).map _ fun _ _ => trivial

theorem u32_takes : Takes size 4 Read.u32 fun _ => True :=
  (bytes_takes 4).map _ fun _ _ => trivial

theorem u64_takes : Takes size 8 Read.u64 fun _ => True :=
  (bytes_takes 8).map _ fun _ _ => trivial

theorem string_takes : Takes size 1 Read.string
    fun s => (s.getD []).length + 1 < 2 ^ 64 ∧ (s.getD []).length ≤ size := by
  have sized (n : Nat) (fits : n < 2 ^ 64) : Takes size 0
      (if n = 0 then pure none else do return some (← Read.bytes (n - 1)))
      fun s => (s.getD []).length + 1 < 2 ^ 64 ∧ (s.getD []).length ≤ size := by
    split
    · exact .pure (by simp)
    · refine ((bytes_takes (n - 1)).map some ?_).mono (Nat.zero_le _)
      rintro bs ⟨length, within⟩
      exact ⟨by simp only [Option.getD_some]; omega, within⟩
  have chosen (n : Nat) (fits : n < 2 ^ 64) : Takes size 0 (pure n) (· < 2 ^ 64) := .pure fits
  refine byte_takes.next fun first _ => ?_
  dsimp only
  split
  · exact u64_takes.next fun n _ => (chosen _ n.toNat_lt).next sized
  · have small := first.toNat_lt
    exact (chosen _ (by omega)).next sized

def Brief (size : Nat) (s : String) : Prop := (Utf8.encode s).length ≤ 3 * size + 2

theorem name_takes : Takes size 1 Read.name (Brief size) := by
  refine string_takes.map _ ?_
  rintro s ⟨-, within⟩
  have length := Utf8.length_decodeLossy (s.getD [])
  unfold Brief
  omega

theorem constant_takes : Takes size 1 Read.constant Constant.Fits := by
  refine byte_takes.next fun tag _ => ?_
  split
  · exact .pure trivial
  split
  · exact byte_takes.next fun _ _ => .pure trivial
  split
  · exact u64_takes.next fun _ _ => .pure trivial
  split
  · exact u64_takes.next fun _ _ => .pure trivial
  split
  · exact string_takes.next fun _ fits => .pure fits.1
  · exact .throw _

theorem instruction_takes (pc : Nat) :
    Takes size 1 (Read.instruction pc) fun w => w.opcode? ≠ none := by
  refine u32_takes.next fun bits _ => ?_
  dsimp only
  split
  · exact .throw _
  next names => exact .pure (by simpa using names)

theorem capture_takes : Takes size 1 Read.capture fun _ => True :=
  byte_takes.next fun _ _ => byte_takes.next fun _ _ => .pure trivial

theorem local_takes : Takes size 1 Read.localVariable fun v => Brief size v.name :=
  name_takes.next fun _ brief => u32_takes.next fun _ _ => u32_takes.next fun _ _ => .pure brief

end Fields

section Lists

variable {size : Nat} {item : Nat → Reader α} {P : α → Prop}

theorem items_takes (each : ∀ i, Takes size 1 (item i) P) (n i : Nat) :
    Takes size n (Read.items item n i) fun xs => xs.length = n ∧ ∀ x ∈ xs, P x := by
  induction n generalizing i with
  | zero => exact .pure (by simp)
  | succ n ih =>
    refine ((each i).bind fun x holds => (ih (i + 1)).map (x :: ·) ?_).mono (by omega)
    rintro xs ⟨length, all⟩
    exact ⟨congrArg (· + 1) length, by simpa [holds] using all⟩

def Recounts (count : Reader Nat) : Prop :=
  ∀ c n c', count c = .ok (n, c') → n < 2 ^ 32 ∧ ∃ bs, c.rest = bs ++ c'.rest ∧
    ∀ rest offset, n ≤ rest.length →
      count ⟨bs ++ rest, offset⟩ = .ok (n, ⟨rest, offset + bs.length⟩)

theorem recounts_count : Recounts Read.count := by
  intro c n c' ran
  obtain ⟨m, d, number, ran⟩ := bind_accepts ran
  obtain ⟨-, bs, split, -, reads⟩ := u32_takes c m d (Nat.le_refl _) number
  change (if Read.enough m.toNat d.rest then _ else _ : Reader Nat) d = _ at ran
  split at ran
  next =>
    cases ran
    refine ⟨m.toNat_lt, bs, split, fun rest offset enough => ?_⟩
    have checked : Read.enough m.toNat rest = true := by simp [enough_eq, enough]
    change (Read.u32 ⟨bs ++ rest, offset⟩ >>= fun p =>
      (do
        let c ← get
        if Read.enough p.1.toNat c.rest then return p.1.toNat
        else throw (.truncated c.offset p.1.toNat) : Reader Nat) p.2) = _
    rw [reads rest offset]
    change (if Read.enough m.toNat rest then _ else _ : Reader Nat) _ = _
    rw [if_pos checked]
    rfl
  next => cases ran

variable {count : Reader Nat}

theorem list_takes (recounts : Recounts count) (each : ∀ i, Takes size 1 (item i) P) :
    Takes size 0 (Read.list count item) fun xs => xs.length < 2 ^ 32 ∧ ∀ x ∈ xs, P x := by
  intro c xs c' within ran
  obtain ⟨n, d, counted, ran⟩ := bind_accepts ran
  obtain ⟨bound, bs, split, again⟩ := recounts c n d counted
  have shorter : d.rest.length ≤ size := by
    rw [split, List.length_append] at within
    omega
  -- Every item takes a byte, so that those taken here satisfy the count whatever follows them.
  obtain ⟨⟨length, all⟩, cs, split', enough, reads⟩ := items_takes each n 0 d xs c' shorter ran
  refine ⟨⟨length ▸ bound, all⟩, bs ++ cs, by rw [split, split', List.append_assoc],
    Nat.zero_le _, fun rest offset => ?_⟩
  have counts := again (cs ++ rest) offset (by rw [List.length_append]; omega)
  change (count ⟨bs ++ cs ++ rest, offset⟩ >>= fun p => Read.items item p.1 0 p.2) = _
  rw [List.append_assoc, counts]
  change Read.items item n 0 _ = _
  rw [reads rest (offset + bs.length), List.length_append, Nat.add_assoc]

theorem array_takes (recounts : Recounts count) (each : ∀ i, Takes size 1 (item i) P) :
    Takes size 0 (Read.array count item) fun xs => xs.size < 2 ^ 32 ∧ ∀ x ∈ xs, P x :=
  (list_takes recounts each).map List.toArray fun xs holds => by simpa using holds

end Lists

section Header

-- `r` accepts only what begins with `bs`, and takes just that.
def Demands (r : Reader α) (bs : Bytes) : Prop :=
  ∀ c a c', r c = .ok (a, c') → c.rest = bs ++ c'.rest

variable {bs cs : Bytes}

theorem Demands.pure (a : α) : Demands (pure a : Reader α) [] := by
  rintro c _ _ ⟨⟩
  rfl

theorem Demands.bind {r : Reader α} {f : α → Reader β} (first : Demands r bs)
    (rest : ∀ a, Demands (f a) cs) : Demands (r >>= f) (bs ++ cs) := by
  intro c b c' ran
  obtain ⟨a, d, ran, ran'⟩ := bind_accepts ran
  rw [first c a d ran, rest a d b c' ran', List.append_assoc]

theorem Demands.check {r : Reader β} {enc : β → Bytes}
    (same : ∀ c b c', r c = .ok (b, c') → c.rest = enc b ++ c'.rest) [DecidableEq β] (x : β)
    {refuse : β → Reader α} (refuses : ∀ b c a c', refuse b c ≠ .ok (a, c')) {k : Reader α}
    (rest : Demands k cs) :
    Demands (r >>= fun b => if b ≠ x then refuse b else k) (enc x ++ cs) := by
  intro c a c' ran
  obtain ⟨b, d, ran, ran'⟩ := bind_accepts ran
  by_cases right : b = x
  · rw [if_neg (by simpa using right)] at ran'
    rw [same c b d ran, rest d a c' ran', right, List.append_assoc]
  · rw [if_pos right] at ran'
    exact absurd ran' (refuses b d a c')

theorem bytes_same (n : Nat) (c : Cursor) (bs : Bytes) (c' : Cursor)
    (ran : Read.bytes n c = .ok (bs, c')) : c.rest = bs ++ c'.rest := by
  unfold Read.bytes at ran
  split at ran <;> cases ran
  exact (List.take_append_drop n c.rest).symm

theorem byte_same (c : Cursor) (b : UInt8) (c' : Cursor) (ran : Read.byte c = .ok (b, c')) :
    c.rest = [b] ++ c'.rest := by
  obtain ⟨bs, d, ran, same⟩ := bind_accepts ran
  obtain ⟨⟨one, -⟩, -⟩ := bytes_takes 1 c bs d (Nat.le_refl _) ran
  obtain ⟨first, rfl⟩ := List.length_eq_one_iff.1 one
  cases same
  exact bytes_same 1 c _ _ ran

theorem typeSizes_demands (sizes : List (String × UInt8)) :
    Demands (sizes.forM fun (what, size) => Read.typeSize what size) (sizes.map (·.2)) := by
  induction sizes with
  | nil => exact .pure _
  | cons entry rest ih =>
    have one : Demands (Read.typeSize entry.1 entry.2) ([entry.2] ++ []) :=
      .check byte_same entry.2 (by rintro b c a c' ⟨⟩) (.pure ())
    exact one.bind fun _ => ih

theorem header_demands : Demands Read.header header := by
  intro c a c' ran
  change (if !signature.isPrefixOf c.rest then _ else _ : Reader Unit) c = _ at ran
  split at ran
  next => cases ran
  next starts =>
    obtain ⟨bs, d, ran, ran'⟩ := bind_accepts ran
    obtain ⟨⟨length, -⟩, -⟩ := bytes_takes signature.length c bs d (Nat.le_refl _) ran
    obtain ⟨rest, begins⟩ : signature <+: c.rest := by simpa using starts
    have split := bytes_same _ c bs d ran
    obtain ⟨rfl, -⟩ := List.append_inj (begins.trans split) length.symm
    have fields := Demands.check byte_same version (by rintro b c a c' ⟨⟩)
      (.check byte_same format (by rintro b c a c' ⟨⟩)
        (.check (bytes_same _) conversionData (by rintro b c a c' ⟨⟩)
          ((typeSizes_demands typeSizes).bind fun _ =>
            .check (bytes_same 8) sampleInt (by rintro b c a c' ⟨⟩)
              (.check (bytes_same 8) sampleFloat (by rintro b c a c' ⟨⟩)
                (.pure ()))))) d a c' ran'
    rw [split, fields, header]
    simp

theorem header_takes {size : Nat} : Takes size 0 Read.header fun _ => True :=
  fun c a c' _ ran => ⟨trivial, header, header_demands c a c' ran, Nat.zero_le _, reads_header⟩

end Header

end Chunk

def Routine.texts (r : Routine) : List String :=
  r.source :: r.locals.toList.map (·.name) ++ r.captureNames.toList

structure Routine.Accepted (size : Nat) (r : Routine) : Prop where
  operations : ∀ w ∈ r.code, w.opcode? ≠ none
  source : r.source ≠ ""
  code : r.code.size < 2 ^ 32
  constants : r.constants.size < 2 ^ 32
  captures : r.captures.size < 2 ^ 32
  lines : r.lines.size < 2 ^ 32
  locals : r.locals.size < 2 ^ 32
  captureNames : r.captureNames.size < 2 ^ 32
  strings : ∀ c ∈ r.constants, c.Fits
  texts : ∀ s ∈ r.texts, Chunk.Brief size s

namespace Prototype

def Accepted (size depth : Nat) (p : Prototype) : Prop :=
  ∀ n q, p.Inside n q → n < depth ∧ q.toRoutine.Accepted size ∧ q.protos.length < 2 ^ 32

/-- Sizes of strings have 64 bits, and no text in the function is longer. -/
def Sized (p : Prototype) : Prop :=
  ∀ n q, p.Inside n q → ∀ s ∈ q.texts, (Utf8.encode s).length + 1 < 2 ^ 64

theorem Accepted.sized {size depth : Nat} {p : Prototype} (accepted : p.Accepted size depth)
    (small : 3 * size + 3 < 2 ^ 64) : p.Sized := by
  intro n q inside s member
  obtain ⟨-, routine, -⟩ := accepted n q inside
  have brief := routine.texts s member
  unfold Chunk.Brief at brief
  omega

theorem Accepted.fits {size depth : Nat} {p : Prototype} (accepted : p.Accepted size depth)
    (sized : p.Sized) : p.Fits := by
  intro n q inside
  obtain ⟨-, routine, inner⟩ := accepted n q inside
  have texts := sized n q inside
  refine ⟨⟨texts _ (by simp [Routine.texts]), routine.code, routine.constants, routine.captures,
    routine.lines, routine.locals, routine.captureNames, routine.strings, fun v member => ?_,
    fun s member => ?_⟩, inner⟩
  · refine texts v.name ?_
    simp only [Routine.texts, List.mem_append, List.mem_cons, List.mem_map]
    exact .inl (.inr ⟨v, by simpa using member, rfl⟩)
  · exact texts s (by simp [Routine.texts, member])

theorem Accepted.named {size depth : Nat} {p : Prototype} (accepted : p.Accepted size depth)
    (outer : String) : p.named outer = p := by
  induction depth generalizing p outer with
  | zero => exact absurd (accepted 0 p (.self p)).1 (Nat.not_lt_zero 0)
  | succ depth ih =>
    obtain ⟨r, protos⟩ := p
    have source : r.source ≠ "" := (accepted 0 _ (.self _)).2.1.source
    have inner (c : Prototype) (member : c ∈ protos) : c.named r.source = c := by
      apply ih
      intro n q inside
      obtain ⟨level, rest⟩ := accepted (n + 1) q (.inner member inside)
      exact ⟨by omega, rest⟩
    have all : protos.map (·.named r.source) = protos := by
      simpa using List.map_congr_left inner
    rw [Prototype.named, Chunk.namedAll_eq, if_neg source, all]

end Prototype

namespace Chunk

theorem prototype_takes {size : Nat} {count : Reader Nat} (recounts : Recounts count)
    (depth : Nat) {parent : String} (source : parent ≠ "") (brief : Brief size parent) :
    Takes size 1 (Read.prototype count depth parent) (Prototype.Accepted size depth) := by
  induction depth generalizing parent with
  | zero => exact .throw _
  | succ depth ih =>
    unfold Read.prototype
    refine name_takes.next fun given legible => ?_
    dsimp only
    generalize chosen : (if given.isEmpty then parent else given) = name
    have named : name ≠ "" ∧ Brief size name := by
      subst chosen
      split
      · exact ⟨source, brief⟩
      next filled => exact ⟨by simpa using filled, legible⟩
    refine u32_takes.next fun lineDefined _ => u32_takes.next fun lastLine _ => ?_
    refine byte_takes.next fun params _ => byte_takes.next fun vararg _ => ?_
    refine byte_takes.next fun stackSize _ => ?_
    refine (array_takes recounts instruction_takes).next fun code operations => ?_
    refine (array_takes recounts fun _ => constant_takes).next fun constants strings => ?_
    refine (array_takes recounts fun _ => capture_takes).next fun captures captured => ?_
    refine (list_takes recounts fun _ => ih named.1 named.2).next fun protos inner => ?_
    refine (array_takes recounts fun _ => u32_takes.mono (by decide)).next fun lines lined => ?_
    refine (array_takes recounts fun _ => local_takes).next fun locals declared => ?_
    refine (array_takes recounts fun _ => name_takes).next fun names legible => ?_
    refine .pure fun n q inside => ?_
    cases inside with
    | self =>
      refine ⟨Nat.succ_pos _, ⟨operations.2, named.1, operations.1, strings.1, captured.1, lined.1,
        declared.1, legible.1, strings.2, fun s member => ?_⟩, inner.1⟩
      simp only [Routine.texts, List.mem_append, List.mem_cons, List.mem_map] at member
      rcases member with (rfl | ⟨v, member, rfl⟩) | member
      · exact named.2
      · exact declared.2 v (by simpa using member)
      · exact legible.2 s (by simpa using member)
    | inner member inside =>
      obtain ⟨level, rest⟩ := inner.2 _ member _ _ inside
      exact ⟨Nat.succ_lt_succ level, rest⟩

theorem chunk_takes (size : Nat) :
    Takes size 0 (Read.chunk Read.count) (Prototype.Accepted size (maxNesting + 1)) := by
  have brief : Brief size unknownSource := by
    have length : (Utf8.encode unknownSource).length = 2 := by decide
    unfold Brief
    omega
  refine header_takes.next fun _ _ => byte_takes.next fun _ _ => ?_
  exact (prototype_takes recounts_count _ (by decide) brief).mono (Nat.zero_le _)

theorem readWith_accepts_iff {count : Reader Nat} {data : Bytes} {p : Prototype} :
    readWith count data = .ok p ↔
      ∃ c, Read.chunk count ⟨data, 0⟩ = .ok (p, c) ∧ c.rest = [] := by
  unfold readWith
  cases Read.chunk count ⟨data, 0⟩ with
  | error e =>
    constructor
    · rintro ⟨⟩
    · rintro ⟨c, ⟨⟩, -⟩
  | ok result =>
    change (if result.2.rest.isEmpty then _ else _ : Except ChunkError Prototype) = _ ↔ _
    constructor
    · intro accepted
      split at accepted
      next done =>
        cases accepted
        exact ⟨result.2, rfl, by simpa using done⟩
      next => cases accepted
    · rintro ⟨c, ⟨⟩, done⟩
      rw [if_pos (by simpa using done)]
      rfl

theorem read_accepts {data : Bytes} {p : Prototype} (accepted : read data = .ok p) :
    ∃ c, Read.chunk Read.count ⟨data, 0⟩ = .ok (p, c) ∧ c.rest = [] :=
  readWith_accepts_iff.1 accepted

theorem accepted_of_read {data : Bytes} {p : Prototype} (accepted : read data = .ok p) :
    p.Accepted data.length (maxNesting + 1) := by
  obtain ⟨c, ran, -⟩ := read_accepts accepted
  exact (chunk_takes data.length _ p c (Nat.le_refl _) ran).1

theorem reads_of_read {data : Bytes} {p : Prototype} (accepted : read data = .ok p) :
    Reads (Read.chunk Read.count) data (.ok p) := by
  obtain ⟨c, ran, done⟩ := read_accepts accepted
  obtain ⟨-, bs, split, -, reads⟩ := chunk_takes data.length _ p c (Nat.le_refl _) ran
  have whole : data = bs := by simpa [done] using split
  exact whole ▸ reads

theorem read_append {data : Bytes} {p : Prototype} (accepted : read data = .ok p) {more : Bytes}
    (some : more ≠ []) : read (data ++ more) = .error (.trailingBytes more.length) := by
  have run := reads_of_read accepted more 0
  have left : more.isEmpty = false := by simpa using some
  rw [read, readWith, run]
  change (if more.isEmpty then _ else _ : Except ChunkError Prototype) = _
  rw [left]
  rfl

/-- What is read from a chunk, however it was written, is read again from the chunk written for
it. Only texts of more bytes than their sizes can tell would be lost, and no chunk of less than
2^62 bytes holds any. -/
theorem read_write_accepted {data : Bytes} {p : Prototype} (accepted : read data = .ok p) :
    (data.length < 2 ^ 62 → p.Sized) ∧ (p.Sized → read (write p) = .ok p) := by
  have valid := accepted_of_read accepted
  refine ⟨fun small => valid.sized (by omega), fun sized => ?_⟩
  rw [read_write_eq (valid.fits sized), restore_ok, valid.named]
  intro n q inside
  obtain ⟨level, routine, -⟩ := valid n q inside
  exact ⟨level, routine.operations⟩

-- A chunk that no writer writes: a size in nine bytes that fits in one, absent strings for empty
-- ones, truth as any byte, and a name that is no text.
def irregular : Bytes :=
  header ++ [9] ++ [0] ++ le 8 0 ++ [0, 7, 2] ++ Write.count 0
    ++ Write.count 3 ++ [longTag, 0xFF] ++ le 8 2 ++ [65, boolTag, 5, shortTag, 0]
    ++ Write.count 1 ++ [2, 0] ++ Write.count 0 ++ Write.count 0 ++ Write.count 0
    ++ Write.count 1 ++ [3, 0xFF, 66]

def regular : Prototype :=
  { source := "=?", vararg := true, constants := #[.str [65], .bool true, .str []]
    captures := #[.register 0], captureNames := #["\uFFFDB"] }

theorem read_irregular : read irregular = .ok regular := by
  have outcome : (match read irregular with
    | .ok p => decide (p.toRoutine = regular.toRoutine) && p.protos.isEmpty
    | .error _ => false) = true := by decide +kernel
  split at outcome
  next p accepted =>
    obtain ⟨routine, protos⟩ := p
    simp only [Bool.and_eq_true, decide_eq_true_eq, List.isEmpty_iff] at outcome
    obtain ⟨rfl, rfl⟩ := outcome
    exact accepted
  next => cases outcome

theorem read_write_irregular :
    read irregular = .ok regular ∧ irregular ≠ write regular ∧
      read (write regular) = .ok regular := by
  obtain ⟨sized, again⟩ := read_write_accepted read_irregular
  exact ⟨read_irregular, by decide +kernel, again (sized (by decide +kernel))⟩

/-- An accepted chunk begins with the header; nothing that ends before it is a chunk, and nothing
that goes on after it. -/
theorem accepted_delimited {data : Bytes} {p : Prototype} (accepted : read data = .ok p) :
    data.take 33 = header ∧
    (∀ cut, cut <+: data → cut ≠ data → ∃ e, read cut = .error e) ∧
    ∀ more, more ≠ [] → read (data ++ more) = .error (.trailingBytes more.length) := by
  refine ⟨?_, ?_, fun more some => read_append accepted some⟩
  · obtain ⟨c, ran, -⟩ := read_accepts accepted
    obtain ⟨_, d, ran, -⟩ := bind_accepts ran
    have begins : data = header ++ d.rest := header_demands _ _ _ ran
    rw [begins, ← length_header, List.take_left]
  · rintro cut ⟨more, rfl⟩ proper
    cases outcome : read cut with
    | error e => exact ⟨e, rfl⟩
    | ok q =>
      -- The rest of the chunk would be trailing bytes.
      have some : more ≠ [] := by simpa using proper
      rw [read_append outcome some] at accepted
      cases accepted

theorem accepted_delimited_irregular :
    irregular.take 33 = header ∧ (∃ e, read irregular.dropLast = .error e) ∧
      read (irregular ++ [0]) = .error (.trailingBytes 1) := by
  obtain ⟨begins, cut, longer⟩ := accepted_delimited read_irregular
  exact ⟨begins, cut _ (List.dropLast_prefix _) (by decide +kernel), longer [0] (by simp)⟩

end Chunk

end LuaMachine
