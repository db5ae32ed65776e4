import LuaMachine.Proofs.Chunk.Accepted

set_option autoImplicit false

namespace LuaMachine.Chunk

variable {α β : Type}

def Consumes (least : Nat) (r : Reader α) : Prop :=
  ∀ c a c', r c = .ok (a, c') → c'.rest.length + least ≤ c.rest.length

namespace Consumes

variable {m n : Nat} {r : Reader α} {f : α → Reader β}

theorem of_takes {P : Nat → α → Prop} (takes : ∀ size, Takes size n r (P size)) :
    Consumes n r := by
  intro c a c' ran
  obtain ⟨-, bs, split, enough, -⟩ := takes c.rest.length c a c' (Nat.le_refl _) ran
  rw [split, List.length_append]
  omega

theorem pure (a : α) : Consumes 0 (pure a : Reader α) := by
  rintro c _ _ ⟨⟩
  exact Nat.le_refl _

theorem bind (first : Consumes m r) (rest : ∀ a, Consumes n (f a)) :
    Consumes (m + n) (r >>= f) := by
  intro c b c' ran
  obtain ⟨a, d, ran, ran'⟩ := bind_accepts ran
  have := first c a d ran
  have := rest a d b c' ran'
  omega

theorem mono (h : Consumes n r) (le : m ≤ n) : Consumes m r := by
  intro c a c' ran
  have := h c a c' ran
  omega

-- The bytes of the first part alone are enough.
theorem next (first : Consumes n r) (rest : ∀ a, Consumes 0 (f a)) (le : m ≤ n := by omega) :
    Consumes m (r >>= f) :=
  (first.bind rest).mono le

end Consumes

section Shapes

variable {count : Reader Nat} {item : Nat → Reader α}

theorem items_consumes {least : Nat} (each : ∀ i, Consumes least (item i)) (n i : Nat) :
    Consumes (n * least) (Read.items item n i) := by
  induction n generalizing i with
  | zero =>
    rw [Nat.zero_mul]
    exact .pure []
  | succ n ih =>
    have both := (each i).bind fun x => (ih (i + 1)).bind fun xs => .pure (x :: xs)
    rwa [Nat.add_zero, Nat.add_comm least, ← Nat.succ_mul] at both

theorem list_consumes (counts : Consumes 0 count) (each : ∀ i, Consumes 0 (item i)) :
    Consumes 0 (Read.list count item) :=
  counts.next fun n => (items_consumes each n 0).mono (Nat.zero_le _)

theorem array_consumes (counts : Consumes 0 count) (each : ∀ i, Consumes 0 (item i)) :
    Consumes 0 (Read.array count item) :=
  (list_consumes counts each).next fun _ => .pure _

theorem u32_consumes : Consumes 4 Read.u32 := .of_takes fun _ => u32_takes

theorem byte_consumes : Consumes 1 Read.byte := .of_takes fun _ => byte_takes

theorem name_consumes : Consumes 1 Read.name := .of_takes fun _ => name_takes

theorem constant_consumes : Consumes 1 Read.constant := .of_takes fun _ => constant_takes

theorem instruction_consumes (pc : Nat) : Consumes 1 (Read.instruction pc) :=
  .of_takes fun _ => instruction_takes pc

theorem capture_consumes : Consumes 1 Read.capture := .of_takes fun _ => capture_takes

theorem local_consumes : Consumes 1 Read.localVariable := .of_takes fun _ => local_takes

-- The name alone takes a byte, even where it is absent.
theorem prototype_consumes (counts : Consumes 0 count) (depth : Nat) (parent : String) :
    Consumes 1 (Read.prototype count depth parent) := by
  induction depth generalizing parent with
  | zero => rintro c p c' ⟨⟩
  | succ depth ih =>
    have array {γ : Type} {item : Nat → Reader γ} (each : ∀ i, Consumes 1 (item i)) :
        Consumes 0 (Read.array count item) :=
      array_consumes counts fun i => (each i).mono (Nat.zero_le 1)
    unfold Read.prototype
    refine name_consumes.next fun given => ?_
    refine u32_consumes.next fun lineDefined => u32_consumes.next fun lastLine => ?_
    refine byte_consumes.next fun params => byte_consumes.next fun vararg => ?_
    refine byte_consumes.next fun stackSize => ?_
    refine (array instruction_consumes).next fun code => ?_
    refine (array fun _ => constant_consumes).next fun constants => ?_
    refine (array fun _ => capture_consumes).next fun captures => ?_
    refine (list_consumes counts fun _ => (ih _).mono (Nat.zero_le 1)).next fun protos => ?_
    refine (array fun _ => u32_consumes.mono (by decide)).next fun lines => ?_
    refine (array fun _ => local_consumes).next fun locals => ?_
    exact (array fun _ => name_consumes).next fun names => .pure _

/-- What stands behind a count: the items of the seven lists of a function, the functions inside it
among them. -/
inductive Item (count : Reader Nat) : {α : Type} → (Nat → Reader α) → Prop where
  | instruction : Item count Read.instruction
  | constant : Item count fun _ => Read.constant
  | capture : Item count fun _ => Read.capture
  | prototype (depth : Nat) (parent : String) :
    Item count fun _ => Read.prototype count depth parent
  | line : Item count fun _ => Read.u32
  | localVariable : Item count fun _ => Read.localVariable
  | name : Item count fun _ => Read.name

theorem Item.consumes (counts : Consumes 0 count) (shape : Item count item) (i : Nat) :
    Consumes 1 (item i) := by
  cases shape with
  | instruction => exact instruction_consumes i
  | constant => exact constant_consumes
  | capture => exact capture_consumes
  | prototype depth parent => exact prototype_consumes counts depth parent
  | line => exact u32_consumes.mono (by decide)
  | localVariable => exact local_consumes
  | name => exact name_consumes

end Shapes

/-- The readers accept the same inputs and make the same of them. Their errors may differ. -/
def Agree (r r' : Reader α) : Prop :=
  ∀ c a c', r c = .ok (a, c') ↔ r' c = .ok (a, c')

theorem Agree.refl (r : Reader α) : Agree r r := fun _ _ _ => Iff.rfl

theorem bind_accepts_iff {r : Reader α} {f : α → Reader β} {c c' : Cursor} {b : β} :
    (r >>= f) c = .ok (b, c') ↔ ∃ a d, r c = .ok (a, d) ∧ f a d = .ok (b, c') := by
  refine ⟨bind_accepts, fun ⟨a, d, first, rest⟩ => ?_⟩
  change (r c >>= fun p => f p.1 p.2) = _
  rw [first]
  exact rest

theorem Agree.bind {r r' : Reader α} {f f' : α → Reader β} (first : Agree r r')
    (rest : ∀ a, Agree (f a) (f' a)) : Agree (r >>= f) (r' >>= f') := by
  intro c b c'
  simp only [bind_accepts_iff, first c _ _, rest _ _ _ _]

section Lists

theorem count_iff {c c' : Cursor} {n : Nat} :
    Read.count c = .ok (n, c') ↔ Read.plainCount c = .ok (n, c') ∧ n ≤ c'.rest.length := by
  have compared (m : UInt32) (d : Cursor) :
      (do
        let c ← get
        if Read.enough m.toNat c.rest then return m.toNat
        else throw (.truncated c.offset m.toNat) : Reader Nat) d = .ok (n, c') ↔
      (pure m.toNat : Reader Nat) d = .ok (n, c') ∧ n ≤ c'.rest.length := by
    change (if Read.enough m.toNat d.rest then pure m.toNat else throw _ : Reader Nat) d = _ ↔ _
    rw [enough_eq]
    constructor
    · intro ran
      split at ran
      next enough =>
        cases ran
        exact ⟨rfl, of_decide_eq_true enough⟩
      next => cases ran
    · rintro ⟨⟨⟩, enough⟩
      rw [if_pos (decide_eq_true enough)]
      rfl
  unfold Read.count Read.plainCount
  simp only [bind_accepts_iff, compared]
  constructor
  · rintro ⟨m, d, number, same, enough⟩
    exact ⟨⟨m, d, number, same⟩, enough⟩
  · rintro ⟨⟨m, d, number, same⟩, enough⟩
    exact ⟨m, d, number, same, enough⟩

theorem plainCount_consumes : Consumes 0 Read.plainCount := u32_consumes.next fun _ => .pure _

variable {item item' : Nat → Reader α}

theorem items_agree (each : ∀ i, Agree (item i) (item' i)) (n i : Nat) :
    Agree (Read.items item n i) (Read.items item' n i) := by
  induction n generalizing i with
  | zero => exact .refl _
  | succ n ih => exact (each i).bind fun x => (ih (i + 1)).bind fun xs => .refl _

-- Where the items are read there were as many bytes, so that the comparison would have passed.
theorem list_agree (each : ∀ i, Agree (item i) (item' i)) (filled : ∀ i, Consumes 1 (item' i)) :
    Agree (Read.list Read.count item) (Read.list Read.plainCount item') := by
  intro c xs c'
  simp only [Read.list, bind_accepts_iff, count_iff, items_agree each _ _ _ _ _]
  constructor
  · rintro ⟨n, d, ⟨counted, -⟩, ran⟩
    exact ⟨n, d, counted, ran⟩
  · rintro ⟨n, d, counted, ran⟩
    have enough := items_consumes filled n 0 d xs c' ran
    exact ⟨n, d, ⟨counted, by omega⟩, ran⟩

theorem array_agree (each : ∀ i, Agree (item i) (item' i)) (filled : ∀ i, Consumes 1 (item' i)) :
    Agree (Read.array Read.count item) (Read.array Read.plainCount item') :=
  (list_agree each filled).bind fun _ => .refl _

end Lists

theorem prototype_agree (depth : Nat) (parent : String) :
    Agree (Read.prototype Read.count depth parent)
      (Read.prototype Read.plainCount depth parent) := by
  induction depth generalizing parent with
  | zero => exact .refl _
  | succ depth ih =>
    have array {γ : Type} {item : Nat → Reader γ} (shape : Item Read.plainCount item) :
        Agree (Read.array Read.count item) (Read.array Read.plainCount item) :=
      array_agree (fun i => .refl (item i)) (shape.consumes plainCount_consumes)
    unfold Read.prototype
    refine .bind (.refl _) fun given => .bind (.refl _) fun lineDefined => ?_
    refine .bind (.refl _) fun lastLine => .bind (.refl _) fun params => ?_
    refine .bind (.refl _) fun vararg => .bind (.refl _) fun stackSize => ?_
    refine .bind (array .instruction) fun code => .bind (array .constant) fun constants => ?_
    refine .bind (array .capture) fun captures => ?_
    refine .bind (list_agree (fun _ => ih _) fun i => ?_) fun protos => ?_
    · exact (Item.prototype depth _).consumes plainCount_consumes i
    refine .bind (array .line) fun lines => .bind (array .localVariable) fun locals => ?_
    exact .bind (array .name) fun names => .refl _

theorem chunk_agree : Agree (Read.chunk Read.count) (Read.chunk Read.plainCount) :=
  .bind (.refl _) fun _ => .bind (.refl _) fun _ => prototype_agree _ _

/-- Comparing counts with the bytes left loses no chunk: reading without the comparison accepts
the same ones and makes the same of them. No list of any shape is ever read where its count is
greater than the number of bytes behind it. -/
theorem countCheck_lossless :
    (∀ data p, read data = .ok p ↔ readWith Read.plainCount data = .ok p) ∧
    ∀ {α : Type} {item : Nat → Reader α}, Item Read.plainCount item →
      ∀ n c xs c', Read.items item n 0 c = .ok (xs, c') → n ≤ c.rest.length := by
  refine ⟨fun data p => ?_, fun shape n c xs c' ran => ?_⟩
  · simp only [read, readWith_accepts_iff, chunk_agree _ _ _]
  · have taken := items_consumes (shape.consumes plainCount_consumes) n 0 c xs c' ran
    omega

end LuaMachine.Chunk
