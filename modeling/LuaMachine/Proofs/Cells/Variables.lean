import LuaMachine.Proofs.Values

set_option autoImplicit false

namespace LuaMachine

/-- What can be done with cells, through handles, and with the slots that they may be open on. -/
inductive CellOp where
  | make (c : Cell)
  | clone (h : Nat)
  | get (h : Nat)
  | set (h : Nat) (v : Value)
  | close (h : Nat)
  | write (slot : Nat) (v : Value)

def CellOp.Inside (size : Nat) : CellOp → Prop
  | .make (.opened slot) | .write slot _ => slot < size
  | _ => True

structure CellMachine (σ : Type) where
  make : Cell → σ → CellId × σ
  get : CellId → σ → Value
  set : CellId → Value → σ → σ
  close : CellId → σ → σ
  write : Nat → Value → σ → σ

structure Session (σ : Type) where
  handles : List CellId := []
  answers : List Value := []
  state : σ

def Session.through {σ : Type} (s : Session σ) (h : Nat) (f : CellId → Session σ) : Session σ :=
  match s.handles[h]? with
  | some id => f id
  | none => s

theorem Session.through_some {σ : Type} {s : Session σ} {h : Nat} {id : CellId}
    (found : s.handles[h]? = some id) (f : CellId → Session σ) : s.through h f = f id := by
  rw [through, found]

theorem Session.through_cases {σ : Type} (s : Session σ) (h : Nat) (f : CellId → Session σ) :
    s.through h f = s ∨ ∃ id, s.handles[h]? = some id ∧ s.through h f = f id := by
  cases found : s.handles[h]? with
  | none => exact .inl (by rw [through, found])
  | some id => exact .inr ⟨id, rfl, through_some found f⟩

namespace CellMachine

variable {σ : Type}

def step (m : CellMachine σ) (s : Session σ) : CellOp → Session σ
  | .make c =>
    let (id, state) := m.make c s.state
    { s with handles := s.handles ++ [id], state }
  | .clone h => s.through h fun id => { s with handles := s.handles ++ [id] }
  | .get h => s.through h fun id => { s with answers := s.answers ++ [m.get id s.state] }
  | .set h v => s.through h fun id => { s with state := m.set id v s.state }
  | .close h => s.through h fun id => { s with state := m.close id s.state }
  | .write slot v => { s with state := m.write slot v s.state }

def run (m : CellMachine σ) (s : Session σ) (ops : List CellOp) : Session σ := ops.foldl m.step s

def Closes (m : CellMachine σ) (s : Session σ) (id : CellId) (ops : List CellOp) : Prop :=
  ∃ before h after, ops = before ++ .close h :: after ∧ (m.run s before).handles[h]? = some id

theorem run_append (m : CellMachine σ) (s : Session σ) (ops ops' : List CellOp) :
    m.run s (ops ++ ops') = m.run (m.run s ops) ops' := List.foldl_append

end CellMachine

def Store.machine : CellMachine Store where
  make c s := s.newCell c
  get id s := s.getCell id
  set id v s := s.setCell id v
  close id s := s.closeCell id
  write slot v s := s.setSlot slot v

theorem Store.slotValue_setSlot {s : Store} {slot : Nat} (inside : slot < s.stack.size) (v : Value)
    (i : Nat) : (s.setSlot slot v).slotValue i = if i = slot then v else s.slotValue i := by
  simp only [slotValue, setSlot, Array.getD_eq_getD_getElem?, Array.getElem?_setIfInBounds]
  by_cases here : i = slot
  · simp [here, inside]
  · rw [if_neg (Ne.symm here), if_neg here]

theorem Store.setCell_opened {s : Store} {id : CellId} {slot : Nat}
    (isOpen : s.cell id = .opened slot) (v : Value) : s.setCell id v = s.setSlot slot v := by
  rw [setCell, isOpen]
  rfl

def Store.settle (s : Store) (id : CellId) (v : Value) : Store :=
  { s with cells := s.cells.setIfInBounds id.index (.closed v) }

theorem Store.setCell_closed {s : Store} {id : CellId} {w : Value} (closed : s.cell id = .closed w)
    (v : Value) : s.setCell id v = s.settle id v := by
  rw [setCell, closed]
  rfl

theorem Store.closeCell_opened {s : Store} {id : CellId} {slot : Nat}
    (isOpen : s.cell id = .opened slot) : s.closeCell id = s.settle id (s.slotValue slot) := by
  rw [closeCell, isOpen]
  rfl

theorem Store.closeCell_closed {s : Store} {id : CellId} {v : Value}
    (closed : s.cell id = .closed v) : s.closeCell id = s := by
  rw [closeCell, closed]

theorem Store.cell_settle {s : Store} {id : CellId} (made : id.index < s.cells.size) (v : Value)
    (other : CellId) :
    (s.settle id v).cell other = if other = id then .closed v else s.cell other := by
  obtain ⟨index⟩ := id
  obtain ⟨index'⟩ := other
  simp only [cell, settle, Array.getD_eq_getD_getElem?, Array.getElem?_setIfInBounds,
    CellId.mk.injEq]
  by_cases same : index' = index
  · subst same
    simp [made]
  · rw [if_neg (Ne.symm same), if_neg same]

inductive Location where
  | slot (i : Nat)
  | own (id : CellId)
  deriving DecidableEq

/-- The locations of all cells made so far, and everything that has been written, the last first. -/
structure Variables where
  places : List Location := []
  written : List (Location × Value) := []

namespace Variables

def last (v : Variables) (l : Location) : Value := (v.written.lookup l).getD .nil

def place (v : Variables) (id : CellId) : Location := v.places.getD id.index (.own id)

def record (v : Variables) (l : Location) (x : Value) : Variables :=
  { v with written := (l, x) :: v.written }

def make (v : Variables) : Cell → CellId × Variables
  | .opened slot => (⟨v.places.length⟩, { v with places := v.places ++ [.slot slot] })
  | .closed x =>
    let id : CellId := ⟨v.places.length⟩
    (id, { v with places := v.places ++ [Location.own id] }.record (.own id) x)

def close (v : Variables) (id : CellId) : Variables :=
  match v.place id with
  | .slot i =>
    { v with places := v.places.set id.index (.own id) }.record (.own id) (v.last (.slot i))
  | .own _ => v

def machine : CellMachine Variables where
  make c v := v.make c
  get id v := v.last (v.place id)
  set id x v := v.record (v.place id) x
  close id v := v.close id
  write slot x v := v.record (.slot slot) x

def ofStack (stack : Array Value) : Variables :=
  { written := stack.toList.zipIdx.map fun (x, i) => (.slot i, x) }

@[simp] theorem last_record (v : Variables) (l l' : Location) (x : Value) :
    (v.record l x).last l' = if l' = l then x else v.last l' := by
  unfold last record
  by_cases same : l' = l
  · simp [same]
  · simp [List.lookup_cons, beq_false_of_ne same, same]

@[simp] theorem places_record (v : Variables) (l : Location) (x : Value) :
    (v.record l x).places = v.places := rfl

theorem place_append (v : Variables) (l : Location) (id : CellId) :
    { v with places := v.places ++ [l] }.place id =
      if id = ⟨v.places.length⟩ then l else v.place id := by
  obtain ⟨index⟩ := id
  simp only [place, List.getD_eq_getElem?_getD, CellId.mk.injEq]
  rcases Nat.lt_trichotomy index v.places.length with low | rfl | high
  · rw [List.getElem?_append_left low, if_neg (Nat.ne_of_lt low)]
  · simp
  · rw [List.getElem?_eq_none (by simpa using Nat.succ_le_of_lt high),
      List.getElem?_eq_none (Nat.le_of_lt high), if_neg (Nat.ne_of_gt high)]

theorem place_set (v : Variables) {id : CellId} (inside : id.index < v.places.length) (l : Location)
    (other : CellId) :
    { v with places := v.places.set id.index l }.place other =
      if other = id then l else v.place other := by
  obtain ⟨index⟩ := id
  obtain ⟨index'⟩ := other
  simp only [place, List.getD_eq_getElem?_getD, List.getElem?_set, CellId.mk.injEq]
  by_cases same : index' = index
  · subst same
    simp [inside]
  · rw [if_neg (Ne.symm same), if_neg same]

theorem lookup_slots (values : List Value) (n i : Nat) :
    ((values.zipIdx n).map fun (x, j) => (Location.slot j, x)).lookup (.slot (n + i)) =
      values[i]? := by
  induction values generalizing n i with
  | nil => rfl
  | cons x rest ih =>
    rw [List.zipIdx_cons, List.map_cons, List.lookup_cons]
    cases i with
    | zero => simp
    | succ i =>
      have apart : (Location.slot (n + (i + 1)) == .slot n) = false := by simp
      have slot : n + (i + 1) = n + 1 + i := by omega
      rw [apart, slot]
      exact ih (n + 1) i

theorem last_ofStack (stack : Array Value) (i : Nat) :
    (ofStack stack).last (.slot i) = stack.getD i .nil := by
  have found := lookup_slots stack.toList 0 i
  rw [Nat.zero_add] at found
  rw [last, ofStack, found, Array.getElem?_toList, Array.getD_eq_getD_getElem?]

end Variables

def Variables.Placed (v : Variables) (size : Nat) (id : CellId) : Cell → Prop
  | .opened slot => slot < size ∧ v.place id = .slot slot
  | .closed x => v.place id = .own id ∧ v.last (.own id) = x

theorem Variables.Placed.congr {v w : Variables} {size : Nat} {id : CellId} {c : Cell}
    (placed : v.Placed size id c) (place : w.place id = v.place id)
    (last : w.last (.own id) = v.last (.own id)) : w.Placed size id c := by
  cases c with
  | opened slot => exact ⟨placed.1, place.trans placed.2⟩
  | closed x => exact ⟨place.trans placed.1, last.trans placed.2⟩

structure Tells (size : Nat) (s : Store) (v : Variables) : Prop where
  size_eq : s.stack.size = size
  cells : v.places.length = s.cells.size
  slots : ∀ i < size, s.slotValue i = v.last (.slot i)
  placed : ∀ id : CellId, id.index < s.cells.size → v.Placed size id (s.cell id)

namespace Tells

variable {size : Nat} {s : Store} {v w : Variables} {id : CellId}

theorem start (stack : Array Value) : Tells stack.size { stack } (.ofStack stack) where
  size_eq := rfl
  cells := rfl
  slots i _ := (Variables.last_ofStack stack i).symm
  placed _ made := absurd made (Nat.not_lt_zero _)

theorem get (h : Tells size s v) (made : id.index < s.cells.size) :
    s.getCell id = v.last (v.place id) := by
  have placed := h.placed id made
  unfold Store.getCell
  cases was : s.cell id with
  | opened slot =>
    rw [was] at placed
    rw [placed.2]
    exact h.slots slot placed.1
  | closed x =>
    rw [was] at placed
    rw [placed.1, placed.2]

theorem write (h : Tells size s v) {slot : Nat} (inside : slot < size) (x : Value) :
    Tells size (s.setSlot slot x) (v.record (.slot slot) x) where
  size_eq := by simpa [Store.setSlot] using h.size_eq
  cells := h.cells
  slots i below := by
    rw [Store.slotValue_setSlot (h.size_eq ▸ inside), Variables.last_record]
    simp only [Location.slot.injEq]
    split
    · rfl
    · exact h.slots i below
  placed other made := (h.placed other made).congr rfl (by simp)

theorem extend (h : Tells size s v) {c : Cell} (length : w.places.length = v.places.length + 1)
    (place : ∀ other, other ≠ ⟨s.cells.size⟩ → w.place other = v.place other)
    (last : ∀ l, l ≠ .own ⟨s.cells.size⟩ → w.last l = v.last l)
    (new : w.Placed size ⟨s.cells.size⟩ c) : Tells size (s.newCell c).2 w where
  size_eq := h.size_eq
  cells := by
    rw [length, h.cells]
    exact (Array.size_push c).symm
  slots i below := (h.slots i below).trans (last _ (by simp)).symm
  placed id made := by
    rw [Store.cell_newCell]
    split
    next same => exact same ▸ new
    next other =>
      have old : id.index < s.cells.size := by
        have size : id.index < s.cells.size + 1 := Array.size_push c ▸ made
        have apart : id.index ≠ s.cells.size := fun same => other (congrArg CellId.mk same)
        omega
      exact (h.placed id old).congr (place id other) (last _ (by simpa using other))

theorem make (h : Tells size s v) {c : Cell} (inside : (CellOp.make c).Inside size) :
    (s.newCell c).1 = (v.make c).1 ∧ Tells size (s.newCell c).2 (v.make c).2 := by
  have name : (⟨v.places.length⟩ : CellId) = ⟨s.cells.size⟩ := congrArg CellId.mk h.cells
  have place (l : Location) (other : CellId) :
      { v with places := v.places ++ [l] }.place other =
        if other = ⟨s.cells.size⟩ then l else v.place other := name ▸ v.place_append l other
  cases c with
  | opened slot =>
    refine ⟨name.symm, h.extend (by simp [Variables.make]) ?_ (fun _ _ => rfl) ⟨inside, ?_⟩⟩
    · exact fun other apart => (place _ other).trans (if_neg apart)
    · exact (place _ _).trans (if_pos rfl)
  | closed x =>
    refine ⟨name.symm, h.extend (by simp [Variables.make]) ?_ ?_ ⟨?_, ?_⟩⟩
    · exact fun other apart => (place _ other).trans (if_neg apart)
    · intro l apart
      rw [Variables.make, Variables.last_record, if_neg (name ▸ apart)]
      rfl
    · exact (place _ _).trans ((if_pos rfl).trans (congrArg Location.own name))
    · rw [Variables.make, Variables.last_record, if_pos (congrArg Location.own name.symm)]

-- The cell moves to its own location, or stays there, and is written.
theorem settle (h : Tells size s v) (made : id.index < s.cells.size) {x : Value}
    (length : w.places.length = v.places.length)
    (place : ∀ other, w.place other = if other = id then .own id else v.place other)
    (last : ∀ l, w.last l = if l = .own id then x else v.last l) :
    Tells size (s.settle id x) w where
  size_eq := h.size_eq
  cells := by simpa [Store.settle] using length.trans h.cells
  slots i below := by
    rw [last, if_neg (by simp)]
    exact h.slots i below
  placed other there := by
    rw [Store.cell_settle made]
    split
    next same => exact ⟨by rw [place, same, if_pos rfl], by rw [last, same, if_pos rfl]⟩
    next apart =>
      refine (h.placed other (by simpa [Store.settle] using there)).congr ?_ ?_
      · rw [place, if_neg apart]
      · rw [last, if_neg (by simpa using apart)]

theorem set (h : Tells size s v) (made : id.index < s.cells.size) (x : Value) :
    Tells size (s.setCell id x) (v.record (v.place id) x) := by
  have placed := h.placed id made
  cases was : s.cell id with
  | opened slot =>
    rw [was] at placed
    rw [Store.setCell_opened was, placed.2]
    exact h.write placed.1 x
  | closed y =>
    rw [was] at placed
    rw [Store.setCell_closed was, placed.1]
    refine h.settle made rfl (fun other => ?_) fun l => v.last_record _ l x
    split
    next same => exact same ▸ placed.1
    next => rfl

theorem close (h : Tells size s v) (made : id.index < s.cells.size) :
    Tells size (s.closeCell id) (v.close id) := by
  have placed := h.placed id made
  cases was : s.cell id with
  | opened slot =>
    rw [was] at placed
    rw [Store.closeCell_opened was, Variables.close, placed.2, h.slots slot placed.1]
    refine h.settle made (by simp) (fun other => ?_) fun l => Variables.last_record _ _ l _
    exact v.place_set (h.cells ▸ made) _ other
  | closed y =>
    rw [was] at placed
    rw [Store.closeCell_closed was, Variables.close, placed.1]
    exact h

end Tells

end LuaMachine
