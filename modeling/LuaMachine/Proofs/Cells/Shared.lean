import LuaMachine.Proofs.Cells.Variables

set_option autoImplicit false

namespace LuaMachine

structure Agrees (size : Nat) (s : Session Store) (t : Session Variables) : Prop where
  handles : t.handles = s.handles
  answers : t.answers = s.answers
  made : ∀ id ∈ s.handles, id.index < s.state.cells.size
  tells : Tells size s.state t.state

namespace Agrees

variable {size : Nat} {s : Session Store} {t : Session Variables} {id : CellId} {op : CellOp}

theorem start (stack : Array Value) :
    Agrees stack.size { state := { stack } } { state := .ofStack stack } :=
  ⟨rfl, rfl, by simp, .start stack⟩

theorem through (agrees : Agrees size s t) (h : Nat) {f : CellId → Session Store}
    {g : CellId → Session Variables}
    (same : ∀ id, s.handles[h]? = some id → id.index < s.state.cells.size →
      Agrees size (f id) (g id)) : Agrees size (s.through h f) (t.through h g) := by
  unfold Session.through
  rw [agrees.handles]
  cases found : s.handles[h]? with
  | none => exact agrees
  | some id => exact same id found (agrees.made id (List.mem_of_getElem? found))

theorem step (agrees : Agrees size s t) (inside : op.Inside size) :
    Agrees size (Store.machine.step s op) (Variables.machine.step t op) := by
  cases op with
  | make c =>
    obtain ⟨name, tells⟩ := agrees.tells.make inside
    refine ⟨?_, agrees.answers, fun id member => ?_, tells⟩
    · exact congr (congrArg _ agrees.handles) (congrArg (fun id => [id]) name.symm)
    · have size : (s.state.newCell c).2.cells.size = s.state.cells.size + 1 := Array.size_push c
      change id.index < (s.state.newCell c).2.cells.size
      rw [size]
      rcases List.mem_append.1 member with old | new
      · exact Nat.lt_succ_of_lt (agrees.made id old)
      · rw [List.mem_singleton.1 new]
        exact Nat.lt_succ_self _
  | clone h =>
    refine agrees.through h fun id _ made => ⟨?_, agrees.answers, ?_, agrees.tells⟩
    · exact congrArg (· ++ [id]) agrees.handles
    · intro other member
      rcases List.mem_append.1 member with old | new
      · exact agrees.made other old
      · rw [List.mem_singleton.1 new]
        exact made
  | get h =>
    refine agrees.through h fun id _ made => ⟨agrees.handles, ?_, agrees.made, agrees.tells⟩
    exact congr (congrArg _ agrees.answers) (congrArg (fun v => [v]) (agrees.tells.get made).symm)
  | set h x =>
    refine agrees.through h fun id _ made => ⟨agrees.handles, agrees.answers, ?_, ?_⟩
    · exact fun other member => (s.state.size_setCell id x).symm ▸ agrees.made other member
    · exact agrees.tells.set made x
  | close h =>
    refine agrees.through h fun id _ made => ⟨agrees.handles, agrees.answers, ?_, ?_⟩
    · exact fun other member => (s.state.size_closeCell id).symm ▸ agrees.made other member
    · exact agrees.tells.close made
  | write slot x => exact ⟨agrees.handles, agrees.answers, agrees.made, agrees.tells.write inside x⟩

theorem run (agrees : Agrees size s t) {ops : List CellOp} (inside : ∀ op ∈ ops, op.Inside size) :
    Agrees size (Store.machine.run s ops) (Variables.machine.run t ops) := by
  induction ops generalizing s t with
  | nil => exact agrees
  | cons op rest ih =>
    exact ih (agrees.step (inside op (.head _))) fun op member => inside op (.tail _ member)

end Agrees

namespace Variables

variable {t : Session Variables} {id : CellId}

theorem place_close (v : Variables) {id : CellId} (made : id.index < v.places.length)
    (other : CellId) :
    (v.close id).place other = v.place other ∨
      other = id ∧ (∃ i, v.place id = .slot i) ∧ (v.close id).place id = .own id := by
  unfold close
  cases place : v.place id with
  | own _ => exact .inl rfl
  | slot i =>
    have moved (other : CellId) := v.place_set made (.own id) other
    by_cases same : other = id
    · exact .inr ⟨same, ⟨i, rfl⟩, (moved id).trans (if_pos rfl)⟩
    · exact .inl ((moved other).trans (if_neg same))

-- Nothing moves a cell but that it is closed, and only from a slot.
theorem place_step (made : id.index < t.state.places.length)
    (handles : ∀ other ∈ t.handles, other.index < t.state.places.length) (op : CellOp) :
    (machine.step t op).state.place id = t.state.place id ∨
      ∃ h i, op = .close h ∧ t.handles[h]? = some id ∧ t.state.place id = .slot i ∧
        (machine.step t op).state.place id = .own id := by
  cases op with
  | make c =>
    have new : id ≠ ⟨t.state.places.length⟩ := fun same => by
      rw [same] at made
      exact Nat.lt_irrefl _ made
    cases c with
    | opened slot => exact .inl ((t.state.place_append _ id).trans (if_neg new))
    | closed x => exact .inl ((t.state.place_append _ id).trans (if_neg new))
  | write slot x => exact .inl rfl
  | clone h | get h | set h x =>
    rcases t.through_cases h _ with same | ⟨other, -, same⟩
    all_goals exact .inl (congrArg (·.state.place id) same)
  | close h =>
    rcases t.through_cases h fun id => { t with state := t.state.close id } with
      same | ⟨other, found, same⟩
    · exact .inl (congrArg (·.state.place id) same)
    · have bound := handles other (List.mem_of_getElem? found)
      have place := congrArg (·.state.place id) same
      rcases t.state.place_close bound id with kept | ⟨rfl, ⟨i, slot⟩, moved⟩
      · exact .inl (place.trans kept)
      · exact .inr ⟨h, i, rfl, found, slot, place.trans moved⟩

end Variables

theorem Store.size_step (s : Session Store) (op : CellOp) :
    s.state.cells.size ≤ (Store.machine.step s op).state.cells.size := by
  cases op with
  | make c =>
    have size : (s.state.newCell c).2.cells.size = s.state.cells.size + 1 := Array.size_push c
    exact Nat.le_of_lt (Nat.lt_of_lt_of_eq (Nat.lt_succ_self _) size.symm)
  | write slot x => exact Nat.le_refl _
  | clone h | get h =>
    rcases s.through_cases h _ with same | ⟨id, -, same⟩
    all_goals exact Nat.le_of_eq (congrArg (·.state.cells.size) same).symm
  | set h x =>
    rcases s.through_cases h fun id => { s with state := s.state.setCell id x } with
      same | ⟨id, -, same⟩
    · exact Nat.le_of_eq (congrArg (·.state.cells.size) same).symm
    · have size := congrArg (·.state.cells.size) same
      exact Nat.le_of_eq (size.trans (s.state.size_setCell id x)).symm
  | close h =>
    rcases s.through_cases h fun id => { s with state := s.state.closeCell id } with
      same | ⟨id, -, same⟩
    · exact Nat.le_of_eq (congrArg (·.state.cells.size) same).symm
    · have size := congrArg (·.state.cells.size) same
      exact Nat.le_of_eq (size.trans (s.state.size_closeCell id)).symm

namespace Agrees

variable {size : Nat} {s : Session Store} {t : Session Variables} {id : CellId}
  {ops : List CellOp}

theorem place_step (agrees : Agrees size s t) (made : id.index < s.state.cells.size) (op : CellOp) :
    (Variables.machine.step t op).state.place id = t.state.place id ∨
      ∃ h i, op = .close h ∧ t.handles[h]? = some id ∧ t.state.place id = .slot i ∧
        (Variables.machine.step t op).state.place id = .own id := by
  refine Variables.place_step (agrees.tells.cells ▸ made) ?_ op
  rw [agrees.handles, agrees.tells.cells]
  exact agrees.made

theorem stays (agrees : Agrees size s t) (made : id.index < s.state.cells.size)
    (inside : ∀ op ∈ ops, op.Inside size) (unclosed : ¬ Variables.machine.Closes t id ops) :
    (Variables.machine.run t ops).state.place id = t.state.place id := by
  induction ops generalizing s t with
  | nil => rfl
  | cons op rest ih =>
    have same : (Variables.machine.step t op).state.place id = t.state.place id := by
      rcases agrees.place_step made op with same | ⟨h, i, rfl, found, -⟩
      · exact same
      · exact absurd ⟨[], h, rest, rfl, found⟩ unclosed
    refine (ih (agrees.step (inside op (.head _))) (Nat.lt_of_lt_of_le made (Store.size_step s op))
      (fun op member => inside op (.tail _ member)) ?_).trans same
    rintro ⟨before, h, later, rfl, found⟩
    exact unclosed ⟨op :: before, h, later, rfl, found⟩

theorem owned (agrees : Agrees size s t) (made : id.index < s.state.cells.size)
    (inside : ∀ op ∈ ops, op.Inside size) (own : t.state.place id = .own id) :
    (Variables.machine.run t ops).state.place id = .own id := by
  induction ops generalizing s t with
  | nil => exact own
  | cons op rest ih =>
    refine ih (agrees.step (inside op (.head _))) (Nat.lt_of_lt_of_le made (Store.size_step s op))
      (fun op member => inside op (.tail _ member)) ?_
    rcases agrees.place_step made op with same | ⟨h, i, -, -, slot, -⟩
    · exact same.trans own
    · rw [own] at slot
      cases slot

-- The cell owns its location from the first time on that it is closed, with what the slot held.
theorem moved (agrees : Agrees size s t) {h : Nat} (found : t.handles[h]? = some id) :
    (Variables.machine.step t (.close h)).state.place id = .own id ∧
      ∀ slot, t.state.place id = .slot slot →
        (Variables.machine.step t (.close h)).state.last (.own id) = s.state.slotValue slot := by
  have made : id.index < s.state.cells.size :=
    agrees.made id (List.mem_of_getElem? (agrees.handles ▸ found))
  have placed := agrees.tells.placed id made
  have closed : Variables.machine.step t (.close h) = { t with state := t.state.close id } :=
    Session.through_some found _
  rw [closed]
  cases was : s.state.cell id with
  | closed x =>
    rw [was] at placed
    have same : t.state.close id = t.state := by rw [Variables.close, placed.1]
    refine ⟨by rw [same]; exact placed.1, fun slot place => ?_⟩
    rw [placed.1] at place
    cases place
  | opened i =>
    rw [was] at placed
    have bound : id.index < t.state.places.length := agrees.tells.cells ▸ made
    refine ⟨?_, fun slot place => ?_⟩
    · rw [Variables.close, placed.2]
      exact (t.state.place_set bound (.own id) id).trans (if_pos rfl)
    · rw [placed.2] at place
      cases place
      rw [Variables.close, placed.2]
      dsimp only
      rw [Variables.last_record, if_pos rfl, agrees.tells.slots i placed.1]

end Agrees

def Store.session (stack : Array Value) (ops : List CellOp) : Session Store :=
  Store.machine.run { state := { stack } } ops

def Variables.session (stack : Array Value) (ops : List CellOp) : Session Variables :=
  machine.run { state := .ofStack stack } ops

def Variables.next (v : Variables) : CellId := ⟨v.places.length⟩

/-- After these operations cells are what they are told to be: variables at locations. -/
structure CellsShared (size : Nat) (real : List CellOp → Session Store)
    (told : List CellOp → Session Variables) (ops : List CellOp) : Prop where
  answers : (real ops).answers = (told ops).answers
  handles : (real ops).handles = (told ops).handles
  stack : (real ops).state.stack.size = size
  slots : ∀ i < size, (real ops).state.slotValue i = (told ops).state.last (.slot i)
  values : ∀ id ∈ (real ops).handles,
    (real ops).state.getCell id = (told ops).state.last ((told ops).state.place id)
  opened : ∀ before slot later, ops = before ++ .make (.opened slot) :: later →
    let id := (told before).state.next
    let made := told (before ++ [.make (.opened slot)])
    made.handles = (told before).handles ++ [id] ∧
      (¬ Variables.machine.Closes made id later → (told ops).state.place id = .slot slot) ∧
      (Variables.machine.Closes made id later → (told ops).state.place id = .own id)
  closed : ∀ before x later, ops = before ++ .make (.closed x) :: later →
    let id := (told before).state.next
    (told (before ++ [.make (.closed x)])).handles = (told before).handles ++ [id] ∧
      (told ops).state.place id = .own id
  moved : ∀ before h id slot, ops = before ++ [.close h] → (told before).handles[h]? = some id →
    (told before).state.place id = .slot slot →
      (told ops).state.place id = .own id ∧
        (told ops).state.last (.own id) = (real before).state.slotValue slot
  closedAgain : ∀ before h id, ops = before ++ [.close h] → (told before).handles[h]? = some id →
    (told before).state.place id = .own id → real ops = real before
  cloned : ∀ before h id, ops = before ++ [.clone h] → (told before).handles[h]? = some id →
    (told ops).handles = (told before).handles ++ [id]
  clones : ∀ h h' id, (told ops).handles[h]? = some id → (told ops).handles[h']? = some id →
    (real (ops ++ [.get h])).answers = (real (ops ++ [.get h'])).answers
  written : ∀ before h id x, ops = before ++ [.set h x] → (told before).handles[h]? = some id →
    (told before).state.place id = .own id →
      (real ops).state.stack = (real before).state.stack

namespace Agrees

variable {size : Nat} {s : Session Store} {t : Session Variables} {id : CellId} {h : Nat}
  {ops : List CellOp}

theorem moves (agrees : Agrees size s t) (inside : ∀ op ∈ ops, op.Inside size)
    (closes : Variables.machine.Closes t id ops) :
    (Variables.machine.run t ops).state.place id = .own id := by
  obtain ⟨before, h, later, rfl, found⟩ := closes
  have reached := agrees.run fun op member => inside op (List.mem_append_left _ member)
  have own := (reached.moved found).1
  have known := reached.made id (List.mem_of_getElem? (reached.handles ▸ found))
  have closed := reached.step (show (CellOp.close h).Inside size from trivial)
  rw [CellMachine.run_append]
  exact closed.owned (Nat.lt_of_lt_of_le known (Store.size_step _ _))
    (fun op member => inside op (List.mem_append_right _ (.tail _ member))) own

theorem new (agrees : Agrees size s t) {c : Cell} (inside : (CellOp.make c).Inside size) :
    (Variables.machine.step t (.make c)).handles = t.handles ++ [t.state.next] ∧
      t.state.next.index < (Store.machine.step s (.make c)).state.cells.size ∧
      (Variables.machine.step t (.make c)).state.place t.state.next =
        match c with
        | .opened slot => .slot slot
        | .closed _ => .own t.state.next := by
  refine ⟨by cases c <;> rfl, ?_, ?_⟩
  · change t.state.places.length < (s.state.cells.push c).size
    rw [agrees.tells.cells, Array.size_push]
    exact Nat.lt_succ_self _
  · cases c with
    | opened slot => exact (t.state.place_append _ _).trans (if_pos rfl)
    | closed x => exact (t.state.place_append _ _).trans (if_pos rfl)

theorem store_through (agrees : Agrees size s t) (found : t.handles[h]? = some id)
    (f : CellId → Session Store) : s.through h f = f id :=
  Session.through_some (agrees.handles ▸ found) f

theorem answers_get (agrees : Agrees size s t) (found : t.handles[h]? = some id) :
    (Store.machine.step s (.get h)).answers = s.answers ++ [s.state.getCell id] :=
  congrArg Session.answers (agrees.store_through found _)

theorem closed_of_own (agrees : Agrees size s t) (found : t.handles[h]? = some id)
    (own : t.state.place id = .own id) : ∃ v, s.state.cell id = .closed v := by
  have made := agrees.made id (List.mem_of_getElem? (agrees.handles ▸ found))
  have placed := agrees.tells.placed id made
  cases was : s.state.cell id with
  | closed v => exact ⟨v, rfl⟩
  | opened slot =>
    rw [was] at placed
    cases own.symm.trans placed.2

theorem close_own (agrees : Agrees size s t) (found : t.handles[h]? = some id)
    (own : t.state.place id = .own id) : Store.machine.step s (.close h) = s := by
  obtain ⟨v, closed⟩ := agrees.closed_of_own found own
  have stepped := agrees.store_through found fun id =>
    { s with state := s.state.closeCell id }
  rw [Store.closeCell_closed closed] at stepped
  exact stepped

theorem stack_set_own (agrees : Agrees size s t) (found : t.handles[h]? = some id)
    (own : t.state.place id = .own id) (x : Value) :
    (Store.machine.step s (.set h x)).state.stack = s.state.stack := by
  obtain ⟨v, closed⟩ := agrees.closed_of_own found own
  have stepped := agrees.store_through found fun id =>
    { s with state := s.state.setCell id x }
  rw [Store.setCell_closed closed] at stepped
  exact congrArg (·.state.stack) stepped

end Agrees

section

variable {stack : Array Value} {before ops : List CellOp} {op : CellOp}

theorem session_agrees (inside : ∀ op ∈ ops, op.Inside stack.size) :
    Agrees stack.size (Store.session stack ops) (Variables.session stack ops) :=
  (Agrees.start stack).run inside

theorem session_step (stack : Array Value) (before : List CellOp) (op : CellOp) :
    Store.session stack (before ++ [op]) = Store.machine.step (Store.session stack before) op ∧
      Variables.session stack (before ++ [op]) =
        Variables.machine.step (Variables.session stack before) op :=
  ⟨CellMachine.run_append .., CellMachine.run_append ..⟩

end

theorem Vm.writeCell_run {s : State} (id : CellId) (v : Value)
    (inside : ∀ slot, s.cell id = .opened slot → slot < s.stack.size) :
    ∃ t, writeCell id v s = .ok () t ∧ t.toStore = s.setCell id v := by
  cases was : s.cell id with
  | opened slot =>
    have bound := inside slot was
    refine ⟨{ s with stack := s.stack.set slot v bound, escapes := slot :: s.escapes }, ?_, ?_⟩
    · rw [writeCell, get_bind, was]
      exact bind_ok (write_ok bound v) _
    · rw [Store.setCell_opened was, Store.setSlot, Array.setIfInBounds, dif_pos bound]
  | closed w =>
    refine ⟨{ s with toStore := s.setCell id v }, ?_, rfl⟩
    rw [writeCell, get_bind, was]
    rfl

/-- Whatever is done with cells and with the slots of a stack, the cells are variables at locations:
each answer is the value written last to the location of its cell. -/
theorem cells_shared (stack : Array Value) (ops : List CellOp)
    (inside : ∀ op ∈ ops, op.Inside stack.size) :
    CellsShared stack.size (Store.session stack) (Variables.session stack) ops ∧
    ∀ (s : State) (id : CellId) (v : Value),
      (∀ slot, s.cell id = .opened slot → slot < s.stack.size) →
      Vm.readCell id s = .ok (s.getCell id) s ∧
        ∃ t, Vm.writeCell id v s = .ok () t ∧ t.toStore = s.setCell id v := by
  refine ⟨?_, fun s id v inside => ⟨rfl, Vm.writeCell_run id v inside⟩⟩
  have agrees := session_agrees inside
  have earlier {before later : List CellOp} (split : ops = before ++ later) :
      Agrees stack.size (Store.session stack before) (Variables.session stack before) :=
    session_agrees fun op member => inside op (split ▸ List.mem_append_left _ member)
  have rest {before later : List CellOp} {op : CellOp} (split : ops = before ++ op :: later) :
      Variables.session stack ops = Variables.machine.run
        (Variables.machine.step (Variables.session stack before) op) later := by
    rw [split]
    exact CellMachine.run_append ..
  refine ⟨agrees.answers.symm, agrees.handles.symm, agrees.tells.size_eq, agrees.tells.slots,
    fun id member => agrees.tells.get (agrees.made id member), ?_, ?_, ?_, ?_, ?_, ?_, ?_⟩
  · intro before slot later split
    have room : (CellOp.make (.opened slot)).Inside stack.size := inside _ (by simp [split])
    have remaining : ∀ op ∈ later, op.Inside stack.size :=
      fun op member => inside op (by simp [split, member])
    obtain ⟨handles, made, place⟩ := (earlier split).new room
    have begun := (earlier split).step room
    rw [rest split, (session_step stack before _).2]
    refine ⟨handles, fun unclosed => ?_, fun closes => ?_⟩
    · exact (begun.stays made remaining unclosed).trans place
    · exact begun.moves remaining closes
  · intro before x later split
    have room : (CellOp.make (.closed x)).Inside stack.size := trivial
    have remaining : ∀ op ∈ later, op.Inside stack.size :=
      fun op member => inside op (by simp [split, member])
    obtain ⟨handles, made, place⟩ := (earlier split).new room
    rw [rest split, (session_step stack before _).2]
    exact ⟨handles, ((earlier split).step room).owned made remaining place⟩
  · intro before h id slot split found place
    obtain ⟨own, last⟩ := (earlier split).moved found
    rw [rest split]
    exact ⟨own, last slot place⟩
  · intro before h id split found own
    rw [split, (session_step stack before _).1]
    exact (earlier split).close_own found own
  · intro before h id split found
    rw [rest split]
    exact congrArg (·.handles) (Session.through_some found _)
  · intro h h' id found found'
    rw [(session_step stack ops _).1, (session_step stack ops _).1, agrees.answers_get found,
      agrees.answers_get found']
  · intro before h id x split found own
    rw [split, (session_step stack before _).1]
    exact (earlier split).stack_set_own found own x

-- Two cells on one slot; one of them is closed, through a clone, and closed again.
def CellOp.sharing : List CellOp :=
  [.make (.opened 1), .make (.opened 1), .clone 0, .set 0 (.int 5), .write 1 (.int 7), .get 1,
    .close 2, .write 1 (.int 9), .get 0, .get 1, .close 0, .set 0 (.int 3), .get 2, .get 1]

theorem cells_shared_closing :
    (∀ op ∈ CellOp.sharing, op.Inside 2) ∧
    (Variables.session #[.int 1, .int 2] CellOp.sharing).answers =
      [.int 7, .int 7, .int 9, .int 3, .int 9] ∧
    (Variables.session #[.int 1, .int 2] CellOp.sharing).state.place ⟨0⟩ = .own ⟨0⟩ ∧
    (Store.session #[.int 1, .int 2] CellOp.sharing).state.stack.size = 2 := by
  have inside : ∀ op ∈ CellOp.sharing, op.Inside 2 := by simp [CellOp.sharing, CellOp.Inside]
  have outcome : (Store.session #[.int 1, .int 2] CellOp.sharing).answers =
      [.int 7, .int 7, .int 9, .int 3, .int 9] := by decide +kernel
  obtain ⟨shared, -⟩ := cells_shared #[.int 1, .int 2] CellOp.sharing inside
  obtain ⟨-, -, moves⟩ := shared.opened [] 1 _ rfl
  refine ⟨inside, shared.answers ▸ outcome, moves ?_, shared.stack⟩
  exact ⟨[.make (.opened 1), .clone 0, .set 0 (.int 5), .write 1 (.int 7), .get 1], 2, _, rfl,
    by decide +kernel⟩

end LuaMachine
