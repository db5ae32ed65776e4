import LuaMachine.Proofs.Captures.Listed
import LuaMachine.Proofs.Depth
import LuaMachine.Proofs.TailCalls

set_option autoImplicit false

namespace LuaMachine

open Vm
open Machine (Makes activation advanced stepOnce)
open LuaMachine.Frame (Keeping SameCall)

/-- One instruction of a call, with the states before and after it. -/
structure Event where
  before : State
  word : Word
  after : State

namespace Event

def Closes (e : Event) (r : Nat) : Prop :=
  e.word.opcode? = some .jmp ∧ e.word.a ≠ 0 ∧ e.word.a - 1 ≤ r

def MakesFunction (e : Event) : Prop := e.word.opcode? = some .closure

def Captures (e : Event) (c : Capture) (id : CellId) : Prop :=
  ∃ a p f cells, ∃ j : Nat, activation e.before = .ok a e.before ∧ e.MakesFunction ∧
    a.proto.protos[e.word.bx]? = some p ∧
    e.after.stack[a.base + e.word.a]? = some (.function f) ∧
    e.after.function? f = some ⟨.script p, cells⟩ ∧ p.captures[j]? = some c ∧ cells[j]? = some id

theorem MakesFunction.keeps {e : Event} (makes : e.MakesFunction) (r : Nat) : ¬ e.Closes r := by
  rintro ⟨jump, -⟩
  rw [makes] at jump
  cases jump

end Event

namespace Machine

variable {call : Call} {e : Event}

def Happens (call : Call) (e : Event) : Prop :=
  ∃ a, activation e.before = .ok a e.before ∧ a.proto.code[e.before.frame.pc]? = some e.word ∧
    e.word.opcode? ≠ some .tailCall ∧ stepOnce call e.before = .ok .next e.after

theorem Happens.stepped (happens : Happens call e) :
    ∃ a, activation e.before = .ok a e.before ∧
      a.step call e.word (advanced e.before) = .ok .next e.after ∧
      e.word.opcode? ≠ some .tailCall ∧ e.word.opcode? ≠ some .ret := by
  obtain ⟨a, running, fetched, notTail, ran⟩ := happens
  rw [stepOnce_word running fetched] at ran
  have stepped := located_ok ran
  refine ⟨a, running, stepped, notTail, fun ret => ?_⟩
  rw [a.step_ret call ret] at stepped
  obtain ⟨n, u, -, returned⟩ := ok_of_bind stepped
  cases returned

theorem Happens.stays (happens : Happens call e) (balanced : call.Balanced)
    (window : e.before.frame.base ≤ e.before.frame.top) :
    Stays SameCall e.before.frame.base (advanced e.before) e.after := by
  obtain ⟨a, running, stepped, notTail, notReturn⟩ := happens.stepped
  obtain ⟨x, steps, works⟩ := a.step_works call e.word notTail notReturn
  rw [steps] at stepped
  have base := (activation_ok running).1
  exact base ▸ (works.within balanced).ok base.symm (base ▸ window) (Activation.done_ok stepped)

theorem Happens.relists (happens : Happens call e) (balanced : call.Balanced)
    (lasts : call.Lasts) (window : e.before.frame.base ≤ e.before.frame.top) :
    Relists (fun slot => ∃ r, slot = e.before.frame.base + r ∧ e.Closes r) e.MakesFunction
      e.before e.after := by
  obtain ⟨a, running, stepped, notTail, notReturn⟩ := happens.stepped
  have base := (activation_ok running).1
  have computed {closed : Nat → Prop} {makes : Prop} {x : Vm Unit} {s : State}
      (relists : Relists closed makes e.before s) (computes : a.Computes call x)
      (start : s.frame.base = e.before.frame.base) (top : s.frame.top = e.before.frame.top)
      (ran : x s = .ok () e.after) : Relists closed makes e.before e.after := by
    have stays := (computes.keeps balanced).ok (start.trans base.symm)
      (by rw [base, top]; exact window) ran
    exact relists.congr_after stays.frame.2 ((computes.works.lasting lasts).ok ran).cells
  have paid {closed : Nat → Prop} {makes : Prop} (none : ∀ slot, ¬ closed slot) :
      Relists closed makes e.before (advanced e.before) :=
    (Relists.refl makes e.before none).congr_after rfl (Nat.le_refl _)
  by_cases closure : e.word.opcode? = some .closure
  · rw [a.step_closure call closure] at stepped
    obtain ⟨p, f, ids, -, -, -, -, relists⟩ :=
      Activation.makeClosure_ok (Activation.done_ok stepped)
    have none : ∀ slot, ¬ ∃ r, slot = e.before.frame.base + r ∧ e.Closes r :=
      fun _ ⟨r, _, closes⟩ => Event.MakesFunction.keeps closure r closes
    simp only [none, Event.MakesFunction, closure]
    exact relists.congr_before rfl rfl
  by_cases jumps : e.word.opcode? = some .jmp
  · rw [a.step_jump call jumps] at stepped
    have ran := Activation.done_ok stepped
    by_cases bare : e.word.a = 0
    · rw [if_neg (not_not.2 bare)] at ran
      exact computed (paid fun slot ⟨_, _, _, closes, _⟩ => closes bare) (.jump _) rfl rfl ran
    · rw [if_pos bare, bind_ok (closeFrom_run _ _)] at ran
      have frame := frame_closeFrom (a.base + e.word.a - 1) (advanced e.before)
      have relists := Relists.closeFrom e.MakesFunction (a.base + e.word.a - 1) (advanced e.before)
      have same : (a.base + e.word.a - 1 ≤ ·) =
          fun slot => ∃ r, slot = e.before.frame.base + r ∧ e.Closes r := by
        funext slot
        refine propext ⟨fun above => ?_, ?_⟩
        · exact ⟨slot - e.before.frame.base, by omega, jumps, bare, by omega⟩
        · rintro ⟨r, rfl, -, -, above⟩
          omega
      rw [← same]
      exact computed (relists.congr_before rfl rfl) (.jump _) (by rw [frame]; rfl)
        (by rw [frame]; rfl) ran
  obtain ⟨x, steps, computes⟩ := a.step_computes call e.word notTail notReturn closure jumps
  rw [steps] at stepped
  exact computed (paid fun slot ⟨_, _, jump, _⟩ => jumps jump) computes rfl rfl
    (Activation.done_ok stepped)

theorem Happens.finds (happens : Happens call e) {c : Capture} {id : CellId}
    (captures : e.Captures c id) :
    ∃ a, activation e.before = .ok a e.before ∧ a.Finds e.after c id := by
  obtain ⟨a, p, f, cells, j, running, closure, child, stored, found, capture, cell⟩ := captures
  obtain ⟨a', running', stepped, -, -⟩ := happens.stepped
  rw [running] at running'
  cases running'
  rw [a.step_closure call closure] at stepped
  obtain ⟨p', f', ids, child', stored', found', finds, -⟩ :=
    Activation.makeClosure_ok (Activation.done_ok stepped)
  rw [child] at child'
  rw [stored] at stored'
  cases child'
  cases stored'
  rw [found] at found'
  cases found'
  refine ⟨a, running, ?_⟩
  obtain ⟨inside, rfl⟩ := Array.getElem?_eq_some_iff.1 capture
  obtain ⟨inside', rfl⟩ := Array.getElem?_eq_some_iff.1 cell
  exact (List.forall₂_iff_get.1 finds).2 j inside inside'

theorem Happens.captures (happens : Happens call e) (closure : e.MakesFunction) :
    ∃ a p, activation e.before = .ok a e.before ∧ a.proto.protos[e.word.bx]? = some p ∧
      ∀ c ∈ p.captures, ∃ id, e.Captures c id := by
  obtain ⟨a, running, stepped, -, -⟩ := happens.stepped
  rw [a.step_closure call closure] at stepped
  obtain ⟨p, f, ids, child, stored, found, finds, -⟩ :=
    Activation.makeClosure_ok (Activation.done_ok stepped)
  refine ⟨a, p, running, child, fun c member => ?_⟩
  obtain ⟨j, capture⟩ := Array.mem_iff_getElem?.1 member
  obtain ⟨inside, -⟩ := Array.getElem?_eq_some_iff.1 capture
  have inside' : j < ids.toArray.size := Nat.lt_of_lt_of_eq inside finds.length_eq
  exact ⟨_, a, p, f, _, j, running, closure, child, stored, found, capture,
    Array.getElem?_eq_getElem inside'⟩

inductive Trail (call : Call) : State → List Event → State → Prop where
  | nil (s : State) : Trail call s [] s
  | cons {s t : State} {e : Event} {es : List Event} : tick s = .ok () e.before →
    Happens call e → Trail call e.after es t → Trail call s (e :: es) t

def History (host : Host) (es : List Event) : Prop :=
  ∃ call f p func nargs s begun t, Makes host call ∧
    Call.enterScript f p func nargs s = .ok () begun ∧ Trail call begun es t

def Follows (host : Host) : State → State → Prop := Relation.ReflTransGen (Moves host)

/-- The instructions belong to two calls of one run: functions that the one makes are made before or
after those that the other makes. -/
def Apart (host : Host) (es es' : List Event) : Prop :=
  ∀ e ∈ es, ∀ e' ∈ es', e.MakesFunction → e'.MakesFunction →
    Follows host e.after e'.before ∨ Follows host e'.after e.before

structure Recorded (call : Call) (base : Nat) (s : State) (e : Event) : Prop where
  happens : Happens call e
  base_eq : e.before.frame.base = base
  opened : e.before.frame.opened = s.frame.opened
  cells : e.before.cells.size = s.cells.size
  relists : Relists (fun slot => ∃ r, slot = base + r ∧ e.Closes r) e.MakesFunction
    e.before e.after

inductive Ledger (call : Call) (base : Nat) : State → List Event → State → Prop where
  | nil (s : State) : Ledger call base s [] s
  | cons {s t : State} {e : Event} {es : List Event} : Recorded call base s e →
    Ledger call base e.after es t → Ledger call base s (e :: es) t

theorem Trail.ledger {s t : State} {es : List Event} (trail : Trail call s es t)
    (balanced : call.Balanced) (lasts : call.Lasts) (window : s.frame.base ≤ s.frame.top) :
    Ledger call s.frame.base s es t := by
  induction trail with
  | nil s => exact .nil s
  | @cons s t e es paid happens _ ih =>
    have still : Still 0 s e.before := Quiet.tick.ok paid
    have frame := (State.frames_injective still.frames).1
    have cells : e.before.cells.size = s.cells.size := by
      unfold tick at paid
      split at paid
      · cases paid
      · rw [← (EStateM.Result.ok.inj paid).2]
    have stays := happens.stays balanced (frame ▸ window)
    have base : e.after.frame.base = s.frame.base := (Keeping.base stays.frame).trans (frame ▸ rfl)
    have recorded : Recorded call s.frame.base s e :=
      ⟨happens, frame ▸ rfl, frame ▸ rfl, cells,
        frame ▸ happens.relists balanced lasts (frame ▸ window)⟩
    exact .cons recorded (base ▸ ih (base ▸ frame ▸ stays.window))

def Gone (id : CellId) (s : State) : Prop :=
  id.index < s.cells.size ∧ ∀ p ∈ s.frame.opened, p.2 ≠ id

variable {base : Nat} {s t : State} {es es' : List Event}

namespace Recorded

-- The instruction told from where the one before it ended.
theorem since (h : Recorded call base s e) :
    Relists (fun slot => ∃ r, slot = base + r ∧ e.Closes r) e.MakesFunction s e.after :=
  h.relists.congr_before h.opened h.cells

theorem gone (h : Recorded call base s e) {id : CellId} (gone : Gone id s) : Gone id e.after := by
  obtain ⟨used, unlisted⟩ := gone
  refine ⟨Nat.lt_of_lt_of_le used h.since.cells, fun p entry same => ?_⟩
  rcases h.since.origin p entry with ⟨before, -⟩ | ⟨-, new⟩
  · exact unlisted p before same
  · rw [same] at new
    exact Nat.not_lt.2 new used

theorem closed (h : Recorded call base s e) (distinct : s.Distinct) {p : Nat × CellId}
    (entry : p ∈ s.frame.opened) {r : Nat} (slot : p.1 = base + r) (closes : e.Closes r) :
    Gone p.2 e.after := by
  have used := distinct.bound p entry
  refine ⟨Nat.lt_of_lt_of_le used h.since.cells, fun q listed same => ?_⟩
  rcases h.since.origin q listed with ⟨before, stays⟩ | ⟨-, new⟩
  · rw [distinct.ids q before p entry same] at stays
    exact stays ⟨r, slot, closes⟩
  · rw [same] at new
    exact Nat.not_lt.2 new used

end Recorded

namespace Ledger

theorem append_iff :
    Ledger call base s (es ++ es') t ↔ ∃ u, Ledger call base s es u ∧ Ledger call base u es' t := by
  constructor
  · intro ledger
    induction es generalizing s with
    | nil => exact ⟨s, .nil s, ledger⟩
    | cons e rest ih =>
      cases ledger with
      | cons recorded ledger =>
        obtain ⟨u, first, second⟩ := ih ledger
        exact ⟨u, .cons recorded first, second⟩
  · rintro ⟨u, first, second⟩
    induction first with
    | nil => exact second
    | cons recorded _ ih => exact .cons recorded (ih second)

theorem split (ledger : Ledger call base s (es ++ e :: es') t) :
    ∃ u, Ledger call base s es u ∧ Recorded call base u e ∧ Ledger call base e.after es' t := by
  obtain ⟨u, first, second⟩ := append_iff.1 ledger
  cases second with
  | cons recorded rest => exact ⟨u, first, recorded, rest⟩

theorem distinct (ledger : Ledger call base s es t) (start : s.Distinct) : t.Distinct := by
  induction ledger with
  | nil => exact start
  | cons recorded _ ih => exact ih (recorded.since.distinct start)

theorem kept (ledger : Ledger call base s es t) {p : Nat × CellId} (entry : p ∈ s.frame.opened)
    {r : Nat} (slot : p.1 = base + r) (stays : ∀ e ∈ es, ¬ e.Closes r) : p ∈ t.frame.opened := by
  induction ledger with
  | nil => exact entry
  | cons recorded _ ih =>
    refine ih (recorded.since.kept p entry ?_) fun e member => stays e (.tail _ member)
    rintro ⟨r', slot', closes⟩
    obtain rfl : r' = r := by omega
    exact stays _ (.head _) closes

theorem gone (ledger : Ledger call base s es t) {id : CellId} (start : Gone id s) : Gone id t := by
  induction ledger with
  | nil => exact start
  | cons recorded _ ih => exact ih (recorded.gone start)

theorem closed (ledger : Ledger call base s es t) (start : s.Distinct) {p : Nat × CellId}
    (entry : p ∈ s.frame.opened) {r : Nat} (slot : p.1 = base + r)
    (closes : ∃ e ∈ es, e.Closes r) : Gone p.2 t := by
  induction ledger with
  | nil =>
    obtain ⟨e, none, -⟩ := closes
    cases none
  | @cons s t e es recorded ledger ih =>
    by_cases now : e.Closes r
    · exact ledger.gone (recorded.closed start entry slot now)
    · refine ih (recorded.since.distinct start) (recorded.since.kept p entry ?_) ?_
      · rintro ⟨r', slot', again⟩
        obtain rfl : r' = r := by omega
        exact now again
      · obtain ⟨e', member, closes⟩ := closes
        rcases List.mem_cons.1 member with rfl | member
        · exact absurd closes now
        · exact ⟨e', member, closes⟩

-- A listed cell was made by one of the instructions, and by which one its number tells.
theorem made (ledger : Ledger call base s es t) (start : s.Distinct) {p : Nat × CellId}
    (entry : p ∈ t.frame.opened) : p ∈ s.frame.opened ∨
      ∃ e ∈ es, e.MakesFunction ∧ e.before.cells.size ≤ p.2.index ∧
        p.2.index < e.after.cells.size := by
  induction ledger with
  | nil => exact .inl entry
  | @cons s t e es recorded ledger ih =>
    have distinct := recorded.since.distinct start
    rcases ih distinct entry with now | ⟨e', member, made⟩
    · rcases recorded.since.origin p now with ⟨before, -⟩ | ⟨makes, new⟩
      · exact .inl before
      · exact .inr ⟨e, .head _, makes, recorded.cells ▸ new, distinct.bound p now⟩
    · exact .inr ⟨e', .tail _ member, made⟩

end Ledger

theorem Follows.cells {host : Host} (propagates : host.Propagates) (follows : Follows host s t) :
    s.cells.size ≤ t.cells.size := by
  induction follows with
  | refl => exact Nat.le_refl _
  | tail _ moves ih => exact Nat.le_trans ih (moves.later propagates).cells

theorem Recorded.register (recorded : Recorded call base s e) {r : UInt8} {id : CellId}
    (captures : e.Captures (.register r) id) : (base + r.toNat, id) ∈ e.after.frame.opened := by
  obtain ⟨a, running, finds⟩ := recorded.happens.finds captures
  rw [← recorded.base_eq, ← (activation_ok running).1]
  exact finds

-- The cell is still listed if the register was not closed, and gone if it was.
theorem Ledger.shared (ledger : Ledger call base s es t) (start : s.Distinct)
    (recorded : Recorded call base t e) {r r' : UInt8} {id id' : CellId}
    (listed : (base + r.toNat, id) ∈ s.frame.opened) (captures : e.Captures (.register r') id') :
    id = id' ↔ r = r' ∧ ∀ d ∈ es, ¬ d.Closes r.toNat := by
  have listed' := recorded.register captures
  have distinct := recorded.since.distinct (ledger.distinct start)
  obtain ⟨_, _, _, _, _, -, makes, -⟩ := captures
  by_cases closes : ∃ d ∈ es, d.Closes r.toNat
  · have gone := recorded.gone (ledger.closed start listed rfl closes)
    constructor
    · intro same
      exact absurd same.symm (gone.2 _ listed')
    · rintro ⟨-, stays⟩
      obtain ⟨d, member, closed⟩ := closes
      exact absurd closed (stays d member)
  · have stays : ∀ d ∈ es, ¬ d.Closes r.toNat := fun d member closed => closes ⟨d, member, closed⟩
    have kept : (base + r.toNat, id) ∈ e.after.frame.opened :=
      recorded.since.kept _ (ledger.kept listed rfl stays) fun ⟨r, _, closed⟩ =>
        makes.keeps r closed
    rw [distinct.same_iff kept listed']
    exact ⟨fun same => ⟨same, stays⟩, And.left⟩

theorem History.ledger {host : Host} (propagates : host.Propagates) (history : History host es) :
    ∃ call base begun t, begun.frame.opened = [] ∧ Ledger call base begun es t := by
  obtain ⟨call, f, p, func, nargs, s, begun, t, makes, entered, trail⟩ := history
  obtain ⟨varargs, frame⟩ := Call.enterScript_frame entered
  have window : begun.frame.base ≤ begun.frame.top := by
    rw [frame]
    exact Nat.le_add_right _ _
  exact ⟨call, _, begun, t, by rw [frame]; rfl,
    trail.ledger (makes.balanced propagates) (makes.lasts propagates) window⟩

theorem Ledger.upTo (ledger : Ledger call base s es t) (member : e ∈ es) :
    ∃ u done, Recorded call base u e ∧ Ledger call base s done e.after ∧ done ⊆ es := by
  obtain ⟨before, later, rfl⟩ := List.append_of_mem member
  obtain ⟨u, first, recorded, -⟩ := ledger.split
  refine ⟨u, before ++ [e], recorded, append_iff.2 ⟨u, first, .cons recorded (.nil _)⟩, ?_⟩
  simp

theorem History.made {host : Host} (propagates : host.Propagates) (history : History host es)
    (member : e ∈ es) {r : UInt8} {id : CellId} (captures : e.Captures (.register r) id) :
    ∃ m ∈ es, m.MakesFunction ∧ m.before.cells.size ≤ id.index ∧ id.index < m.after.cells.size := by
  obtain ⟨call, base, begun, t, empty, ledger⟩ := history.ledger propagates
  obtain ⟨u, done, recorded, reached, part⟩ := ledger.upTo member
  rcases reached.made (.of_empty empty) (recorded.register captures) with listed | ⟨m, made, range⟩
  · rw [empty] at listed
    cases listed
  · exact ⟨m, part made, range⟩

end Machine

open Machine in
/-- Two functions that a call makes share the variable of a register if and only if no instruction
in between has closed it; other registers and other calls have other variables. A variable that is
captured further is that of the function that runs. -/
theorem captures_shared {host : Host} (propagates : host.Propagates) {es : List Event}
    (history : History host es) :
    (∀ e ∈ es, e.MakesFunction → ∃ a p, activation e.before = .ok a e.before ∧
      a.proto.protos[e.word.bx]? = some p ∧ ∀ c ∈ p.captures, ∃ id, e.Captures c id) ∧
    (∀ e ∈ es, ∀ r r' id id', e.Captures (.register r) id → e.Captures (.register r') id' →
      (id = id' ↔ r = r')) ∧
    (∀ before e between e' later, es = before ++ e :: (between ++ e' :: later) →
      ∀ r r' id id', e.Captures (.register r) id → e'.Captures (.register r') id' →
        (id = id' ↔ r = r' ∧ ∀ d ∈ between, ¬ d.Closes r.toNat)) ∧
    (∀ es', History host es' → Apart host es es' → ∀ e ∈ es, ∀ e' ∈ es', ∀ r r' id id',
      e.Captures (.register r) id → e'.Captures (.register r') id' → id ≠ id') ∧
    ∀ e ∈ es, ∀ i id, e.Captures (.upvalue i) id → ∃ f p cells,
      e.before.frame.function = some f ∧ e.before.function? f = some ⟨.script p, cells⟩ ∧
      cells[i.toNat]? = some id := by
  obtain ⟨call, base, begun, t, empty, ledger⟩ := history.ledger propagates
  have start := State.Distinct.of_empty empty
  refine ⟨?_, ?_, ?_, ?_, ?_⟩
  · intro e member closure
    obtain ⟨_, _, recorded, -⟩ := ledger.upTo member
    exact recorded.happens.captures closure
  · intro e member r r' id id' first second
    obtain ⟨_, _, recorded, reached, -⟩ := ledger.upTo member
    have distinct := reached.distinct start
    exact distinct.same_iff (recorded.register first) (recorded.register second)
  · rintro before e between e' later rfl r r' id id' first second
    obtain ⟨u, early, recorded, rest⟩ := ledger.split
    obtain ⟨v, passed, recorded', -⟩ := rest.split
    have distinct := recorded.since.distinct (early.distinct start)
    exact passed.shared distinct recorded' (recorded.register first) second
  · intro es' history' apart e member e' member' r r' id id' first second same
    subst same
    obtain ⟨m, made, makes, low, high⟩ := history.made propagates member first
    obtain ⟨m', made', makes', low', high'⟩ := history'.made propagates member' second
    rcases apart m made m' made' makes makes' with follows | follows
    · have := follows.cells propagates
      omega
    · have := follows.cells propagates
      omega
  · intro e member i id captures
    obtain ⟨_, _, recorded, -⟩ := ledger.upTo member
    obtain ⟨a, running, finds⟩ := recorded.happens.finds captures
    obtain ⟨-, f, function, found⟩ := activation_ok running
    exact ⟨f, a.proto, a.cells, function, found, finds⟩

namespace Machine

variable {host : Host} {call call' : Call} {s s' t t' u : State} {e : Event} {es es' : List Event}

def record (call : Call) : Vm Event := do
  tick
  let before ← get
  match (← activation).proto.code[before.frame.pc]? with
  | none => throw .exhausted
  | some word =>
    match ← stepOnce call with
    | .next => return ⟨before, word, ← get⟩
    | .returned _ => throw .exhausted

theorem record_ok (ran : record call s = .ok e t) (notTail : e.word.opcode? ≠ some .tailCall) :
    tick s = .ok () e.before ∧ Happens call e ∧ e.after = t := by
  obtain ⟨_, u, paid, ran⟩ := ok_of_bind ran
  rw [get_bind] at ran
  obtain ⟨a, v, running, ran⟩ := ok_of_bind ran
  obtain rfl := activation_same running
  cases fetched : a.proto.code[v.frame.pc]? with
  | none =>
    rw [fetched] at ran
    cases ran
  | some word =>
    rw [fetched] at ran
    obtain ⟨flow, w, stepped, ran⟩ := ok_of_bind ran
    cases flow with
    | returned n => cases ran
    | next =>
      cases ran
      exact ⟨paid, ⟨a, running, fetched, notTail, stepped⟩, rfl⟩

theorem Trail.record (ran : record call s = .ok e t) (notTail : e.word.opcode? ≠ some .tailCall)
    (trail : Trail call t es u) : Trail call s (e :: es) u := by
  obtain ⟨paid, happens, rfl⟩ := record_ok ran notTail
  exact .cons paid happens trail

theorem Follows.tick (paid : tick s = .ok () t) : Follows host s t := by
  unfold Vm.tick at paid
  split at paid
  · cases paid
  · cases paid
    exact .single (.allot s _)

theorem Trail.follows (trail : Trail call s es t) (makes : Makes host call) : Follows host s t := by
  induction trail with
  | nil => exact .refl
  | @cons s t e es paid happens _ ih =>
    obtain ⟨-, -, -, -, ran⟩ := happens
    have moves : Moves host e.before ((stepOnce call).after e.before) := .execute _ makes
    rw [after, ran] at moves
    exact (Follows.tick paid).trans ((Relation.ReflTransGen.single moves).trans ih)

theorem Trail.around (trail : Trail call s es t) (makes : Makes host call) (member : e ∈ es) :
    Follows host s e.before ∧ Follows host e.after t := by
  induction trail with
  | nil => cases member
  | @cons s t first es paid happens rest ih =>
    rcases List.mem_cons.1 member with rfl | member
    · exact ⟨.tick paid, rest.follows makes⟩
    · obtain ⟨before, after⟩ := ih member
      have first := (Trail.cons paid happens (.nil _)).follows makes
      exact ⟨first.trans before, after⟩

theorem Apart.of_follows (trail : Trail call s es t) (makes : Makes host call)
    (trail' : Trail call' s' es' t') (makes' : Makes host call') (follows : Follows host t s') :
    Apart host es es' :=
  fun _ member _ member' _ _ => .inl ((trail.around makes member).2.trans
    (follows.trans (trail'.around makes' member').1))

end Machine

-- A function that makes two others from its first register, closes it and makes a third.
def Prototype.capturing : Prototype :=
  { source := "@t.lua", params := 1, stackSize := 4, captures := #[.register 0]
    code := #[.ofABx .closure 1 0, .ofABx .closure 2 0, .ofAsBx .jmp 1 0, .ofABx .closure 3 0]
    protos := [{ source := "@t.lua", captures := #[.register 0, .upvalue 0] }] }

-- The function is its own argument.
def State.capturing : State :=
  { State.bare {} with
    stack := #[.function ⟨0⟩, .function ⟨0⟩]
    cells := #[.closed .nil]
    functions := #[⟨.script .capturing, #[⟨0⟩]⟩]
    budget := 10 }

def Event.CapturesFirst (e : Event) : Prop :=
  e.MakesFunction ∧ activation.returns e.before (fun a _ =>
    (a.proto.protos[e.word.bx]?).map (·.captures) = some #[.register 0, .upvalue 0]) = true

instance (e : Event) : Decidable e.CapturesFirst :=
  inferInstanceAs (Decidable (_ = _ ∧ _ = _))

theorem Event.CapturesFirst.captures {e : Event} (first : e.CapturesFirst)
    (made : ∃ a p, activation e.before = .ok a e.before ∧
      a.proto.protos[e.word.bx]? = some p ∧ ∀ c ∈ p.captures, ∃ id, e.Captures c id) :
    ∃ id, e.Captures (.register 0) id := by
  obtain ⟨a, p, running, child, captures⟩ := made
  have tested := first.2
  rw [returns, running] at tested
  simp only [child, Option.map_some, Option.some.injEq, decide_eq_true_eq] at tested
  exact captures _ (by simp [tested])

instance (e : Event) (r : Nat) : Decidable (e.Closes r) :=
  inferInstanceAs (Decidable (_ = _ ∧ _ ≠ _ ∧ _ ≤ _))

theorem Event.MakesFunction.notTail {e : Event} (makes : e.MakesFunction) :
    e.word.opcode? ≠ some .tailCall := by
  rw [makes]
  decide

theorem Event.Closes.notTail {e : Event} {r : Nat} (closes : e.Closes r) :
    e.word.opcode? ≠ some .tailCall := by
  rw [closes.1]
  decide

structure Event.Nested where
  (first second jump third inner : Event)

def Machine.nested (call : Call) : Vm Event.Nested := do
  Call.enterScript ⟨0⟩ .capturing 0 1
  let first ← record call
  let second ← record call
  let jump ← record call
  let third ← record call
  let entry ← accept 1 0
  Call.enterScript entry.2.1 .capturing 1 entry.2.2
  return ⟨first, second, jump, third, ← record call⟩

open Machine in
-- The first two share a cell; the third has another, and so has one made by a call inside.
theorem captures_shared_nested :
    ∃ e₁ e₂ jump e₃ inner id id₃ id', e₁.Captures (.register 0) id ∧
      e₂.Captures (.register 0) id ∧ jump.Closes 0 ∧ e₃.Captures (.register 0) id₃ ∧
      inner.Captures (.register 0) id' ∧ id₃ ≠ id ∧ id' ≠ id ∧
      History Command.noHost [e₁, e₂, jump, e₃] ∧ History Command.noHost [inner] := by
  let call := callWithin Command.noHost 3
  have outcome : (nested call).returns State.capturing (fun run _ =>
      run.first.CapturesFirst ∧ run.second.CapturesFirst ∧ run.jump.Closes 0 ∧
        run.third.CapturesFirst ∧ run.inner.CapturesFirst) = true := by decide +kernel
  obtain ⟨⟨e₁, e₂, jump, e₃, inner⟩, last, ran, passed⟩ := of_returns outcome
  obtain ⟨first, second, closes, third, inside⟩ := of_decide_eq_true passed
  obtain ⟨_, begun, entered, ran⟩ := ok_of_bind ran
  obtain ⟨_, _, ran₁, ran⟩ := ok_of_bind ran
  obtain ⟨_, _, ran₂, ran⟩ := ok_of_bind ran
  obtain ⟨_, _, ran₃, ran⟩ := ok_of_bind ran
  obtain ⟨_, outer, ran₄, ran⟩ := ok_of_bind ran
  obtain ⟨⟨closure, f, n⟩, accepted, let_in, ran⟩ := ok_of_bind ran
  obtain ⟨_, begun', entered', ran⟩ := ok_of_bind ran
  obtain ⟨_, _, ran₅, ran⟩ := ok_of_bind ran
  cases ran
  have trail : Trail call begun [e₁, e₂, jump, e₃] outer :=
    .record ran₁ first.1.notTail <| .record ran₂ second.1.notTail <|
      .record ran₃ closes.notTail <| .record ran₄ third.1.notTail (.nil _)
  have trail' : Trail call begun' [inner] last := .record ran₅ inside.1.notTail (.nil _)
  have makes : Makes Command.noHost call := .nested 3
  have history : History Command.noHost [e₁, e₂, jump, e₃] :=
    ⟨_, _, _, _, _, _, _, _, makes, entered, trail⟩
  have history' : History Command.noHost [inner] :=
    ⟨_, _, _, _, _, _, _, _, makes, entered', trail'⟩
  have enters : Moves Command.noHost outer ((Call.enterScript f .capturing 1 n).after accepted) :=
    .enterScript _ let_in
  rw [after, entered'] at enters
  have apart := Apart.of_follows trail makes trail' makes (.single enters)
  obtain ⟨functions, -, shared, others, -⟩ :=
    captures_shared Command.noHost_propagates history
  obtain ⟨functions', -⟩ := captures_shared Command.noHost_propagates history'
  obtain ⟨id, one⟩ := first.captures (functions e₁ (by simp) first.1)
  obtain ⟨id₂, two⟩ := second.captures (functions e₂ (by simp) second.1)
  obtain ⟨id₃, three⟩ := third.captures (functions e₃ (by simp) third.1)
  obtain ⟨id', four⟩ := inside.captures (functions' inner (by simp) inside.1)
  obtain rfl : id = id₂ := (shared [] e₁ [] e₂ _ rfl 0 0 id id₂ one two).2 (by simp)
  refine ⟨e₁, e₂, jump, e₃, inner, id, id₃, id', one, two, closes, three, four, ?_, ?_, history,
    history'⟩
  · intro same
    have stays := ((shared [] e₁ [e₂, jump] e₃ [] rfl 0 0 id id₃ one three).1 same.symm).2
    exact stays jump (by simp) closes
  · exact (others _ history' apart e₁ (by simp) inner (by simp) 0 0 id id' one four).symm

end LuaMachine
