import LuaMachine.Proofs.Indexing.Reads
import LuaMachine.Proofs.Table.Contents

set_option autoImplicit false

namespace LuaMachine

namespace Table

def Made (t : Table) : Prop := ∃ array hash ops, t = (presized array hash).run ops

variable {t : Table} {k : Key} {v : Value}

theorem Made.canonical (made : t.Made) : t.Canonical := by
  obtain ⟨array, hash, ops, rfl⟩ := made
  exact run_canonical (presized_canonical array hash) ops

theorem metatable_absorb (fuel : Nat) (t : Table) : (absorb fuel t).metatable = t.metatable := by
  induction fuel generalizing t with
  | zero => rfl
  | succ fuel ih =>
    rw [absorb]
    split
    · rfl
    · split
      · rfl
      · rw [ih]

theorem metatable_putHash (t : Table) (k : Key) (v : Value) :
    (t.putHash k v).metatable = t.metatable := by
  unfold putHash
  split <;> rfl

theorem metatable_putKey (t : Table) (k : Key) (v : Value) :
    (t.putKey k v).metatable = t.metatable := by
  cases place : k.position? with
  | none => rw [putKey_elsewhere place, metatable_putHash]
  | some i =>
    rw [putKey_at place]
    split
    · split <;> rfl
    · split
      · exact metatable_absorb _ _
      · exact metatable_putHash t k v

theorem getKey_putKey (canonical : t.Canonical) (normal : k.Normal) (v : Value) (k' : Key) :
    (t.putKey k v).getKey k' = if k' = k then v else t.getKey k' := by
  rw [getKey_eq, getKey_eq, (putKey_puts canonical normal v).find]
  split
  · exact held?_getD v
  · rfl

end Table

namespace State

def Has (s : State) : Value → Prop
  | .table id => id.index < s.tables.size
  | _ => True

instance (s : State) : DecidablePred s.Has
  | .table id => inferInstanceAs (Decidable (id.index < s.tables.size))
  | .nil | .bool _ | .int _ | .float _ | .str _ | .function _ => isTrue trivial

/-- Every table is as operations make it, and the heap has all that its entries refer to. -/
structure Heap (s : State) : Prop where
  made : ∀ id, (s.table id).Made
  entries : ∀ id, ∀ entry ∈ (s.table id).entries, s.Has entry.2

/-- Of two states the second has another value of one key of one table, and no other difference. -/
structure Rewrites (s : State) (id : TableId) (k : Key) (v : Value) (s' : State) : Prop where
  heap : s' = { s with tables := s'.tables }
  size : s'.tables.size = s.tables.size
  others : ∀ id', id' ≠ id → s'.table id' = s.table id'
  metatable : (s'.table id).metatable = (s.table id).metatable
  entry : ∀ k', (s'.table id).getKey k' = if k' = k then v else (s.table id).getKey k'

variable {s : State} {event : String} {k t u : Value} {j : Nat}

theorem Heap.getKey (heap : s.Heap) (id : TableId) (key : Key) :
    s.Has ((s.table id).getKey key) := by
  by_cases absent : (s.table id).getKey key = .nil
  · rw [absent]
    trivial
  · have listed := (heap.made id).canonical.refines.entries key ((s.table id).getKey key)
    exact heap.entries id _ (listed.2 ⟨absent, rfl⟩)

theorem Heap.handler (heap : s.Heap) (u : Value) (event : String) :
    s.Has (s.handler u event) := by
  unfold State.handler
  split
  · trivial
  · exact heap.getKey _ _

theorem Heap.chain (heap : s.Heap) (there : s.Has t) (chain : s.Chain event k t j u) :
    s.Has u := by
  cases chain with
  | start => exact there
  | next _ _ => exact heap.handler _ event

theorem table_modify {id : TableId} (there : s.Has (.table id)) (f : Table → Table)
    (id' : TableId) :
    { s with tables := s.tables.modify id.index f }.table id' =
      if id' = id then f (s.table id') else s.table id' := by
  have same : id' = id ↔ id.index = id'.index := by
    cases id
    cases id'
    simp [eq_comm]
  simp only [table, Array.getD_eq_getD_getElem?, Array.getElem?_modify, same]
  split
  next here => simp [← here, show id.index < s.tables.size from there]
  next => rfl

end State

namespace Operation

open Vm

variable {call : Call} {s : State} {k v t u : Value} {j : Nat}

theorem rawPut_run (id : TableId) (k v : Value) (s : State) :
    rawPut id k v s =
      match Key.ofValue k with
      | .ok key => .ok () { s with tables := s.tables.modify id.index (·.putKey key v) }
      | .error e => .error (.raised (.invalidKey e)) s := by
  unfold rawPut
  cases Key.ofValue k <;> rfl

-- The value at the end of a chain takes the entry if it is a table.
def putLast (u k v : Value) : Vm Unit :=
  match u with
  | .table id => rawPut id k v
  | u => raise (.notTable u.type)

theorem putLast_other (k v : Value) (other : ∀ id, u ≠ .table id) :
    putLast u k v = raise (.notTable u.type) := by
  cases u with
  | table id => exact absurd rfl (other id)
  | _ => rfl

def PutsIn (id : TableId) (k v : Value) (s : State) (outcome : EStateM.Result Stop State Unit) :
    Prop :=
  match Key.ofValue k with
  | .ok key => ∃ s', outcome = .ok () s' ∧ s.Rewrites id key v s'
  | .error e => outcome = .error (.raised (.invalidKey e)) s

theorem rawPut_putsIn (heap : s.Heap) {id : TableId} (there : s.Has (.table id)) (k v : Value) :
    PutsIn id k v s (rawPut id k v s) := by
  rw [rawPut_run, PutsIn]
  cases stands : Key.ofValue k with
  | error e => rfl
  | ok key =>
    have table := State.table_modify there (·.putKey key v)
    have written := (table id).trans (if_pos rfl)
    have canonical := (heap.made id).canonical
    refine ⟨_, rfl, rfl, Array.size_modify, fun id' other => (table id').trans (if_neg other),
      ?_, ?_⟩
    · rw [written, Table.metatable_putKey]
    · intro key'
      rw [written, Table.getKey_putKey canonical (Key.normal_ofValue stands)]

theorem setIndexWithin_step (call : Call) (k v : Value) (links : Nat) (u : Value) (s : State) :
    setIndexWithin call k v (links + 1) u s =
      if s.rawGet u k = .nil then
        match s.handler u "__newindex" with
        | .nil => putLast u k v s
        | .function f => (callHandler call (.function f) [u, k, v] >>= fun _ => pure ()) s
        | h => setIndexWithin call k v links h s
      else putLast u k v s := by
  by_cases table : ∃ id, u = .table id
  · obtain ⟨id, rfl⟩ := table
    change _ = if (s.table id).get k = .nil then _ else _
    rw [setIndexWithin, get_bind]
    by_cases absent : (s.table id).get k = .nil
    · rw [if_pos absent, absent]
      cases s.handler (.table id) "__newindex" <;> rfl
    · have present : ((s.table id).get k).isNil = false := by simp [Value.isNil_eq, absent]
      rw [if_neg absent, present]
      rfl
  · have other : ∀ id, u ≠ .table id := fun id same => table ⟨id, same⟩
    rw [State.rawGet_other k other, if_pos rfl, setIndexWithin, get_bind]
    · rw [putLast_other k v other]
      cases s.handler u "__newindex" <;> rfl
    · exact other

theorem setIndexWithin_passes (passes : s.Passes "__newindex" k u) (links : Nat) :
    setIndexWithin call k v (links + 1) u s =
      setIndexWithin call k v links (s.handler u "__newindex") s := by
  rw [setIndexWithin_step, if_pos passes.absent]
  exact passes.handler_match _ _ (setIndexWithin call k v links · s)

def Puts (call : Call) (k v : Value) (s : State) :
    State.Answer → EStateM.Result Stop State Unit → Prop
  | .held id, outcome => PutsIn id k v s outcome
  | .last (.table id), outcome => PutsIn id k v s outcome
  | .last u, outcome => outcome = .error (.raised (.notTable u.type)) s
  | .asks f u, outcome =>
    outcome = (callHandler call (.function f) [u, k, v] >>= fun _ => pure ()) s
  | .tooLong, outcome => outcome = .error (.raised (.runtime (.chainTooLong "__newindex"))) s

theorem setIndexWithin_settles (heap : s.Heap) {answer : State.Answer}
    (there : s.Has u) (settles : s.Settles "__newindex" k u answer) (links : Nat) :
    Puts call k v s answer (setIndexWithin call k v (links + 1) u s) := by
  rw [setIndexWithin_step]
  cases settles with
  | held present =>
    rw [if_neg present]
    exact rawPut_putsIn heap there k v
  | last absent unhandled =>
    rw [if_pos absent, unhandled]
    cases u with
    | table id => exact rawPut_putsIn heap there k v
    | _ => rfl
  | asks absent handled =>
    rw [if_pos absent, handled]
    rfl

theorem setIndex_puts (call : Call) (heap : s.Heap) (there : s.Has t) {answer : State.Answer}
    (answers : s.Answers "__newindex" k t answer) :
    Puts call k v s answer (setIndex call t k v s) := by
  refine answers.walk (setIndexWithin call k v · · s) (Puts call k v s)
    (fun links _ passes => setIndexWithin_passes passes links) ?_ (fun _ => rfl)
  intro links j u answer chain settles
  exact setIndexWithin_settles heap (heap.chain there chain) settles links

-- No function is called, so nothing has changed, and the error tells what happened.
theorem Puts.failed {answer : State.Answer} {outcome : EStateM.Result Stop State Unit}
    (puts : Puts call k v s answer outcome) (unasked : ∀ f u, answer ≠ .asks f u) {e : Stop}
    {s' : State} (failed : outcome = .error e s') :
    s' = s ∧ (e = .raised (.runtime (.chainTooLong "__newindex")) → answer = .tooLong) := by
  have rejected {id : TableId} (puts : PutsIn id k v s outcome) :
      ∃ fault, e = .raised (.invalidKey fault) ∧ s' = s := by
    unfold PutsIn at puts
    split at puts
    · obtain ⟨_, ran, -⟩ := puts
      simp [failed] at ran
    next fault _ =>
      rw [failed] at puts
      cases puts
      exact ⟨fault, rfl, rfl⟩
  cases answer with
  | asks f u => exact absurd rfl (unasked f u)
  | held id =>
    obtain ⟨fault, rfl, rfl⟩ := rejected puts
    simp
  | tooLong =>
    rw [failed] at puts
    cases puts
    simp
  | last u =>
    cases u with
    | table id =>
      obtain ⟨fault, rfl, rfl⟩ := rejected puts
      simp
    | _ =>
      rw [failed] at puts
      cases puts
      simp

end Operation

/-- Writing an entry gives one key of one table its value, and changes nothing else: the first table
of the chain of `__newindex` handlers that has the key or no handler takes it. Where it fails
nothing has changed, and the chain is too long just when none of its values answers. -/
theorem setIndex_rewrites_entry (call : Call) {s : State} (heap : s.Heap) {t : Value}
    (there : s.Has t) (k v : Value)
    (unasked : ∀ f u, ¬ s.Answers "__newindex" k t (.asks f u)) :
    (∃! answer, s.Answers "__newindex" k t answer) ∧
    (∀ answer, s.Answers "__newindex" k t answer →
      Operation.Puts call k v s answer (Operation.setIndex call t k v s)) ∧
    (∀ e s', Operation.setIndex call t k v s = .error e s' → s' = s) ∧
    (Operation.setIndex call t k v s =
        .error (.raised (.runtime (.chainTooLong "__newindex"))) s ↔
      s.Answers "__newindex" k t .tooLong) := by
  have unique := s.answers_existsUnique "__newindex" k t
  have puts {answer : State.Answer} (answers : s.Answers "__newindex" k t answer) :=
    Operation.setIndex_puts (v := v) call heap there answers
  refine ⟨unique, fun _ => puts, ?_⟩
  obtain ⟨answer, answers, -⟩ := unique
  have known : ∀ f u, answer ≠ .asks f u := by
    rintro f u rfl
    exact unasked f u answers
  refine ⟨fun e s' ran => ((puts answers).failed known ran).1, fun ran => ?_, fun long => puts long⟩
  rw [← ((puts answers).failed known ran).2 rfl]
  exact answers

theorem State.linked_heap : (State.linked 3).Heap where
  made := by
    rintro ⟨i⟩
    match i with
    | 0 => exact ⟨0, 0, [.putText "_MT4" (.table ⟨4⟩)], rfl⟩
    | 1 => exact ⟨0, 0, [], rfl⟩
    | 2 => exact ⟨0, 0, [.setMetatable (some ⟨3⟩)], rfl⟩
    | 3 => exact ⟨0, 0, [.putText "__index" (.str []), .putText "__newindex" (.str [])], rfl⟩
    | 4 => exact ⟨0, 0, [.putText "__index" (.table ⟨5⟩), .putText "__newindex" (.table ⟨5⟩)], rfl⟩
    | 5 => exact ⟨0, 0, [.putText "key" (.int 7)], rfl⟩
    | n + 6 => exact ⟨0, 0, [], rfl⟩
  entries := by
    have listed : ∀ i < 6, ∀ entry ∈ ((linked 3).table ⟨i⟩).entries, (linked 3).Has entry.2 := by
      decide +kernel
    rintro ⟨i⟩ entry member
    by_cases inside : i < 6
    · exact listed i inside entry member
    · obtain ⟨n, rfl⟩ : ∃ n, i = n + 6 := ⟨i - 6, by omega⟩
      cases member

-- The last table has another value now, and the first one is as it was.
theorem setIndex_rewrites_entry_linked :
    ∃ s', Operation.setIndex (Machine.call Command.noHost) (.table ⟨2⟩) (.ofText "key") (.int 8)
        (State.linked 3) = .ok () s' ∧
      (s'.table ⟨5⟩).get (.ofText "key") = .int 8 ∧ s'.table ⟨2⟩ = (State.linked 3).table ⟨2⟩ := by
  have answers := State.linked_answers (.inr rfl)
  have there : (State.linked 3).Has (.table ⟨2⟩) := by decide +kernel
  obtain ⟨-, puts, -⟩ := setIndex_rewrites_entry (Machine.call Command.noHost) State.linked_heap
    there (.ofText "key") (.int 8) (fun f u asks => by cases asks.unique answers)
  obtain ⟨s', ran, rewrites⟩ := puts _ answers
  exact ⟨s', ran, (rewrites.entry _).trans (if_pos rfl), rewrites.others ⟨2⟩ (by decide)⟩

end LuaMachine
