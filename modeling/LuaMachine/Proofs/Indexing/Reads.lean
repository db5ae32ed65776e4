import LuaMachine.Proofs.TailCalls
import LuaMachine.Proofs.Table.Layout

set_option autoImplicit false

namespace LuaMachine

theorem Value.type_other {u : Value} (other : ∀ id, u ≠ .table id) : u.type ≠ .table := by
  cases u with
  | table id => exact absurd rfl (other id)
  | _ => simp [type]

namespace State

def rawGet (s : State) (u k : Value) : Value :=
  match u with
  | .table id => (s.table id).get k
  | _ => .nil

theorem rawGet_other {s : State} {u : Value} (k : Value) (other : ∀ id, u ≠ .table id) :
    s.rawGet u k = .nil := by
  cases u with
  | table id => exact absurd rfl (other id)
  | _ => rfl

structure Passes (s : State) (event : String) (k u : Value) : Prop where
  absent : s.rawGet u k = .nil
  handled : s.handler u event ≠ .nil
  indirect : ∀ f, s.handler u event ≠ .function f

theorem Passes.handler_match {β : Type} {s : State} {event : String} {k u : Value}
    (passes : s.Passes event k u) (unhandled : β) (asks : FunctionId → β) (next : Value → β) :
    (match s.handler u event with
      | .nil => unhandled
      | .function f => asks f
      | h => next h) = next (s.handler u event) := by
  have handled := passes.handled
  have indirect := passes.indirect
  generalize s.handler u event = h at handled indirect
  cases h with
  | nil => exact absurd rfl handled
  | function f => exact absurd rfl (indirect f)
  | _ => rfl

/-- The values that are asked for the key in turn, `t` being the first: each of them hands the
question on to the next, its handler. -/
inductive Chain (s : State) (event : String) (k t : Value) : Nat → Value → Prop where
  | start : Chain s event k t 0 t
  | next {j : Nat} {u : Value} : Chain s event k t j u → s.Passes event k u →
    Chain s event k t (j + 1) (s.handler u event)

variable {s : State} {event : String} {k t u u' : Value} {j n : Nat}

theorem Chain.unique (chain : s.Chain event k t j u) (chain' : s.Chain event k t j u') :
    u = u' := by
  induction chain generalizing u' with
  | start =>
    cases chain'
    rfl
  | next _ _ ih =>
    cases chain' with
    | next earlier _ => rw [ih earlier]

-- Before the chain has become so long, some value answers, or all of them have passed.
theorem chain_cases (s : State) (event : String) (k t : Value) (n : Nat) :
    (∃ j u, j < n ∧ s.Chain event k t j u ∧ ¬ s.Passes event k u) ∨
      ∃ u, s.Chain event k t n u := by
  induction n with
  | zero => exact .inr ⟨t, .start⟩
  | succ n ih =>
    rcases ih with ⟨j, u, less, chain, answers⟩ | ⟨u, chain⟩
    · exact .inl ⟨j, u, by omega, chain, answers⟩
    · by_cases passes : s.Passes event k u
      · exact .inr ⟨_, chain.next passes⟩
      · exact .inl ⟨n, u, by omega, chain, passes⟩

-- Of two values of a chain the earlier one has passed.
theorem Chain.passed (chain : s.Chain event k t n u) (earlier : s.Chain event k t j u')
    (less : j < n) : s.Passes event k u' := by
  induction chain with
  | start => omega
  | @next n u chain passes ih =>
    rcases Nat.lt_succ_iff_lt_or_eq.1 less with before | rfl
    · exact ih before
    · rwa [← chain.unique earlier]

/-- What becomes of the question for a key: a table has it, the chain ends at a value without it, a
function is to be asked on behalf of the value whose handler it is, or there are too many links. -/
inductive Answer where
  | held (id : TableId)
  | last (u : Value)
  | asks (f : FunctionId) (u : Value)
  | tooLong

inductive Settles (s : State) (event : String) (k : Value) : Value → Answer → Prop where
  | held {id : TableId} : s.rawGet (.table id) k ≠ .nil → Settles s event k (.table id) (.held id)
  | last {u : Value} : s.rawGet u k = .nil → s.handler u event = .nil →
    Settles s event k u (.last u)
  | asks {u : Value} {f : FunctionId} : s.rawGet u k = .nil → s.handler u event = .function f →
    Settles s event k u (.asks f u)

inductive Answers (s : State) (event : String) (k t : Value) : Answer → Prop where
  | settled {j : Nat} {u : Value} {answer : Answer} : j < s.config.maxMetaChain →
    s.Chain event k t j u → s.Settles event k u answer → Answers s event k t answer
  | tooLong : (∀ j u, j < s.config.maxMetaChain → s.Chain event k t j u → s.Passes event k u) →
    Answers s event k t .tooLong

variable {answer answer' : Answer}

theorem Settles.not_passes (settles : s.Settles event k u answer) : ¬ s.Passes event k u := by
  intro passes
  cases settles with
  | held present => exact present passes.absent
  | last _ unhandled => exact passes.handled unhandled
  | asks _ handled => exact passes.indirect _ handled

theorem Settles.unique (settles : s.Settles event k u answer)
    (settles' : s.Settles event k u answer') : answer = answer' := by
  cases settles <;> cases settles' <;> simp_all [rawGet]

theorem settles_of_not_passes (answers : ¬ s.Passes event k u) :
    ∃ answer, s.Settles event k u answer := by
  by_cases absent : s.rawGet u k = .nil
  · cases handled : s.handler u event with
    | nil => exact ⟨_, .last absent handled⟩
    | function f => exact ⟨_, .asks absent handled⟩
    | _ => exact absurd ⟨absent, by simp [handled], by simp [handled]⟩ answers
  · cases u with
    | table id => exact ⟨_, .held absent⟩
    | _ => exact absurd rfl absent

-- Only one value of a chain answers: those before it have passed, and there are none after it.
theorem Answers.unique (first : s.Answers event k t answer) (second : s.Answers event k t answer') :
    answer = answer' := by
  cases first with
  | tooLong all =>
    cases second with
    | tooLong _ => rfl
    | settled within chain settles => exact absurd (all _ _ within chain) settles.not_passes
  | @settled j u _ within chain settles =>
    cases second with
    | tooLong all => exact absurd (all _ _ within chain) settles.not_passes
    | @settled j' u' _ within' chain' settles' =>
      rcases Nat.lt_trichotomy j j' with before | rfl | later
      · exact absurd (chain'.passed chain before) settles.not_passes
      · rw [chain.unique chain'] at settles
        exact settles.unique settles'
      · exact absurd (chain.passed chain' later) settles'.not_passes

theorem answers_existsUnique (s : State) (event : String) (k t : Value) :
    ∃! answer, s.Answers event k t answer := by
  obtain ⟨answer, answers⟩ : ∃ answer, s.Answers event k t answer := by
    rcases chain_cases s event k t s.config.maxMetaChain with
      ⟨j, u, within, chain, answers⟩ | ⟨u, chain⟩
    · obtain ⟨answer, settles⟩ := settles_of_not_passes answers
      exact ⟨answer, .settled within chain settles⟩
    · exact ⟨.tooLong, .tooLong fun _ _ within earlier => chain.passed earlier within⟩
  exact ⟨answer, answers, fun _ others => others.unique answers⟩

-- Whatever a walk along the chain makes of a value that answers, it makes of the whole chain.
theorem Answers.walk {β : Type} (walk : Nat → Value → β) (gives : Answer → β → Prop)
    (passed : ∀ links u, s.Passes event k u → walk (links + 1) u = walk links (s.handler u event))
    (settled : ∀ links j u answer, s.Chain event k t j u → s.Settles event k u answer →
      gives answer (walk (links + 1) u))
    (exhausted : ∀ u, gives .tooLong (walk 0 u)) (answers : s.Answers event k t answer) :
    gives answer (walk s.config.maxMetaChain t) := by
  have along {j : Nat} {u : Value} (chain : s.Chain event k t j u) (links : Nat) :
      walk (j + links) t = walk links u := by
    induction chain generalizing links with
    | start => rw [Nat.zero_add]
    | next _ passes ih => rw [Nat.succ_add_eq_add_succ, ih, passed _ _ passes]
  cases answers with
  | @settled j u _ within chain settles =>
    obtain ⟨links, limit⟩ : ∃ links, s.config.maxMetaChain = j + (links + 1) :=
      ⟨s.config.maxMetaChain - j - 1, by omega⟩
    rw [limit, along chain]
    exact settled links j u answer chain settles
  | tooLong all =>
    rcases chain_cases s event k t s.config.maxMetaChain with
      ⟨j, u, within, chain, answers⟩ | ⟨u, chain⟩
    · exact absurd (all j u within chain) answers
    · rw [← Nat.add_zero s.config.maxMetaChain, along chain]
      exact exhausted u

end State

namespace Operation

open Vm
open Machine (Makes Produces)

def Calls (call : Call) (f : FunctionId) (args : List Value) (s : State)
    (outcome : EStateM.Result Stop State Value) : Prop :=
  ∃ stack, Holds stack (scratch s) (.function f :: args) ∧ Still (scratch s) s { s with stack } ∧
    outcome = (call (scratch s) args.length (some 1) >>= fun _ =>
      collect (scratch s) s.frame.top) { s with stack } ∧
    ∀ (host : Host) n u, host.Propagates → Makes host call →
      call (scratch s) args.length (some 1) { s with stack } = .ok n u →
        ∃ closure inner results ended, s.function? f = some closure ∧ Makes host inner ∧
          Produces host inner f (scratch s) args { s with stack } results closure.body ∧
          outcome = .ok (results.headD .nil) ended

variable {call : Call} {s : State} {k t u : Value} {j : Nat}

theorem callHandler_calls (call : Call) (f : FunctionId) (args : List Value) (s : State) :
    Calls call f args s (callHandler call (.function f) args s) := by
  obtain ⟨stack, held, still, steps⟩ := callHandler_placed call (.function f) args s
  refine ⟨stack, held, still, steps, ?_⟩
  intro host n u propagates makes ran
  obtain ⟨fuel, invoked⟩ := makes.invokes ran
  obtain ⟨g, args', closure, results, reaches, found, produces, -, settled⟩ :=
    Machine.invoke_produces propagates (Machine.callWithin_balanced propagates fuel) held invoked
  obtain ⟨rfl, rfl⟩ := reaches.function
  have first : u.stack[scratch s]? = some (results.headD .nil) := by
    cases results <;> exact settled 0 _ rfl
  obtain ⟨bound, value⟩ := Array.getElem?_eq_some_iff.1 first
  have ended := steps.trans ((bind_ok ran _).trans (collect_run bound _))
  rw [value] at ended
  exact ⟨closure, _, results, _, found, .nested fuel, produces, ended⟩

theorem indexWithin_step (call : Call) (k : Value) (links : Nat) (u : Value) (s : State) :
    indexWithin call k (links + 1) u s =
      if s.rawGet u k = .nil then
        match s.handler u "__index" with
        | .nil => if u.type = .table then .ok .nil s else .error (.raised (.notTable u.type)) s
        | .function f => callHandler call (.function f) [u, k] s
        | h => indexWithin call k links h s
      else .ok (s.rawGet u k) s := by
  by_cases table : ∃ id, u = .table id
  · obtain ⟨id, rfl⟩ := table
    change _ = if (s.table id).get k = .nil then _ else _
    rw [indexWithin, get_bind]
    by_cases absent : (s.table id).get k = .nil
    · rw [if_pos absent, absent]
      cases s.handler (.table id) "__index" <;> rfl
    · have present : ((s.table id).get k).isNil = false := by simp [Value.isNil_eq, absent]
      rw [if_neg absent, present]
      rfl
  · have other : ∀ id, u ≠ .table id := fun id same => table ⟨id, same⟩
    rw [State.rawGet_other k other, if_pos rfl, indexWithin, get_bind]
    · rw [if_neg (Value.type_other other)]
      cases s.handler u "__index" <;> rfl
    · exact other

theorem indexWithin_passes (passes : s.Passes "__index" k u) (links : Nat) :
    indexWithin call k (links + 1) u s = indexWithin call k links (s.handler u "__index") s := by
  rw [indexWithin_step, if_pos passes.absent]
  exact passes.handler_match _ _ (indexWithin call k links · s)

def Gives (call : Call) (k : Value) (s : State) :
    State.Answer → EStateM.Result Stop State Value → Prop
  | .held id, outcome => outcome = .ok ((s.table id).get k) s
  | .last (.table _), outcome => outcome = .ok .nil s
  | .last u, outcome => outcome = .error (.raised (.notTable u.type)) s
  | .asks f u, outcome => Calls call f [u, k] s outcome
  | .tooLong, outcome => outcome = .error (.raised (.runtime (.chainTooLong "__index"))) s

theorem indexWithin_settles (call : Call) {answer : State.Answer}
    (settles : s.Settles "__index" k u answer) (links : Nat) :
    Gives call k s answer (indexWithin call k (links + 1) u s) := by
  rw [indexWithin_step]
  cases settles with
  | held present => exact if_neg present
  | last absent unhandled =>
    rw [if_pos absent, unhandled]
    cases u <;> rfl
  | asks absent handled =>
    rw [if_pos absent, handled]
    exact callHandler_calls call _ _ s

theorem index_gives (call : Call) {answer : State.Answer}
    (answers : s.Answers "__index" k t answer) : Gives call k s answer (index call t k s) :=
  answers.walk (indexWithin call k · · s) (Gives call k s)
    (fun links _ passes => indexWithin_passes passes links)
    (fun links _ _ _ _ settles => indexWithin_settles call settles links) (fun _ => rfl)

end Operation

/-- Reading an entry follows the chain of `__index` handlers to its answer, and there is exactly
one. Only a function that is asked can change the state. -/
theorem index_follows_chain (call : Call) (s : State) (t k : Value) :
    (∃! answer, s.Answers "__index" k t answer) ∧
    (∀ answer, s.Answers "__index" k t answer →
      Operation.Gives call k s answer (Operation.index call t k s)) ∧
    ((∀ f u, ¬ s.Answers "__index" k t (.asks f u)) →
      (Operation.index call t k).after s = s ∧
      (Operation.index call t k s = .error (.raised (.runtime (.chainTooLong "__index"))) s ↔
        s.Answers "__index" k t .tooLong)) := by
  have gives {answer : State.Answer} (answers : s.Answers "__index" k t answer) :=
    Operation.index_gives call answers
  have unique := s.answers_existsUnique "__index" k t
  refine ⟨unique, fun _ => gives, fun unasked => ?_⟩
  obtain ⟨answer, answers, -⟩ := unique
  have given := gives answers
  suffices unchanged : (Operation.index call t k).after s = s ∧
      (Operation.index call t k s = .error (.raised (.runtime (.chainTooLong "__index"))) s →
        s.Answers "__index" k t .tooLong) from ⟨unchanged.1, unchanged.2, fun long => gives long⟩
  rw [Vm.after]
  cases answer with
  | asks f u => exact absurd answers (unasked f u)
  | tooLong => exact ⟨by rw [given], fun _ => answers⟩
  | held id => simp [show _ = _ from given]
  | last u => cases u <;> simp [show _ = _ from given]

def State.linked (limit : Nat) : State :=
  { State.bare { maxMetaChain := limit } with
    tables := #[Table.empty.putText "_MT4" (.table ⟨4⟩), .empty,
      { Table.empty with metatable := some ⟨3⟩ },
      (Table.empty.putText "__index" (.str [])).putText "__newindex" (.str []),
      (Table.empty.putText "__index" (.table ⟨5⟩)).putText "__newindex" (.table ⟨5⟩),
      Table.empty.putText "key" (.int 7)] }

theorem State.linked_chain (limit : Nat) {event : String}
    (known : event = "__index" ∨ event = "__newindex") :
    (linked limit).Chain event (.ofText "key") (.table ⟨2⟩) 2 (.table ⟨5⟩) := by
  have first : (linked limit).handler (.table ⟨2⟩) event = .str [] := by
    rcases known with rfl | rfl <;> rfl
  have second : (linked limit).handler (.str []) event = .table ⟨5⟩ := by
    rcases known with rfl | rfl <;> rfl
  have passes : (linked limit).Passes event (.ofText "key") (.table ⟨2⟩) :=
    ⟨rfl, by simp [first], by simp [first]⟩
  have passes' : (linked limit).Passes event (.ofText "key") (.str []) :=
    ⟨rfl, by simp [second], by simp [second]⟩
  exact second ▸ .next (first ▸ .next .start passes) passes'

theorem State.linked_answers {event : String} (known : event = "__index" ∨ event = "__newindex") :
    (linked 3).Answers event (.ofText "key") (.table ⟨2⟩) (.held ⟨5⟩) := by
  have held : (linked 3).rawGet (.table ⟨5⟩) (.ofText "key") = .int 7 := rfl
  exact .settled (by decide) (linked_chain 3 known) (.held (by simp [held]))

theorem index_follows_chain_linked :
    Operation.index (Machine.call Command.noHost) (.table ⟨2⟩) (.ofText "key") (State.linked 3) =
      .ok (.int 7) (State.linked 3) ∧
    Operation.index (Machine.call Command.noHost) (.table ⟨2⟩) (.ofText "key") (State.linked 2) =
      .error (.raised (.runtime (.chainTooLong "__index"))) (State.linked 2) := by
  have given (limit : Nat) := (index_follows_chain (Machine.call Command.noHost)
    (State.linked limit) (.table ⟨2⟩) (.ofText "key")).2.1
  have tooLong : (State.linked 2).Answers "__index" (.ofText "key") (.table ⟨2⟩) .tooLong :=
    .tooLong fun _ _ within earlier => (State.linked_chain 2 (.inl rfl)).passed earlier within
  exact ⟨given 3 _ (State.linked_answers (.inl rfl)), given 2 _ tooLong⟩

end LuaMachine
