import LuaMachine.Machine.Run
import LuaMachine.Proofs.Effect
import Mathlib.Data.List.Forall2

set_option autoImplicit false

namespace LuaMachine

open Vm

abbrev Texts : List Value → List Bytes → Prop := List.Forall₂ fun v x => v.toBytes? = some x

theorem exists_texts {values : List Value}
    (joinable : ∀ v ∈ values, v.type = .string ∨ v.type = .number) :
    ∃ parts, Texts values parts := by
  induction values with
  | nil => exact ⟨[], .nil⟩
  | cons v rest ih =>
    obtain ⟨parts, others⟩ := ih fun u member => joinable u (.tail v member)
    have text : ∃ x, v.toBytes? = some x := by
      have first := joinable v (.head rest)
      cases v <;> simp_all [Value.toBytes?, Value.type]
    obtain ⟨x, text⟩ := text
    exact ⟨x :: parts, .cons text others⟩

theorem mapM_toBytes? {values : List Value} {parts : List Bytes} :
    values.mapM Value.toBytes? = some parts ↔ Texts values parts := by
  induction values generalizing parts with
  | nil => simp [eq_comm]
  | cons v rest ih =>
    simp only [List.mapM_cons, Option.bind_eq_bind, Option.bind_eq_some_iff, ih, Option.pure_def,
      Option.some.injEq, List.forall₂_cons_left_iff]
    grind

namespace Operation

variable {call : Call} {v acc : Value} {rest : List Value} {parts : List Bytes}

/-- `v .. (w .. (...))`: what follows a value is joined before it. -/
def joinRight (call : Call) : Value → List Value → Vm Value
  | v, [] => return v
  | v, w :: rest => do concatPair call v (← joinRight call w rest)

theorem concatOnto_last (call : Call) (acc v : Value) (others : List Value) :
    concatOnto call acc (others ++ [v]) = concatOnto call acc others >>= concatPair call v := by
  induction others generalizing acc with
  | nil => simp [concatOnto]
  | cons u others ih => simp [concatOnto, ih]

-- The values before the last one are taken in reverse order, nearest first.
theorem concatOnto_reverse (call : Call) (v : Value) (rest : List Value) :
    ∃ last others, (v :: rest).reverse = last :: others ∧
      concatOnto call last others = joinRight call v rest := by
  induction rest generalizing v with
  | nil => exact ⟨v, [], rfl, rfl⟩
  | cons w rest ih =>
    obtain ⟨last, others, reversed, joined⟩ := ih w
    refine ⟨last, others ++ [v], by rw [List.reverse_cons, reversed, List.cons_append], ?_⟩
    rw [concatOnto_last, joined]
    rfl

theorem concatPair_texts {x y : Bytes} (left : v.toBytes? = some x)
    (right : acc.toBytes? = some y) : concatPair call v acc = pure (.str (x ++ y)) := by
  rw [concatPair, left, right]

structure Asked where
  handler : Value
  left : Value
  right : Value
  before : State

def Asked.outcome (call : Call) (asked : Asked) : EStateM.Result Stop State Value :=
  callHandler call asked.handler [asked.left, asked.right] asked.before

/-- What it means to join two values: two texts are put together, a handler of the first or else of
the second is asked, and without one the first value that has no text is refused. -/
inductive Pairs (call : Call) (s : State) (v w : Value) :
    List Asked → EStateM.Result Stop State Value → Prop where
  | texts {x y : Bytes} : v.toBytes? = some x → w.toBytes? = some y →
    Pairs call s v w [] (.ok (.str (x ++ y)) s)
  | asks {h : Value} : (v.toBytes? = none ∨ w.toBytes? = none) →
    s.handler₂ v w "__concat" = h → h ≠ .nil →
    Pairs call s v w [⟨h, v, w, s⟩] (Asked.outcome call ⟨h, v, w, s⟩)
  | refuses : (v.toBytes? = none ∨ w.toBytes? = none) → s.handler₂ v w "__concat" = .nil →
    Pairs call s v w [] (.error (.raised (.concat (if v.toBytes? = none then v else w).type)) s)

/-- The evaluation of `v .. (w .. (...))` pair by pair: the handlers that are asked, in their order,
and what comes of it. -/
inductive Joins (call : Call) (s : State) :
    List Value → List Asked → EStateM.Result Stop State Value → Prop where
  | last (v : Value) : Joins call s [v] [] (.ok v s)
  | stops {v : Value} {rest : List Value} {asked : List Asked} {e : Stop} {t : State} :
    Joins call s rest asked (.error e t) → Joins call s (v :: rest) asked (.error e t)
  | next {v acc : Value} {rest : List Value} {asked more : List Asked} {t : State}
    {outcome : EStateM.Result Stop State Value} :
    Joins call s rest asked (.ok acc t) → Pairs call t v acc more outcome →
    Joins call s (v :: rest) (asked ++ more) outcome

variable {s t : State} {values : List Value} {asked asked' : List Asked}
  {outcome outcome' : EStateM.Result Stop State Value}

theorem concatPair_without {w : Value} (without : v.toBytes? = none ∨ w.toBytes? = none)
    (s : State) : concatPair call v w s =
      if s.handler₂ v w "__concat" = .nil then
        .error (.raised (.concat (if v.toBytes? = none then v else w).type)) s
      else Asked.outcome call ⟨s.handler₂ v w "__concat", v, w, s⟩ := by
  have asks : concatPair call v w = (do
      let h ← handler₂ v w "__concat"
      if h.isNil then raise (.concat (if v.toBytes? = none then v else w).type)
      else callHandler call h [v, w]) := by
    cases left : v.toBytes? with
    | none => simp [concatPair, left]
    | some x => simp [concatPair, left, without.resolve_left (by simp [left])]
  have found : handler₂ v w "__concat" s = .ok (s.handler₂ v w "__concat") s := rfl
  rw [asks, bind_ok found, Asked.outcome]
  cases s.handler₂ v w "__concat" <;> rfl

theorem concatPair_pairs (call : Call) (v w : Value) (s : State) :
    ∃ asked, Pairs call s v w asked (concatPair call v w s) := by
  have texts : (v.toBytes? = none ∨ w.toBytes? = none) ∨
      ∃ x y, v.toBytes? = some x ∧ w.toBytes? = some y := by
    cases v.toBytes? <;> cases w.toBytes? <;> simp
  rcases texts with without | ⟨x, y, left, right⟩
  · rw [concatPair_without without]
    split
    next unhandled => exact ⟨_, .refuses without unhandled⟩
    next handled => exact ⟨_, .asks without rfl handled⟩
  · rw [concatPair_texts left right]
    exact ⟨_, .texts left right⟩

theorem joinRight_joins (call : Call) (v : Value) (rest : List Value) (s : State) :
    ∃ asked, Joins call s (v :: rest) asked (joinRight call v rest s) := by
  induction rest generalizing v with
  | nil => exact ⟨[], .last v⟩
  | cons w rest ih =>
    obtain ⟨asked, joins⟩ := ih w
    cases ran : joinRight call w rest s with
    | ok acc t =>
      obtain ⟨more, pairs⟩ := concatPair_pairs call v acc t
      rw [ran] at joins
      rw [joinRight, bind_ok ran]
      exact ⟨asked ++ more, joins.next pairs⟩
    | error e t =>
      rw [ran] at joins
      rw [joinRight, bind_error ran]
      exact ⟨asked, joins.stops⟩

theorem Pairs.unique {w : Value} (first : Pairs call s v w asked outcome)
    (second : Pairs call s v w asked' outcome') : asked = asked' ∧ outcome = outcome' := by
  cases first <;> cases second <;> simp_all

theorem Joins.unique (first : Joins call s values asked outcome)
    (second : Joins call s values asked' outcome') : asked = asked' ∧ outcome = outcome' := by
  induction first generalizing asked' outcome' with
  | last v =>
    cases second with
    | last => exact ⟨rfl, rfl⟩
    | stops joins => cases joins
    | next joins => cases joins
  | stops joins ih =>
    cases second with
    | last => cases joins
    | stops joins' => exact ih joins'
    | next joins' pairs => cases (ih joins').2
  | next joins pairs ih =>
    cases second with
    | last => cases joins
    | stops joins' => cases (ih joins').2
    | next joins' pairs' =>
      obtain ⟨rfl, same⟩ := ih joins'
      cases same
      obtain ⟨rfl, rfl⟩ := pairs.unique pairs'
      exact ⟨rfl, rfl⟩

-- Nothing depends on other calls than those of the handlers that are asked.
theorem Joins.congr {call' : Call} (joins : Joins call s values asked outcome)
    (same : ∀ a ∈ asked, a.outcome call' = a.outcome call) :
    Joins call' s values asked outcome := by
  induction joins with
  | last v => exact .last v
  | stops _ ih => exact .stops (ih same)
  | next _ pairs ih =>
    refine .next (ih fun a member => same a (List.mem_append_left _ member)) ?_
    cases pairs with
    | texts left right => exact .texts left right
    | asks without handled some =>
      rw [← same _ (List.mem_append_right _ (List.mem_singleton_self _))]
      exact .asks without handled some
    | refuses without unhandled => exact .refuses without unhandled

-- A number alone stays a number; in a pair it becomes a string.
theorem joins_texts (call : Call) (s : State) (texts : Texts (v :: rest) parts) :
    ∃ u, Joins call s (v :: rest) [] (.ok u s) ∧ u.toBytes? = some parts.flatten ∧
      (rest ≠ [] → u = .str parts.flatten) := by
  induction rest generalizing v parts with
  | nil =>
    cases texts with
    | cons text none =>
      cases none
      exact ⟨v, .last v, by simpa using text, by simp⟩
  | cons w rest ih =>
    cases texts with
    | cons text others =>
      obtain ⟨u, joined, right, -⟩ := ih others
      exact ⟨_, joined.next (.texts text right), rfl, fun _ => rfl⟩

theorem concat_eq_joinRight (call : Call) (v w : Value) (rest : List Value) :
    concat call (v :: w :: rest) = joinRight call v (w :: rest) := by
  unfold concat
  split
  next parts texts =>
    funext s
    obtain ⟨u, joins, -, text⟩ := joins_texts call s (mapM_toBytes?.1 texts)
    obtain ⟨_, evaluated⟩ := joinRight_joins call v (w :: rest) s
    rw [← (joins.unique evaluated).2, text (by simp)]
    rfl
  next =>
    obtain ⟨last, others, reversed, joined⟩ := concatOnto_reverse call v (w :: rest)
    rw [reversed]
    exact joined

theorem concat_joins (call : Call) (v w : Value) (rest : List Value) (s : State) :
    ∃ asked, Joins call s (v :: w :: rest) asked (concat call (v :: w :: rest) s) := by
  rw [concat_eq_joinRight]
  exact joinRight_joins call v (w :: rest) s

end Operation

open Operation

/-- Two or more values are joined as they are pair by pair from the right, whatever calls do. There
is one such evaluation, and its outcome is that of all calls under which the handlers that it asks
answer alike. Strings and numbers are put together without asking any. -/
theorem concat_pairwise (v w : Value) (rest : List Value) :
    (∀ call, concat call (v :: w :: rest) = joinRight call v (w :: rest)) ∧
    (∀ call s, ∃ asked, Joins call s (v :: w :: rest) asked (concat call (v :: w :: rest) s) ∧
      (∀ asked' outcome, Joins call s (v :: w :: rest) asked' outcome →
        asked' = asked ∧ outcome = concat call (v :: w :: rest) s) ∧
      ∀ call', (∀ a ∈ asked, a.outcome call' = a.outcome call) →
        concat call' (v :: w :: rest) s = concat call (v :: w :: rest) s) ∧
    ((∀ u ∈ v :: w :: rest, u.type = .string ∨ u.type = .number) →
      ∃ parts, Texts (v :: w :: rest) parts ∧ ∀ call s,
        concat call (v :: w :: rest) s = .ok (.str parts.flatten) s ∧
        Joins call s (v :: w :: rest) [] (.ok (.str parts.flatten) s)) := by
  refine ⟨fun call => concat_eq_joinRight call v w rest, fun call s => ?_, fun joinable => ?_⟩
  · obtain ⟨asked, evaluated⟩ := concat_joins call v w rest s
    refine ⟨asked, evaluated, fun _ _ other => other.unique evaluated, fun call' same => ?_⟩
    obtain ⟨_, evaluated'⟩ := concat_joins call' v w rest s
    exact (evaluated'.unique (evaluated.congr same)).2
  · obtain ⟨parts, texts⟩ := exists_texts joinable
    refine ⟨parts, texts, fun call s => ?_⟩
    obtain ⟨_, evaluated⟩ := concat_joins call v w rest s
    obtain ⟨u, joins, -, text⟩ := joins_texts call s texts
    rw [text (by simp)] at joins
    exact ⟨(evaluated.unique joins).2, joins⟩

def State.joining : State :=
  { State.bare {} with
    tables := #[.empty, .empty, { Table.empty with metatable := some ⟨3⟩ },
      Table.empty.putText "__concat" (.function ⟨0⟩)]
    functions := #[⟨.native (.base .type), #[]⟩] }

-- The last two values are joined before the handler of the first is asked.
theorem concat_pairwise_joining :
    (∀ call, concat call [.ofText "a", .int (-1), .ofText "b"] State.joining =
      .ok (.ofText "a-1b") State.joining) ∧
    ∀ call, concat call [.table ⟨2⟩, .int (-1), .ofText "b"] State.joining =
      callHandler call (.function ⟨0⟩) [.table ⟨2⟩, .ofText "-1b"] State.joining := by
  constructor
  · intro call
    obtain ⟨parts, texts, joined⟩ := (concat_pairwise (.ofText "a") (.int (-1)) [.ofText "b"]).2.2
      (by simp [Value.ofText, Value.type])
    obtain rfl : [Utf8.encode "a", Utf8.encode "-1", Utf8.encode "b"] = parts :=
      Option.some.inj ((show _ = _ by decide +kernel).trans (mapM_toBytes?.2 texts))
    exact (joined call _).1
  · intro call
    obtain ⟨asked, evaluated, -⟩ :=
      (concat_pairwise (.table ⟨2⟩) (.int (-1)) [.ofText "b"]).2.1 call State.joining
    have pair : Pairs call State.joining (.int (-1)) (.ofText "b") [] (.ok (.ofText "-1b") _) :=
      .texts (x := Utf8.encode "-1") (by decide +kernel) rfl
    have handled : State.joining.handler₂ (.table ⟨2⟩) (.ofText "-1b") "__concat" =
      .function ⟨0⟩ := by decide +kernel
    exact (evaluated.unique (.next (.next (.last _) pair) (.asks (.inl rfl) handled nofun))).2

end LuaMachine
