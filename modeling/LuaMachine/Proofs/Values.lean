import LuaMachine.Machine.Call
import LuaMachine.Proofs.Effect

set_option autoImplicit false

namespace LuaMachine

def Holds (stack : Array Value) (slot : Nat) (values : List Value) : Prop :=
  ∀ i v, values[i]? = some v → stack[slot + i]? = some v

namespace Holds

variable {stack stack' : Array Value} {slot : Nat} {v : Value} {values rest : List Value}

theorem nil (stack : Array Value) (slot : Nat) : Holds stack slot [] := by
  intro i v found
  simp at found

theorem cons (here : stack[slot]? = some v) (above : Holds stack (slot + 1) rest) :
    Holds stack slot (v :: rest) := by
  intro i w found
  cases i with
  | zero =>
    cases Option.some.inj found
    exact here
  | succ i =>
    have held := above i w found
    rwa [Nat.add_right_comm] at held

theorem head (h : Holds stack slot (v :: rest)) : stack[slot]? = some v := h 0 v rfl

theorem tail (h : Holds stack slot (v :: rest)) : Holds stack (slot + 1) rest := by
  intro i w found
  have held := h (i + 1) w found
  rwa [← Nat.add_assoc, Nat.add_right_comm] at held

theorem bound (h : Holds stack slot (v :: rest)) : slot < stack.size :=
  (Array.getElem?_eq_some_iff.1 h.head).1

theorem congr (h : Holds stack slot values)
    (same : ∀ j w, slot ≤ j → j < slot + values.length → stack[j]? = some w → stack'[j]? = some w) :
    Holds stack' slot values := by
  intro i w found
  obtain ⟨inside, -⟩ := List.getElem?_eq_some_iff.1 found
  exact same _ w (by omega) (by omega) (h i w found)

theorem append {others : List Value} (h : Holds stack slot values)
    (above : Holds stack (slot + values.length) others) : Holds stack slot (values ++ others) := by
  intro i w found
  rcases Nat.lt_or_ge i values.length with inside | beyond
  · rw [List.getElem?_append_left inside] at found
    exact h i w found
  · rw [List.getElem?_append_right beyond] at found
    have held := above _ w found
    rwa [Nat.add_assoc, Nat.add_sub_cancel' beyond] at held

theorem left {others : List Value} (h : Holds stack slot (values ++ others)) :
    Holds stack slot values := by
  intro i w found
  obtain ⟨inside, -⟩ := List.getElem?_eq_some_iff.1 found
  exact h i w (by rwa [List.getElem?_append_left inside])

theorem take (h : Holds stack slot values) (n : Nat) : Holds stack slot (values.take n) := by
  intro i w found
  rw [List.getElem?_take] at found
  split at found
  · exact h i w found
  · cases found

theorem drop (h : Holds stack slot values) (n : Nat) : Holds stack (slot + n) (values.drop n) := by
  intro i w found
  rw [List.getElem?_drop] at found
  rw [Nat.add_assoc]
  exact h (n + i) w found

end Holds

theorem Holds.exists {stack : Array Value} (slot n : Nat) (room : slot + n ≤ stack.size) :
    ∃ values, values.length = n ∧ Holds stack slot values := by
  induction n generalizing slot with
  | zero => exact ⟨[], rfl, .nil stack slot⟩
  | succ n ih =>
    obtain ⟨rest, length, above⟩ := ih (slot + 1) (by omega)
    have here : stack[slot]? = some stack[slot] := Array.getElem?_eq_getElem (by omega)
    exact ⟨stack[slot] :: rest, by simp [length], .cons here above⟩

namespace Vm

theorem read_ok {slot : Nat} {s : State} (bound : slot < s.stack.size) :
    read slot s = .ok s.stack[slot] s := by
  simp [read, bound]

theorem write_ok {slot : Nat} {s : State} (bound : slot < s.stack.size) (v : Value) :
    write slot v s = .ok () { s with stack := s.stack.set slot v bound } :=
  dif_pos bound

theorem take_ok {slot : Nat} {s : State} (bound : slot < s.stack.size) :
    take slot s = .ok s.stack[slot] { s with stack := s.stack.set slot .nil bound } :=
  (bind_ok (read_ok bound) _).trans (bind_ok (write_ok bound .nil) _)

theorem reserve_run (size : Nat) (s : State) :
    ∃ stack, reserve size s = .ok () { s with stack } ∧ size ≤ stack.size ∧
      ∀ (j : Nat) w, s.stack[j]? = some w → stack[j]? = some w := by
  refine ⟨(s.toStore.reserve size).stack, ?_, ?_, ?_⟩
  · change EStateM.Result.ok () { s with toStore := s.toStore.reserve size } = _
    unfold Store.reserve
    split <;> rfl
  · unfold Store.reserve
    split
    · simp
      omega
    · omega
  · intro j w held
    unfold Store.reserve
    split
    · obtain ⟨bound, -⟩ := Array.getElem?_eq_some_iff.1 held
      simpa [Array.getElem?_append, bound] using held
    · exact held

theorem reserveWithHeadroom_run (size : Nat) (s : State) :
    ∃ stack, reserveWithHeadroom size s = .ok () { s with stack } ∧ size ≤ stack.size ∧
      ∀ (j : Nat) w, s.stack[j]? = some w → stack[j]? = some w := by
  obtain ⟨stack, ran, room, kept⟩ := reserve_run (size + s.config.headroom) s
  exact ⟨stack, ran, by omega, kept⟩

theorem writeMany_run (slot : Nat) (values : List Value) {s : State}
    (bound : slot + values.length ≤ s.stack.size) :
    ∃ stack, writeMany slot values s = .ok () { s with stack } ∧ Holds stack slot values ∧
      ∀ j < slot, stack[j]? = s.stack[j]? := by
  induction values generalizing slot s with
  | nil => exact ⟨s.stack, rfl, .nil _ _, fun _ _ => rfl⟩
  | cons v rest ih =>
    rw [List.length_cons] at bound
    have here : slot < s.stack.size := by omega
    obtain ⟨stack, ran, held, below⟩ :=
      ih (slot + 1) (s := { s with stack := s.stack.set slot v here }) (by simp; omega)
    refine ⟨stack, (bind_ok (write_ok here v) _).trans ran, .cons ?_ held, ?_⟩
    · simp [below slot (Nat.lt_succ_self _)]
    · intro j under
      rw [below j (by omega)]
      exact Array.getElem?_set_ne here (by omega)

theorem clear_run (slot n : Nat) {s : State} (bound : slot + n ≤ s.stack.size) :
    ∃ stack, clear slot n s = .ok () { s with stack } ∧ stack.size = s.stack.size ∧
      Holds stack slot (List.replicate n .nil) ∧ ∀ j < slot, stack[j]? = s.stack[j]? := by
  induction n generalizing slot s with
  | zero => exact ⟨s.stack, rfl, rfl, .nil _ _, fun _ _ => rfl⟩
  | succ n ih =>
    have here : slot < s.stack.size := by omega
    obtain ⟨stack, ran, size, nils, below⟩ :=
      ih (slot + 1) (s := { s with stack := s.stack.set slot .nil here }) (by simp; omega)
    refine ⟨stack, (bind_ok (write_ok here .nil) _).trans ran, by simpa using size, ?_, ?_⟩
    · refine .cons ?_ nils
      rw [below slot (Nat.lt_succ_self _)]
      simp
    · intro j under
      rw [below j (by omega)]
      exact Array.getElem?_set_ne here (by omega)

theorem moveDown_run (source dest : Nat) {values : List Value} {s : State} (le : dest ≤ source)
    (held : Holds s.stack source values) :
    ∃ stack, moveDown source dest values.length s = .ok () { s with stack } ∧
      stack.size = s.stack.size ∧ Holds stack dest values ∧
      ∀ j < dest, stack[j]? = s.stack[j]? := by
  -- What is still to be moved is above both the slot that is emptied and the one that is filled.
  induction values generalizing source dest s with
  | nil => exact ⟨s.stack, rfl, rfl, .nil _ _, fun _ _ => rfl⟩
  | cons v rest ih =>
    have bound := held.bound
    let taken := s.stack.set source .nil bound
    have free : dest < taken.size := by simp [taken]; omega
    let placed := taken.set dest v free
    have above : ∀ j, source < j → placed[j]? = s.stack[j]? := by
      intro j beyond
      simp only [placed, taken]
      rw [Array.getElem?_set_ne free (by omega), Array.getElem?_set_ne bound (by omega)]
    obtain ⟨stack, ran, size, moved, below⟩ :=
      ih (source + 1) (dest + 1) (s := { s with stack := placed }) (by omega)
        (held.tail.congr fun j w beyond _ here => (above j beyond).trans here)
    have value : s.stack[source] = v := by
      have here := held.head
      rwa [Array.getElem?_eq_getElem bound, Option.some.injEq] at here
    have steps : moveDown source dest (rest.length + 1) s =
        moveDown (source + 1) (dest + 1) rest.length { s with stack := placed } := by
      refine (bind_ok (take_ok bound) _).trans ?_
      rw [value]
      exact bind_ok (write_ok (s := { s with stack := taken }) free v) _
    refine ⟨stack, steps.trans ran, ?_, .cons ?_ moved, ?_⟩
    · simpa [placed, taken] using size
    · rw [below dest (Nat.lt_succ_self _)]
      simp [placed]
    · intro j under
      rw [below j (by omega)]
      simp only [placed, taken]
      rw [Array.getElem?_set_ne free (by omega), Array.getElem?_set_ne bound (by omega)]

theorem shiftUp_run {slot n : Nat} {s : State} (bound : slot + n < s.stack.size) :
    ∃ stack, shiftUp slot n s = .ok () { s with stack } ∧ stack.size = s.stack.size ∧
      (∀ i < n, stack[slot + 1 + i]? = s.stack[slot + i]?) ∧
      ∀ j, j ≤ slot ∨ slot + n < j → stack[j]? = s.stack[j]? := by
  -- The last value moves first, so that the others are still in place.
  induction n generalizing s with
  | zero => exact ⟨s.stack, rfl, rfl, fun _ h => absurd h (Nat.not_lt_zero _), fun _ _ => rfl⟩
  | succ n ih =>
    have last : slot + n < s.stack.size := by omega
    have next : slot + n + 1 < s.stack.size := by omega
    let copied := s.stack.set (slot + n + 1) s.stack[slot + n] next
    have apart : ∀ j, j ≠ slot + n + 1 → copied[j]? = s.stack[j]? := fun j different =>
      Array.getElem?_set_ne next (Ne.symm different)
    obtain ⟨stack, ran, size, shifted, others⟩ :=
      ih (s := { s with stack := copied }) (by simp [copied]; omega)
    refine ⟨stack, ?_, by simpa [copied] using size, ?_, ?_⟩
    · exact (bind_ok (read_ok last) _).trans ((bind_ok (write_ok next _) _).trans ran)
    · intro i inside
      by_cases top : i = n
      · subst top
        rw [others _ (by omega), Nat.add_right_comm]
        simp [copied]
      · rw [shifted i (by omega)]
        exact apart _ (by omega)
    · intro j outside
      rw [others j (by omega)]
      exact apart j (by omega)

section

variable {s t : State} {slot n : Nat} {values : List Value}

theorem readMany_run (held : Holds s.stack slot values) :
    readMany slot values.length s = .ok values s := by
  induction values generalizing slot with
  | nil => rfl
  | cons v rest ih =>
    have here : read slot s = .ok v s := by rw [read, held.head]
    exact (bind_ok here _).trans (bind_ok (ih held.tail) _)

theorem takeMany_run (held : Holds s.stack slot values) :
    ∃ stack, takeMany slot values.length s = .ok values { s with stack } ∧
      stack.size = s.stack.size ∧ ∀ j < slot, stack[j]? = s.stack[j]? := by
  induction values generalizing slot s with
  | nil => exact ⟨s.stack, rfl, rfl, fun _ _ => rfl⟩
  | cons v rest ih =>
    have bound := held.bound
    have value : s.stack[slot] = v := (Array.getElem?_eq_some_iff.1 held.head).2
    have above : Holds (s.stack.set slot .nil bound) (slot + 1) rest :=
      held.tail.congr fun j w beyond _ here => by rwa [Array.getElem?_set_ne bound (by omega)]
    obtain ⟨stack, ran, size, below⟩ :=
      ih (s := { s with stack := s.stack.set slot .nil bound }) above
    refine ⟨stack, ?_, by simpa using size, fun j under => ?_⟩
    · refine (bind_ok (take_ok bound) _).trans ?_
      rw [value]
      exact bind_ok ran _
    · rw [below j (by omega)]
      exact Array.getElem?_set_ne bound (by omega)

theorem take_inside {v : Value} (ran : take slot s = .ok v t) :
    ∃ bound : slot < s.stack.size, t = { s with stack := s.stack.set slot .nil bound } := by
  by_cases bound : slot < s.stack.size
  · rw [take_ok bound] at ran
    cases ran
    exact ⟨bound, rfl⟩
  · obtain ⟨w, u, here, -⟩ := ok_of_bind ran
    simp [read, bound] at here

theorem write_inside {v : Value} (ran : write slot v s = .ok () t) :
    ∃ bound : slot < s.stack.size, t = { s with stack := s.stack.set slot v bound } := by
  by_cases bound : slot < s.stack.size
  · rw [write_ok bound] at ran
    cases ran
    exact ⟨bound, rfl⟩
  · simp [write, bound] at ran

theorem clear_inside (ran : clear slot n s = .ok () t) : n = 0 ∨ slot + n ≤ s.stack.size := by
  induction n generalizing slot s with
  | zero => exact .inl rfl
  | succ n ih =>
    obtain ⟨_, u, wrote, rest⟩ := ok_of_bind ran
    obtain ⟨bound, rfl⟩ := write_inside wrote
    have more := ih rest
    simp only [Array.size_set] at more
    omega

theorem moveDown_inside {source dest : Nat} (ran : moveDown source dest n s = .ok () t) :
    n = 0 ∨ source + n ≤ s.stack.size := by
  induction n generalizing source dest s with
  | zero => exact .inl rfl
  | succ n ih =>
    obtain ⟨v, u, took, rest⟩ := ok_of_bind ran
    obtain ⟨bound, rfl⟩ := take_inside took
    obtain ⟨_, w, wrote, others⟩ := ok_of_bind rest
    obtain ⟨_, rfl⟩ := write_inside wrote
    have more := ih others
    simp only [Array.size_set] at more
    omega

-- What has been moved was there.
theorem moveDown_moves {source dest : Nat} (le : dest ≤ source)
    (ran : moveDown source dest n s = .ok () t) :
    ∃ stack values, t = { s with stack } ∧ values.length = n ∧ Holds s.stack source values ∧
      Holds stack dest values := by
  obtain ⟨values, length, held⟩ : ∃ values : List Value, values.length = n ∧
      Holds s.stack source values := by
    rcases moveDown_inside ran with rfl | room
    · exact ⟨[], rfl, .nil _ _⟩
    · exact Holds.exists source n room
  obtain ⟨stack, moved, -, down, -⟩ := moveDown_run source dest le held
  rw [length, ran] at moved
  cases moved
  exact ⟨stack, values, rfl, length, held, down⟩

end

end Vm

namespace Window

open Vm

theorem push_run (v : Value) (s : State) :
    ∃ stack, push v s =
        .ok () { s with stack, frame := { s.frame with top := s.frame.top + 1 } } ∧
      stack[s.frame.top]? = some v ∧
      ∀ (j : Nat) w, j < s.frame.top → s.stack[j]? = some w → stack[j]? = some w := by
  obtain ⟨stack, reserved, room, kept⟩ := reserveWithHeadroom_run (s.frame.top + 1) s
  have bound : s.frame.top < stack.size := room
  refine ⟨stack.set s.frame.top v bound, ?_, by simp, fun j w below held => ?_⟩
  · have steps : push v s = (do
        reserveWithHeadroom (s.frame.top + 1)
        write s.frame.top v
        setTop (s.frame.top + 1)) s := rfl
    rw [steps, bind_ok reserved]
    exact bind_ok (write_ok (s := { s with stack }) bound v) _
  · rw [Array.getElem?_set_ne bound (by omega)]
    exact kept j w held

theorem slotOf?_inside {f : Frame} {i : Int} {slot : Nat} (found : slotOf? f i = some slot) :
    f.base ≤ slot ∧ slot < f.top := by
  unfold slotOf? at found
  generalize (if 0 < i then (f.base + i - 1 : Int) else f.top + i) = place at found
  dsimp only at found
  split at found
  next inside =>
    cases found
    omega
  next => cases found

theorem slotOf?_first {f : Frame} (inside : f.base < f.top) : slotOf? f 1 = some f.base := by
  simp only [slotOf?]
  rw [if_pos (by omega)]
  simp

theorem insert_run {s : State} {values : List Value} {v : Value} {i : Int} {k : Nat}
    (window : s.frame.top = s.frame.base + values.length + 1)
    (held : Holds s.stack s.frame.base (values ++ [v]))
    (found : slotOf? s.frame i = some (s.frame.base + k)) :
    ∃ stack, insert i s = .ok () { s with stack } ∧ stack.size = s.stack.size ∧
      Holds stack s.frame.base (values.insertIdx k v) := by
  have last : s.stack[s.frame.base + values.length]? = some v := held _ v (by simp)
  obtain ⟨bound, value⟩ := Array.getElem?_eq_some_iff.1 last
  have inside := (slotOf?_inside found).2
  have room : s.frame.base + k + (values.length - k) < s.stack.size := by omega
  obtain ⟨stack, shifted, size, up, others⟩ := shiftUp_run room
  have place : s.frame.base + k < stack.size := by omega
  refine ⟨stack.set (s.frame.base + k) v place, ?_, by simpa using size, ?_⟩
  · have slot_eq : s.frame.top - 1 = s.frame.base + values.length := by omega
    have count_eq : s.frame.top - 1 - (s.frame.base + k) = values.length - k := by omega
    have took : read (s.frame.top - 1) s = .ok v s := by
      rw [slot_eq, read_ok bound, value]
    rw [insert, frame_bind, found]
    refine (bind_ok took _).trans ?_
    rw [count_eq]
    refine (bind_ok shifted _).trans ?_
    exact write_ok (s := { s with stack }) place v
  · intro j w listed
    rw [List.getElem?_insertIdx] at listed
    split at listed
    next before =>
      rw [Array.getElem?_set_ne place (by omega), others _ (by omega)]
      exact held.left j w listed
    next =>
      split at listed
      next here =>
        subst here
        rw [if_pos (by omega)] at listed
        rw [← listed]
        exact Array.getElem?_set_self place
      next =>
        obtain ⟨inside, -⟩ := List.getElem?_eq_some_iff.1 listed
        have moved := up (j - 1 - k) (by omega)
        rw [show s.frame.base + k + 1 + (j - 1 - k) = s.frame.base + j by omega,
          show s.frame.base + k + (j - 1 - k) = s.frame.base + (j - 1) by omega] at moved
        rw [Array.getElem?_set_ne place (by omega), moved]
        exact held.left (j - 1) w listed

theorem insert_first {s : State} {values : List Value} {v : Value}
    (window : s.frame.top = s.frame.base + values.length + 1)
    (held : Holds s.stack s.frame.base (values ++ [v])) :
    ∃ stack, insert 1 s = .ok () { s with stack } ∧ Holds stack s.frame.base (v :: values) := by
  obtain ⟨stack, ran, -, moved⟩ := insert_run (k := 0) window held (slotOf?_first (by omega))
  exact ⟨stack, ran, moved⟩

end Window

-- The results that a caller gets who wants a number of them.
def Call.adjusted (wanted : Option Nat) (values : List Value) : List Value :=
  match wanted with
  | none => values
  | some k => values.take k ++ List.replicate (k - values.length) .nil

theorem Call.length_adjusted (wanted : Option Nat) (values : List Value) :
    (adjusted wanted values).length = wanted.getD values.length := by
  cases wanted with
  | none => rfl
  | some k =>
    simp [adjusted]
    omega

theorem Call.adjustResults_run (func n : Nat) (wanted : Option Nat) (s : State) :
    ∃ stack, adjustResults func n wanted s =
        .ok (wanted.getD n)
          { s with stack, frame := { s.frame with top := func + wanted.getD n } } ∧
      func + wanted.getD n ≤ stack.size ∧
      ∀ values, values.length = n → Holds s.stack func values →
        Holds stack func (adjusted wanted values) := by
  let count := wanted.getD n
  obtain ⟨reserved, ran, room, kept⟩ := Vm.reserveWithHeadroom_run (func + count) s
  obtain ⟨stack, cleared, size, nils, below⟩ :=
    Vm.clear_run (func + min n count) (count - n) (s := { s with stack := reserved })
      (by change _ ≤ reserved.size; omega)
  refine ⟨stack, ?_, ?_, ?_⟩
  · refine (Vm.bind_ok ran _).trans ?_
    exact Vm.bind_ok cleared _
  · rw [size]
    exact room
  · intro values length held
    have first : Holds stack func (values.take count) := by
      refine (held.take count).congr fun j w beyond under here => ?_
      rw [List.length_take] at under
      rw [below j (by omega)]
      exact kept j w here
    cases wanted with
    | none => simpa [adjusted, count, ← length] using first
    | some k =>
      refine first.append ?_
      rw [List.length_take, length, Nat.min_comm]
      exact nils

end LuaMachine
