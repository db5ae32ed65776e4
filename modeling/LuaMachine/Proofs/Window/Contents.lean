import LuaMachine.Proofs.Reachable
import LuaMachine.Proofs.Window.Below

set_option autoImplicit false

namespace LuaMachine

open Vm

structure State.Inside (s : State) : Prop where
  base_le : s.frame.base ≤ s.frame.top
  top_le : s.frame.top ≤ s.stack.size

def State.window (s : State) : List Value := (s.stack.extract s.frame.base s.frame.top).toList

-- The state with one more host function, and a closed cell for each value that it has taken.
def State.withNative (s : State) (f : Native) (taken : List Value) : State :=
  { s with
    cells := s.cells ++ (taken.map Cell.closed).toArray
    functions := s.functions.push
      ⟨.native f, ((List.range' s.cells.size taken.length).map CellId.mk).toArray⟩ }

namespace Window

inductive Op where
  | push (v : Value)
  | pop
  | insert (i : Int)
  | resize (n : Nat)
  | pushNative (f : Native) (captured : Nat)
  | value (i : Int)
  | typeName (i : Int)
  | size

inductive Reply where
  | done
  | value (v : Value)
  | text (t : String)
  | count (n : Nat)
  deriving DecidableEq

def Op.perform : Op → Vm Reply
  | .push v => do Window.push v; return .done
  | .pop => return .value (← Window.pop)
  | .insert i => do Window.insert i; return .done
  | .resize n => do Window.resize n; return .done
  | .pushNative f captured => do Window.pushNative f captured; return .done
  | .value i => return .value (← Window.value i)
  | .typeName i => return .text (← Window.typeName i)
  | .size => return .count (← Window.size)

/-- A list of values, and the host functions that were made from it, each with the values that it
has taken. -/
structure Contents where
  values : List Value
  made : List (Native × List Value) := []

def place? (length : Nat) (i : Int) : Option Nat :=
  if 1 ≤ i ∧ i ≤ length then some (i - 1).toNat
  else if -length ≤ i ∧ i ≤ -1 then some (length + i).toNat
  else none

def lastTo (i : Int) (values : List Value) : List Value :=
  match place? values.length i, values.getLast? with
  | some k, some v => values.dropLast.insertIdx k v
  | _, _ => values

namespace Contents

def at? (c : Contents) (i : Int) : Option Value :=
  (place? c.values.length i).bind fun k => c.values[k]?

def step (first : Nat) (c : Contents) : Op → Reply × Contents
  | .push v => (.done, { c with values := c.values ++ [v] })
  | .pop => (.value (c.values.getLast?.getD .nil), { c with values := c.values.dropLast })
  | .insert i => (.done, { c with values := lastTo i c.values })
  | .resize n =>
    (.done, { c with values := c.values.take n ++ .replicate (n - c.values.length) .nil })
  | .pushNative f captured =>
    let kept := c.values.length - captured
    (.done,
      { values := c.values.take kept ++ [.function ⟨first + c.made.length⟩]
        made := c.made ++ [(f, c.values.drop kept)] })
  | .value i => (.value ((c.at? i).getD .nil), c)
  | .typeName i => (.text (((c.at? i).map (·.type.name)).getD "no value"), c)
  | .size => (.count c.values.length, c)

def run (first : Nat) (c : Contents) : List Op → List Reply × Contents
  | [] => ([], c)
  | op :: rest =>
    let (reply, next) := c.step first op
    let (replies, last) := next.run first rest
    (reply :: replies, last)

end Contents

structure Owns (start s : State) (made : Native × List Value) (c : Closure) : Prop where
  body : c.body = .native made.1
  cells : List.Forall₂ (fun id v => start.cells.size ≤ id.index ∧
    s.cells[id.index]? = some (.closed v)) c.cells.toList made.2

/-- The state has the contents in its window, and besides what was there from the start only the
host functions that were made. -/
structure Shows (start s : State) (c : Contents) : Prop where
  window : s.window = c.values
  frame : s.frame = { start.frame with top := start.frame.base + c.values.length }
  room : s.frame.top ≤ s.stack.size
  made : ∃ closures, s.functions.toList = start.functions.toList ++ closures ∧
    List.Forall₂ (Owns start s) c.made closures
  cells : ∃ more, s.cells = start.cells ++ more
  rest : s = { start with toStore := s.toStore, functions := s.functions, frame := s.frame }

section

variable {s : State} {values : List Value}

theorem holds_window (s : State) : Holds s.stack s.frame.base s.window := by
  intro i v found
  rw [State.window, Array.getElem?_toList, Array.getElem?_extract] at found
  split at found
  next => exact found
  next => cases found

theorem window_eq (held : Holds s.stack s.frame.base values)
    (top : s.frame.top = s.frame.base + values.length) (room : s.frame.top ≤ s.stack.size) :
    s.window = values := by
  refine List.ext_getElem? fun i => ?_
  rw [State.window, Array.getElem?_toList, Array.getElem?_extract]
  cases found : values[i]? with
  | none =>
    have beyond := List.getElem?_eq_none_iff.1 found
    rw [if_neg (by omega)]
  | some v =>
    obtain ⟨inside, -⟩ := List.getElem?_eq_some_iff.1 found
    rw [if_pos (by omega)]
    exact held i v found

theorem length_window (room : s.frame.top ≤ s.stack.size) : s.window.length = s.frame.size := by
  rw [State.window, Array.length_toList, Array.size_extract, Nat.min_eq_left room]
  rfl

theorem slotOf?_eq {f : Frame} (window : f.base ≤ f.top) (i : Int) :
    slotOf? f i = (place? f.size i).map (f.base + ·) := by
  unfold slotOf? place? Frame.size
  grind

theorem pop_run {v : Value} (top : s.frame.top = s.frame.base + values.length + 1)
    (held : Holds s.stack s.frame.base (values ++ [v])) :
    ∃ stack, pop s = .ok v
        { s with stack, frame := { s.frame with top := s.frame.base + values.length } } ∧
      stack.size = s.stack.size ∧ Holds stack s.frame.base values := by
  have last : s.stack[s.frame.base + values.length]? = some v := held _ v (by simp)
  obtain ⟨bound, value⟩ := Array.getElem?_eq_some_iff.1 last
  refine ⟨s.stack.set (s.frame.base + values.length) .nil bound, ?_, by simp, ?_⟩
  · have slot_eq : s.frame.top - 1 = s.frame.base + values.length := by omega
    let lowered := { s with frame := { s.frame with top := s.frame.base + values.length } }
    rw [pop, frame_bind, if_neg (by omega), slot_eq]
    refine (bind_ok (t := lowered) rfl _).trans ?_
    rw [take_ok (s := lowered) bound]
    exact congrArg (EStateM.Result.ok · _) value
  · refine held.left.congr fun j w _ under here => ?_
    rwa [Array.getElem?_set_ne bound (by omega)]

theorem resize_fills (top : s.frame.top = s.frame.base + values.length)
    (held : Holds s.stack s.frame.base values) (n : Nat) :
    ∃ stack, resize n s =
        .ok () { s with stack, frame := { s.frame with top := s.frame.base + n } } ∧
      s.frame.base + n ≤ stack.size ∧
      Holds stack s.frame.base (values.take n ++ .replicate (n - values.length) .nil) := by
  obtain ⟨reserved, ran, room, kept⟩ := reserve_run (s.frame.base + n) s
  obtain ⟨stack, cleared, size, nils, below⟩ :=
    clear_run (min s.frame.top (s.frame.base + n)) (s.frame.base + n - s.frame.top)
      (s := { s with stack := reserved }) (by change _ ≤ reserved.size; omega)
  refine ⟨stack, ?_, ?_, ?_⟩
  · rw [resize, frame_bind]
    exact (bind_ok ran _).trans (bind_ok cleared _)
  · rw [size]
    exact room
  · refine Holds.append ((held.take n).congr fun j w _ under here => ?_) ?_
    · rw [List.length_take] at under
      rw [below j (by omega)]
      exact kept j w here
    · have start_eq : s.frame.base + min n values.length = min s.frame.top (s.frame.base + n) := by
        omega
      have count_eq : n - values.length = s.frame.base + n - s.frame.top := by omega
      rwa [List.length_take, start_eq, count_eq]

theorem newCells_run (taken : List Value) (s : State) :
    newCells taken s = .ok ((List.range' s.cells.size taken.length).map CellId.mk)
      { s with cells := s.cells ++ (taken.map Cell.closed).toArray } := by
  induction taken generalizing s with
  | nil => simp [newCells]; rfl
  | cons v rest ih =>
    let made := { s with cells := s.cells.push (.closed v) }
    have first : newCell (.closed v) s = .ok ⟨s.cells.size⟩ made := rfl
    refine (bind_ok first _).trans ((bind_ok (ih made) _).trans ?_)
    have cells : made.cells ++ (rest.map Cell.closed).toArray =
        s.cells ++ ((v :: rest).map Cell.closed).toArray := by
      simp [made]
    rw [cells, List.length_cons, List.range'_succ, List.map_cons]
    simp only [made, Array.size_push]
    rfl

theorem newNative_run (f : Native) (taken : List Value) (s : State) :
    newNative f taken s = .ok ⟨s.functions.size⟩ (s.withNative f taken) :=
  bind_ok (newCells_run taken s) _

theorem pushNative_run (top : s.frame.top = s.frame.base + values.length)
    (held : Holds s.stack s.frame.base values) (f : Native) (captured : Nat) :
    let kept := values.length - captured
    ∃ stack, pushNative f captured s = .ok ()
        { s.withNative f (values.drop kept) with
          stack
          frame := { s.frame with top := s.frame.base + kept + 1 } } ∧
      s.frame.base + kept + 1 ≤ stack.size ∧
      Holds stack s.frame.base (values.take kept ++ [.function ⟨s.functions.size⟩]) := by
  intro kept
  have count : min captured s.frame.size = (values.drop kept).length := by
    simp only [kept, List.length_drop, Frame.size]
    omega
  have low : s.frame.top - (values.drop kept).length = s.frame.base + kept := by
    rw [List.length_drop]
    omega
  let lowered := { s with frame := { s.frame with top := s.frame.base + kept } }
  obtain ⟨stack, pushed, last, below⟩ :=
    push_run (.function ⟨s.functions.size⟩) (lowered.withNative f (values.drop kept))
  refine ⟨stack, ?_, (Array.getElem?_eq_some_iff.1 last).1, .append ?_ (.cons ?_ (.nil _ _))⟩
  · rw [pushNative, frame_bind]
    dsimp only
    rw [count, low]
    refine (bind_ok (readMany_run (held.drop kept)) _).trans ?_
    refine (bind_ok (t := lowered) rfl _).trans ?_
    exact (bind_ok (newNative_run f _ lowered) _).trans pushed
  · refine (held.take kept).congr fun j w _ under here => below j w ?_ here
    rw [List.length_take] at under
    change j < s.frame.base + kept
    omega
  · rw [List.length_take, Nat.min_eq_left (Nat.sub_le _ _)]
    exact last

end

theorem Owns.extend {start s : State} {made : Native × List Value} {c : Closure}
    (owns : Owns start s made c) {more : Array Cell} {t : State}
    (cells : t.cells = s.cells ++ more) : Owns start t made c := by
  refine ⟨owns.body, owns.cells.imp fun id v held => ⟨held.1, ?_⟩⟩
  obtain ⟨bound, -⟩ := Array.getElem?_eq_some_iff.1 held.2
  rw [cells, Array.getElem?_append_left bound]
  exact held.2

theorem owns_withNative {start s : State} (later : start.cells.size ≤ s.cells.size) (f : Native)
    (taken : List Value) : Owns start (s.withNative f taken) (f, taken)
      ⟨.native f, ((List.range' s.cells.size taken.length).map CellId.mk).toArray⟩ := by
  refine ⟨rfl, List.forall₂_iff_get.2 ⟨by simp, fun i _ inside => ?_⟩⟩
  simp only [List.get_eq_getElem, List.getElem_map, List.getElem_range', Nat.one_mul]
  refine ⟨Nat.le_add_right_of_le later, ?_⟩
  simp [State.withNative, Array.getElem?_append_right]

namespace Shows

variable {start s : State} {c : Contents}

theorem initial (inside : s.Inside) : Shows s s ⟨s.window, []⟩ where
  window := rfl
  frame := by
    have size : s.frame.base + s.window.length = s.frame.top := by
      rw [length_window inside.top_le, Frame.size, Nat.add_sub_cancel' inside.base_le]
    rw [size]
  room := inside.top_le
  made := ⟨[], by simp, .nil⟩
  cells := ⟨#[], by simp⟩
  rest := rfl

theorem top (shows : Shows start s c) : s.frame.top = s.frame.base + c.values.length := by
  rw [shows.frame]

theorem held (shows : Shows start s c) : Holds s.stack s.frame.base c.values :=
  shows.window ▸ holds_window s

theorem functions (shows : Shows start s c) :
    s.functions.size = start.functions.size + c.made.length := by
  obtain ⟨closures, functions, owned⟩ := shows.made
  rw [← Array.length_toList, functions, List.length_append, owned.length_eq, Array.length_toList]

-- Other values on the stack and nothing else.
theorem restacked (shows : Shows start s c) {stack : Array Value} {values : List Value} {top : Nat}
    (held : Holds stack s.frame.base values) (top_eq : top = s.frame.base + values.length)
    (room : top ≤ stack.size) :
    Shows start { s with stack, frame := { s.frame with top } } { c with values } where
  window := window_eq held top_eq room
  frame := by
    subst top_eq
    rw [shows.frame]
  room := room
  made := by
    obtain ⟨closures, functions, owned⟩ := shows.made
    exact ⟨closures, functions, owned.imp fun _ _ owns => ⟨owns.body, owns.cells⟩⟩
  cells := shows.cells
  rest := congrArg (fun u : State => { u with stack, frame := { s.frame with top } }) shows.rest

theorem withNative (shows : Shows start s c) (f : Native) (taken : List Value) :
    Shows start (s.withNative f taken) { c with made := c.made ++ [(f, taken)] } where
  window := shows.window
  frame := shows.frame
  room := shows.room
  made := by
    obtain ⟨closures, functions, owned⟩ := shows.made
    obtain ⟨more, cells⟩ := shows.cells
    have later : start.cells.size ≤ s.cells.size := by simp [cells]
    refine ⟨closures ++ [_], ?_, List.rel_append (owned.imp fun _ _ owns => owns.extend rfl)
      (.cons (owns_withNative later f taken) .nil)⟩
    rw [State.withNative, Array.toList_push, functions, List.append_assoc]
  cells := by
    obtain ⟨more, cells⟩ := shows.cells
    exact ⟨more ++ (taken.map Cell.closed).toArray, by
      rw [← Array.append_assoc, ← cells, State.withNative]⟩
  rest := congrArg (State.withNative · f taken) shows.rest

-- A place in the list is a slot of the window.
theorem slotOf?_place (shows : Shows start s c) (i : Int) :
    slotOf? s.frame i = (place? c.values.length i).map (s.frame.base + ·) := by
  have top := shows.top
  rw [slotOf?_eq (by omega), Frame.size, top, Nat.add_sub_cancel_left]

theorem at_slot (shows : Shows start s c) {i : Int} {slot : Nat}
    (found : slotOf? s.frame i = some slot) : ∃ v, c.at? i = some v ∧ read slot s = .ok v s := by
  have top := shows.top
  have inside := slotOf?_inside found
  rw [shows.slotOf?_place] at found
  obtain ⟨k, place, rfl⟩ := Option.map_eq_some_iff.1 found
  have listed : c.values[k]? = some c.values[k] := List.getElem?_eq_getElem (by omega)
  refine ⟨c.values[k], ?_, ?_⟩
  · rw [Contents.at?, place, Option.bind_some, listed]
  · rw [Vm.read, shows.held k _ listed]

theorem at_none (shows : Shows start s c) {i : Int} (outside : slotOf? s.frame i = none) :
    c.at? i = none := by
  rw [shows.slotOf?_place, Option.map_eq_none_iff] at outside
  rw [Contents.at?, outside, Option.bind_none]

theorem pop (shows : Shows start s c) :
    ∃ t, Window.pop s = .ok (c.values.getLast?.getD .nil) t ∧
      Shows start t { c with values := c.values.dropLast } := by
  obtain ⟨values, made⟩ := c
  have top : s.frame.top = s.frame.base + values.length := shows.top
  rcases List.eq_nil_or_concat' values with rfl | ⟨others, v, rfl⟩
  · refine ⟨s, ?_, shows⟩
    rw [Window.pop, frame_bind, if_pos (by simpa using top)]
    rfl
  · have room := shows.room
    rw [List.length_append, List.length_singleton, ← Nat.add_assoc] at top
    obtain ⟨stack, ran, size, left⟩ := pop_run top shows.held
    dsimp only
    rw [List.getLast?_concat, List.dropLast_concat]
    exact ⟨_, ran, shows.restacked left rfl (by omega)⟩

theorem insert (shows : Shows start s c) (i : Int) :
    ∃ t, Window.insert i s = .ok () t ∧ Shows start t { c with values := lastTo i c.values } := by
  obtain ⟨values, made⟩ := c
  have slot : slotOf? s.frame i = _ := shows.slotOf?_place i
  have top : s.frame.top = s.frame.base + values.length := shows.top
  unfold lastTo
  cases place : place? values.length i with
  | none =>
    rw [place] at slot
    refine ⟨s, ?_, shows⟩
    rw [Window.insert, frame_bind, slot]
    rfl
  | some k =>
    rw [place, Option.map_some] at slot
    have inside := slotOf?_inside slot
    rcases List.eq_nil_or_concat' values with rfl | ⟨others, v, rfl⟩
    · simp only [List.length_nil] at top
      omega
    · have room : s.frame.top ≤ s.stack.size := shows.room
      rw [List.length_append, List.length_singleton, ← Nat.add_assoc] at top
      obtain ⟨stack, ran, size, moved⟩ := insert_run top shows.held slot
      have length : s.frame.top = s.frame.base + (others.insertIdx k v).length := by
        rw [List.length_insertIdx_of_le_length (by omega)]
        omega
      dsimp only
      rw [List.getLast?_concat, List.dropLast_concat]
      exact ⟨_, ran, shows.restacked moved length (Nat.le_trans room (Nat.le_of_eq size.symm))⟩

theorem value (shows : Shows start s c) (i : Int) :
    Window.value i s = .ok ((c.at? i).getD .nil) s := by
  rw [Window.value, frame_bind]
  cases found : slotOf? s.frame i with
  | none =>
    rw [shows.at_none found]
    rfl
  | some slot =>
    obtain ⟨v, listed, ran⟩ := shows.at_slot found
    rw [listed]
    exact ran

theorem typeName (shows : Shows start s c) (i : Int) :
    Window.typeName i s = .ok (((c.at? i).map (·.type.name)).getD "no value") s := by
  rw [Window.typeName, frame_bind]
  cases found : slotOf? s.frame i with
  | none =>
    rw [shows.at_none found]
    rfl
  | some slot =>
    obtain ⟨v, listed, ran⟩ := shows.at_slot found
    rw [listed]
    exact bind_ok ran _

theorem step (shows : Shows start s c) (op : Op) :
    ∃ t, op.perform s = .ok (c.step start.functions.size op).1 t ∧
      Shows start t (c.step start.functions.size op).2 := by
  have top := shows.top
  have held := shows.held
  cases op with
  | push v =>
    obtain ⟨stack, ran, last, below⟩ := push_run v s
    refine ⟨_, bind_ok ran _, shows.restacked (.append ?_ (.cons ?_ (.nil _ _))) ?_ ?_⟩
    · exact held.congr fun j w _ under here => below j w (by omega) here
    · rwa [← top]
    · rw [List.length_append, List.length_singleton, ← Nat.add_assoc, ← top]
    · exact (Array.getElem?_eq_some_iff.1 last).1
  | pop =>
    obtain ⟨t, ran, shows⟩ := shows.pop
    exact ⟨t, bind_ok ran _, shows⟩
  | insert i =>
    obtain ⟨t, ran, shows⟩ := shows.insert i
    exact ⟨t, bind_ok ran _, shows⟩
  | resize n =>
    obtain ⟨stack, ran, room, filled⟩ := resize_fills top held n
    refine ⟨_, bind_ok ran _, shows.restacked filled ?_ room⟩
    rw [List.length_append, List.length_take, List.length_replicate]
    omega
  | pushNative f captured =>
    obtain ⟨stack, ran, room, replaced⟩ := pushNative_run top held f captured
    rw [shows.functions] at replaced
    refine ⟨_, bind_ok ran _, (shows.withNative f _).restacked replaced ?_ room⟩
    rw [List.length_append, List.length_take, List.length_singleton]
    change s.frame.base + _ + 1 = s.frame.base + _
    omega
  | value i => exact ⟨s, bind_ok (shows.value i) _, shows⟩
  | typeName i => exact ⟨s, bind_ok (shows.typeName i) _, shows⟩
  | size =>
    refine ⟨s, bind_ok ?_ _, shows⟩
    rw [Window.size, frame_bind, Frame.size, top, Nat.add_sub_cancel_left]
    rfl

theorem run (shows : Shows start s c) (ops : List Op) :
    ∃ t, ops.mapM Op.perform s = .ok (c.run start.functions.size ops).1 t ∧
      Shows start t (c.run start.functions.size ops).2 := by
  induction ops generalizing s c with
  | nil => exact ⟨s, rfl, shows⟩
  | cons op rest ih =>
    obtain ⟨t, ran, next⟩ := shows.step op
    obtain ⟨u, others, last⟩ := ih next
    refine ⟨u, ?_, last⟩
    rw [List.mapM_cons, bind_ok ran, bind_ok others]
    rfl

end Shows

theorem Op.ignores (op : Op) (base : Nat) : Ignores base op.perform := by
  cases op with
  | push v => exact (Ignores.push v).bind fun _ => .pure _
  | pop => exact Ignores.pop.bind fun _ => .pure _
  | insert i => exact (Ignores.insert i).bind fun _ => .pure _
  | resize n => exact (Ignores.resize n).bind fun _ => .pure _
  | pushNative f captured => exact (Ignores.pushNative f captured).bind fun _ => .pure _
  | value i => exact (Ignores.value i).bind fun _ => .pure _
  | typeName i => exact (Ignores.typeName i).bind fun _ => .pure _
  | size => exact Ignores.size.bind fun _ => .pure _

theorem run_ignores (ops : List Op) (base : Nat) : Ignores base (ops.mapM Op.perform) := by
  induction ops with
  | nil => exact .pure []
  | cons op rest ih =>
    rw [List.mapM_cons]
    exact (op.ignores base).bind fun reply => ih.bind fun replies => .pure (reply :: replies)

end Window

theorem State.new_inside (config : Config) : (new config).Inside := by
  have host {s : State} (frames : s.frames = (bare config).frames) : s.Inside := by
    have frame : s.frame = .host := (State.frames_injective frames).1
    exact ⟨by simp [frame, Frame.host], by simp [frame, Frame.host]⟩
  unfold new
  split
  next s ran => exact host ((Base.openLibrary_quiet 0).ok ran).frames
  next s ran => exact host ((Base.openLibrary_quiet 0).error ran).frames

theorem Call.entered_inside (f : FunctionId) (func nargs : Nat) (s : State) :
    (entered f func nargs s).Inside := by
  have top : (entered f func nargs s).frame = .enter f func (func + 1 + nargs) := rfl
  refine ⟨?_, ?_⟩ <;> rw [top]
  · exact Nat.le_add_right _ _
  · exact entered_room f func nargs s

namespace Window

/-- Whatever a host does with its window is done to the list of the values in it, with the same
replies; slots below the window are not written, and what they hold makes no difference. There is
such a window in a fresh machine and whenever a function of the host begins. -/
theorem window_refines_list :
    (∀ config, (State.new config).Inside) ∧
    (∀ f func nargs s, (Call.entered f func nargs s).Inside) ∧
    ∀ s : State, s.Inside → ∀ ops : List Op,
      let (replies, contents) := Contents.run s.functions.size ⟨s.window, []⟩ ops
      ∃ t, ops.mapM Op.perform s = .ok replies t ∧ Shows s t contents ∧
        (∀ slot < s.frame.base, t.stack[slot]? = s.stack[slot]?) ∧
        ∀ low : Array Value, low.size = s.frame.base →
          ops.mapM Op.perform (s.under low) = .ok replies (t.under low) := by
  refine ⟨State.new_inside, Call.entered_inside, fun s inside ops => ?_⟩
  have start : s.From s.frame.base :=
    ⟨rfl, inside.base_le, Nat.le_trans inside.base_le inside.top_le⟩
  have ignores := run_ignores ops s.frame.base
  obtain ⟨t, ran, shows⟩ := (Shows.initial inside).run ops
  refine ⟨t, ran, shows, fun slot under => ignores.below start ran under, fun low size => ?_⟩
  rw [ignores.same s low start size, ran, Vm.under]

-- A window of two values, between a slot of the caller and one with a value left over.
def between : State :=
  { State.bare {} with
    stack := #[.bool true, .int 1, .int 2, .int 7]
    frame := { Frame.host with base := 1, top := 3 } }

def errands : List Op :=
  [.resize 1, .resize 3, .push (.bool false), .insert (-4), .insert 9,
    .pushNative (.base .print) 2, .value 2, .value (-3), .value 0, .typeName 4, .size, .pop,
    .resize 1, .pop, .pop]

theorem window_refines_list_between :
    between.Inside ∧
    ∃ t, errands.mapM Op.perform between =
      .ok [.done, .done, .done, .done, .done, .done, .value (.int 1), .value (.bool false),
        .value .nil, .text "no value", .count 3, .value (.function ⟨0⟩), .done,
        .value (.bool false), .value .nil] t ∧
      t.stack[0]? = some (.bool true) := by
  have inside : between.Inside := ⟨by decide, by decide⟩
  obtain ⟨t, ran, -, below, -⟩ := window_refines_list.2.2 between inside errands
  exact ⟨inside, t, ran, below 0 (by decide)⟩

end Window

end LuaMachine
