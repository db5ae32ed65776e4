import LuaMachine.Proofs.Text.Utf8
import LuaMachine.Proofs.Window.Contents

set_option autoImplicit false

namespace LuaMachine

open Vm

def State.argument (s : State) (i : Nat) : Value := s.window[i]?.getD .nil

def State.AsksLevel (s : State) (level : Int64) : Prop :=
  (s.argument 1).toInt64? = some level ∨ s.argument 1 = .nil ∧ level = 1

/-- The call that many levels below the running one is of a script, and executes an instruction
of a line. -/
structure State.Locates (s : State) (level : Int64) (source : String) (line : UInt32) : Prop where
  positive : 0 < level
  line_at : ∃ f p, s.frames[level.toInt.toNat]? = some f ∧ s.prototype? f = some p ∧
    source = p.shortSource ∧ 0 < f.pc ∧ p.lineAt? (f.pc - 1) = some line

namespace State

variable {s : State} {level : Int64} {source : String} {line : UInt32}

theorem locates_iff : s.Locates level source line ↔
    0 < level ∧ s.frames[level.toInt.toNat]? >>= s.position? = some (source, line) := by
  constructor
  · rintro ⟨positive, f, p, found, script, rfl, started, line_at⟩
    refine ⟨positive, ?_⟩
    rw [found]
    simp [State.position?, script, line_at, Nat.ne_of_gt started]
  · rintro ⟨positive, position⟩
    refine ⟨positive, ?_⟩
    obtain ⟨f, found, position⟩ := Option.bind_eq_some_iff.1 position
    obtain ⟨p, script, position⟩ := Option.bind_eq_some_iff.1 position
    split at position
    next => cases position
    next started =>
      obtain ⟨_, line_at, position⟩ := Option.bind_eq_some_iff.1 position
      cases position
      exact ⟨f, p, found, script, rfl, Nat.pos_of_ne_zero started, line_at⟩

theorem Locates.unique {source' : String} {line' : UInt32} (one : s.Locates level source line)
    (other : s.Locates level source' line') : source' = source ∧ line' = line := by
  have same := (locates_iff.1 other).2.symm.trans (locates_iff.1 one).2
  simpa using same

end State

namespace Base

def mark (source : String) (line : UInt32) : Bytes :=
  Utf8.encode (source ++ ":" ++ toString line.toNat ++ ": ")

/-- The message itself or, for a string and a known position, all its bytes after the position. -/
inductive Faithful (s : State) (level : Int64) : Value → Value → Prop where
  | other {message : Value} (other : ∀ text, message ≠ .str text) : Faithful s level message message
  | unlocated {message : Value} (unlocated : ∀ source line, ¬ s.Locates level source line) :
    Faithful s level message message
  | located {text : Bytes} {source : String} {line : UInt32}
    (located : s.Locates level source line) :
    Faithful s level (.str text) (.str (mark source line ++ text))

section

open State

variable {s : State} {level : Int64} {source : String} {line : UInt32}

theorem placeBelow?_eq_some {place : Int} : placeBelow? s level = some place ↔
    place = s.depth - 1 - level.toInt ∧ s.depth - 2 ^ 63 ≤ level.toInt := by
  unfold placeBelow?
  dsimp only
  rw [Option.ite_none_right_eq_some, Option.some.injEq]
  omega

theorem frames_placeBelow {place : Int} (placed : placeBelow? s level = some place)
    (positive : 0 < level) : s.frames[level.toInt.toNat]? =
      if 0 ≤ place then s.frames.reverse[place.toNat]? else none := by
  have above : 0 < level.toInt := Int64.lt_iff_toInt_lt.1 positive
  obtain ⟨exact, -⟩ := placeBelow?_eq_some.1 placed
  have length := s.depth_eq
  split
  next inside =>
    rw [List.getElem?_reverse (by omega)]
    congr 1
    omega
  next outside => exact List.getElem?_eq_none (by omega)

/-- The message is a string, and its level is further below the running call than 64 bits count. -/
def Oversteps (s : State) (message : Value) (level : Int64) : Prop :=
  (∃ text, message = .str text) ∧ level.toInt < s.depth - 2 ^ 63

-- The message, with the position before it if it is a string and the position known.
def Marked (s : State) (level : Int64) (message w : Value) : Prop :=
  (∃ text source line, message = .str text ∧ s.Locates level source line ∧
    w = .str (mark source line ++ Utf8.encode (Utf8.decodeLossy text))) ∨
  (∀ text source line, message = .str text → ¬ s.Locates level source line) ∧ w = message

theorem raisedValue?_cases (s : State) (message : Value) (level : Int64) :
    Oversteps s message level ∧ raisedValue? s message level = none ∨
    ¬ Oversteps s message level ∧ ∃ w, raisedValue? s message level = some w ∧
      Marked s level message w := by
  cases message with
  | str text =>
    cases placed : placeBelow? s level with
    | none =>
      refine .inl ⟨⟨⟨text, rfl⟩, ?_⟩, by rw [raisedValue?, placed]; rfl⟩
      by_contra low
      rw [placeBelow?_eq_some.2 ⟨rfl, Int.not_lt.1 low⟩] at placed
      cases placed
    | some place =>
      refine .inr ⟨fun oversteps => ?_, ?_⟩
      · have within := (placeBelow?_eq_some.1 placed).2
        have beyond := oversteps.2
        omega
      rw [raisedValue?, placed, Option.bind_eq_bind, Option.bind_some]
      split
      next found =>
        have position := frames_placeBelow placed found.1
        rw [if_pos found.2] at position
        rw [← State.frames, ← position]
        split
        next source line known =>
          refine ⟨_, rfl, .inl ⟨text, source, line, rfl, locates_iff.2 ⟨found.1, known⟩, ?_⟩⟩
          simp only [Value.ofText, mark, Utf8.encode_append]
        next unknown =>
          refine ⟨_, rfl, .inr ⟨fun _ source line _ located => ?_, rfl⟩⟩
          rw [(locates_iff.1 located).2] at unknown
          cases unknown
      next beyond =>
        refine ⟨_, rfl, .inr ⟨fun _ source line _ located => ?_, rfl⟩⟩
        obtain ⟨positive, known⟩ := locates_iff.1 located
        rw [frames_placeBelow placed positive, if_neg fun up => beyond ⟨positive, up⟩] at known
        cases known
  | _ =>
    refine .inr ⟨?_, _, rfl, .inr ⟨?_, rfl⟩⟩
    · rintro ⟨⟨text, ⟨⟩⟩, -⟩
    · rintro text source line ⟨⟩

theorem Marked.located {text : Bytes} {w : Value} (marked : Marked s level (.str text) w)
    (located : s.Locates level source line) :
    w = .str (mark source line ++ Utf8.encode (Utf8.decodeLossy text)) := by
  rcases marked with ⟨_, source', line', ⟨⟩, again, rfl⟩ | ⟨unlocated, -⟩
  · obtain ⟨rfl, rfl⟩ := located.unique again
    rfl
  · exact absurd located (unlocated text source line rfl)

theorem Marked.faithful_iff {message w : Value} (marked : Marked s level message w) :
    Faithful s level message w ↔
      ∀ text source line, message = .str text → s.Locates level source line →
        ∃ t, text = Utf8.encode t := by
  constructor
  · rintro faithful text source line rfl located
    refine ⟨Utf8.decodeLossy text, ?_⟩
    have raised := marked.located located
    cases faithful with
    | other other => exact absurd rfl (other text)
    | unlocated unlocated => exact absurd located (unlocated source line)
    | located again =>
      obtain ⟨rfl, rfl⟩ := located.unique again
      simpa using raised
  · intro kept
    rcases marked with ⟨text, source, line, rfl, located, rfl⟩ | ⟨nowhere, rfl⟩
    · obtain ⟨t, rfl⟩ := kept text source line rfl located
      rw [Utf8.decodeLossy_encode]
      exact .located located
    · cases w with
      | str text => exact .unlocated fun source line => nowhere text source line rfl
      | _ => exact .other nofun

theorem value_argument (inside : s.Inside) (i : Nat) :
    Window.value (i + 1) s = .ok (s.argument i) s := by
  rw [(Window.Shows.initial inside).value, State.argument, Window.Contents.at?, Window.place?]
  congr
  grind

theorem optInteger_level (inside : s.Inside) (asks : s.AsksLevel level) :
    Window.optInteger 2 1 s = .ok level s := by
  have read : Window.value 2 s = .ok (s.argument 1) s := value_argument inside 1
  refine (bind_ok read _).trans ?_
  rcases asks with given | ⟨absent, rfl⟩
  · have there : (s.argument 1).isNil = false := by
      cases argument : s.argument 1 with
      | nil =>
        rw [argument] at given
        cases given
      | _ => rfl
    rw [there]
    refine (bind_ok read _).trans ?_
    rw [given]
    rfl
  · rw [absent]
    rfl

theorem optInteger_ok {t : State} (inside : s.Inside)
    (ran : Window.optInteger 2 1 s = .ok level t) : t = s ∧ s.AsksLevel level := by
  have asked (n : Int64) (asks : s.AsksLevel n) : t = s ∧ s.AsksLevel level := by
    rw [optInteger_level inside asks] at ran
    cases ran
    exact ⟨rfl, asks⟩
  have read : Window.value 2 s = .ok (s.argument 1) s := value_argument inside 1
  cases given : (s.argument 1).toInt64? with
  | some n => exact asked n (.inl given)
  | none =>
    cases argument : s.argument 1 with
    | nil => exact asked 1 (.inr ⟨argument, rfl⟩)
    | _ =>
      exfalso
      have steps : Window.optInteger 2 1 s = Window.checkInteger 2 s :=
        (bind_ok read _).trans (by rw [argument]; rfl)
      rw [steps] at ran
      obtain ⟨v, u, again, ran⟩ := ok_of_bind ran
      cases read.symm.trans again
      rw [given] at ran
      dsimp only at ran
      split at ran
      · cases ran
      · obtain ⟨_, _, _, ran⟩ := ok_of_bind ran
        cases ran

theorem error_run (inside : s.Inside) (asks : s.AsksLevel level) :
    error s = raiseValue (s.argument 0) level s :=
  (bind_ok (optInteger_level inside asks) _).trans (bind_ok (value_argument inside 0) _)

theorem raiseValue_run {α : Type} (message : Value) (level : Int64) (s : State) :
    (raiseValue message level : Vm α) s = match raisedValue? s message level with
      | some w => .error (.raised (.script w)) s
      | none => .error .overflow s := by
  change (match raisedValue? s message level with
    | some w => Vm.raise (.script w)
    | none => throw .overflow : Vm α) s = _
  cases raisedValue? s message level <;> rfl

end

/-- `error` raises its message faithfully, but for a string that is no text after a position: there
the bytes that are none are replaced. The place of the call is computed for levels from the number
of calls less 2^63 on, so for all at which a call is looked up; below them a string stops the
program. -/
theorem errorMessage_exact (s : State) (level : Int64) :
    (s.Inside → s.AsksLevel level →
      (Oversteps s (s.argument 0) level → error s = .error .overflow s) ∧
      (¬ Oversteps s (s.argument 0) level → ∃ w, error s = .error (.raised (.script w)) s ∧
        (Faithful s level (s.argument 0) w ↔ ∀ text source line, s.argument 0 = .str text →
          s.Locates level source line → ∃ t, text = Utf8.encode t) ∧
        ∀ text source line, s.argument 0 = .str text → s.Locates level source line →
          w = .str (mark source line ++ Utf8.encode (Utf8.decodeLossy text)))) ∧
    (∀ place, placeBelow? s level = some place ↔
      place = s.depth - 1 - level.toInt ∧ s.depth - 2 ^ 63 ≤ level.toInt) ∧
    (0 < level → ∀ place, placeBelow? s level = some place → s.frames[level.toInt.toNat]? =
      if 0 ≤ place then s.frames.reverse[place.toNat]? else none) := by
  refine ⟨fun inside asks => ?_, fun place => placeBelow?_eq_some,
    fun positive place placed => frames_placeBelow placed positive⟩
  rw [error_run inside asks, raiseValue_run]
  rcases raisedValue?_cases s (s.argument 0) level with
    ⟨oversteps, none⟩ | ⟨within, w, raised, marked⟩
  · rw [none]
    exact ⟨fun _ => rfl, fun within => absurd oversteps within⟩
  · rw [raised]
    refine ⟨fun oversteps => absurd oversteps within, fun _ => ⟨w, rfl, marked.faithful_iff, ?_⟩⟩
    intro text source line string located
    rw [string] at marked
    exact marked.located located

-- A script on line 7 has called `error` with a byte that is no text.
def garbled : State :=
  { State.bare {} with
    functions := #[⟨.script { source := "@t.lua", lines := #[7] }, #[]⟩,
      ⟨.native (.base .error), #[]⟩]
    stack := #[.function ⟨0⟩, .function ⟨1⟩, .str [0xFF]]
    frame := .enter ⟨1⟩ 1 3
    callers := ((State.bare {}).callers.push .host).push { Frame.enter ⟨0⟩ 0 1 with pc := 1 } }

-- The same with the least level that there is.
def farBelow : State :=
  { garbled with
    stack := garbled.stack.push (.int Int64.minValue)
    frame := .enter ⟨1⟩ 1 4 }

theorem errorMessage_exact_garbled :
    (error garbled = .error (.raised (.script (.ofText "t.lua:7: \uFFFD"))) garbled ∧
      ¬ Faithful garbled 1 (.str [0xFF]) (.ofText "t.lua:7: \uFFFD")) ∧
    error farBelow = .error .overflow farBelow := by
  have inside : garbled.Inside := ⟨by decide, by decide⟩
  have asks : garbled.AsksLevel 1 := .inr ⟨rfl, rfl⟩
  have within : ¬ Oversteps garbled (garbled.argument 0) 1 := fun oversteps =>
    absurd oversteps.2 (by decide)
  have located : garbled.Locates 1 "t.lua" 7 := ⟨by decide, _, _, rfl, rfl, rfl, by decide, rfl⟩
  obtain ⟨w, ran, exact, raised⟩ := ((errorMessage_exact garbled 1).1 inside asks).2 within
  have value : w = .ofText "t.lua:7: \uFFFD" := raised [0xFF] "t.lua" 7 rfl located
  rw [value] at ran exact
  refine ⟨⟨ran, fun faithful => ?_⟩, ?_⟩
  · obtain ⟨t, encoded⟩ := exact.1 faithful [0xFF] "t.lua" 7 rfl located
    have decoded : Utf8.decodeLossy [0xFF] = t := by rw [encoded, Utf8.decodeLossy_encode]
    rw [← decoded] at encoded
    revert encoded
    decide
  · have inside : farBelow.Inside := ⟨by decide, by decide⟩
    have asks : farBelow.AsksLevel Int64.minValue := .inl rfl
    exact ((errorMessage_exact farBelow Int64.minValue).1 inside asks).1
      ⟨⟨[0xFF], rfl⟩, by decide⟩

end Base

end LuaMachine
