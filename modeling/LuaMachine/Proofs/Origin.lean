import LuaMachine.Proofs.Failing

set_option autoImplicit false

namespace LuaMachine

open Vm
open LuaMachine.Frame (Keeping SameButTop SameCall)

def Host.Plain (host : Host) : Prop :=
  ∀ name call, Library (·.isLocated = false) call (host name call)

theorem Host.Plain.propagates {host : Host} (plain : host.Plain) : host.Propagates :=
  fun name call => (plain name call).interface

def LuaError.Once : LuaError → Prop
  | .traced _ e => e.isLocated = false
  | _ => True

-- The source without the mark at its front.
def Routine.Short (p : Routine) (short : String) : Prop :=
  p.source = "@" ++ short ∨ p.source = "=" ++ short ∨
    p.source = short ∧ ∀ rest, p.source ≠ "@" ++ rest ∧ p.source ≠ "=" ++ rest

/-- The source and the line of an instruction; a question mark is in the place of a line that was
not recorded. -/
def Routine.Names (p : Routine) (pc : Nat) (place : String) : Prop :=
  ∃ short, p.Short short ∧ place = short ++ ":" ++ match p.lines[pc]? with
    | some line => toString line.toNat
    | none => "?"

theorem Routine.shortSource_short (p : Routine) : p.Short p.shortSource := by
  unfold shortSource
  split
  next c rest chars =>
    have marked (mark : String) (single : mark.toList = [c]) :
        p.source = mark ++ String.ofList rest :=
      String.toList_inj.1 (by simp [chars, single])
    split
    next isMark =>
      rcases isMark with rfl | rfl
      · exact .inl (marked "@" rfl)
      · exact .inr (.inl (marked "=" rfl))
    next plain =>
      have unmarked (mark : String) {m : Char} (single : mark.toList = [m]) (rest' : String)
          (same : p.source = mark ++ rest') : c = m := by
        rw [same, String.toList_append, single] at chars
        exact (List.cons.inj chars).1.symm
      exact .inr (.inr ⟨rfl, fun rest' =>
        ⟨fun same => plain (.inl (unmarked "@" rfl rest' same)),
          fun same => plain (.inr (unmarked "=" rfl rest' same))⟩⟩)
  next chars =>
    refine .inr (.inr ⟨rfl, fun rest => ⟨?_, ?_⟩⟩)
    all_goals
      intro same
      simp [same] at chars

theorem Routine.location_names (p : Routine) (pc : Nat) : p.Names pc (p.location pc) :=
  ⟨_, p.shortSource_short, rfl⟩

namespace Machine

/-- What the running call does: an instruction, the body of its native function, or the beginning of
a call that it makes. -/
inductive Executes (host : Host) (s : State) : {α : Type} → Vm α → Prop where
  | instruction {call : Call} {a : Activation} {pc : Nat} {w : Word} :
    Makes host call → activation s = .ok a s → a.proto.code[pc]? = some w → s.frame.pc = pc + 1 →
      Executes host s (a.step call w)
  | native {call : Call} {n : Native} {f : FunctionId} {cells : Array CellId} :
    Makes host call → s.frame.function = some f → s.function? f = some ⟨.native n, cells⟩ →
      Executes host s (native host call n)
  | request (func nargs : Nat) : Executes host s (accept func nargs)

/-- The running call has raised an error itself, and no call that it made is left above it. A value
comes from `error` or `assert`, which raise it again on the same window. -/
inductive Raised (host : Host) : LuaError → State → Prop where
  | bare {α : Type} {x : Vm α} {s t : State} {e : LuaError} :
    Executes host s x → x s = .error (.raised e) t → t.callers = s.callers →
      e.isLocated = false → Raised host e t
  | value {v : Value} {t : State} {f : FunctionId} {cells : Array CellId} {g : BaseFunction} :
    g = .error ∨ g = .assert → t.frame.function = some f →
      t.function? f = some ⟨.native (.base g), cells⟩ →
      (∀ call, Base.run call g t = .error (.raised (.script v)) t) → Raised host (.script v) t

def Executing (host : Host) (outer : List Frame) (f : Frame) (p : Prototype) (pc : Nat)
    (e : LuaError) (t : State) : Prop :=
  t.prototype? f = some p ∧ ∃ call a w u, Makes host call ∧ activation u = .ok a u ∧
    a.proto = p ∧ p.code[pc]? = some w ∧ u.frame.pc = pc + 1 ∧ SameCall u.frame f ∧
    u.callers.frames = outer ∧ a.step call w u = .error (.raised e) t

/-- What becomes of an error on its way out through calls, the innermost first: the innermost
script call gives it a place, and nothing else changes it. -/
inductive Places (host : Host) (below : List Frame) (t : State) :
    List Frame → LuaError → LuaError → Prop where
  | caller (e : LuaError) : Places host below t [] e e
  | native {f : Frame} {rest : List Frame} {e e' : LuaError} :
    t.prototype? f = none → Places host below t rest e e' → Places host below t (f :: rest) e e'
  | script {f : Frame} {rest : List Frame} {e : LuaError} {p : Prototype} {pc : Nat}
      {place : String} :
    Executing host (rest ++ below) f p pc e t → e.isLocated = false → p.Names pc place →
      Places host below t (f :: rest) e (.traced place e)
  | located (calls : List Frame) {e : LuaError} :
    e.isLocated = true → Places host below t calls e e

/-- How an error comes to the calls `below`. It leaves the calls above them in place, unless a call
of a host function has discarded them and handed it on. -/
inductive Arises (host : Host) : List Frame → LuaError → State → Prop where
  | raised {below calls : List Frame} {e e' : LuaError} {t : State} :
    t.frames = calls ++ below → Raised host e t → Places host below t calls e e' →
      Arises host below e' t
  | handedOn {below calls : List Frame} {e e' : LuaError} {t u v : State} {call : Call}
      {nargs : Nat} {wanted : Option Nat} :
    t.frames = calls ++ below → Makes host call →
      call (u.frame.top - (nargs + 1)) nargs wanted u = .error (.raised e) v →
      Arises host u.frames e v → Call.host call nargs wanted u = .error (.raised e) t →
      Places host below t calls e e' → Arises host below e' t

section

variable {host : Host} {below calls : List Frame} {f : Frame} {e e' e₀ : LuaError} {t : State}
  {p : Prototype} {pc : Nat}

theorem Places.native_outward (native : t.prototype? f = none)
    (places : Places host (f :: below) t calls e₀ e) :
    Places host below t (calls ++ [f]) e₀ e := by
  induction places with
  | caller e => exact .native native (.caller e)
  | native inner _ ih => exact .native inner ih
  | script executing bare names => exact .script (by simpa using executing) bare names
  | located calls isLocated => exact .located _ isLocated

-- The error has its place already if it went through another script call.
theorem Places.script_outward (executing : Executing host below f p pc e t)
    (places : Places host (f :: below) t calls e₀ e) :
    Places host below t (calls ++ [f]) e₀ (locate p.toRoutine pc e) := by
  induction places with
  | caller e =>
    unfold locate
    split
    next isLocated => exact .located _ isLocated
    next bare => exact .script executing (Bool.eq_false_iff.2 bare) (p.location_names pc)
  | native inner _ ih => exact .native inner (ih executing)
  | script inner bare names => exact .script (by simpa using inner) bare names
  | located calls isLocated =>
    rw [locate, if_pos isLocated]
    exact .located _ isLocated

theorem Raised.arises (raised : Raised host e t) (frames : t.frames = below) :
    Arises host below e t := by
  have here : t.frames = [] ++ below := frames
  exact .raised here raised (.caller e)

theorem Arises.outward (arises : Arises host (f :: below) e t)
    (step : ∀ calls e₀, Places host (f :: below) t calls e₀ e →
      Places host below t (calls ++ [f]) e₀ e') : Arises host below e' t := by
  cases arises with
  | raised frames raised places =>
    exact .raised (by simpa using frames) raised (step _ _ places)
  | handedOn frames makes failed inner handed places =>
    exact .handedOn (by simpa using frames) makes failed inner handed (step _ _ places)

theorem Places.once (places : Places host below t calls e₀ e) (once : e₀.Once) : e.Once := by
  induction places with
  | caller e => exact once
  | native _ _ ih => exact ih once
  | script _ bare _ => exact bare
  | located calls _ => exact once

theorem Places.named {place : String} {inner : LuaError}
    (places : Places host below t calls e₀ (.traced place inner))
    (raised : e₀ ≠ .traced place inner) :
    ∃ outer f p pc, Executing host outer f p pc inner t ∧ p.Names pc place := by
  generalize traced : LuaError.traced place inner = e at places raised
  induction places with
  | caller e => exact absurd rfl raised
  | native _ _ ih => exact ih traced raised
  | script executing _ names =>
    cases traced
    exact ⟨_, _, _, _, executing, names⟩
  | located calls _ => exact absurd rfl raised

theorem Places.bare (places : Places host below t calls e₀ e) (bare : e.isLocated = false) :
    ∀ f ∈ calls, t.prototype? f = none := by
  induction places with
  | caller e => simp
  | native native _ ih => simpa [native] using ih bare
  | script _ _ _ => cases bare
  | located calls isLocated =>
    rw [isLocated] at bare
    cases bare

theorem Raised.once (raised : Raised host e t) : e.Once := by
  cases raised with
  | bare _ _ _ bare => cases e <;> trivial
  | value => trivial

theorem Arises.once (arises : Arises host below e t) : e.Once := by
  induction arises with
  | raised _ raised places => exact places.once raised.once
  | handedOn _ _ _ _ _ places ih => exact places.once ih

theorem Arises.named {place : String} {inner : LuaError}
    (arises : Arises host below (.traced place inner) t) :
    ∃ outer f p pc u, Executing host outer f p pc inner u ∧ p.Names pc place := by
  generalize traced : LuaError.traced place inner = e at arises
  induction arises with
  | @raised _ _ e₀ _ t _ raised places =>
    subst traced
    have untraced : e₀ ≠ .traced place inner := by
      rintro rfl
      cases raised with
      | bare _ _ _ bare => cases bare
    obtain ⟨outer, f, p, pc, executing, names⟩ := places.named untraced
    exact ⟨outer, f, p, pc, t, executing, names⟩
  | @handedOn _ _ e₀ _ t _ _ _ _ _ _ _ _ _ _ places ih =>
    subst traced
    by_cases before : .traced place inner = e₀
    · exact ih before
    · obtain ⟨outer, f, p, pc, executing, names⟩ := places.named (Ne.symm before)
      exact ⟨outer, f, p, pc, t, executing, names⟩

theorem Arises.bare (arises : Arises host below e t) (bare : e.isLocated = false) :
    ∃ calls, t.frames = calls ++ below ∧ ∀ f ∈ calls, t.prototype? f = none := by
  cases arises with
  | raised frames _ places => exact ⟨_, frames, places.bare bare⟩
  | handedOn frames _ _ _ _ places => exact ⟨_, frames, places.bare bare⟩

end

def BeginsScript (func nargs : Nat) (s : State) : Prop :=
  ∃ p cells f n u, accept func nargs s = .ok (⟨.script p, cells⟩, f, n) u

def Traces (host : Host) (call : Call) : Prop :=
  ∀ func nargs wanted s e t, call func nargs wanted s = .error (.raised e) t →
    Arises host s.frames e t ∧ (BeginsScript func nargs s → e.isLocated = true)

def Scripted (s : State) : Prop :=
  ∃ f p cells, s.frame.function = some f ∧ s.function? f = some ⟨.script p, cells⟩

theorem Scripted.later {s t : State} (scripted : Scripted s) (later : Later s t)
    (same : t.frame.function = s.frame.function) : Scripted t := by
  obtain ⟨f, p, cells, function, found⟩ := scripted
  exact ⟨f, p, cells, same.trans function, later.functions f _ found⟩

end Machine

section

variable {f : Frame} {g : FunctionId} {cells : Array CellId} {t : State}

theorem State.prototype?_script {p : Prototype} (function : f.function = some g)
    (found : t.function? g = some ⟨.script p, cells⟩) : t.prototype? f = some p := by
  simp [prototype?, function, found]

theorem State.prototype?_native {n : Native} (function : f.function = some g)
    (found : t.function? g = some ⟨.native n, cells⟩) : t.prototype? f = none := by
  simp [prototype?, function, found]

end

section

open Machine

variable {host : Host} {call : Call} {s t u : State} {e : LuaError}

theorem Fails.arises {keep : Frame → Frame → Prop} (makes : Makes host call)
    (traces : Traces host call) {α : Type} {x : Vm α} (executes : Executes host s x)
    (failed : x s = .error (.raised e) t)
    (fails : Fails (·.isLocated = false) keep call s e t) :
    ∃ f, keep s.frame f ∧ Arises host (f :: s.callers.frames) e t := by
  cases fails with
  | itself bare callers kept =>
    have raised : Raised host e t := .bare executes failed callers bare
    exact ⟨t.frame, kept, raised.arises (by rw [← callers]; rfl)⟩
  | @inside u _ _ _ callers kept inner =>
    have arises := (traces _ _ _ _ _ _ inner).1
    rw [State.frames, callers] at arises
    exact ⟨u.frame, kept, arises⟩
  | handedOn inner handed callers kept =>
    have frames : t.frames = [] ++ t.frame :: s.callers.frames := by rw [← callers]; rfl
    have arises := (traces _ _ _ _ _ _ inner).1
    exact ⟨t.frame, kept, .handedOn frames makes inner arises handed (.caller e)⟩

end

namespace Machine

variable {host : Host} {call : Call} {s t : State} {e : LuaError} {func : Nat} {c : Frame}
  {rest : List Frame}

theorem locate_isLocated (p : Routine) (pc : Nat) (e : LuaError) :
    (locate p pc e).isLocated = true := by
  unfold locate
  split
  next isLocated => exact isLocated
  next => rfl

theorem step_arises (propagates : host.Propagates) (makes : Makes host call)
    (traces : Traces host call) (running : Running func (c :: rest) s) {a : Activation}
    (found : activation s = .ok a s) {pc : Nat} {w : Word} (code : a.proto.code[pc]? = some w)
    (next : s.frame.pc = pc + 1) (failed : a.step call w s = .error (.raised e) t) :
    Arises host (c :: rest) (locate a.proto.toRoutine pc e) t := by
  obtain ⟨base, g, function, script⟩ := activation_ok found
  have fails := Activation.step_fails (makes.balanced propagates) running base.symm failed
  obtain ⟨f, same, arises⟩ := (fails.mono fun _ ordinary => ordinary.bare).arises makes traces
    (.instruction makes found code next) failed
  have later := (step_lasting (makes.lasts propagates) a w).error failed
  have proto : t.prototype? f = some a.proto :=
    State.prototype?_script (same.1.trans function) (later.functions g _ script)
  rw [running.callers] at arises
  exact arises.outward fun calls e₀ => Places.script_outward
    ⟨proto, call, a, w, s, makes, found, rfl, code, next, same, running.callers, failed⟩

theorem stepOnce_arises (propagates : host.Propagates) (makes : Makes host call)
    (traces : Traces host call) (running : Running func (c :: rest) s) (scripted : Scripted s)
    (failed : stepOnce call s = .error (.raised e) t) :
    Arises host (c :: rest) e t ∧ e.isLocated = true := by
  obtain ⟨f, p, cells, function, script⟩ := scripted
  obtain ⟨w, e₀, code, rfl, stopped⟩ := stepOnce_raised running.callers function script failed
  exact ⟨step_arises propagates makes traces (advanced_running running)
    (activation_script (s := advanced s) function script) code rfl stopped,
    locate_isLocated _ _ e₀⟩

-- The function that runs after an instruction is the same one or, by a tail call, another script.
theorem stepOnce_scripted (propagates : host.Propagates) (makes : Makes host call)
    (running : Running func (c :: rest) s) (scripted : Scripted s)
    (ran : stepOnce call s = .ok .next t) : Scripted t := by
  obtain ⟨f, p, cells, function, script⟩ := scripted
  have found := activation_script function script
  cases code : p.code[s.frame.pc]? with
  | none =>
    rw [stepOnce_end found code] at ran
    obtain ⟨n, u, -, ran⟩ := ok_of_bind ran
    cases ran
  | some w =>
    rw [stepOnce_word found code] at ran
    have step := located_ok ran
    rcases Activation.step_cases ⟨cells, p, s.frame.base⟩ call w (advanced s) with
      ⟨n, steps⟩ | ⟨n, steps⟩ | ⟨x, works, steps⟩
    · rw [steps] at step
      exact (Call.tail_next step).2
    · rw [steps] at step
      obtain ⟨k, u, -, step⟩ := ok_of_bind step
      cases step
    · rw [steps] at step
      obtain ⟨_, u, worked, step⟩ := ok_of_bind step
      cases step
      have stays := (works.within (makes.balanced propagates)).ok (s := advanced s) rfl
        running.window worked
      have later := (works.lasting (makes.lasts propagates)).ok worked
      have begun : Scripted (advanced s) := ⟨f, p, cells, function, script⟩
      exact begun.later later stays.frame.1

theorem scripted_path (propagates : host.Propagates) (makes : Makes host call)
    (running : Running func (c :: rest) s) (scripted : Scripted s)
    (path : Relation.ReflTransGen (Advances call) s t) : Scripted t := by
  induction path with
  | refl => exact scripted
  | tail path last ih =>
    obtain ⟨u, ticked, ran⟩ := last
    have runs := (running_path (makes.balanced propagates) running path).1
    have paid : Still func _ u := Quiet.tick.ok ticked
    have script := ih.later (Lasting.tick.ok ticked)
      (congrArg Frame.function (State.frames_injective paid.frames).1)
    exact stepOnce_scripted propagates makes (runs.still paid) script ran

theorem loop_arises (propagates : host.Propagates) (makes : Makes host call)
    (traces : Traces host call) {fuel : Nat} (running : Running func (c :: rest) s)
    (scripted : Scripted s) (failed : loop call fuel s = .error (.raised e) t) :
    Arises host (c :: rest) e t ∧ e.isLocated = true := by
  obtain ⟨last, u, path, ticked, failed⟩ := loop_raised failed
  have runs := (running_path (makes.balanced propagates) running path).1
  have paid : Still func last u := Quiet.tick.ok ticked
  have script := (scripted_path propagates makes running scripted path).later
    (Lasting.tick.ok ticked) (congrArg Frame.function (State.frames_injective paid.frames).1)
  exact stepOnce_arises propagates makes traces (runs.still paid) script failed

theorem native_arises (plain : host.Plain) (makes : Makes host call) (traces : Traces host call)
    {n : Native} {f : FunctionId} {nargs : Nat} {cells : Array CellId}
    (found : s.function? f = some ⟨.native n, cells⟩)
    (failed : native host call n (Call.entered f func nargs s) = .error (.raised e) t) :
    Arises host s.frames e t := by
  let b := Call.entered f func nargs s
  have running : Running func s.frames b := (Call.entered_running f func nargs s).1
  have here : b.function? f = some ⟨.native n, cells⟩ := found
  have executes : Executes host b (native host call n) := .native makes rfl here
  have later : Later b t :=
    (native_lasting plain.propagates (makes.lasts plain.propagates) n).error failed
  have outward {g : Frame} (same : g.function = some f) (arises : Arises host (g :: s.frames) e t) :
      Arises host s.frames e t :=
    arises.outward fun _ _ =>
      Places.native_outward (State.prototype?_native same (later.functions f _ here))
  have library (library : Library (·.isLocated = false) call (native host call n)) :
      Arises host s.frames e t := by
    have fails := library.fails (fun _ ordinary => ordinary.bare)
      (makes.balanced plain.propagates) running.window failed
    obtain ⟨g, kept, arises⟩ := fails.arises makes traces executes failed
    rw [running.callers] at arises
    exact outward kept.sameCall.1 arises
  cases n with
  | host name => exact library (plain name call)
  | base g =>
    by_cases isValue : g = .error ∨ g = .assert
    · obtain ⟨rfl, kind⟩ := (Base.run_observes call isValue).raised b e t failed
      have raised : Raised host e b := by
        rcases kind with ordinary | ⟨v, rfl⟩
        · exact .bare executes failed rfl ordinary.bare
        · refine .value isValue rfl here fun call' => ?_
          rcases isValue with rfl | rfl <;> exact failed
      exact outward (g := b.frame) rfl (raised.arises rfl)
    · rw [not_or] at isValue
      exact library (Base.run_windowed call isValue.1 isValue.2).library

theorem enterScript_arises (propagates : host.Propagates) (makes : Makes host call)
    (traces : Traces host call) {p : Prototype} {cells : Array CellId} {f : FunctionId}
    {nargs : Nat} (fuel : Nat) (wanted : Option Nat) (shallow : s.depth ≤ s.config.maxCallDepth)
    (found : s.function? f = some ⟨.script p, cells⟩)
    (failed : enter host call fuel func wanted (⟨.script p, cells⟩, f, nargs) s =
      .error (.raised e) t) :
    Arises host s.frames e t ∧ e.isLocated = true := by
  obtain ⟨u, begun, failed⟩ := enterScript_raised failed
  have begins := Call.enterScript_begins f p func nargs s
  have later := Enters.enterScript f p func nargs s s (.refl s) fun _ => shallow
  rw [begun] at begins
  rw [after, begun] at later
  have scripted : Scripted u :=
    ⟨f, p, cells, Call.enterScript_function begun, later.functions f _ found⟩
  exact loop_arises propagates makes traces begins.1 scripted failed

theorem invoke_traces (plain : host.Plain) (makes : Makes host call) (traces : Traces host call)
    (fuel : Nat) : Traces host (invoke host call fuel) := by
  intro func nargs wanted s e t failed
  rw [invoke_eq] at failed
  rcases error_of_bind failed with refused | ⟨⟨⟨body, cells⟩, f, n⟩, u, accepted, failed⟩
  · have frames := ((accept_quiet func nargs).error refused).frames
    have raised : Raised host e t := .bare (.request func nargs) refused
      (State.frames_injective frames).2 (accept_ordinary func nargs s e t refused).bare
    refine ⟨raised.arises frames, ?_⟩
    rintro ⟨p, cells, f, n, u, accepted⟩
    rw [accepted] at refused
    cases refused
  · obtain ⟨shallow, found⟩ := accept_ok accepted
    rw [← ((accept_quiet func nargs).ok accepted).frames]
    cases body with
    | native native =>
      refine ⟨native_arises plain makes traces found (enterNative_raised plain.propagates
        (makes.balanced plain.propagates) failed), ?_⟩
      rintro ⟨p, cells, f, n, u, script⟩
      rw [script] at accepted
      cases accepted
    | script p =>
      obtain ⟨arises, isLocated⟩ :=
        enterScript_arises plain.propagates makes traces fuel wanted shallow found failed
      exact ⟨arises, fun _ => isLocated⟩

theorem callWithin_traces (plain : host.Plain) (fuel : Nat) :
    Traces host (callWithin host fuel) := by
  induction fuel with
  | zero => exact fun _ _ _ _ _ _ failed => by cases failed
  | succ fuel ih => exact invoke_traces plain (.nested fuel) ih fuel

theorem Makes.traces (makes : Makes host call) (plain : host.Plain) : Traces host call := by
  cases makes with
  | outer =>
    intro func nargs wanted s e t failed
    rw [call_eq] at failed
    exact invoke_traces plain (.nested s.budget) (callWithin_traces plain s.budget) s.budget
      func nargs wanted s e t failed
  | nested fuel => exact callWithin_traces plain fuel

end Machine

/-- An error that leaves a call has been given its place by the innermost script call that was
above the caller, and by no other; a raised value is handed on as it is. Any other error
without a place has met native functions only, and comes out of no script function. -/
theorem errors_placed_once {host : Host} (plain : host.Plain) {call : Call}
    (makes : Machine.Makes host call) {func nargs : Nat} {wanted : Option Nat} {s t : State}
    {e : LuaError} (failed : call func nargs wanted s = .error (.raised e) t) :
    Machine.Arises host s.frames e t ∧ e.Once ∧
      (∀ place inner, e = .traced place inner → ∃ outer f p pc u short,
        Machine.Executing host outer f p pc inner u ∧ p.Short short ∧
        place = short ++ ":" ++ match p.lines[pc]? with
          | some line => toString line.toNat
          | none => "?") ∧
      (Machine.BeginsScript func nargs s → e.isLocated = true) ∧
      (e.isLocated = false →
        ∃ calls, t.frames = calls ++ s.frames ∧ ∀ f ∈ calls, t.prototype? f = none) := by
  obtain ⟨arises, script⟩ := makes.traces plain func nargs wanted s e t failed
  refine ⟨arises, arises.once, ?_, script, arises.bare⟩
  rintro place inner rfl
  obtain ⟨outer, f, p, pc, u, executing, short, shortens, spelled⟩ := arises.named
  exact ⟨outer, f, p, pc, u, short, executing, shortens, spelled⟩

theorem Command.noHost_plain : noHost.Plain := fun _ _ => .raise rfl

-- A machine whose first slot holds a function that calls `next` without a table in line 3.
def State.asking : State :=
  let main : Prototype :=
    { source := "@t.lua", captures := #[.register 0], constants := #[.str (Utf8.encode "next")]
      code := #[.ofABC .getTabUp 0 0 256, .ofABC .call 0 1 1, .ofABC .ret 0 1 0]
      lines := #[1, 3, 3] }
  (Machine.loadPrototype main).after (.new {})

theorem errors_placed_once_asking :
    let missing : LuaError := .runtime (.badArgument 1 (some "next") "table expected, got no value")
    let complaint : LuaError := .traced "t.lua:3" missing
    ∃ t, Machine.call Command.noHost 0 0 none .asking = .error (.raised complaint) t ∧
      Machine.Arises Command.noHost State.asking.frames complaint t ∧
      ∃ outer f p pc u, Machine.Executing Command.noHost outer f p pc missing u ∧
        p.Names pc "t.lua:3" := by
  intro missing complaint
  have outcome : (Machine.call Command.noHost 0 0 none).raises .asking
      (fun e _ => e = complaint) = true := by decide +kernel
  -- The state is hidden so that nothing starts to run it.
  generalize State.asking = s at outcome ⊢
  obtain ⟨e, t, failed, same⟩ := of_raises outcome
  cases of_decide_eq_true same
  obtain ⟨arises, -, located, -⟩ := errors_placed_once Command.noHost_plain .outer failed
  obtain ⟨outer, f, p, pc, u, short, executing, shortens, spelled⟩ := located _ _ rfl
  exact ⟨t, failed, arises, outer, f, p, pc, u, executing, short, shortens, spelled⟩

end LuaMachine
