import LuaMachine.Machine.Window
import LuaMachine.Proofs.Effect

set_option autoImplicit false

namespace LuaMachine

namespace Frame

-- What an action keeps of the running frame.
class Keeping (keep : Frame → Frame → Prop) : Prop where
  refl (f : Frame) : keep f f
  trans {f g h : Frame} : keep f g → keep g h → keep f h
  base {f g : Frame} : keep f g → g.base = f.base

def SameButTop (f g : Frame) : Prop := g = { f with top := g.top }

def SameCall (f g : Frame) : Prop :=
  g.function = f.function ∧ g.func = f.func ∧ g.base = f.base ∧ g.varargs = f.varargs

instance : Keeping (Eq : Frame → Frame → Prop) := ⟨fun _ => rfl, Eq.trans, fun h => h ▸ rfl⟩

instance : Keeping SameButTop where
  refl _ := rfl
  trans first second := by
    unfold SameButTop at *
    rw [second, first]
  base h := by rw [h]

instance : Keeping SameCall where
  refl _ := ⟨rfl, rfl, rfl, rfl⟩
  trans first second :=
    ⟨second.1.trans first.1, second.2.1.trans first.2.1, second.2.2.1.trans first.2.2.1,
      second.2.2.2.trans first.2.2.2⟩
  base h := h.2.2.1

theorem SameButTop.sameCall {f g : Frame} (h : SameButTop f g) : SameCall f g := by
  rw [h]
  exact ⟨rfl, rfl, rfl, rfl⟩

end Frame

open LuaMachine.Frame (Keeping SameButTop SameCall)

structure Stays (keep : Frame → Frame → Prop) (base : Nat) (s t : State) : Prop
    extends Effect base s t where
  callers : t.callers = s.callers
  frame : keep s.frame t.frame
  window : base ≤ t.frame.top

structure Breaks (keep : Frame → Frame → Prop) (base : Nat) (s t : State) : Prop
    extends Effect base s t where
  frames : ∃ extra f, t.frames = extra ++ f :: s.callers.frames ∧ keep s.frame f

section

variable {keep : Frame → Frame → Prop} {base : Nat} {s t u : State}

theorem Stays.trans [Keeping keep] (first : Stays keep base s t) (second : Stays keep base t u) :
    Stays keep base s u where
  toEffect := first.toEffect.trans second.toEffect
  callers := second.callers.trans first.callers
  frame := Keeping.trans first.frame second.frame
  window := second.window

theorem Stays.breaks [Keeping keep] (first : Stays keep base s t) (second : Breaks keep base t u) :
    Breaks keep base s u where
  toEffect := first.toEffect.trans second.toEffect
  frames := by
    obtain ⟨extra, f, frames, kept⟩ := second.frames
    exact ⟨extra, f, first.callers ▸ frames, Keeping.trans first.frame kept⟩

theorem Stays.break (h : Stays keep base s t) : Breaks keep base s t where
  toEffect := h.toEffect
  frames := ⟨[], t.frame, by rw [← h.callers]; rfl, h.frame⟩

theorem Still.stays [Keeping keep] (h : Still base s t) (window : base ≤ s.frame.top) :
    Stays keep base s t := by
  obtain ⟨frame, callers⟩ := State.frames_injective h.frames
  exact ⟨h.toEffect, callers, frame ▸ Keeping.refl _, frame ▸ window⟩

theorem Stays.weaken {keep' : Frame → Frame → Prop} (weaker : ∀ f g, keep f g → keep' f g)
    (h : Stays keep base s t) : Stays keep' base s t :=
  ⟨h.toEffect, h.callers, weaker _ _ h.frame, h.window⟩

theorem Breaks.weaken {keep' : Frame → Frame → Prop} (weaker : ∀ f g, keep f g → keep' f g)
    (h : Breaks keep base s t) : Breaks keep' base s t := by
  obtain ⟨extra, f, frames, kept⟩ := h.frames
  exact ⟨h.toEffect, extra, f, frames, weaker _ _ kept⟩

end

def Acts (keep : Frame → Frame → Prop) (base : Nat) {α : Type} (x : Vm α) : Prop :=
  ∀ s, s.frame.base = base → base ≤ s.frame.top →
    match x s with
    | .ok _ t => Stays keep base s t
    | .error _ t => Breaks keep base s t

namespace Acts

open Vm

variable {α β : Type} {keep : Frame → Frame → Prop} {base : Nat}

theorem ok {x : Vm α} (h : Acts keep base x) {s t : State} {a : α} (start : s.frame.base = base)
    (window : base ≤ s.frame.top) (ran : x s = .ok a t) : Stays keep base s t := by
  have stays := h s start window
  rwa [ran] at stays

theorem error {x : Vm α} (h : Acts keep base x) {s t : State} {e : Stop}
    (start : s.frame.base = base) (window : base ≤ s.frame.top) (ran : x s = .error e t) :
    Breaks keep base s t := by
  have breaks := h s start window
  rwa [ran] at breaks

theorem weaken {keep' : Frame → Frame → Prop} (weaker : ∀ f g, keep f g → keep' f g) {x : Vm α}
    (h : Acts keep base x) : Acts keep' base x := by
  intro s start window
  cases ran : x s with
  | ok a t => exact (h.ok start window ran).weaken weaker
  | error e t => exact (h.error start window ran).weaken weaker

theorem sameCall {x : Vm α} (h : Acts SameButTop base x) : Acts SameCall base x :=
  h.weaken fun _ _ kept => kept.sameCall

variable [Keeping keep]

theorem of_eq {x : Vm α} (h : Acts Eq base x) : Acts keep base x :=
  h.weaken fun f _ same => same ▸ Keeping.refl f

theorem of_quiet {x : Vm α} (h : Quiet base x) : Acts keep base x := by
  intro s _ window
  cases ran : x s with
  | ok a t => exact (h.ok ran).stays window
  | error e t => exact ((h.error ran).stays window).break

theorem bind {x : Vm α} {f : α → Vm β} (first : Acts keep base x)
    (rest : ∀ a, Acts keep base (f a)) : Acts keep base (x >>= f) := by
  intro s start window
  cases ran : x s with
  | ok a t =>
    have stays := first.ok start window ran
    have again := rest a t ((Keeping.base stays.frame).trans start) stays.window
    rw [bind_ok ran]
    cases ran' : f a t with
    | ok b u =>
      rw [ran'] at again
      exact stays.trans again
    | error e u =>
      rw [ran'] at again
      exact stays.breaks again
  | error e t =>
    rw [bind_error ran]
    exact first.error start window ran

omit [Keeping keep] in
theorem bindFrame {k : Frame → Vm α}
    (h : ∀ f, f.base = base → base ≤ f.top → Acts keep base (k f)) :
    Acts keep base (Vm.frame >>= k) :=
  fun s start window => h s.frame start window s start window

theorem modifyFrame {g : Frame → Frame}
    (h : ∀ f, f.base = base → base ≤ f.top →
      keep f (g f) ∧ (g f).opened = f.opened ∧ base ≤ (g f).top) :
    Acts keep base (Vm.modifyFrame g) := by
  intro s start window
  obtain ⟨kept, opened, top⟩ := h s.frame start window
  have same := Keeping.base kept
  refine ⟨.of_eq rfl rfl (fun _ _ _ isOpen => isOpen) fun registered => ?_, rfl, kept, top⟩
  exact registered.congr_head opened same (by rw [same, start]; exact top)

theorem setTop {top : Nat} (window : base ≤ top) : Acts SameButTop base (Vm.setTop top) :=
  modifyFrame fun _ _ _ => ⟨rfl, rfl, window⟩

theorem movePc (g : Frame → Nat) :
    Acts SameCall base (Vm.modifyFrame fun f => { f with pc := g f }) :=
  modifyFrame fun _ _ window => ⟨⟨rfl, rfl, rfl, rfl⟩, rfl, window⟩

theorem push (v : Value) : Acts SameButTop base (Window.push v) :=
  bindFrame fun f _ window =>
    bind (of_quiet (.reserveWithHeadroom (f.top + 1))) fun _ =>
      bind (of_quiet (.write window v)) fun _ => setTop (by omega)

theorem pop : Acts SameButTop base Window.pop := by
  refine bindFrame fun f start window => ?_
  split
  · exact of_quiet (.pure _)
  · exact bind (setTop (by omega)) fun _ => of_quiet (.take (by omega))

theorem resize (n : Nat) : Acts SameButTop base (Window.resize n) := by
  refine bindFrame fun f start window => ?_
  refine bind (of_quiet (.reserve _)) fun _ => bind (of_quiet (.clear ?_ _)) fun _ => setTop ?_
  · omega
  · omega

theorem insert (i : Int) : Acts SameButTop base (Window.insert i) := by
  refine bindFrame fun f start window => ?_
  split
  next => exact of_quiet (.pure ())
  next slot found =>
    have above : base ≤ slot := by
      unfold Window.slotOf? at found
      grind
    exact bind (of_quiet (.read _)) fun v =>
      bind (of_quiet (.shiftUp above _)) fun _ => of_quiet (.write above v)

theorem pushNative (f : Native) (captured : Nat) :
    Acts SameButTop base (Window.pushNative f captured) := by
  refine bindFrame fun w start window => ?_
  have room : base ≤ w.top - min captured w.size := by
    simp only [Frame.size]
    omega
  exact bind (of_quiet (.readMany _ _)) fun values =>
    bind (setTop room) fun _ => bind (of_quiet (.newNative f values)) fun id => push _

end Acts

namespace Vm

theorem closeFrom_run (low : Nat) (s : State) :
    closeFrom low s = .ok () ((closeFrom low).after s) := rfl

@[simp] theorem stack_closeFrom (low : Nat) (s : State) :
    ((closeFrom low).after s).stack = s.stack :=
  Store.stack_closeCells _ _

@[simp] theorem callers_closeFrom (low : Nat) (s : State) :
    ((closeFrom low).after s).callers = s.callers := rfl

theorem frame_closeFrom (low : Nat) (s : State) :
    ((closeFrom low).after s).frame =
      { s.frame with opened := s.frame.opened.filter (¬ low ≤ ·.1) } := by
  have kept : (s.frame.opened.partition fun p => decide (p.1 ≥ low)).2 =
      s.frame.opened.filter (¬ low ≤ ·.1) := by
    rw [List.partition_eq_filter_filter]
    exact List.filter_congr fun p _ => (decide_not ..).symm
  rw [← kept]
  rfl

theorem cell_closeFrom (low : Nat) (s : State) (id : CellId) :
    ((closeFrom low).after s).cell id =
      if ∃ p ∈ s.frame.opened, low ≤ p.1 ∧ p.2 = id then .closed (s.getCell id)
      else s.cell id := by
  have listed : id ∈ (s.frame.opened.partition fun p => decide (p.1 ≥ low)).1.map Prod.snd ↔
      ∃ p ∈ s.frame.opened, low ≤ p.1 ∧ p.2 = id := by
    simp [List.partition_eq_filter_filter, and_assoc]
  have closing := Store.cell_closeCells s.toStore
    ((s.frame.opened.partition fun p => decide (p.1 ≥ low)).1.map Prod.snd) id
  simp only [listed] at closing
  exact closing

theorem captureSlot_found {slot : Nat} {s : State} {id : CellId}
    (found : s.frame.opened.lookup slot = some id) : captureSlot slot s = .ok id s := by
  rw [captureSlot, get_bind, found]
  rfl

theorem captureSlot_new {slot : Nat} {s : State} (free : s.frame.opened.lookup slot = none) :
    captureSlot slot s = .ok ⟨s.cells.size⟩
      { s with
        cells := s.cells.push (.opened slot)
        frame := { s.frame with opened := (slot, ⟨s.cells.size⟩) :: s.frame.opened } } := by
  rw [captureSlot, get_bind, free]
  rfl

theorem opened_closeFrom (low : Nat) (s : State) (id : CellId) (slot : Nat)
    (isOpen : ((closeFrom low).after s).cell id = .opened slot) : s.cell id = .opened slot := by
  rw [cell_closeFrom] at isOpen
  split at isOpen
  · cases isOpen
  · exact isOpen

theorem registered_closeFrom (low : Nat) (s : State) (h : s.Registered) :
    ((closeFrom low).after s).Registered := by
  unfold State.Registered State.frames
  rw [frame_closeFrom, callers_closeFrom]
  refine Registry.close h low ?_ ?_
  · intro p entry above slot isOpen
    rw [cell_closeFrom, if_pos ⟨p, entry, above, rfl⟩] at isOpen
    cases isOpen
  · intro id others
    rw [cell_closeFrom, if_neg]
    rintro ⟨p, entry, above, same⟩
    exact others p entry above same

end Vm

namespace Acts

variable {base : Nat}

theorem closeFrom (low : Nat) : Acts SameCall base (Vm.closeFrom low) := by
  intro s start window
  rw [Vm.closeFrom_run]
  have frame := Vm.frame_closeFrom low s
  refine ⟨.of_eq (Vm.stack_closeFrom low s) rfl (fun id slot _ => Vm.opened_closeFrom low s id slot)
    (Vm.registered_closeFrom low s), rfl, ?_, ?_⟩
  · rw [frame]
    exact ⟨rfl, rfl, rfl, rfl⟩
  · rw [frame]
    exact window

theorem captureSlot {slot : Nat} (above : base ≤ slot) :
    Acts SameCall base (Vm.captureSlot slot) := by
  intro s start window
  cases found : s.frame.opened.lookup slot with
  | some id =>
    rw [Vm.captureSlot_found found]
    exact (Still.refl base s).stays window
  | none =>
    rw [Vm.captureSlot_new found]
    have cells := Store.cell_newCell s.toStore (.opened slot)
    refine ⟨.of_eq rfl rfl (fun id other below isOpen => ?_) fun registered => ?_, rfl,
      ⟨rfl, rfl, rfl, rfl⟩, window⟩
    · by_cases new : id = ⟨s.cells.size⟩
      · have here : Cell.opened other = .opened slot :=
          isOpen.symm.trans ((cells id).trans (if_pos new))
        cases here
        omega
      · exact ((cells id).trans (if_neg new)).symm.trans isOpen
    · refine Registry.register registered ?_ found (start ▸ above) ?_ ?_
      · intro other isOpen
        rw [Store.cell_fresh] at isOpen
        cases isOpen
      · exact (cells _).trans (if_pos rfl)
      · exact fun other apart => (cells other).trans (if_neg apart)

end Acts

end LuaMachine
