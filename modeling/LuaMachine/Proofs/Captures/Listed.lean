import LuaMachine.Proofs.Lasting
import Mathlib.Data.List.Forall2

set_option autoImplicit false

namespace LuaMachine

open Vm
open LuaMachine.Frame (Keeping SameButTop SameCall)

structure State.Distinct (s : State) : Prop where
  slots : ∀ p ∈ s.frame.opened, ∀ q ∈ s.frame.opened, p.1 = q.1 → p = q
  ids : ∀ p ∈ s.frame.opened, ∀ q ∈ s.frame.opened, p.2 = q.2 → p = q
  bound : ∀ p ∈ s.frame.opened, p.2.index < s.cells.size

theorem State.Distinct.of_empty {s : State} (empty : s.frame.opened = []) : s.Distinct := by
  refine ⟨?_, ?_, ?_⟩ <;> simp [empty]

theorem State.Distinct.same_iff {s : State} (h : s.Distinct) {base : Nat} {r r' : UInt8}
    {id id' : CellId} (first : (base + r.toNat, id) ∈ s.frame.opened)
    (second : (base + r'.toNat, id') ∈ s.frame.opened) : id = id' ↔ r = r' := by
  constructor
  · intro same
    have slots := congrArg Prod.fst (h.ids _ first _ second same)
    exact UInt8.toNat_inj.1 (Nat.add_left_cancel slots)
  · rintro rfl
    exact congrArg Prod.snd (h.slots _ first _ second rfl)

/-- What may happen to the list of the running call: slots that are `closed` leave it, and cells
that enter it, if it `makes` any, are new. -/
structure Relists (closed : Nat → Prop) (makes : Prop) (s t : State) : Prop where
  cells : s.cells.size ≤ t.cells.size
  kept : ∀ p ∈ s.frame.opened, ¬ closed p.1 → p ∈ t.frame.opened
  origin : ∀ p ∈ t.frame.opened,
    p ∈ s.frame.opened ∧ ¬ closed p.1 ∨ makes ∧ s.cells.size ≤ p.2.index
  distinct : s.Distinct → t.Distinct

namespace Relists

variable {closed : Nat → Prop} {makes : Prop} {s t u : State} {slot : Nat} {id : CellId}

theorem refl (makes : Prop) (s : State) (none : ∀ slot, ¬ closed slot) :
    Relists closed makes s s :=
  ⟨Nat.le_refl _, fun _ entry _ => entry, fun _ entry => .inl ⟨entry, none _⟩, fun h => h⟩

theorem congr_after (h : Relists closed makes s t) (opened : u.frame.opened = t.frame.opened)
    (cells : t.cells.size ≤ u.cells.size) : Relists closed makes s u where
  cells := Nat.le_trans h.cells cells
  kept p entry stays := opened ▸ h.kept p entry stays
  origin p entry := h.origin p (opened ▸ entry)
  distinct start := by
    have distinct := h.distinct start
    refine ⟨opened ▸ distinct.slots, opened ▸ distinct.ids, fun p entry => ?_⟩
    exact Nat.lt_of_lt_of_le (distinct.bound p (opened ▸ entry)) cells

theorem congr_before (h : Relists closed makes s t) (opened : s.frame.opened = u.frame.opened)
    (cells : s.cells.size = u.cells.size) : Relists closed makes u t where
  cells := cells ▸ h.cells
  kept p entry := h.kept p (opened ▸ entry)
  origin p entry := opened ▸ cells ▸ h.origin p entry
  distinct start := h.distinct ⟨opened ▸ start.slots, opened ▸ start.ids, by
    rw [opened, cells]
    exact start.bound⟩

-- Only the second step closes anything.
theorem trans (first : Relists (fun _ => False) makes s t) (second : Relists closed makes t u) :
    Relists closed makes s u where
  cells := Nat.le_trans first.cells second.cells
  kept p entry stays := second.kept p (first.kept p entry not_false) stays
  origin p entry := by
    rcases second.origin p entry with ⟨before, stays⟩ | ⟨made, new⟩
    · exact (first.origin p before).imp_left fun old => ⟨old.1, stays⟩
    · exact .inr ⟨made, Nat.le_trans first.cells new⟩
  distinct := second.distinct ∘ first.distinct

theorem push (free : ∀ p ∈ s.frame.opened, p.1 ≠ slot) :
    Relists (fun _ => False) True s
      { s with
        cells := s.cells.push (.opened slot)
        frame := { s.frame with opened := (slot, ⟨s.cells.size⟩) :: s.frame.opened } } where
  cells := by simp
  kept p entry _ := List.mem_cons_of_mem _ entry
  origin p entry := by
    rcases List.mem_cons.1 entry with rfl | entry
    · exact .inr ⟨trivial, Nat.le_refl _⟩
    · exact .inl ⟨entry, not_false⟩
  distinct h := by
    have fresh : ∀ p ∈ s.frame.opened, p.2 ≠ ⟨s.cells.size⟩ := by
      intro p entry same
      have bound := h.bound p entry
      rw [same] at bound
      exact Nat.lt_irrefl _ bound
    refine ⟨?_, ?_, ?_⟩
    · intro p first q second same
      rcases List.mem_cons.1 first with rfl | first <;>
        rcases List.mem_cons.1 second with rfl | second
      · rfl
      · exact absurd same.symm (free q second)
      · exact absurd same (free p first)
      · exact h.slots p first q second same
    · intro p first q second same
      rcases List.mem_cons.1 first with rfl | first <;>
        rcases List.mem_cons.1 second with rfl | second
      · rfl
      · exact absurd same.symm (fresh q second)
      · exact absurd same (fresh p first)
      · exact h.ids p first q second same
    · intro p entry
      rw [Array.size_push]
      rcases List.mem_cons.1 entry with rfl | entry
      · exact Nat.lt_succ_self _
      · exact Nat.lt_succ_of_lt (h.bound p entry)

theorem captureSlot (ran : captureSlot slot s = .ok id t) :
    Relists (fun _ => False) True s t ∧ (slot, id) ∈ t.frame.opened := by
  cases found : s.frame.opened.lookup slot with
  | some other =>
    rw [captureSlot_found found] at ran
    cases ran
    obtain ⟨before, after, split, -⟩ := List.lookup_eq_some_iff.1 found
    exact ⟨.refl _ _ fun _ => not_false, split ▸ by simp⟩
  | none =>
    rw [captureSlot_new found] at ran
    cases ran
    refine ⟨push fun p entry same => ?_, List.mem_cons_self⟩
    simpa [same] using List.lookup_eq_none_iff.1 found p entry

theorem closeFrom (makes : Prop) (low : Nat) (s : State) :
    Relists (low ≤ ·) makes s ((Vm.closeFrom low).after s) := by
  have opened : ((Vm.closeFrom low).after s).frame.opened =
      s.frame.opened.filter (¬ low ≤ ·.1) := by rw [frame_closeFrom]
  have member (p : Nat × CellId) : p ∈ ((Vm.closeFrom low).after s).frame.opened ↔
      p ∈ s.frame.opened ∧ ¬ low ≤ p.1 := by simp [opened]
  have cells : ((Vm.closeFrom low).after s).cells.size = s.cells.size :=
    s.toStore.size_closeCells _
  refine ⟨Nat.le_of_eq cells.symm, fun p entry stays => (member p).2 ⟨entry, stays⟩,
    fun p entry => .inl ((member p).1 entry), fun h => ⟨?_, ?_, ?_⟩⟩
  · exact fun p first q second => h.slots p ((member p).1 first).1 q ((member q).1 second).1
  · exact fun p first q second => h.ids p ((member p).1 first).1 q ((member q).1 second).1
  · exact fun p entry => cells ▸ h.bound p ((member p).1 entry).1

end Relists

def Frame.SameList (f g : Frame) : Prop := SameCall f g ∧ g.opened = f.opened

open LuaMachine.Frame (SameList)

instance : Keeping SameList where
  refl f := ⟨Keeping.refl f, rfl⟩
  trans first second := ⟨Keeping.trans first.1 second.1, second.2.trans first.2⟩
  base h := Keeping.base h.1

theorem Frame.SameButTop.sameList {f g : Frame} (h : SameButTop f g) : SameList f g :=
  ⟨h.sameCall, by rw [h]⟩

namespace Activation

variable {α : Type} {call : Call} {a : Activation} {s t : State}

-- Calls have lists of their own, and leave that of their caller alone.
theorem Computes.keeps (balanced : call.Balanced) {x : Vm α} (computes : a.Computes call x) :
    Acts SameList a.base x := by
  induction computes with
  | operates operates => exact .of_eq (operates.asks.acts balanced a.base)
  | bind _ _ first rest => exact .bind first rest
  | read slot => exact .of_quiet (.read slot)
  | write above v => exact .of_quiet (.write above v)
  | reserveWithHeadroom size => exact .of_quiet (.reserveWithHeadroom size)
  | newTable t => exact .of_quiet (.newTable t)
  | newFunction c => exact .of_quiet (.newFunction c)
  | writeCell id v => exact .of_quiet (.writeCell id v)
  | setTop above => exact (Acts.setTop above).weaken fun _ _ h => h.sameList
  | movePc g => exact .modifyFrame fun _ _ window => ⟨⟨⟨rfl, rfl, rfl, rfl⟩, rfl⟩, rfl, window⟩
  | @call func above nargs wanted =>
    intro s start window
    cases ran : call func nargs wanted s with
    | ok n t =>
      exact start ▸ ((balanced.ok ran).stays (start ▸ above)).weaken fun _ _ h => h.sameList
    | error e t => exact (balanced.error ran).breaks above
  | outOfRange slot => exact .of_quiet (.stop _)

theorem done_ok {x : Vm Unit} {flow : Call.Flow} (ran : done x s = .ok flow t) :
    x s = .ok () t := by
  obtain ⟨_, u, ran, finished⟩ := ok_of_bind ran
  cases finished
  exact ran

def Finds (a : Activation) (s : State) : Capture → CellId → Prop
  | .register r, id => (a.base + r.toNat, id) ∈ s.frame.opened
  | .upvalue i, id => a.cells[i.toNat]? = some id

theorem Finds.relists {makes : Prop} {c : Capture} {id : CellId} (finds : a.Finds s c id)
    (relists : Relists (fun _ => False) makes s t) : a.Finds t c id := by
  cases c with
  | register r => exact relists.kept _ finds not_false
  | upvalue i => exact finds

theorem cell_ok {i : Nat} {id : CellId} (ran : a.cell i s = .ok id t) :
    t = s ∧ a.cells[i]? = some id := by
  cases found : a.cells[i]? with
  | none =>
    rw [cell, found] at ran
    cases ran
  | some other =>
    rw [cell, found] at ran
    cases ran
    exact ⟨rfl, rfl⟩

theorem capture_relists {captures : List Capture} {ids : List CellId}
    (ran : a.capture captures s = .ok ids t) :
    Relists (fun _ => False) True s t ∧ captures.Forall₂ (a.Finds t) ids := by
  induction captures generalizing s ids with
  | nil =>
    cases ran
    exact ⟨.refl _ _ fun _ => not_false, .nil⟩
  | cons c rest ih =>
    have first : ∃ id u others, Relists (fun _ => False) True s u ∧ a.Finds u c id ∧
        a.capture rest u = .ok others t ∧ ids = id :: others := by
      cases c with
      | register r =>
        obtain ⟨id, u, found, ran⟩ := ok_of_bind ran
        obtain ⟨others, v, captured, ran⟩ := ok_of_bind ran
        cases ran
        obtain ⟨relists, entry⟩ := Relists.captureSlot found
        exact ⟨id, u, others, relists, entry, captured, rfl⟩
      | upvalue i =>
        obtain ⟨id, u, found, ran⟩ := ok_of_bind ran
        obtain ⟨others, v, captured, ran⟩ := ok_of_bind ran
        cases ran
        obtain ⟨rfl, entry⟩ := cell_ok found
        exact ⟨id, u, others, .refl _ _ fun _ => not_false, entry, captured, rfl⟩
    obtain ⟨id, u, others, relists, finds, captured, rfl⟩ := first
    obtain ⟨later, found⟩ := ih captured
    exact ⟨relists.trans later, .cons (finds.relists later) found⟩

theorem makeClosure_ok {ra i : Nat} (ran : a.makeClosure ra i s = .ok () t) :
    ∃ p f ids, a.proto.protos[i]? = some p ∧ t.stack[ra]? = some (.function f) ∧
      t.function? f = some ⟨.script p, ids.toArray⟩ ∧
      p.captures.toList.Forall₂ (a.Finds t) ids ∧ Relists (fun _ => False) True s t := by
  cases child : a.proto.protos[i]? with
  | none =>
    rw [makeClosure, child] at ran
    cases ran
  | some p =>
    rw [makeClosure, child] at ran
    obtain ⟨ids, u, captured, ran⟩ := ok_of_bind ran
    obtain ⟨f, v, made, written⟩ := ok_of_bind ran
    obtain ⟨relists, finds⟩ := capture_relists captured
    cases made
    obtain ⟨bound, rfl⟩ := write_inside written
    refine ⟨p, ⟨u.functions.size⟩, ids, rfl, by simp, by simp [State.function?], ?_,
      relists.congr_after rfl (Nat.le_refl _)⟩
    exact finds.imp fun c id found => found.relists
      ((Relists.refl True u fun _ => not_false).congr_after rfl (Nat.le_refl _))

end Activation

end LuaMachine
