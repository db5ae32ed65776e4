import LuaMachine.Value.Basic

set_option autoImplicit false

namespace LuaMachine

structure CellId where
  index : Nat
  deriving DecidableEq, Repr, Inhabited

inductive Cell where
  | opened (slot : Nat)
  | closed (v : Value)
  deriving DecidableEq, Inhabited

def Cell.isOpen : Cell → Bool
  | opened _ => true
  | closed _ => false

structure Store where
  stack : Array Value := #[]
  cells : Array Cell := #[]

namespace Store

def slotValue (s : Store) (slot : Nat) : Value := s.stack.getD slot .nil

def newCell (s : Store) (c : Cell) : CellId × Store :=
  (⟨s.cells.size⟩, { s with cells := s.cells.push c })

def cell (s : Store) (id : CellId) : Cell := s.cells.getD id.index (.closed .nil)

def getCell (s : Store) (id : CellId) : Value :=
  match s.cell id with
  | .opened slot => s.slotValue slot
  | .closed v => v

def setCell (s : Store) (id : CellId) (v : Value) : Store :=
  match s.cell id with
  | .opened slot => { s with stack := s.stack.setIfInBounds slot v }
  | .closed _ => { s with cells := s.cells.setIfInBounds id.index (.closed v) }

/-- Gives a cell its own copy of the slot; a closed cell stays as it is. -/
def closeCell (s : Store) (id : CellId) : Store :=
  match s.cell id with
  | .opened slot =>
    { s with cells := s.cells.setIfInBounds id.index (.closed (s.slotValue slot)) }
  | .closed _ => s

@[simp] theorem stack_closeCell (s : Store) (id : CellId) :
    (s.closeCell id).stack = s.stack := by
  unfold closeCell
  split <;> rfl

theorem getCell_closeCell (s : Store) (id : CellId) :
    (s.closeCell id).getCell id = s.getCell id := by
  unfold closeCell
  split
  case h_2 => rfl
  case h_1 slot h =>
    have bound : id.index < s.cells.size := by
      refine Classical.byContradiction fun out => ?_
      simp [cell, Array.getD, out] at h
    simp [getCell, h]
    simp [cell, Array.getD, bound]

def closeCells (s : Store) (ids : List CellId) : Store := ids.foldl closeCell s

def setSlot (s : Store) (slot : Nat) (v : Value) : Store :=
  { s with stack := s.stack.setIfInBounds slot v }

def reserve (s : Store) (size : Nat) : Store :=
  if s.stack.size < size then
    { s with stack := s.stack ++ Array.replicate (size - s.stack.size) .nil }
  else s

end Store

end LuaMachine
