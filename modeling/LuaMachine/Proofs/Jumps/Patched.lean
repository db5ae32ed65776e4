import LuaMachine.Proofs.Chunk.RoundTrip
import LuaMachine.Proofs.Jumps.Taken
import LuaMachine.Prototype.Builder
import LuaMachine.Prototype.Listing

set_option autoImplicit false

namespace LuaMachine

namespace Word

variable {op : Opcode} {a : Nat}

theorem or_shiftLeft {low width : Nat} (below : low < 2 ^ width) (high : Nat) :
    low ||| high <<< width = high * 2 ^ width + low := by
  rw [Nat.or_comm, ← Nat.shiftLeft_add_eq_or_of_lt below, Nat.shiftLeft_eq]

-- The fields lie side by side, so they are the digits of the word.
theorem toNat_ofABx {bx : Nat} (first : a < 2 ^ 8) (second : bx < 2 ^ 18) :
    (ofABx op a bx).bits.toNat = bx * 2 ^ 14 + (a * 2 ^ 6 + op.toNat) := by
  have number := op.toNat_lt
  have size : UInt32.size = 2 ^ 32 := rfl
  unfold ofABx
  rw [or_shiftLeft (by omega) a, or_shiftLeft (by omega) bx]
  exact UInt32.toNat_ofNat_of_lt' (by omega)

variable {bx : Nat}

theorem opcode?_ofABx (first : a < 2 ^ 8) (second : bx < 2 ^ 18) :
    (ofABx op a bx).opcode? = some op := by
  have number := op.toNat_lt
  have same : (ofABx op a bx).opNumber = op.toNat := by
    rw [opNumber, field, toNat_ofABx first second, Nat.shiftRight_zero]
    omega
  rw [opcode?, same, Opcode.ofNat?_toNat]

theorem a_ofABx (first : a < 2 ^ 8) (second : bx < 2 ^ 18) : (ofABx op a bx).a = a := by
  have number := op.toNat_lt
  rw [Word.a, field, toNat_ofABx first second, Nat.shiftRight_eq_div_pow]
  omega

theorem bx_ofABx (first : a < 2 ^ 8) (second : bx < 2 ^ 18) : (ofABx op a bx).bx = bx := by
  have number := op.toNat_lt
  rw [Word.bx, field, toNat_ofABx first second, Nat.shiftRight_eq_div_pow]
  omega

theorem sbx_ofAsBx {offset : Int} (first : a < 2 ^ 8) (reach : Reach offset) :
    (ofAsBx op a offset).sbx = offset := by
  obtain ⟨low, high⟩ := reach
  have biased : ((offset + bias) % 2 ^ 18).toNat < 2 ^ 18 := by omega
  rw [sbx, ofAsBx, bx_ofABx first biased]
  unfold bias
  omega

end Word

namespace LocalVariable

def Listable (v : LocalVariable) : Prop := v.start ≠ 4294967295 ∧ v.stop ≠ 4294967295

end LocalVariable

namespace Prototype

def Listable (p : Prototype) : Prop := ∀ n q, p.Inside n q → ∀ v ∈ q.locals, v.Listable

theorem listable_iff {p : Prototype} :
    p.Listable ↔ (∀ v ∈ p.locals, v.Listable) ∧ ∀ q ∈ p.protos, q.Listable := by
  constructor
  · intro listable
    exact ⟨listable 0 p (.self p), fun q member n r inside =>
      listable (n + 1) r (.inner member inside)⟩
  · rintro ⟨own, inner⟩ n q inside
    cases inside with
    | self => exact own
    | inner member inside => exact inner _ member _ q inside

end Prototype

namespace Listing

variable {p : Prototype} {pc target : Nat} {w : Word} {op : Opcode}

theorem instruction_jump (p : Routine) (named : w.opcode? = some op) (jumps : op.IsJump)
    (offset : (pc : Int) + 1 + w.sbx = target) :
    instruction p pc w = op.name.pushn ' ' (9 - op.name.length) ++ "\t" ++
      (toString w.a ++ " " ++ toString w.sbx) ++ "\t; " ++ ("to " ++ toString (target + 1)) := by
  have shown : (pc : Int) + w.sbx + 2 = (target + 1 : Nat) := by omega
  have printed : toString ((pc : Int) + w.sbx + 2) = toString (target + 1) := by
    rw [shown]
    rfl
  have comment : comment? p pc op w = some ("to " ++ toString (target + 1)) := by
    rw [← printed]
    cases jumps <;> rfl
  have operands : operands op w = [(w.a : Int), w.sbx] := by cases jumps <;> rfl
  unfold instruction
  rw [named]
  dsimp only
  rw [comment, operands]
  rfl

theorem codeLine_jump (p : Routine) (named : w.opcode? = some op) (jumps : op.IsJump)
    (offset : (pc : Int) + 1 + w.sbx = target) :
    codeLine p w pc = "\t" ++ toString (pc + 1) ++ "\t[" ++
      ((p.lineAt? pc).map fun line => toString line.toNat).getD "-" ++ "]\t" ++
      op.name.pushn ' ' (9 - op.name.length) ++ "\t" ++
      toString w.a ++ " " ++ toString w.sbx ++ "\t; to " ++ toString (target + 1) ++ "\n" := by
  have marked (text : String) : "\t; " ++ ("to " ++ text) = "\t; to " ++ text := by
    rw [← String.append_assoc]
    rfl
  rw [codeLine, instruction_jump p named jumps offset]
  simp only [String.append_assoc, marked]
  cases p.lineAt? pc <;> rfl

-- A line of a listing stands between those before it and those behind it.
theorem lines_infix {α : Type} (line : α → Nat → String) {xs : Array α} {i : Nat} {x : α}
    (held : xs[i]? = some x) : ∃ front back, lines line xs = front ++ line x i ++ back := by
  obtain ⟨room, rfl⟩ := Array.getElem?_eq_some_iff.1 held
  have cut : xs.toList = xs.toList.take i ++ xs[i] :: xs.toList.drop (i + 1) := by
    rw [← Array.getElem_toList room, ← List.drop_eq_getElem_cons, List.take_append_drop]
  have length : (xs.toList.take i).length = i := by
    rw [List.length_take, Array.length_toList]
    omega
  unfold lines
  rw [cut, List.zipIdx_append, List.map_append, String.join_append, length, List.zipIdx_cons,
    List.map_cons, String.join_cons, Nat.zero_add, ← String.append_assoc]
  exact ⟨_, _, rfl⟩

theorem position?_isSome {n : UInt32} : (position? n).isSome ↔ n ≠ 4294967295 := by
  have bound := n.toNat_lt
  rw [position?, Ne, ← UInt32.toNat_inj]
  simp only [Option.isSome_ite, UInt32.reduceToNat]
  omega

theorem localLine?_isSome {v : LocalVariable} {i : Nat} :
    (localLine? v i).isSome ↔ v.Listable := by
  rw [LocalVariable.Listable, ← position?_isSome, ← position?_isSome, localLine?]
  cases position? v.start <;> cases position? v.stop <;> simp

theorem mapM_isSome {α β : Type} {f : α → Option β} {xs : List α} :
    (xs.mapM f).isSome ↔ ∀ x ∈ xs, (f x).isSome := by
  induction xs with
  | nil => simp
  | cons x xs ih =>
    rw [List.mapM_cons, List.forall_mem_cons, ← ih]
    cases f x <;> cases xs.mapM f <;> simp

theorem localLines?_isSome {vs : Array LocalVariable} :
    (localLines? vs).isSome ↔ ∀ v ∈ vs, v.Listable := by
  rw [localLines?, Option.isSome_map, mapM_isSome]
  simp only [localLine?_isSome]
  constructor
  · intro listable v member
    obtain ⟨i, found⟩ := List.mem_iff_getElem?.1 (Array.mem_toList_iff.2 member)
    exact listable (v, i) (List.mem_zipIdx_iff_getElem?.2 found)
  · intro listable (v, i) member
    have found := List.mem_zipIdx_iff_getElem?.1 member
    exact listable v (Array.mem_toList_iff.1 (List.mem_of_getElem? found))

theorem routine?_isSome {main : Bool} {r : Routine} {functions : Nat} :
    (routine? main r functions).isSome ↔ ∀ v ∈ r.locals, v.Listable := by
  rw [← localLines?_isSome, routine?]
  cases localLines? r.locals <;> simp

mutual

theorem function?_isSome (main : Bool) : (p : Prototype) → ((function? main p).isSome ↔ p.Listable)
  | ⟨r, protos⟩ => by
    rw [Prototype.listable_iff, function?, ← functions?_isSome protos,
      ← @routine?_isSome main r protos.length]
    cases routine? main r protos.length <;> cases functions? protos <;> simp

theorem functions?_isSome : (ps : List Prototype) →
    ((functions? ps).isSome ↔ ∀ p ∈ ps, p.Listable)
  | [] => by simp [functions?]
  | p :: ps => by
    rw [List.forall_mem_cons, functions?, ← functions?_isSome ps, ← function?_isSome false p]
    cases function? false p <;> cases functions? ps <;> simp

end

theorem codeLine_infix {main : Bool} {text : String} (code : p.code[pc]? = some w)
    (listed : function? main p = some text) :
    ∃ front back, text = front ++ codeLine p.toRoutine w pc ++ back := by
  obtain ⟨front, back, split⟩ := lines_infix (codeLine p.toRoutine) code
  obtain ⟨p, protos⟩ := p
  rw [function?] at listed
  obtain ⟨own, listed', rest⟩ := Option.bind_eq_some_iff.1 listed
  obtain ⟨inner, -, whole⟩ := Option.bind_eq_some_iff.1 rest
  obtain ⟨locals, -, written⟩ := Option.bind_eq_some_iff.1 listed'
  rw [← Option.some.inj whole, ← Option.some.inj written, split]
  simp only [String.append_assoc]
  rw [← String.append_assoc]
  exact ⟨_, _, rfl⟩

end Listing

namespace Builder

variable {b : Builder} {pc target : Nat} {w : Word} {op : Opcode}

theorem int32?_eq (n : Int) : int32? n = if -2 ^ 31 ≤ n ∧ n < 2 ^ 31 then some n else none := by
  have held : (Int32.ofInt n).toInt = n ↔ -2 ^ 31 ≤ n ∧ n < 2 ^ 31 := by
    rw [Int32.toInt_ofInt]
    unfold Int.bmod
    dsimp only [Nat.reducePow, Nat.cast_ofNat]
    omega
  rw [int32?]
  simp only [held]

-- How often a cast to 32 bits takes `2 ^ 32` off: never below `2 ^ 31`.
def turns (n : Nat) : Nat := (n + 2 ^ 31) / 2 ^ 32

theorem toInt_cast (n : Nat) : (Int32.ofNat n).toInt = n - 2 ^ 32 * turns n := by
  rw [Int32.toInt_ofNat', turns]
  unfold Int.bmod
  dsimp only [Nat.reducePow, Nat.cast_ofNat]
  omega

theorem offset_eq (reach : Word.Reach ((target : Int) - (pc + 1))) :
    ((int32? ((Int32.ofNat pc).toInt + 1)).bind fun next =>
      int32? ((Int32.ofNat target).toInt - next)) =
    if turns pc = turns (pc + 1) ∧ turns target = turns (pc + 1) then
      some ((target : Int) - (pc + 1)) else none := by
  obtain ⟨low, high⟩ := reach
  have next : (-2 ^ 31 ≤ (pc : Int) - 2 ^ 32 * turns pc + 1 ∧
      (pc : Int) - 2 ^ 32 * turns pc + 1 < 2 ^ 31) ↔ turns pc = turns (pc + 1) := by
    unfold turns
    omega
  rw [toInt_cast, toInt_cast, int32?_eq]
  simp only [next]
  by_cases same : turns pc = turns (pc + 1)
  · have exact : (-2 ^ 31 ≤ (target : Int) - 2 ^ 32 * turns target - (pc - 2 ^ 32 * turns pc + 1) ∧
        (target : Int) - 2 ^ 32 * turns target - (pc - 2 ^ 32 * turns pc + 1) < 2 ^ 31) ↔
        turns target = turns (pc + 1) := by
      rw [same]
      unfold turns
      omega
    rw [if_pos same, Option.bind_some, int32?_eq]
    simp only [exact]
    by_cases level : turns target = turns (pc + 1)
    · rw [if_pos level, if_pos ⟨same, level⟩, level, same]
      congr 1
      omega
    · simp [level]
  · simp [same]

theorem patchJump_eq (held : b.proto.code[pc]? = some w) (named : w.opcode? = some op)
    (reach : Word.Reach ((target : Int) - (pc + 1))) :
    b.patchJump pc target =
      if turns pc = turns (pc + 1) ∧ turns target = turns (pc + 1) then
        some { b with
          proto.code := b.proto.code.setIfInBounds pc
            (.ofAsBx op w.a ((target : Int) - (pc + 1))) } else none := by
  have offset := offset_eq reach
  unfold patchJump
  rw [held, Option.bind_eq_bind, Option.bind_some]
  dsimp only
  rw [named]
  dsimp only
  simp only [Option.bind_eq_bind]
  rw [← Option.bind_assoc, offset]
  split
  next =>
    rw [Option.bind_some, Word.ofAsBx?, if_pos reach]
    rfl
  next => rfl

/-- Patching a jump touches nothing else and keeps its operation and A; from then on the call goes
on where the jump was told to, and that is what its line of the listing says. The program stops
only where positions leave 32 bits: of code, or of a local variable in a listing. -/
theorem patchJump_agrees (held : b.proto.code[pc]? = some w) (named : w.opcode? = some op)
    (jumps : op.IsJump) (reach : Word.Reach ((target : Int) - (pc + 1))) :
    ((b.patchJump pc target).isSome ↔
      turns pc = turns (pc + 1) ∧ turns target = turns (pc + 1)) ∧
    ∀ b', b.patchJump pc target = some b' → ∃ jump : Word,
      b' = { b with proto.code := b'.proto.code } ∧
      (∀ i, b'.proto.code[i]? = if i = pc then some jump else b.proto.code[i]?) ∧
      jump.opcode? = some op ∧ jump.a = w.a ∧
      ∀ p : Prototype, p.code[pc]? = some jump →
        Leads p pc jump op (op.landing target) ∧
        ∀ main, ((Listing.function? main p).isSome ↔ p.Listable) ∧
          ∀ text, Listing.function? main p = some text → ∃ front back,
            text = front ++ ("\t" ++ toString (pc + 1) ++ "\t[" ++
              ((p.lineAt? pc).map fun line => toString line.toNat).getD "-" ++ "]\t" ++
              op.name.pushn ' ' (9 - op.name.length) ++ "\t" ++
              toString w.a ++ " " ++ toString ((target : Int) - (pc + 1)) ++
              "\t; to " ++ toString (target + 1) ++ "\n") ++ back := by
  have register : w.a < 2 ^ 8 := w.field_lt 6 8
  have biased (n : Int) : (n % 2 ^ 18).toNat < 2 ^ 18 := by omega
  have eq := patchJump_eq held named reach
  generalize made : Word.ofAsBx op w.a ((target : Int) - (pc + 1)) = jump at eq
  have opcode : jump.opcode? = some op := made ▸ Word.opcode?_ofABx register (biased _)
  have same : jump.a = w.a := made ▸ Word.a_ofABx register (biased _)
  have offset : jump.sbx = (target : Int) - (pc + 1) := made ▸ Word.sbx_ofAsBx register reach
  have leads : (pc : Int) + 1 + jump.sbx = target := by omega
  refine ⟨by rw [eq, Option.isSome_ite], fun b' patched => ?_⟩
  rw [eq, Option.ite_none_right_eq_some] at patched
  obtain ⟨-, patched⟩ := patched
  obtain rfl := Option.some.inj patched
  refine ⟨jump, rfl, fun i => ?_, opcode, same, fun p code => ⟨?_, fun main => ⟨?_, ?_⟩⟩⟩
  · have room : pc < b.proto.code.size := (Array.getElem?_eq_some_iff.1 held).1
    rw [Array.getElem?_setIfInBounds, if_pos room]
    simp only [eq_comm]
  · exact leads_of_offset code opcode jumps leads
  · exact Listing.function?_isSome main p
  · intro text listed
    obtain ⟨front, back, split⟩ := Listing.codeLine_infix code listed
    refine ⟨front, back, ?_⟩
    rw [split, Listing.codeLine_jump p.toRoutine opcode jumps leads, same, offset]

-- A jump that goes as far as one can, and a local variable that lives to the last position.
def farthest : Builder :=
  ⟨{ source := "=far", code := #[.ofAsBx .jmp 0 131072] }, 0⟩

def farthestState : State :=
  { NumericLoop.bareState .nil .nil .nil with
    functions := #[⟨.script farthest.proto, #[]⟩] }

theorem patchJump_agrees_farthest :
    ((start "=far").emit (.ofAsBx .jmp 0 0)).2.patchJump 0 131073 = some farthest ∧
    (∃ t, Machine.Advances (Machine.call Command.noHost) farthestState t ∧
      t.frame.pc = 131073) ∧
    ∃ front back, farthest.proto.listing? =
      some (front ++ "\t1\t[-]\tJMP      \t0 131072\t; to 131074\n" ++ back) := by
  have held : ((start "=far").emit (.ofAsBx .jmp 0 0)).2.proto.code[0]? =
    some (.ofAsBx .jmp 0 0) := rfl
  have reach : Word.Reach ((131073 : Nat) - ((0 : Nat) + 1)) := by decide
  have patched : ((start "=far").emit (.ofAsBx .jmp 0 0)).2.patchJump 0 131073 = some farthest :=
    rfl
  obtain ⟨jump, -, code, -, -, agrees⟩ :=
    (patchJump_agrees held (by decide) .jmp reach).2 farthest patched
  obtain ⟨leads, listed⟩ := agrees farthest.proto (code 0)
  have here : Machine.At farthest.proto 1 0 farthestState := ⟨⟨_, _, rfl, rfl⟩, rfl, rfl⟩
  refine ⟨patched, ?_, ?_⟩
  · obtain ⟨t, advances⟩ := leads.taken here .jmp (by decide)
    exact ⟨t, advances, (leads.lands here advances .jmp).pc_eq⟩
  · have listable : farthest.proto.Listable := by
      rw [Prototype.listable_iff]
      simp [farthest]
    obtain ⟨text, shown⟩ := Option.isSome_iff_exists.1 ((listed true).1.2 listable)
    obtain ⟨front, back, line⟩ := (listed true).2 text shown
    refine ⟨front, back, shown.trans ?_⟩
    rw [line]
    congr 3

theorem patchJump_agrees_unlisted :
    ∃ b, (((start "=far").emit (.ofAsBx .jmp 0 0)).2.localVariable ⟨"x", 0, 4294967295⟩).patchJump
      0 131073 = some b ∧ b.proto.listing? = none :=
  ⟨_, rfl, rfl⟩

end Builder

end LuaMachine
