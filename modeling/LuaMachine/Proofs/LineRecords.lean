import LuaMachine.Proofs.Building

set_option autoImplicit false

namespace LuaMachine

namespace Builder

namespace Op

def line? : Op → Option UInt32
  | .setLine line => some line
  | _ => none

def emits : Op → Bool
  | .emit _ => true
  | _ => false

theorem record_cases (op : Op) :
    (∃ line, op = .setLine line) ∨ (∃ w, op = .emit w) ∨ (op.line? = none ∧ op.emits = false) := by
  cases op with
  | setLine line => exact .inl ⟨line, rfl⟩
  | emit w => exact .inr (.inl ⟨w, rfl⟩)
  | _ => exact .inr (.inr ⟨rfl, rfl⟩)

end Op

def lineSet? (ops : List Op) : Option UInt32 := (ops.filterMap Op.line?).getLast?

def emitted (ops : List Op) : Nat := ops.countP Op.emits

def built (source : String) (ops : List Op) : Prototype := ((start source).after ops).proto

variable {b : Builder} {op : Op} {line : UInt32} {ops before later : List Op}

@[simp] theorem lineSet?_append (before later : List Op) :
    lineSet? (before ++ later) = (lineSet? later).or (lineSet? before) := by
  simp [lineSet?, List.getLast?_append]

@[simp] theorem lineSet?_nil : lineSet? [] = none := rfl

@[simp] theorem lineSet?_cons (op : Op) (ops : List Op) :
    lineSet? (op :: ops) = (lineSet? ops).or op.line? := by
  have single : lineSet? [op] = op.line? := by cases op <;> rfl
  rw [← single]
  exact lineSet?_append [op] ops

@[simp] theorem emitted_append (before later : List Op) :
    emitted (before ++ later) = emitted before + emitted later := List.countP_append

@[simp] theorem emitted_nil : emitted [] = 0 := rfl

@[simp] theorem emitted_cons (op : Op) (ops : List Op) :
    emitted (op :: ops) = emitted ops + if op.emits then 1 else 0 := List.countP_cons

theorem lineSet?_split (set : lineSet? ops = some line) :
    ∃ before later, ops = before ++ .setLine line :: later ∧ lineSet? later = none := by
  induction ops with
  | nil => cases set
  | cons op ops ih =>
    cases rest : lineSet? ops with
    | some last =>
      have same : last = line := by simpa [rest] using set
      subst same
      obtain ⟨before, later, split, unset⟩ := ih rest
      exact ⟨op :: before, later, congrArg (op :: ·) split, unset⟩
    | none =>
      cases op with
      | setLine last =>
        have same : last = line := by simpa [rest, Op.line?] using set
        subst same
        exact ⟨[], ops, rfl, rest⟩
      | _ => simp [rest, Op.line?] at set

section Steps

structure SameRecords (b b' : Builder) : Prop where
  line : b'.line = b.line
  lines : b'.proto.lines = b.proto.lines
  size : b'.proto.code.size = b.proto.code.size

theorem constant_records (b : Builder) (c : Constant) : SameRecords b (b.constant c).2 := by
  obtain ⟨i, -, found⟩ | ⟨-, added⟩ := constant_cases b c
  · rw [found]
    exact ⟨rfl, rfl, rfl⟩
  · rw [added]
    exact ⟨rfl, rfl, rfl⟩

theorem perform_records (unset : op.line? = none) (emitless : op.emits = false) :
    SameRecords b (op.perform b).2 := by
  cases op with
  | setLine line => cases unset
  | emit w => cases emitless
  | patchJump pc target =>
    obtain same | ⟨w, patched⟩ := perform_patchJump b pc target
    · rw [same]
      exact ⟨rfl, rfl, rfl⟩
    · rw [patched]
      exact ⟨rfl, rfl, Array.size_setIfInBounds⟩
  | constant c => exact constant_records b c
  | int n => exact constant_records b (.int n)
  | float x => exact constant_records b (.float x)
  | str s => exact constant_records b (.str (Utf8.encode s))
  | _ => exact ⟨rfl, rfl, rfl⟩

theorem setLine_line (b : Builder) (line : UInt32) : (b.setLine line).line = line := by
  unfold setLine
  split <;> rfl

theorem setLine_code (b : Builder) (line : UInt32) :
    (b.setLine line).proto.code = b.proto.code := by
  unfold setLine
  split <;> rfl

theorem setLine_fills (paused : b.line = 0) (line : UInt32) :
    (b.setLine line).proto.lines = Array.replicate b.proto.code.size line := by
  simp [setLine, paused]

theorem setLine_keeps (recording : b.line ≠ 0) (line : UInt32) :
    (b.setLine line).proto.lines = b.proto.lines := by
  simp [setLine, recording]

theorem emit_paused (paused : b.line = 0) (w : Word) :
    (b.emit w).2.proto.lines = b.proto.lines := by
  simp [emit, paused]

theorem emit_recording (recording : b.line ≠ 0) (w : Word) :
    (b.emit w).2.proto.lines = b.proto.lines.push b.line := by
  simp [emit, recording]

end Steps

section Runs

/-- What the records of a builder have to do with the operations that made it. While a line other
than zero is set, every instruction has its record. -/
structure Tracks (b : Builder) (ops : List Op) : Prop where
  line : b.line = (lineSet? ops).getD 0
  size : b.proto.code.size = emitted ops
  unset : lineSet? ops = none → b.proto.lines = #[]
  within : b.proto.lines.size ≤ b.proto.code.size
  aligned : b.line ≠ 0 → b.proto.lines.size = b.proto.code.size

namespace Tracks

theorem setLine_size (tracks : Tracks b ops) (line : UInt32) :
    (b.setLine line).proto.lines.size = b.proto.code.size := by
  by_cases paused : b.line = 0
  next => simp [setLine_fills paused]
  next => simpa [setLine_keeps paused] using tracks.aligned paused

theorem setLine (tracks : Tracks b ops) (line : UInt32) :
    Tracks (b.setLine line) (ops ++ [.setLine line]) := by
  have size := tracks.setLine_size line
  rw [← setLine_code b line] at size
  constructor
  case line => simp [setLine_line, Op.line?]
  case size => simpa [setLine_code, Op.emits] using tracks.size
  case unset => simp [Op.line?]
  case within => exact Nat.le_of_eq size
  case aligned => exact fun _ => size

theorem emit (tracks : Tracks b ops) (w : Word) : Tracks (b.emit w).2 (ops ++ [.emit w]) := by
  have longer : (b.emit w).2.proto.code.size = b.proto.code.size + 1 := by simp [Builder.emit]
  constructor
  case line => simpa [Builder.emit, Op.line?] using tracks.line
  case size => simpa [longer, Op.emits] using tracks.size
  case unset =>
    intro unset
    have nothing : lineSet? ops = none := by simpa [Op.line?] using unset
    have paused : b.line = 0 := by simpa [nothing] using tracks.line
    rw [emit_paused paused]
    exact tracks.unset nothing
  case within =>
    have within := tracks.within
    by_cases paused : b.line = 0
    next =>
      rw [emit_paused paused, longer]
      omega
    next =>
      rw [emit_recording paused, longer, Array.size_push]
      omega
  case aligned =>
    intro recording
    change b.line ≠ 0 at recording
    rw [emit_recording recording, longer, Array.size_push, tracks.aligned recording]

theorem perform (tracks : Tracks b ops) (op : Op) : Tracks (op.perform b).2 (ops ++ [op]) := by
  obtain ⟨line, rfl⟩ | ⟨w, rfl⟩ | ⟨unset, emitless⟩ := op.record_cases
  · exact tracks.setLine line
  · exact tracks.emit w
  · have same : SameRecords b (op.perform b).2 := perform_records unset emitless
    constructor
    case line => simpa [same.line, unset] using tracks.line
    case size => simpa [same.size, emitless] using tracks.size
    case unset => simpa [same.lines, unset] using tracks.unset
    case within => simpa [same.lines, same.size] using tracks.within
    case aligned => simpa [same.line, same.lines, same.size] using tracks.aligned

theorem after (tracks : Tracks b before) (later : List Op) :
    Tracks (b.after later) (before ++ later) := by
  induction later generalizing b before with
  | nil => simpa [Builder.after] using tracks
  | cons op later ih =>
    have next := ih (tracks.perform op)
    simpa [Builder.after] using next

end Tracks

theorem after_tracks (source : String) (ops : List Op) :
    Tracks ((start source).after ops) ops := by
  have fresh : Tracks (start source) [] := by
    constructor <;> simp [start]
  simpa using fresh.after ops

-- Recorded lines stay in front of new ones, as long as no line is set in a pause; in a pause there
-- are no new ones.
theorem after_extends (b : Builder) (ops : List Op)
    (steady : ∀ before line later, ops = before ++ .setLine line :: later →
      (b.after before).line ≠ 0) :
    ∃ more, (b.after ops).proto.lines = b.proto.lines ++ more ∧ (b.line = 0 → more = #[]) := by
  induction ops generalizing b with
  | nil => exact ⟨#[], by simp [after], fun _ => rfl⟩
  | cons op ops ih =>
    obtain ⟨more, extended, idle⟩ := ih (op.perform b).2 (by
      intro before line later split
      exact steady (op :: before) line later (congrArg (op :: ·) split))
    change (b.after (op :: ops)).proto.lines = _ at extended
    rw [extended]
    obtain ⟨line, rfl⟩ | ⟨w, rfl⟩ | ⟨unset, emitless⟩ := op.record_cases
    · have recording : b.line ≠ 0 := steady [] line ops rfl
      have kept : (Op.perform b (.setLine line)).2.proto.lines = b.proto.lines :=
        setLine_keeps recording line
      exact ⟨more, by rw [kept], fun paused => absurd paused recording⟩
    · by_cases paused : b.line = 0
      next =>
        have kept : (Op.perform b (.emit w)).2.proto.lines = b.proto.lines := emit_paused paused w
        exact ⟨more, by rw [kept], idle⟩
      next =>
        have added : (Op.perform b (.emit w)).2.proto.lines = b.proto.lines.push b.line :=
          emit_recording paused w
        exact ⟨#[b.line] ++ more, by simp [added], fun stopped => absurd stopped paused⟩
    · have same : SameRecords b (op.perform b).2 := perform_records unset emitless
      exact ⟨more, by rw [same.lines], by simpa [same.line] using idle⟩

end Runs

section Records

variable {source : String} {pc : Nat}

/-- Zero is the line set last, with instructions before and after it. -/
def Interrupted (ops : List Op) : Prop :=
  ∃ before later, ops = before ++ .setLine 0 :: later ∧ lineSet? later = none ∧
    0 < emitted before ∧ 0 < emitted later

/-- A line is set later when zero is the line set last. -/
def Refills (before later : List Op) : Prop :=
  ∃ earlier line rest, later = earlier ++ .setLine line :: rest ∧
    lineSet? (before ++ earlier) = some 0

theorem not_refills_of_unset (before : List Op) (unset : lineSet? later = none) :
    ¬ Refills before later := by
  rintro ⟨earlier, line, rest, rfl, -⟩
  simp [Op.line?] at unset

theorem built_extends (source : String) (steady : ¬ Refills before later) :
    ∃ more, (built source (before ++ later)).lines = (built source before).lines ++ more ∧
      (lineSet? before = some 0 → more = #[]) := by
  cases set : lineSet? before with
  | none =>
    have nothing : (built source before).lines = #[] := (after_tracks source before).unset set
    exact ⟨(built source (before ++ later)).lines, by simp [nothing], fun zero => by cases zero⟩
  | some line =>
    have tracks := after_tracks source before
    obtain ⟨more, extended, idle⟩ := after_extends ((start source).after before) later (by
      intro earlier next rest split paused
      apply steady
      refine ⟨earlier, next, rest, split, ?_⟩
      have known : (lineSet? (before ++ earlier)).isSome := by simp [set]
      obtain ⟨last, latest⟩ := Option.isSome_iff_exists.1 known
      have zero : 0 = last := by simpa [paused, latest] using (tracks.after earlier).line
      rw [latest, zero])
    refine ⟨more, by simpa [built, after_append] using extended, ?_⟩
    intro zero
    apply idle
    simp [tracks.line, set, Option.some.inj zero]

theorem paused_size (source : String) (before : List Op) (unset : lineSet? later = none) :
    (built source (before ++ .setLine 0 :: later)).lines.size = emitted before := by
  have tracks := after_tracks source before
  obtain ⟨more, extended, idle⟩ :=
    built_extends source (not_refills_of_unset (before ++ [.setLine 0]) unset)
  have nothing : more = #[] := idle (by simp [Op.line?])
  have filled : (built source (before ++ [.setLine 0])).lines.size = emitted before := by
    rw [built, after_append, ← tracks.size]
    exact tracks.setLine_size 0
  simpa [nothing, filled] using congrArg Array.size extended

theorem aligned_iff (source : String) (ops : List Op) :
    (built source ops).lines = #[] ∨ (built source ops).lines.size = emitted ops ↔
      ¬ Interrupted ops := by
  constructor
  · rintro aligned ⟨before, later, rfl, unset, front, back⟩
    have size := paused_size source before unset
    obtain empty | full := aligned
    · rw [empty, Array.size_empty] at size
      omega
    · have total : emitted (before ++ .setLine 0 :: later) = emitted before + emitted later := by
        simp [Op.emits]
      rw [size, total] at full
      omega
  · intro uninterrupted
    have tracks := after_tracks source ops
    cases set : lineSet? ops with
    | none => exact .inl (tracks.unset set)
    | some line =>
      by_cases zero : line = 0
      next =>
        subst zero
        obtain ⟨before, later, rfl, unset⟩ := lineSet?_split set
        have size := paused_size source before unset
        obtain front | front := Nat.eq_zero_or_pos (emitted before)
        · left
          rw [front] at size
          exact Array.eq_empty_of_size_eq_zero size
        · right
          have back : emitted later = 0 := by
            apply Nat.eq_zero_of_not_pos
            intro more
            exact uninterrupted ⟨before, later, rfl, unset, front, more⟩
          simp [size, back, Op.emits]
      next =>
        have recording : ((start source).after ops).line ≠ 0 := by
          simpa [tracks.line, set] using zero
        exact .inr ((tracks.aligned recording).trans tracks.size)

theorem lineAt?_kept (recorded : (built source before).lineAt? pc = some line)
    (steady : ¬ Refills before later) :
    (built source (before ++ later)).lineAt? pc = some line := by
  obtain ⟨more, extended, -⟩ := built_extends source steady
  obtain ⟨inside, -⟩ := Array.getElem?_eq_some_iff.1 recorded
  rw [Routine.lineAt?, extended, Array.getElem?_append_left inside]
  exact recorded

theorem lineAt?_emitted (source : String) (set : lineSet? before = some line) (w : Word)
    (steady : ¬ Refills (before ++ [.emit w]) later) :
    (built source (before ++ .emit w :: later)).lineAt? (emitted before) = some line ↔
      line ≠ 0 := by
  have tracks := after_tracks source before
  have current : ((start source).after before).line = line := by simpa [set] using tracks.line
  have cut : before ++ .emit w :: later = (before ++ [.emit w]) ++ later := by simp
  rw [cut]
  constructor
  · rintro recorded rfl
    -- Zero was set last, so neither this nor any later operation adds a record.
    obtain ⟨more, extended, idle⟩ := built_extends source steady
    have nothing : more = #[] := idle (by simp [set, Op.line?])
    have paused : (built source (before ++ [.emit w])).lines = (built source before).lines := by
      rw [built, after_append]
      exact emit_paused current w
    have within : (built source before).lines.size ≤ emitted before := by
      rw [← tracks.size]
      exact tracks.within
    rw [Routine.lineAt?, extended, nothing, Array.append_empty, paused] at recorded
    obtain ⟨inside, -⟩ := Array.getElem?_eq_some_iff.1 recorded
    omega
  · intro nonzero
    have recording : ((start source).after before).line ≠ 0 := by rwa [current]
    apply lineAt?_kept ?_ steady
    have added : (built source (before ++ [.emit w])).lines =
        (built source before).lines.push line := by
      rw [built, after_append, ← current]
      exact emit_recording recording w
    have full : emitted before = (built source before).lines.size :=
      tracks.size.symm.trans (tracks.aligned recording).symm
    simp [Routine.lineAt?, added, full]

theorem lineAt?_filled (source : String) (zero : (lineSet? before).getD 0 = 0) (line : UInt32)
    (inside : pc < emitted before) :
    (built source (before ++ [.setLine line])).lineAt? pc = some line := by
  have tracks := after_tracks source before
  have filled : (built source (before ++ [.setLine line])).lines =
      Array.replicate (emitted before) line := by
    rw [built, after_append, ← tracks.size]
    exact setLine_fills (tracks.line.trans zero) line
  simp [Routine.lineAt?, filled, inside]

/-- There is no record or one for each instruction, unless zero is the line set last and
instructions stand before and after it. An instruction has the line set last before it just if that
is not zero, and a recorded line stays, until a line is set when zero is the line set last: that
one, like the first line of all, goes to every instruction so far. Neither exception arises if zero
is never set. -/
theorem lines_aligned (source : String) :
    (∀ ops, (built source ops).code.size = emitted ops ∧
      ((built source ops).lines = #[] ∨ (built source ops).lines.size = emitted ops ↔
        ¬ Interrupted ops)) ∧
    (∀ before w later line, lineSet? before = some line → ¬ Refills (before ++ [.emit w]) later →
      (Op.perform ((start source).after before) (.emit w)).1 = some (emitted before) ∧
      ((built source (before ++ .emit w :: later)).lineAt? (emitted before) = some line ↔
        line ≠ 0)) ∧
    (∀ before later pc line, (built source before).lineAt? pc = some line →
      ¬ Refills before later → (built source (before ++ later)).lineAt? pc = some line) ∧
    (∀ before line pc, (lineSet? before).getD 0 = 0 → pc < emitted before →
      (built source (before ++ [.setLine line])).lineAt? pc = some line) ∧
    ∀ before later, .setLine 0 ∉ before ++ later →
      ¬ Interrupted (before ++ later) ∧ ¬ Refills before later := by
  refine ⟨fun ops => ⟨(after_tracks source ops).size, aligned_iff source ops⟩, ?_, ?_, ?_, ?_⟩
  · intro before w later line set steady
    have next : ((start source).after before).pc = emitted before :=
      (after_tracks source before).size
    exact ⟨congrArg some next, lineAt?_emitted source set w steady⟩
  · intro before later pc line recorded steady
    exact lineAt?_kept recorded steady
  · intro before line pc zero inside
    exact lineAt?_filled source zero line inside
  · intro before later nonzero
    constructor
    · rintro ⟨front, back, split, -⟩
      simp [split] at nonzero
    · rintro ⟨earlier, line, rest, rfl, zero⟩
      obtain ⟨front, back, split, -⟩ := lineSet?_split zero
      rw [← List.append_assoc, split] at nonzero
      simp at nonzero

-- The first line set goes to the instruction before it as well, and the second leaves both records.
theorem lines_aligned_backfilled :
    lineSet? [.emit ⟨0⟩, .setLine 3] = some 3 ∧
    ¬ Refills [.emit ⟨0⟩, .setLine 3, .emit ⟨0⟩] [.setLine 4, .emit ⟨0⟩] ∧
    (built "" [.emit ⟨0⟩, .setLine 3, .emit ⟨0⟩, .setLine 4, .emit ⟨0⟩]).lineAt? 1 = some 3 ∧
    (built "" [.emit ⟨0⟩, .setLine 3]).lineAt? 0 = some 3 ∧
    (built "" [.emit ⟨0⟩, .setLine 3, .emit ⟨0⟩, .setLine 4, .emit ⟨0⟩]).lineAt? 0 = some 3 := by
  obtain ⟨-, recorded, kept, filled, nonzero⟩ := lines_aligned ""
  have set : lineSet? [.emit ⟨0⟩, .setLine 3] = some 3 := rfl
  have first := filled [.emit ⟨0⟩] 3 0 rfl (by decide)
  have steady := (nonzero [.emit ⟨0⟩, .setLine 3, .emit ⟨0⟩] [.setLine 4, .emit ⟨0⟩] (by simp)).2
  have steady' := (nonzero [.emit ⟨0⟩, .setLine 3] [.emit ⟨0⟩, .setLine 4, .emit ⟨0⟩] (by simp)).2
  have second := (recorded [.emit ⟨0⟩, .setLine 3] ⟨0⟩ [.setLine 4, .emit ⟨0⟩] 3 set steady).2
  exact ⟨set, steady, second.2 (by decide), first, kept _ _ 0 3 first steady'⟩

theorem lines_aligned_zero :
    (¬ ∀ ops, (built "" ops).lines = #[] ∨ (built "" ops).lines.size = emitted ops) ∧
    (¬ ∀ before w line, lineSet? before = some line →
      (built "" (before ++ [.emit w])).lineAt? (emitted before) = some line) ∧
    ¬ ∀ before later pc line, (built "" before).lineAt? pc = some line →
      (built "" (before ++ later)).lineAt? pc = some line := by
  refine ⟨fun aligned => ?_, fun recorded => ?_, fun kept => ?_⟩
  · exact absurd (aligned [.setLine 3, .emit ⟨0⟩, .setLine 0, .emit ⟨0⟩]) (by decide)
  · exact absurd (recorded [.setLine 3, .emit ⟨0⟩, .setLine 0] ⟨0⟩ 0 rfl) (by decide)
  · exact absurd (kept [.setLine 3, .emit ⟨0⟩] [.setLine 0, .setLine 5] 0 3 (by decide)) (by decide)

end Records

end Builder

end LuaMachine
