import LuaMachine.Machine.Run
import LuaMachine.Proofs.Balanced

set_option autoImplicit false

namespace LuaMachine

open LuaMachine.Frame (SameButTop)

-- Operations on values: they reach the stack only by asking handlers.
inductive Asks (call : Call) : {α : Type} → Vm α → Prop where
  | bind {α β : Type} {x : Vm α} {f : α → Vm β} :
    Asks call x → (∀ a, Asks call (f a)) → Asks call (x >>= f)
  | inspect {α : Type} (f : State → α) : Asks call (fun s => .ok (f s) s : Vm α)
  | raise {α : Type} (e : LuaError) : Asks call (Vm.raise e : Vm α)
  | modifyTable (t : TableId) (f : Table → Table) : Asks call (Vm.modifyTable t f)
  | callHandler (h : Value) (args : List Value) : Asks call (Operation.callHandler call h args)

/-- What a host and its functions may do. No action takes up an error that another has raised, so
an error ends the function. -/
inductive Interface (call : Call) : {α : Type} → Vm α → Prop where
  | asks {α : Type} {x : Vm α} : Asks call x → Interface call x
  | bind {α β : Type} {x : Vm α} {f : α → Vm β} :
    Interface call x → (∀ a, Interface call (f a)) → Interface call (x >>= f)
  | read (slot : Nat) : Interface call (Vm.read slot)
  | push (v : Value) : Interface call (Window.push v)
  | pop : Interface call Window.pop
  | resize (n : Nat) : Interface call (Window.resize n)
  | insert (i : Int) : Interface call (Window.insert i)
  | pushNative (f : Native) (captured : Nat) : Interface call (Window.pushNative f captured)
  | newTable (t : Table) : Interface call (Vm.newTable t)
  | newNative (f : Native) (captured : List Value) : Interface call (Vm.newNative f captured)
  | print (f : Array UInt8 → Array UInt8) :
    Interface call (modify fun s => { s with output := f s.output })
  | loadPrototype (p : Prototype) : Interface call (Machine.loadPrototype p)
  | host (nargs : Nat) (wanted : Option Nat) : Interface call (Call.host call nargs wanted)
  | attempt (nargs : Nat) (wanted : Option Nat) : Interface call (Call.attempt call nargs wanted)
  | overflow {α : Type} : Interface call (throw .overflow : Vm α)

def Host.Propagates (host : Host) : Prop := ∀ name call, Interface call (host name call)

/-- An error that the machine may still give a place, and not the one of a call that ends although
no other waits for it. -/
structure LuaError.Ordinary (e : LuaError) : Prop where
  bare : e.isLocated = false
  ne_underflow : e ≠ .runtime .callStackUnderflow

-- The same with ordinary errors only.
inductive Operates (call : Call) : {α : Type} → Vm α → Prop where
  | bind {α β : Type} {x : Vm α} {f : α → Vm β} :
    Operates call x → (∀ a, Operates call (f a)) → Operates call (x >>= f)
  | inspect {α : Type} (f : State → α) : Operates call (fun s => .ok (f s) s : Vm α)
  | raise {α : Type} {e : LuaError} : e.Ordinary → Operates call (Vm.raise e : Vm α)
  | modifyTable (t : TableId) (f : Table → Table) : Operates call (Vm.modifyTable t f)
  | callHandler (h : Value) (args : List Value) :
    Operates call (Operation.callHandler call h args)

inductive Library (own : LuaError → Prop) (call : Call) : {α : Type} → Vm α → Prop where
  | operates {α : Type} {x : Vm α} : Operates call x → Library own call x
  | bind {α β : Type} {x : Vm α} {f : α → Vm β} :
    Library own call x → (∀ a, Library own call (f a)) → Library own call (x >>= f)
  | raise {α : Type} {e : LuaError} : own e → Library own call (Vm.raise e : Vm α)
  | silent {α : Type} {x : Vm α} : Interface call x → Unraised x → Library own call x
  | host (nargs : Nat) (wanted : Option Nat) : Library own call (Call.host call nargs wanted)
  | attempt (nargs : Nat) (wanted : Option Nat) : Library own call (Call.attempt call nargs wanted)

inductive Windowed (call : Call) : {α : Type} → Vm α → Prop where
  | operates {α : Type} {x : Vm α} : Operates call x → Windowed call x
  | bind {α β : Type} {x : Vm α} {f : α → Vm β} :
    Windowed call x → (∀ a, Windowed call (f a)) → Windowed call (x >>= f)
  | value (i : Int) : Windowed call (Window.value i)
  | typeName (i : Int) : Windowed call (Window.typeName i)
  | checkAny (i : Nat) : Windowed call (Window.checkAny i)
  | push (v : Value) : Windowed call (Window.push v)
  | resize (n : Nat) : Windowed call (Window.resize n)
  | insert (i : Int) : Windowed call (Window.insert i)
  | pushNative (f : Native) (captured : Nat) : Windowed call (Window.pushNative f captured)
  | print (f : Array UInt8 → Array UInt8) :
    Windowed call (modify fun s => { s with output := f s.output })
  | host (nargs : Nat) (wanted : Option Nat) : Windowed call (Call.host call nargs wanted)
  | attempt (nargs : Nat) (wanted : Option Nat) : Windowed call (Call.attempt call nargs wanted)

theorem LuaError.Ordinary.of_fault {f : Fault} (other : f ≠ .callStackUnderflow) :
    (LuaError.runtime f).Ordinary :=
  ⟨rfl, fun same => other (LuaError.runtime.inj same)⟩

theorem Operates.asks {call : Call} {α : Type} {x : Vm α} (operates : Operates call x) :
    Asks call x := by
  induction operates with
  | bind _ _ first rest => exact .bind first rest
  | inspect f => exact .inspect f
  | raise _ => exact .raise _
  | modifyTable t f => exact .modifyTable t f
  | callHandler h args => exact .callHandler h args

theorem Library.interface {own : LuaError → Prop} {call : Call} {α : Type} {x : Vm α}
    (library : Library own call x) : Interface call x := by
  induction library with
  | operates operates => exact .asks operates.asks
  | bind _ _ first rest => exact .bind first rest
  | raise _ => exact .asks (.raise _)
  | silent interface _ => exact interface
  | host nargs wanted => exact .host nargs wanted
  | attempt nargs wanted => exact .attempt nargs wanted

theorem Asks.acts {call : Call} (balanced : call.Balanced) {α : Type} {x : Vm α}
    (asks : Asks call x) (base : Nat) : Acts Eq base x := by
  induction asks with
  | bind _ _ first rest => exact .bind first rest
  | inspect f => exact .of_quiet (.inspect f)
  | raise e => exact .of_quiet (.stop (.raised e))
  | modifyTable t f => exact .of_quiet (.modifyTable t f)
  | callHandler h args => exact .callHandler balanced h args

namespace Machine

open Vm

def makeMain (p : Prototype) : Vm FunctionId := do
  let cells ← newCells (List.replicate p.captures.size .nil)
  match cells with
  | env :: _ => writeCell env (.table (← get).globals)
  | [] => pure ()
  newFunction ⟨.script p, cells.toArray⟩

theorem loadPrototype_eq (p : Prototype) :
    loadPrototype p = makeMain p >>= fun f => Window.push (.function f) := by
  unfold loadPrototype makeMain
  rw [bind_assoc]
  refine bind_congr fun cells => ?_
  cases cells with
  | nil => rfl
  | cons env rest =>
    dsimp only
    simp only [bind_assoc]

theorem makeMain_quiet (p : Prototype) (low : Nat) : Quiet low (makeMain p) := by
  refine .bind (.newCells _) fun cells => ?_
  cases cells with
  | nil => exact .newFunction _
  | cons env rest =>
    exact .bind (.inspect id) fun s => .bind (.writeCell env _) fun _ => .newFunction _

end Machine

theorem Acts.loadPrototype {base : Nat} (p : Prototype) :
    Acts SameButTop base (Machine.loadPrototype p) := by
  rw [Machine.loadPrototype_eq]
  exact bind (of_quiet (Machine.makeMain_quiet p base)) fun f => push (.function f)

theorem Interface.acts {call : Call} (balanced : call.Balanced) {α : Type} {x : Vm α}
    (interface : Interface call x) (base : Nat) : Acts SameButTop base x := by
  induction interface with
  | asks asks => exact .of_eq (asks.acts balanced base)
  | bind _ _ first rest => exact .bind first rest
  | read slot => exact .of_quiet (.read slot)
  | push v => exact .push v
  | pop => exact .pop
  | resize n => exact .resize n
  | insert i => exact .insert i
  | pushNative f captured => exact .pushNative f captured
  | newTable t => exact .of_quiet (.newTable t)
  | newNative f captured => exact .of_quiet (.newNative f captured)
  | print f => exact .of_quiet (.heap (fun _ => rfl) (fun _ => rfl) fun _ => rfl)
  | loadPrototype p => exact .loadPrototype p
  | host nargs wanted => exact .host balanced nargs wanted
  | attempt nargs wanted => exact .attempt balanced nargs wanted
  | overflow => exact .of_quiet (.stop .overflow)

theorem Arith.raw_error {op : ArithOp} {a b : Value} {e : LuaError}
    (failed : raw op a b = .error e) : e.Ordinary := by
  have ints_error {x y : Int64} (failed : ints op x y = .error e) : e.Ordinary := by
    unfold ints at failed
    split at failed <;> try cases failed
    all_goals
      split at failed <;> cases failed
      exact ⟨rfl, nofun⟩
  unfold raw at failed
  split at failed
  · split at failed <;> cases failed
  · split at failed
    next x y _ _ =>
      cases counted : ints op x y with
      | error e' =>
        rw [counted] at failed
        cases failed
        exact ints_error counted
      | ok r =>
        rw [counted] at failed
        cases r <;> cases failed
    all_goals cases failed

theorem Operation.arithError_ordinary (op : ArithOp) (a b : Value) :
    (arithError op a b).Ordinary := by
  unfold arithError
  split
  · split <;> exact ⟨rfl, nofun⟩
  · exact ⟨rfl, nofun⟩

namespace Operates

variable {call : Call} {α β : Type}

theorem pure (a : α) : Operates call (pure a : Vm α) := inspect fun _ => a

theorem fault (f : Fault) (other : f ≠ .callStackUnderflow := by nofun) :
    Operates call (Vm.fault f : Vm α) := raise (.of_fault other)

theorem handler (v : Value) (event : String) : Operates call (Vm.handler v event) :=
  inspect fun s => s.handler v event

theorem handler₂ (a b : Value) (event : String) : Operates call (Vm.handler₂ a b event) :=
  inspect fun s => s.handler₂ a b event

theorem index (t k : Value) : Operates call (Operation.index call t k) := by
  have within (links : Nat) (t : Value) : Operates call (Operation.indexWithin call k links t) := by
    induction links generalizing t with
    | zero => exact fault _
    | succ links ih =>
      refine bind (inspect id) fun s => ?_
      dsimp only
      refine iteInduction (fun _ => pure _) fun _ => ?_
      split
      · split
        · exact pure _
        · exact raise ⟨rfl, nofun⟩
      · exact callHandler _ _
      · exact ih _
  exact bind (inspect id) fun s => within _ t

theorem rawPut (t : TableId) (k v : Value) : Operates call (Operation.rawPut t k v) := by
  unfold Operation.rawPut
  split
  · exact modifyTable t _
  · exact raise ⟨rfl, nofun⟩

theorem setIndex (t k v : Value) : Operates call (Operation.setIndex call t k v) := by
  have within (links : Nat) (t : Value) :
      Operates call (Operation.setIndexWithin call k v links t) := by
    induction links generalizing t with
    | zero => exact fault _
    | succ links ih =>
      refine bind (inspect id) fun s => ?_
      dsimp only
      split
      · split
        · exact rawPut _ k v
        · exact raise ⟨rfl, nofun⟩
      · exact bind (callHandler _ _) fun _ => pure _
      · exact ih _
  exact bind (inspect id) fun s => within _ t

theorem arith (op : ArithOp) (a b : Value) : Operates call (Operation.arith call op a b) := by
  unfold Operation.arith
  split
  next e failed => exact raise (Arith.raw_error failed)
  next => exact pure _
  next =>
    refine bind (handler₂ a b _) fun h => ?_
    split
    · exact raise (Operation.arithError_ordinary op a b)
    · exact callHandler h _

theorem equals (a b : Value) : Operates call (Operation.equals call a b) := by
  unfold Operation.equals
  split
  · exact pure _
  · split
    · refine bind (handler₂ _ _ _) fun h => ?_
      split
      · exact pure _
      · exact bind (callHandler h _) fun _ => pure _
    · exact pure _

theorem lessThan (a b : Value) : Operates call (Operation.lessThan call a b) := by
  unfold Operation.lessThan
  split
  · exact pure _
  · refine bind (handler₂ a b _) fun h => ?_
    split
    · exact raise ⟨rfl, nofun⟩
    · exact bind (callHandler h _) fun _ => pure _

theorem lessEqual (a b : Value) : Operates call (Operation.lessEqual call a b) := by
  unfold Operation.lessEqual
  split
  · exact pure _
  · refine bind (handler₂ a b _) fun h => ?_
    split
    · exact bind (callHandler h _) fun _ => pure _
    · refine bind (handler₂ b a _) fun h => ?_
      split
      · exact raise ⟨rfl, nofun⟩
      · exact bind (callHandler h _) fun _ => pure _

theorem length (v : Value) : Operates call (Operation.length call v) := by
  unfold Operation.length
  split
  · exact pure _
  · refine bind (handler v _) fun h => ?_
    split
    · exact callHandler h _
    · split
      · exact bind (inspect _) fun _ => pure _
      · exact raise ⟨rfl, nofun⟩

theorem concatPair (a b : Value) : Operates call (Operation.concatPair call a b) := by
  unfold Operation.concatPair
  split
  · exact pure _
  · refine bind (handler₂ a b _) fun h => ?_
    split
    · exact raise ⟨rfl, nofun⟩
    · exact callHandler h _

theorem badArgument (i : Nat) (complaint : String) :
    Operates call (Window.badArgument i complaint : Vm α) := by
  change Operates call (get >>= fun s =>
    Vm.fault (.badArgument i (Window.functionName? s) complaint) : Vm α)
  exact bind (inspect id) fun s => fault _

theorem concat (values : List Value) : Operates call (Operation.concat call values) := by
  have onto (acc : Value) (rest : List Value) :
      Operates call (Operation.concatOnto call acc rest) := by
    induction rest generalizing acc with
    | nil => exact pure acc
    | cons v rest ih => exact bind (concatPair v acc) fun acc => ih acc
  unfold Operation.concat
  split
  · exact pure _
  · split
    · exact pure _
    · exact onto _ _

theorem tostring (v : Value) : Operates call (Operation.tostring call v) := by
  refine bind (handler v _) fun h => ?_
  split
  · refine bind (callHandler h _) fun text => ?_
    split
    · exact pure _
    · exact fault _
  · split
    · exact pure _
    · exact bind (inspect id) fun _ => pure _

end Operates

namespace Window

theorem push_unraised (v : Value) : Unraised (push v) :=
  .bind (.inspect State.frame) fun _ => .bind (.reserveWithHeadroom _) fun _ =>
    .bind (.write _ v) fun _ => .modify _

theorem resize_unraised (n : Nat) : Unraised (resize n) :=
  .bind (.inspect State.frame) fun _ => .bind (.modify _) fun _ =>
    .bind (.clear _ _) fun _ => .modify _

theorem insert_unraised (i : Int) : Unraised (insert i) := by
  refine .bind (.inspect State.frame) fun f => ?_
  split
  · exact .pure ()
  · exact .bind (.read _) fun v => .bind (.shiftUp _ _) fun _ => .write _ v

theorem pushNative_unraised (f : Native) (captured : Nat) : Unraised (pushNative f captured) :=
  .bind (.inspect State.frame) fun _ => .bind (.readMany _ _) fun values =>
    .bind (.modify _) fun _ => .bind (.newNative f values) fun _ => push_unraised _

end Window

namespace Library

variable {own : LuaError → Prop} {call : Call} {α : Type}

theorem pure (a : α) : Library own call (pure a : Vm α) := operates (.pure a)

theorem inspect (f : State → α) : Library own call (fun s => .ok (f s) s : Vm α) :=
  operates (.inspect f)

theorem read (slot : Nat) : Library own call (Vm.read slot) := silent (.read slot) (.read slot)

theorem push (v : Value) : Library own call (Window.push v) :=
  silent (.push v) (Window.push_unraised v)

theorem resize (n : Nat) : Library own call (Window.resize n) :=
  silent (.resize n) (Window.resize_unraised n)

theorem insert (i : Int) : Library own call (Window.insert i) :=
  silent (.insert i) (Window.insert_unraised i)

theorem pushNative (f : Native) (captured : Nat) :
    Library own call (Window.pushNative f captured) :=
  silent (.pushNative f captured) (Window.pushNative_unraised f captured)

theorem print (f : Array UInt8 → Array UInt8) :
    Library own call (modify fun s => { s with output := f s.output }) :=
  silent (.print f) (.modify _)

theorem frame : Library own call Vm.frame := inspect fun s => s.frame

theorem value (i : Int) : Library own call (Window.value i) := by
  refine bind frame fun f => ?_
  split
  · exact read _
  · exact pure _

theorem typeName (i : Int) : Library own call (Window.typeName i) := by
  refine bind frame fun f => ?_
  split
  · exact bind (read _) fun _ => pure _
  · exact pure _

theorem checkAny (i : Nat) : Library own call (Window.checkAny i) := by
  refine bind frame fun f => ?_
  split
  · exact read _
  · exact operates (.badArgument i _)

end Library

theorem Windowed.library {own : LuaError → Prop} {call : Call} {α : Type} {x : Vm α}
    (windowed : Windowed call x) : Library own call x := by
  induction windowed with
  | operates operates => exact .operates operates
  | bind _ _ first rest => exact .bind first rest
  | value i => exact .value i
  | typeName i => exact .typeName i
  | checkAny i => exact .checkAny i
  | push v => exact .push v
  | resize n => exact .resize n
  | insert i => exact .insert i
  | pushNative f captured => exact .pushNative f captured
  | print f => exact .print f
  | host nargs wanted => exact .host nargs wanted
  | attempt nargs wanted => exact .attempt nargs wanted

namespace Windowed

variable {call : Call} {α : Type}

theorem interface {x : Vm α} (windowed : Windowed call x) : Interface call x :=
  (windowed.library : Library LuaError.Ordinary call x).interface

theorem pure (a : α) : Windowed call (pure a : Vm α) := operates (.pure a)

theorem inspect (f : State → α) : Windowed call (fun s => .ok (f s) s : Vm α) :=
  operates (.inspect f)

theorem fault (f : Fault) (other : f ≠ .callStackUnderflow := by nofun) :
    Windowed call (Vm.fault f : Vm α) :=
  operates (.fault f other)

theorem size : Windowed call Window.size := inspect fun s => s.frame.size

theorem badArgument (i : Nat) (complaint : String) :
    Windowed call (Window.badArgument i complaint : Vm α) := operates (.badArgument i complaint)

theorem badType (i : Nat) (expected : String) :
    Windowed call (Window.badType i expected : Vm α) :=
  bind (typeName i) fun _ => badArgument i _

theorem checkTable (i : Nat) : Windowed call (Window.checkTable i) := by
  refine bind (value i) fun v => ?_
  split
  · exact pure _
  · exact badType i _

theorem checkInteger (i : Nat) : Windowed call (Window.checkInteger i) := by
  refine bind (value i) fun v => ?_
  split
  · exact pure _
  · split
    · exact badArgument i _
    · exact badType i _

theorem optInteger (i : Nat) (default : Int64) :
    Windowed call (Window.optInteger i default) := by
  refine bind (value i) fun v => ?_
  split
  · exact pure _
  · exact checkInteger i

theorem tostring (v : Value) : Windowed call (Operation.tostring call v) := operates (.tostring v)

theorem handler (v : Value) (event : String) : Windowed call (Vm.handler v event) :=
  operates (.handler v event)

theorem modifyTable (t : TableId) (f : Table → Table) : Windowed call (Vm.modifyTable t f) :=
  operates (.modifyTable t f)

theorem tableAt (t : TableId) : Windowed call (Vm.tableAt t) := inspect fun s => s.table t

theorem setMetatable (v : Value) (m : Option TableId) : Windowed call (Vm.setMetatable v m) := by
  unfold Vm.setMetatable
  split
  · exact modifyTable _ _
  · exact bind (inspect id) fun s => modifyTable _ _

end Windowed

namespace Base

open Windowed

variable (call : Call)

theorem lineFrom_windowed (n i : Nat) : Windowed call (lineFrom call n i) := by
  induction n generalizing i with
  | zero => exact .pure _
  | succ n ih =>
    refine .bind (value i) fun v => .bind (.tostring v) fun text => ?_
    exact .bind (ih (i + 1)) fun rest => .pure _

theorem print_windowed : Windowed call (print call) := by
  refine .bind size fun n => .bind (lineFrom_windowed call n 1) fun line => ?_
  exact .bind (.print fun output => (output ++ line).push 10) fun _ => .pure 0

theorem tonumber_windowed : Windowed call tonumber := by
  refine .bind (value 2) fun base => ?_
  split
  · exact .bind (checkAny 1) fun v => .bind (push _) fun _ => .pure 1
  · refine .bind (checkInteger 2) fun base => .bind (value 1) fun v => ?_
    split
    · split
      · exact badArgument 2 _
      · exact .bind (push _) fun _ => .pure 1
    · exact badType 1 _

theorem pcall_windowed : Windowed call (pcall call) :=
  .bind (checkAny 1) fun _ => .bind size fun n => .bind (attempt (n - 1) none) fun ok =>
    .bind (push (.bool ok)) fun _ => .bind (insert 1) fun _ => size

theorem select_windowed : Windowed call select := by
  refine .bind size fun n => .bind (value 1) fun first => ?_
  split
  · exact .bind (push _) fun _ => .pure 1
  · refine .bind (checkInteger 1) fun i => ?_
    split
    · exact .pure _
    · exact badArgument 1 _

theorem next_windowed : Windowed call next := by
  refine .bind (checkTable 1) fun t => .bind (value 2) fun k => .bind (tableAt t) fun table => ?_
  refine .bind (modifyTable t _) fun _ => ?_
  split
  · exact .operates (.raise ⟨rfl, nofun⟩)
  · exact .bind (push _) fun _ => .bind (push _) fun _ => .pure 2
  · exact .bind (push _) fun _ => .pure 1

theorem pairs_windowed : Windowed call (pairs call) := by
  refine .bind (checkAny 1) fun v => .bind (handler v _) fun h => ?_
  split
  · exact .bind (push h) fun _ => .bind (push v) fun _ => .bind (host 1 (some 3)) fun _ => .pure 3
  · exact .bind (pushNative _ 0) fun _ => .bind (push v) fun _ => .bind (push .nil) fun _ => .pure 3

theorem ipairsStep_windowed : Windowed call (ipairsStep call) := by
  refine .bind (checkInteger 2) fun i => .bind (push _) fun _ => .bind (value 1) fun t => ?_
  exact .bind (.operates (.index t _)) fun v => .bind (push v) fun _ => .pure _

theorem getmetatable_windowed : Windowed call getmetatable := by
  refine .bind (checkAny 1) fun v => .bind (.inspect id) fun s => ?_
  exact .bind (handler v _) fun guard => .bind (push _) fun _ => .pure 1

theorem setmetatable_windowed : Windowed call setmetatable := by
  have assign (t : TableId) (m : Option TableId) : Windowed call (do
      if !(← Vm.handler (.table t) "__metatable").isNil then Vm.fault .protectedMetatable
      Vm.setMetatable (.table t) m
      Window.resize 1
      return 1) := by
    have store : Windowed call (do Vm.setMetatable (.table t) m; Window.resize 1; return 1) :=
      .bind (setMetatable _ m) fun _ => .bind (resize 1) fun _ => .pure 1
    refine .bind (handler _ _) fun guard => ?_
    split
    · exact .bind (.fault _) fun _ => store
    · exact store
  refine .bind (checkTable 1) fun t => .bind (value 2) fun m => ?_
  split
  · exact .bind (.pure _) fun m => assign t m
  · exact .bind (.pure _) fun m => assign t m
  · exact .bind (badArgument 2 _) fun m => assign t m

theorem rawlen_windowed : Windowed call rawlen := by
  refine .bind (value 1) fun v => ?_
  split
  · exact .bind (tableAt _) fun _ => .bind (push _) fun _ => .pure 1
  · exact .bind (push _) fun _ => .pure 1
  · exact .bind (badArgument 1 _) fun _ => .pure 1

theorem run_windowed {f : BaseFunction} (notError : f ≠ .error) (notAssert : f ≠ .assert) :
    Windowed call (run call f) := by
  cases f with
  | print => exact print_windowed call
  | type => exact .bind (checkAny 1) fun _ => .bind (push _) fun _ => .pure 1
  | tostring =>
    exact .bind (checkAny 1) fun v => .bind (.tostring v) fun _ => .bind (push _) fun _ => .pure 1
  | tonumber => exact tonumber_windowed call
  | assert => exact absurd rfl notAssert
  | error => exact absurd rfl notError
  | pcall => exact pcall_windowed call
  | select => exact select_windowed call
  | next => exact next_windowed call
  | pairs => exact pairs_windowed call
  | ipairs =>
    exact .bind (checkAny 1) fun v => .bind (pushNative _ 0) fun _ => .bind (push v) fun _ =>
      .bind (push _) fun _ => .pure 3
  | getmetatable => exact getmetatable_windowed call
  | setmetatable => exact setmetatable_windowed call
  | rawget =>
    exact .bind (checkTable 1) fun t => .bind (checkAny 2) fun k => .bind (tableAt t) fun _ =>
      .bind (push _) fun _ => .pure 1
  | rawset =>
    exact .bind (checkTable 1) fun t => .bind (checkAny 2) fun k => .bind (checkAny 3) fun v =>
      .bind (.operates (.rawPut t k v)) fun _ => .bind (resize 1) fun _ => .pure 1
  | rawequal =>
    exact .bind (checkAny 1) fun a => .bind (checkAny 2) fun b => .bind (push _) fun _ => .pure 1
  | rawlen => exact rawlen_windowed call
  | ipairsStep => exact ipairsStep_windowed call

-- What `error` and `assert` raise is a value.
theorem raiseValue_interface {α : Type} (message : Value) (level : Int64) :
    Interface call (raiseValue message level : Vm α) := by
  refine .bind (.asks (.inspect id)) fun _ => ?_
  split
  · exact .asks (.raise _)
  · exact .overflow

theorem assert_interface : Interface call assert := by
  refine .bind (checkAny 1).interface fun condition => .bind size.interface fun n => ?_
  split
  · exact (Windowed.pure n).interface
  · split
    · exact .bind (value 2).interface fun message => raiseValue_interface call message 1
    · exact raiseValue_interface call _ 1

theorem error_interface : Interface call error :=
  .bind (optInteger 2 1).interface fun level => .bind (value 1).interface fun message =>
    raiseValue_interface call message level

theorem run_interface (f : BaseFunction) : Interface call (run call f) := by
  by_cases isError : f = .error
  · subst isError
    exact error_interface call
  · by_cases isAssert : f = .assert
    · subst isAssert
      exact assert_interface call
    · exact (run_windowed call isError isAssert).interface

end Base

end LuaMachine
