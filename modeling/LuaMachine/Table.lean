import LuaMachine.Value.Key

set_option autoImplicit false

namespace LuaMachine

structure Table where
  array : Array Value := #[]
  hash : List (Key × Value) := []
  metatable : Option TableId := none
  /-- The keys in the order of traversal, once one has begun; dropped when a key is added. -/
  order : Option (List Key) := none
  deriving Inhabited

namespace Table

def empty : Table := {}

def presized (_array _hash : Nat) : Table := empty

def slot? (t : Table) (i : Int64) : Option Value :=
  if 1 ≤ i then t.array[i.toNatClampNeg - 1]? else none

def getHash (t : Table) (k : Key) : Value := (t.hash.lookup k).getD .nil

def getKey (t : Table) (k : Key) : Value :=
  match k with
  | .int i => (t.slot? i).getD (t.getHash k)
  | _ => t.getHash k

def get (t : Table) (k : Value) : Value :=
  match Key.ofValue k with
  | .ok k => t.getKey k
  | .error _ => .nil

def getText (t : Table) (name : String) : Value := t.getKey (.ofText name)

def length (t : Table) : Nat := t.array.size

def keys (t : Table) : List Key :=
  (List.range t.array.size).map (fun i => .int (.ofNat (i + 1))) ++ t.hash.map (·.1)

def entries (t : Table) : List (Key × Value) :=
  t.array.toList.zipIdx.map (fun (v, i) => (.int (.ofNat (i + 1)), v)) ++ t.hash

def upsert (k : Key) (v : Value) : List (Key × Value) → List (Key × Value)
  | [] => [(k, v)]
  | (k', v') :: rest => if k = k' then (k, v) :: rest else (k', v') :: upsert k v rest

def remove (k : Key) (entries : List (Key × Value)) : List (Key × Value) :=
  entries.eraseP (·.1 = k)

/-- Nil removes the key. A new key ends the traversal in progress. -/
def putHash (t : Table) (k : Key) (v : Value) : Table :=
  if v.isNil then { t with hash := remove k t.hash }
  else
    { t with
      hash := upsert k v t.hash
      order := if (t.hash.lookup k).isSome then t.order else none }

def numbered (n : Nat) (values : List Value) : List (Key × Value) :=
  values.zipIdx.map fun (v, i) => (.int (.ofNat (n + i)), v)

def removeSlot (t : Table) (i : Nat) : Table :=
  { t with
    array := t.array.take i
    hash := (numbered (i + 2) (t.array.toList.drop (i + 1))).foldl
      (fun hash (k, v) => upsert k v hash) t.hash }

def successor? (t : Table) : Option Key :=
  let n : Int64 := .ofNat (t.array.size + 1)
  if 1 ≤ n then some (.int n) else none

/-- Moves the keys that continue the array part out of the hash part; there are no more of them
than the hash part has keys. -/
def absorb : Nat → Table → Table
  | 0, t => t
  | fuel + 1, t =>
    match t.successor? with
    | none => t
    | some next =>
      match t.hash.lookup next with
      | none => t
      | some v => absorb fuel { t with array := t.array.push v, hash := remove next t.hash }

def append (t : Table) (v : Value) : Table :=
  let t := { t with array := t.array.push v, order := none }
  absorb t.hash.length t

def putKey (t : Table) (k : Key) (v : Value) : Table :=
  match k with
  | .int n =>
    if 1 ≤ n then
      let i := n.toNatClampNeg - 1
      if i < t.array.size then
        if v.isNil then
          if i + 1 = t.array.size then { t with array := t.array.pop } else t.removeSlot i
        else { t with array := t.array.setIfInBounds i v }
      else if i = t.array.size && !v.isNil then t.append v
      else t.putHash k v
    else t.putHash k v
  | _ => t.putHash k v

def put (t : Table) (k v : Value) : Except KeyFault Table :=
  (Key.ofValue k).map (t.putKey · v)

def putText (t : Table) (name : String) (v : Value) : Table := t.putKey (.ofText name) v

def push (t : Table) (v : Value) : Table := t.putKey (.int (.ofNat (t.array.size + 1))) v

def firstLive (t : Table) (keys : List Key) : Option (Key × Value) :=
  keys.findSome? fun k =>
    let v := t.getKey k
    if v.isNil then none else some (k, v)

def traverse (t : Table) : Table :=
  match t.order with
  | some _ => t
  | none => { t with order := some t.keys }

def after? (order : List Key) (k : Key) : Option (List Key) :=
  match order.dropWhile (· ≠ k) with
  | [] => none
  | _ :: rest => some rest

/-- The entry after `k` in the order of traversal; nil starts one. Keys that were removed since
it began are passed over. -/
def next (t : Table) (k : Value) : Except KeyFault (Option (Key × Value)) × Table :=
  match Key.ofValue k with
  | .error .isNil =>
    let t := t.traverse
    (.ok (t.firstLive (t.order.getD [])), t)
  | .error _ => (.error .unknown, t)
  | .ok k =>
    let t := t.traverse
    match after? (t.order.getD []) k with
    | some rest => (.ok (t.firstLive rest), t)
    | none => (.error .unknown, t)

def debugText (t : Table) : String :=
  let metatable := match t.metatable with
    | none => "None"
    | some m => "Some(" ++ Value.TableId.addressText m ++ ")"
  "LuaTable \x7b array: " ++ toString t.array.size ++ ", hash: " ++ toString t.hash.length
    ++ ", metatable: " ++ metatable ++ " \x7d"

end Table

end LuaMachine
