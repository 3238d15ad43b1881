import Spdylay.Wire.Codes
import Spdylay.Library.Treap

/-! The ordered map over its entries in memory. A pointer to an entry is the address of
the entry, the null pointer is `none`. Reading or writing where no entry is, because
it was never there or has been freed, is a fault, and so is a loop that takes more
turns than its argument `n`; a function that faults has no result. -/
namespace Spdylay
open Library.Treap (Side)

abbrev Addr := Nat

structure MapEntry where
  key : UInt32
  parent : Option Addr
  left : Option Addr
  right : Option Addr
  priority : UInt32
  deriving DecidableEq, Repr

structure Map where
  root : Option Addr
  size : Nat
  deriving DecidableEq, Repr

abbrev Memory := Addr → Option MapEntry

def MapEntry.child (e : MapEntry) : Side → Option Addr
  | .left => e.left
  | .right => e.right

def MapEntry.setChild (e : MapEntry) (s : Side) (a : Option Addr) : MapEntry :=
  match s with
  | .left => { e with left := a }
  | .right => { e with right := a }

def MapEntry.setParent (e : MapEntry) (a : Option Addr) : MapEntry := { e with parent := a }

/-- Assignment to fields of the entry at an address. -/
def Memory.store (m : Memory) (a : Addr) (f : MapEntry → MapEntry) : Option Memory :=
  (m a).map (fun e => Function.update m a (some (f e)))

def Memory.free (m : Memory) (a : Addr) : Memory := Function.update m a none

namespace Map

def init : Map := ⟨none,0⟩

def hash32shift (key : UInt32) : UInt32 :=
  let key := ~~~key + (key <<< 15)
  let key := key ^^^ (key >>> 12)
  let key := key + (key <<< 2)
  let key := key ^^^ (key >>> 4)
  let key := key * 2057
  key ^^^ (key >>> 16)

def entryInit (key : UInt32) : MapEntry := ⟨key,none,none,none,hash32shift key⟩

/-! Pointer updates shared by the rotations and the removal. -/

/-- The pointer to `old` in its parent, if it has one, becomes `new`. -/
def relink (m : Memory) (parent : Option Addr) (old : Addr) (new : Option Addr) : Option Memory :=
  match parent with
  | none => some m
  | some p => do
    if (← m p).left = some old then m.store p (·.setChild .left new)
    else m.store p (·.setChild .right new)

/-- The entry, if there is one, gets the parent `parent`. -/
def adopt (m : Memory) (entry parent : Option Addr) : Option Memory :=
  match entry with
  | none => some m
  | some a => m.store a (·.setParent parent)

/-- Rotation towards the side `s`. -/
def rotate (s : Side) (m : Memory) (entry : Addr) : Option (Addr × Memory) := do
  let root ← (← m entry).child s.other
  let inner := (← m root).child s
  let m ← m.store entry (·.setChild s.other inner)
  let m ← m.store root (·.setChild s (some entry))
  let parent := (← m entry).parent
  let m ← m.store root (·.setParent parent)
  let m ← m.store entry (·.setParent (some root))
  let m ← relink m (← m root).parent entry (some root)
  let m ← adopt m ((← m entry).child s.other) (some entry)
  return (root,m)

def rotateLeft : Memory → Addr → Option (Addr × Memory) := rotate .left

def rotateRight : Memory → Addr → Option (Addr × Memory) := rotate .right

/-! Insertion. -/

/-- The way down from `entry` to the free place of the new entry, which is linked to its
parent there; no parent is returned where the key is in the map already. -/
def insertLoop (newEntry : Addr) : Nat → Memory → Addr → Option (Option Addr × Memory)
  | 0, _, _ => none
  | n+1, m, entry => do
    let new ← m newEntry
    let e ← m entry
    if new.key = e.key then return (none,m)
    else if new.key < e.key then
      match e.left with
      | some l => insertLoop newEntry n m l
      | none => return (some entry,← m.store entry (·.setChild .left (some newEntry)))
    else
      match e.right with
      | some r => insertLoop newEntry n m r
      | none => return (some entry,← m.store entry (·.setChild .right (some newEntry)))

/-- The child is there and has a smaller priority than `e`. -/
def childBefore (m : Memory) (e : MapEntry) (child : Option Addr) : Option Bool :=
  match child with
  | none => some false
  | some c => do return decide (e.priority > (← m c).priority)

/-- The rotations from the parent of the new entry up to the root. -/
def insertFix : Nat → Map → Memory → Addr → Option (Map × Memory)
  | 0, _, _, _ => none
  | n+1, map, m, entry => do
    let e ← m entry
    if ← childBefore m e e.left then
      let (entry,m) ← rotateRight m entry
      match (← m entry).parent with
      | none => return ({ map with root := some entry },m)
      | some parent => insertFix n map m parent
    else if ← childBefore m e e.right then
      let (entry,m) ← rotateLeft m entry
      match (← m entry).parent with
      | none => return ({ map with root := some entry },m)
      | some parent => insertFix n map m parent
    else return (map,m)

def insert (map : Map) (m : Memory) (newEntry : Addr) : Option (Option Err × Map × Memory) :=
  match map.root with
  | none => some (none,⟨some newEntry,1⟩,m)
  | some root => do
    let (parent,m) ← insertLoop newEntry (map.size+1) m root
    match parent with
    | none => return (some .invalidArgument,map,m)
    | some parent =>
      let m ← m.store newEntry (·.setParent (some parent))
      let (map,m) ← insertFix (map.size+1) map m parent
      return (none,{ map with size := map.size+1 },m)

/-! Look-up and removal. -/

def findLoop (key : UInt32) : Nat → Memory → Option Addr → Option (Option Addr)
  | 0, _, _ => none
  | _+1, _, none => some none
  | n+1, m, some entry => do
    let e ← m entry
    if key < e.key then findLoop key n m e.left
    else if key > e.key then findLoop key n m e.right
    else return some entry

def find (map : Map) (m : Memory) (key : UInt32) : Option (Option Addr) :=
  findLoop key (map.size+1) m map.root

/-- The entry's place is taken by `child`. -/
def detach (map : Map) (m : Memory) (entry : Addr) (child : Option Addr) : Option (Map × Memory) := do
  let parent := (← m entry).parent
  let map := if parent = none then { map with root := child } else map
  let m ← relink m parent entry child
  let m ← adopt m child parent
  return (map,m)

/-- The rotations that move the entry below its children, until one child is missing. -/
def removeLoop : Nat → Map → Memory → Addr → Option (Map × Memory)
  | 0, _, _, _ => none
  | n+1, map, m, entry => do
    let e ← m entry
    match e.left,e.right with
    | none, right => detach map m entry right
    | left, none => detach map m entry left
    | some left, some right =>
      if (← m left).priority < (← m right).priority then
        let (entry,m) ← rotateRight m entry
        let e ← m entry
        let map := if e.parent = none then { map with root := some entry } else map
        removeLoop n map m (← e.right)
      else
        let (entry,m) ← rotateLeft m entry
        let e ← m entry
        let map := if e.parent = none then { map with root := some entry } else map
        removeLoop n map m (← e.left)

def remove (map : Map) (m : Memory) (key : UInt32) : Option (Option Err × Map × Memory) :=
  match map.root with
  | none => some (some .invalidArgument,map,m)
  | some root => do
    match ← findLoop key (map.size+1) m (some root) with
    | none => return (some .invalidArgument,map,m)
    | some entry =>
      let (map,m) ← removeLoop (map.size+1) map m entry
      return (none,{ map with size := map.size-1 },m)

/-! Traversals. -/

def findLeftMost : Nat → Memory → Addr → Option Addr
  | 0, _, _ => none
  | n+1, m, entry => do
    match (← m entry).left with
    | some left => findLeftMost n m left
    | none => return entry

def findLeftMostLeaf : Nat → Memory → Addr → Option Addr
  | 0, _, _ => none
  | n+1, m, entry => do
    let entry ← findLeftMost (n+1) m entry
    match (← m entry).right with
    | some right => findLeftMostLeaf n m right
    | none => return entry

/-- The way up while the entry is a right child. -/
def climb : Nat → Memory → Addr → Option Addr → Option (Option Addr)
  | 0, _, _, _ => none
  | _+1, _, _, none => some none
  | n+1, m, entry, some parent => do
    let p ← m parent
    if p.right = some entry then climb n m (← (← m entry).parent) p.parent
    else return some parent

def traverseInorder (n : Nat) (m : Memory) (entry : Addr) : Option (Option Addr) := do
  let e ← m entry
  match e.right with
  | some right => return some (← findLeftMost n m right)
  | none => climb n m entry e.parent

def traversePostorder (n : Nat) (m : Memory) (parent : Option Addr) (entry : Addr) : Option (Option Addr) :=
  match parent with
  | none => some none
  | some parent => do
    let p ← m parent
    if p.left = some entry then
      match p.right with
      | some right => return some (← findLeftMostLeaf n m right)
      | none => return some parent
    else return some parent

section Callbacks
variable {σ : Type}

/-- The calls of `func` on the entries from `entry` on, with what it finds behind `ptr`:
the returned value, the entries passed to it and what it left behind `ptr`. -/
def eachLoop (func : Addr → σ → Int × σ) (bound : Nat) (m : Memory) :
    Nat → Option Addr → σ → Option (Int × List Addr × σ)
  | 0, _, _ => none
  | _+1, none, ptr => some (0,[],ptr)
  | n+1, some entry, ptr => do
    let (rv,ptr) := func entry ptr
    if rv ≠ 0 then return (rv,[entry],ptr)
    else
      let (rv,visited,ptr) ← eachLoop func bound m n (← traverseInorder bound m entry) ptr
      return (rv,entry :: visited,ptr)

def each (map : Map) (m : Memory) (func : Addr → σ → Int × σ) (ptr : σ) : Option (Int × List Addr × σ) :=
  match map.root with
  | none => some (0,[],ptr)
  | some root => do
    eachLoop func (map.size+1) m (map.size+1) (some (← findLeftMost (map.size+1) m root)) ptr

/-- The same for a `func` that frees the entry it is given; its result is ignored. -/
def eachFreeLoop (func : Addr → σ → Int × σ) (bound : Nat) :
    Nat → Memory → Option Addr → σ → Option (List Addr × Memory × σ)
  | 0, _, _, _ => none
  | _+1, m, none, ptr => some ([],m,ptr)
  | n+1, m, some entry, ptr => do
    let parent := (← m entry).parent
    let ptr := (func entry ptr).2
    let m := m.free entry
    let next ← traversePostorder bound m parent entry
    let (visited,m,ptr) ← eachFreeLoop func bound n m next ptr
    return (entry :: visited,m,ptr)

def eachFree (map : Map) (m : Memory) (func : Addr → σ → Int × σ) (ptr : σ) :
    Option (List Addr × Map × Memory × σ) :=
  match map.root with
  | none => some ([],map,m,ptr)
  | some root => do
    let (visited,m,ptr) ←
      eachFreeLoop func (map.size+1) (map.size+1) m (some (← findLeftMostLeaf (map.size+1) m root)) ptr
    return (visited,{ map with root := none },m,ptr)

end Callbacks
end Map
end Spdylay
