import Spdylay.Wire.ControlFrames

/-! The client certificate vector: origins by slot, slots counted from one. -/
namespace Spdylay

structure ClientCertVector where
  vector : List (Option Origin)
  size : Nat
  capacity : Nat
  lastSlot : Nat
  deriving DecidableEq, Repr

namespace ClientCertVector

def init (size : Nat) : ClientCertVector := ⟨List.replicate size none,size,size,0⟩

def resize (m : Mem) (v : ClientCertVector) (size : Nat) : Mem × Except Err ClientCertVector :=
  if v.capacity < size then
    if m.headD true then
      (m.tail,.ok {v with vector := v.vector ++ List.replicate (size-v.capacity) none,
                          size := size, capacity := size})
    else (m.tail,.error .nomem)
  else
    let vector := v.vector.mapIdx (fun i o => if size ≤ i ∧ i < v.size then none else o)
    let newSize := min v.size size
    (m,.ok {v with vector := vector, size := newSize,
                   lastSlot := if newSize < v.lastSlot then newSize else v.lastSlot})

/-- Slot of the first equal origin before the first empty slot, or 0. -/
def findFrom (origin : Origin) : Nat → List (Option Origin) → Nat
  | _, [] => 0
  | _, none :: _ => 0
  | i, some o :: rest => if origin = o then i+1 else findFrom origin (i+1) rest

def find (v : ClientCertVector) (origin : Origin) : Nat := findFrom origin 0 (v.vector.take v.size)

/-- The vector with the origin placed in the next slot, and that slot. -/
def put (v : ClientCertVector) (origin : Origin) : ClientCertVector × Nat :=
  if v.size = 0 then (v,0)
  else
    let slot := if v.lastSlot = v.size then 1 else v.lastSlot+1
    ({v with vector := v.vector.set (slot-1) (some origin), lastSlot := slot},slot)

def getOrigin (v : ClientCertVector) (slot : Nat) : Option Origin :=
  if slot = 0 ∨ v.size < slot then none else v.vector.getD (slot-1) none

end ClientCertVector
end Spdylay
