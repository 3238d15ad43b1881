import Spdylay.Machine.DequeueOrder

/-! The outbound queue over every sequence of pushes and pops. -/
namespace Spdylay
open Library

/-- Smaller priority value first, equal ones in the order of their sequence numbers. -/
def NotAfter (x y : OutboundItem) : Prop := x.pri < y.pri ∨ (x.pri = y.pri ∧ x.seq ≤ y.seq)

theorem outboundItemCompar_notAfter {x y : OutboundItem} : outboundItemCompar x y ≤ 0 ↔ NotAfter x y := by
  rw [outboundItemCompar_le,Precedes,NotAfter]
  omega

/-- `pri` is an int. It is filled from the uint8_t of a frame or a stream or with one of
the negative constants, and for these the difference is exact. -/
theorem outboundItemCompar_toInt32 {x y : OutboundItem} (hx : obPriPing ≤ x.pri ∧ x.pri < 256)
    (hy : obPriPing ≤ y.pri ∧ y.pri < 256) : toInt32 (outboundItemCompar x y) = outboundItemCompar x y := by
  rw [obPriPing] at hx hy
  rw [outboundItemCompar,toInt32]
  split_ifs <;> omega

inductive PqOp
  | push (item : OutboundItem)
  | pop
  deriving DecidableEq, Repr

/-- A queue, the answers of the allocator to come, and what went in and came out:
the items whose push returned 0 and the items that stood on top when they were popped. -/
structure PqRun where
  mem : Mem
  pq : Pq
  pushed : List OutboundItem
  popped : List OutboundItem
  deriving DecidableEq, Repr

namespace PqRun

def init (mem : Mem) : PqRun := ⟨mem,pqInit,[],[]⟩

def step (r : PqRun) : PqOp → PqRun
  | .push item =>
    match pqPush r.mem r.pq item with
    | (mem,none) => {r with mem := mem}
    | (mem,some pq) => {r with mem := mem, pq := pq, pushed := r.pushed ++ [item]}
  | .pop => {r with pq := pqPop r.pq, popped := r.popped ++ (pqTop r.pq).toList}

def run (mem : Mem) (ops : List PqOp) : PqRun := ops.foldl step (init mem)

end PqRun

/-- The loop of `spdylay_session_ob_pq_free`: the items in the order it takes them, and
what it leaves. -/
def pqDrain (pq : Pq) : List OutboundItem × List OutboundItem :=
  BinaryHeap.drain outboundItemCompar pq.q.length pq.q

/-- What the array keeps: its room, its order and its items. -/
structure PqRun.Kept (r : PqRun) : Prop where
  room : r.pq.q.length ≤ r.pq.capacity
  doubles : 0 < r.pq.capacity
  heap : r.pq.Ordered
  items : r.pushed.Perm (r.popped ++ r.pq.q)

theorem PqRun.init_kept (mem : Mem) : (PqRun.init mem).Kept :=
  ⟨Nat.zero_le _,Nat.zero_lt_succ 4095,BinaryHeap.isHeap_nil,.refl _⟩

theorem PqRun.Kept.push {r : PqRun} (h : r.Kept) {capacity : Nat} (item : OutboundItem)
    (hc : r.pq.q.length < capacity) (mem : Mem) :
    PqRun.Kept ⟨mem,⟨capacity,BinaryHeap.push outboundItemCompar r.pq.q item⟩,r.pushed ++ [item],r.popped⟩ := by
  have hp := BinaryHeap.push_perm outboundItemCompar r.pq.q item
  refine ⟨?_,Nat.zero_lt_of_lt hc,BinaryHeap.push_isHeap outboundItemCompar_order h.heap item,?_⟩
  · rw [hp.length_eq]
    exact hc
  · calc r.pushed ++ [item]
      _ |>.Perm (item :: r.pushed) := List.perm_append_singleton item r.pushed
      _ |>.Perm (item :: (r.popped ++ r.pq.q)) := h.items.cons item
      _ |>.Perm (r.popped ++ item :: r.pq.q) := List.perm_middle.symm
      _ |>.Perm _ := hp.symm.append_left r.popped

theorem PqRun.Kept.step {r : PqRun} (h : r.Kept) (op : PqOp) : (r.step op).Kept := by
  cases op with
  | push item =>
    rw [PqRun.step,pqPush]
    split_ifs with hfull hmem
    · have hd : r.pq.q.length < r.pq.capacity*2 := by
        have h1 := h.room
        have h2 := h.doubles
        omega
      exact h.push item hd _
    · exact ⟨h.room,h.doubles,h.heap,h.items⟩
    · exact h.push item (Nat.not_le.mp hfull) _
  | pop =>
    rw [PqRun.step,pqPop]
    cases ht : pqTop r.pq with
    | none =>
      have hq := pqTop_eq_none.mp ht
      rw [hq]
      refine ⟨Nat.zero_le _,h.doubles,BinaryHeap.isHeap_nil,?_⟩
      have hi := h.items
      rw [hq] at hi
      rwa [Option.toList_none,List.append_nil]
    | some x =>
      have hp := pqPop_perm ht
      refine ⟨?_,h.doubles,BinaryHeap.pop_isHeap outboundItemCompar_order h.heap,?_⟩
      · have hl := hp.length_eq
        have hr := h.room
        rw [List.length_cons,pqPop] at hl
        dsimp only at hl ⊢
        omega
      · rw [Option.toList_some,List.append_assoc]
        exact h.items.trans (hp.append_left r.popped)

theorem PqRun.run_kept (mem : Mem) (ops : List PqOp) : (PqRun.run mem ops).Kept := by
  have hr : ∀ r : PqRun, r.Kept → (ops.foldl PqRun.step r).Kept := by
    induction ops with
    | nil => exact fun _ h => h
    | cons op ops ih => exact fun r h => ih (r.step op) (h.step op)
  exact hr _ (PqRun.init_kept mem)

/-- A stable priority queue: a heap of exactly the items that went in and did not come
out, within the array; the top is a least item; the drained items are sorted. -/
structure PqRun.Stable (r : PqRun) : Prop where
  heap : r.pq.Ordered
  room : r.pq.q.length ≤ r.pq.capacity
  items : r.pushed.Perm (r.popped ++ r.pq.q)
  empty : pqTop r.pq = none ↔ r.pq.q = []
  top : ∀ x, pqTop r.pq = some x → x ∈ r.pq.q ∧ ∀ y ∈ r.pq.q, NotAfter x y
  drained : (pqDrain r.pq).2 = []
  drainedItems : (pqDrain r.pq).1.Perm r.pq.q
  sorted : (pqDrain r.pq).1.Pairwise NotAfter

theorem PqRun.Kept.stable {r : PqRun} (h : r.Kept) : r.Stable := by
  obtain ⟨hleft,hperm,hsorted⟩ :=
    BinaryHeap.drain_sorted outboundItemCompar_order r.pq.q.length r.pq.q le_rfl h.heap
  refine ⟨h.heap,h.room,h.items,pqTop_eq_none,?_,hleft,hperm,?_⟩
  · intro x hx
    refine ⟨BinaryHeap.top_mem hx,?_⟩
    intro y hy
    apply outboundItemCompar_notAfter.mp
    exact BinaryHeap.top_le outboundItemCompar_order h.heap hx hy
  · exact hsorted.imp outboundItemCompar_notAfter.mp

theorem outbound_queue_stable (mem : Mem) (ops : List PqOp) : (PqRun.run mem ops).Stable :=
  (PqRun.run_kept mem ops).stable

end Spdylay
