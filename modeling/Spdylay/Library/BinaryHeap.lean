import Mathlib

/-! Array heaps over an arbitrary element type and a C-style comparison.
The sifts are recursive on fuel so that they evaluate; a fuel of the array's
length is enough, because the index at least halves or doubles. -/
namespace Spdylay.Library.BinaryHeap
variable {α : Type} (compar : α → α → Int)

def swap (q : List α) (i j : Nat) : List α :=
  match q[i]?, q[j]? with
  | some a, some b => (q.set i b).set j a
  | _, _ => q

/-- The comparison of the elements at two indices is positive. -/
def above (q : List α) (i j : Nat) : Bool :=
  match q[i]?, q[j]? with
  | some a, some b => decide (0 < compar a b)
  | _, _ => false

def bubbleUp : Nat → List α → Nat → List α
  | 0, q, _ => q
  | fuel+1, q, index =>
    if index = 0 then q
    else
      let parent := (index-1)/2
      if above compar q parent index then bubbleUp fuel (swap q parent index) parent else q

/-- The smallest of an element and its children, the earlier one at a tie. -/
def minIndex (q : List α) (index : Nat) : Nat :=
  let lchild := index*2+1
  let m := if lchild < q.length ∧ above compar q index lchild then lchild else index
  if lchild+1 < q.length ∧ above compar q m (lchild+1) then lchild+1 else m

def bubbleDown : Nat → List α → Nat → List α
  | 0, q, _ => q
  | fuel+1, q, index =>
    let m := minIndex compar q index
    if m = index then q else bubbleDown fuel (swap q index m) m

def push (q : List α) (x : α) : List α :=
  bubbleUp compar (q.length+1) (q ++ [x]) q.length

def top (q : List α) : Option α := q.head?

def pop (q : List α) : List α :=
  match q.getLast? with
  | none => []
  | some x => bubbleDown compar q.length (q.set 0 x).dropLast 0

theorem swap_perm (q : List α) (i j : Nat) : (swap q i j).Perm q := by
  unfold swap
  split
  · rename_i a b ha hb
    obtain ⟨hi,rfl⟩ := List.getElem?_eq_some_iff.mp ha
    obtain ⟨hj,rfl⟩ := List.getElem?_eq_some_iff.mp hb
    exact List.set_set_perm hi hj
  · exact .refl _

theorem bubbleUp_perm (fuel : Nat) (q : List α) (index : Nat) :
    (bubbleUp compar fuel q index).Perm q := by
  induction fuel generalizing q index with
  | zero => exact .refl _
  | succ fuel ih =>
    unfold bubbleUp
    split
    · exact .refl _
    · dsimp only
      split
      · exact (ih _ _).trans (swap_perm _ _ _)
      · exact .refl _

theorem bubbleDown_perm (fuel : Nat) (q : List α) (index : Nat) :
    (bubbleDown compar fuel q index).Perm q := by
  induction fuel generalizing q index with
  | zero => exact .refl _
  | succ fuel ih =>
    unfold bubbleDown
    dsimp only
    split
    · exact .refl _
    · exact (ih _ _).trans (swap_perm _ _ _)

/-- Pushing adds one occurrence of the element and moves the rest. -/
theorem push_perm (q : List α) (x : α) : (push compar q x).Perm (x :: q) :=
  (bubbleUp_perm compar _ _ _).trans (List.perm_append_singleton _ _)

/-- Popping removes exactly the element at the top. -/
theorem pop_perm {q : List α} {x : α} (h : top q = some x) : q.Perm (x :: pop compar q) := by
  cases q with
  | nil => cases h
  | cons y ys =>
    obtain rfl : y = x := by simpa [top] using h
    have hp : (pop compar (y :: ys)).Perm ys := by
      cases ys using List.reverseRecOn with
      | nil => exact bubbleDown_perm compar _ _ _
      | append_singleton zs z =>
        have hl : (y :: (zs ++ [z])).getLast? = some z := by
          rw [← List.cons_append]
          exact List.getLast?_concat
        have hd : ((y :: (zs ++ [z])).set 0 z).dropLast = z :: zs := by
          rw [List.set_cons_zero, ← List.cons_append, List.dropLast_concat]
        simp only [pop,hl,hd]
        exact (bubbleDown_perm compar _ _ _).trans (List.perm_append_singleton _ _).symm
    exact hp.symm.cons y

theorem top_mem {q : List α} {x : α} (h : top q = some x) : x ∈ q := List.mem_of_mem_head? h

theorem top_eq_none {q : List α} : top q = none ↔ q = [] := List.head?_eq_none_iff

end Spdylay.Library.BinaryHeap
