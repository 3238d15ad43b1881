import Spdylay.Library.BinaryHeap

/-! The order of array heaps: for a comparison that is a total preorder, the sifts
repair the one edge that may be wrong, so that pushes and pops keep the heap order
and the top is a least element. -/
namespace Spdylay.Library.BinaryHeap
variable {α : Type} (compar : α → α → Int)

/-- The comparison orders any two elements and is transitive. -/
structure TotalOrder : Prop where
  total : ∀ a b, compar a b ≤ 0 ∨ compar b a ≤ 0
  trans : ∀ a b c, compar a b ≤ 0 → compar b c ≤ 0 → compar a c ≤ 0

/-- The elements at two indices, where both are there, stand in order. -/
def Edge (q : List α) (i j : Nat) : Prop := ∀ x y, q[i]? = some x → q[j]? = some y → compar x y ≤ 0

def IsHeap (q : List α) : Prop := ∀ j, 0 < j → Edge compar q ((j-1)/2) j

variable {compar}

theorem TotalOrder.refl (h : TotalOrder compar) (a : α) : compar a a ≤ 0 := (h.total a a).elim id id

theorem Edge.of_above {q : List α} {i j : Nat} (h : above compar q i j = false) : Edge compar q i j := by
  intro x y hx hy
  simpa [above,hx,hy] using h

theorem above_edge (ho : TotalOrder compar) {q : List α} {i j : Nat} (h : above compar q i j = true) :
    Edge compar q j i := by
  intro y x hy hx
  simp only [above,hx,hy,decide_eq_true_eq] at h
  exact (ho.total x y).resolve_left (not_le.mpr h)

theorem Edge.trans (ho : TotalOrder compar) {q : List α} {i j k : Nat} (hj : j < q.length) (h : Edge compar q i j)
    (h' : Edge compar q j k) : Edge compar q i k := by
  intro x z hx hz
  have hy := List.getElem?_eq_getElem hj
  exact ho.trans _ _ _ (h x _ hx hy) (h' _ z hy hz)

/-- Every element is reached from the root along edges. -/
theorem IsHeap.root (ho : TotalOrder compar) {q : List α} (h : IsHeap compar q) (j : Nat) : Edge compar q 0 j := by
  induction j using Nat.strong_induction_on with
  | _ j ih =>
    rcases Nat.eq_zero_or_pos j with rfl | hj
    · intro x y hx hy
      rw [hx] at hy
      cases hy
      exact ho.refl x
    · by_cases hl : (j-1)/2 < q.length
      · exact (ih _ (by omega)).trans ho hl (h j hj)
      · intro x y hx hy
        obtain ⟨hlt,-⟩ := List.getElem?_eq_some_iff.mp hy
        omega

theorem top_le (ho : TotalOrder compar) {q : List α} (h : IsHeap compar q) {x y : α} (hx : top q = some x)
    (hy : y ∈ q) : compar x y ≤ 0 := by
  obtain ⟨j,hj⟩ := List.mem_iff_getElem?.mp hy
  refine h.root ho j x y ?_ hj
  rw [← hx,top,List.head?_eq_getElem?]

theorem isHeap_nil : IsHeap compar [] := by
  intro j _ x y hx
  cases hx

/-! Swapping. -/

theorem getElem?_swap {q : List α} {i j : Nat} (hi : i < q.length) (hj : j < q.length) (k : Nat) :
    (swap q i j)[k]? = if k = j then q[i]? else if k = i then q[j]? else q[k]? := by
  have h1 := List.getElem?_eq_getElem hi
  have h2 := List.getElem?_eq_getElem hj
  unfold swap
  rw [h1,h2]
  dsimp only
  rw [List.getElem?_set,List.getElem?_set]
  simp only [List.length_set,hi,hj,if_true]
  by_cases hkj : k = j
  · simp [hkj]
  · by_cases hki : k = i
    · subst hki
      simp [hkj,Ne.symm hkj]
    · simp [hkj,hki,Ne.symm hkj,Ne.symm hki]

theorem length_swap (q : List α) (i j : Nat) : (swap q i j).length = q.length := (swap_perm q i j).length_eq

/-- Where the elements at two indices were before. -/
theorem edge_swap {q : List α} {i j : Nat} (hi : i < q.length) (hj : j < q.length) (a' b' : Nat) {a b : Nat}
    (h : Edge compar q a' b') (ha : a' = if a = j then i else if a = i then j else a)
    (hb : b' = if b = j then i else if b = i then j else b) : Edge compar (swap q i j) a b := by
  intro x y hx hy
  rw [getElem?_swap hi hj] at hx hy
  refine h x y ?_ ?_
  · rw [ha]
    split_ifs at hx ⊢ <;> exact hx
  · rw [hb]
    split_ifs at hy ⊢ <;> exact hy

/-! Sifting up. -/

/-- Only the edge into the index may be wrong, and its parent bounds its children. -/
structure SiftUp (compar : α → α → Int) (q : List α) (index : Nat) : Prop where
  inRange : index < q.length
  edge : ∀ j, 0 < j → j ≠ index → Edge compar q ((j-1)/2) j
  skip : 0 < index → ∀ j, 0 < j → (j-1)/2 = index → Edge compar q ((index-1)/2) j

theorem SiftUp.swap (ho : TotalOrder compar) {q : List α} {index : Nat} (h : SiftUp compar q index) (hp : 0 < index)
    (ha : above compar q ((index-1)/2) index = true) :
    SiftUp compar (swap q ((index-1)/2) index) ((index-1)/2) := by
  have hi := h.inRange
  have hpar : (index-1)/2 < q.length := by omega
  have hup := above_edge ho ha
  refine ⟨by rw [length_swap]; exact hpar,?_,?_⟩
  · intro j hj hne
    by_cases hji : j = index
    · subst hji
      exact edge_swap hpar hi j ((j-1)/2) hup (by grind) (by grind)
    · by_cases hpj : (j-1)/2 = index
      · exact edge_swap hpar hi ((index-1)/2) (j) (h.skip hp j hj hpj) (by grind) (by grind)
      · by_cases hpp : (j-1)/2 = (index-1)/2
        · -- a sibling of the index now hangs below the smaller element
          have hs := h.edge j hj hji
          rw [hpp] at hs
          exact edge_swap hpar hi index j (hup.trans ho hpar hs) (by grind) (by grind)
        · exact edge_swap hpar hi ((j-1)/2) (j) (h.edge j hj hji) (by grind) (by grind)
  · intro hpp j hj hpj
    have hgrand := h.edge ((index-1)/2) hpp (by omega)
    by_cases hji : j = index
    · subst hji
      exact edge_swap hpar hi (((j-1)/2-1)/2) ((j-1)/2) hgrand (by grind) (by grind)
    · have hs := h.edge j hj hji
      rw [hpj] at hs
      exact edge_swap hpar hi (((index-1)/2-1)/2) (j) (hgrand.trans ho hpar hs) (by grind) (by grind)

theorem SiftUp.done {q : List α} {index : Nat} (h : SiftUp compar q index)
    (he : 0 < index → Edge compar q ((index-1)/2) index) : IsHeap compar q := by
  intro j hj
  by_cases hji : j = index
  · subst hji
    exact he hj
  · exact h.edge j hj hji

theorem bubbleUp_isHeap (ho : TotalOrder compar) (fuel : Nat) (q : List α) (index : Nat) (hf : index < fuel)
    (h : SiftUp compar q index) : IsHeap compar (bubbleUp compar fuel q index) := by
  induction fuel generalizing q index with
  | zero => exact absurd hf (Nat.not_lt_zero _)
  | succ fuel ih =>
    unfold bubbleUp
    split
    · rename_i h0
      exact h.done (fun hp => absurd h0 hp.ne')
    · rename_i h0
      have hp := Nat.pos_of_ne_zero h0
      dsimp only
      split
      · rename_i ha
        exact ih _ _ (by omega) (h.swap ho hp ha)
      · rename_i ha
        exact h.done (fun _ => Edge.of_above (Bool.eq_false_iff.mpr ha))

theorem push_isHeap (ho : TotalOrder compar) {q : List α} (h : IsHeap compar q) (x : α) :
    IsHeap compar (push compar q x) := by
  refine bubbleUp_isHeap ho _ _ _ (Nat.lt_succ_self _) ⟨by simp,?_,?_⟩
  · intro j hj hne a b ha hb
    have hj' : j < q.length := by
      obtain ⟨hlt,-⟩ := List.getElem?_eq_some_iff.mp hb
      simp only [List.length_append,List.length_singleton] at hlt
      omega
    rw [List.getElem?_append_left (by omega)] at ha
    rw [List.getElem?_append_left hj'] at hb
    exact h j hj a b ha hb
  · intro _ j hj hpj a b _ hb
    obtain ⟨hlt,-⟩ := List.getElem?_eq_some_iff.mp hb
    simp only [List.length_append,List.length_singleton] at hlt
    omega

/-! Sifting down. -/

/-- Only the edges out of the index may be wrong, and its parent bounds its children. -/
structure SiftDown (compar : α → α → Int) (q : List α) (index : Nat) : Prop where
  edge : ∀ j, 0 < j → (j-1)/2 ≠ index → Edge compar q ((j-1)/2) j
  skip : 0 < index → ∀ j, 0 < j → (j-1)/2 = index → Edge compar q ((index-1)/2) j

/-- The index or a child of it, below none of the three. -/
structure IsMin (compar : α → α → Int) (q : List α) (index m : Nat) : Prop where
  place : m = index ∨ (m < q.length ∧ 0 < m ∧ (m-1)/2 = index)
  self : Edge compar q m index
  child : ∀ j, 0 < j → (j-1)/2 = index → Edge compar q m j

theorem minIndex_isMin (ho : TotalOrder compar) {q : List α} {index : Nat} (hi : index < q.length) :
    IsMin compar q index (minIndex compar q index) := by
  have hself : ∀ k, Edge compar q k k := by
    intro k x y hx hy
    rw [hx] at hy
    cases hy
    exact ho.refl x
  have hout : ∀ k j, q.length ≤ j → Edge compar q k j := by
    intro k j hj x y _ hy
    obtain ⟨hlt,-⟩ := List.getElem?_eq_some_iff.mp hy
    omega
  unfold minIndex
  dsimp only
  -- the left child against the index
  have hleft : ∀ m, m = (if index*2+1 < q.length ∧ above compar q index (index*2+1) = true then index*2+1 else index) →
      m < q.length ∧ (m = index ∨ m = index*2+1) ∧ Edge compar q m index ∧ Edge compar q m (index*2+1) := by
    rintro m rfl
    split
    · rename_i h
      exact ⟨h.1,.inr rfl,above_edge ho h.2,hself _⟩
    · rename_i h
      refine ⟨hi,.inl rfl,hself _,?_⟩
      by_cases hl : index*2+1 < q.length
      · exact .of_above (Bool.eq_false_iff.mpr (fun ha => h ⟨hl,ha⟩))
      · exact hout _ _ (by omega)
  obtain ⟨hm,hcase,h1,h2⟩ := hleft _ rfl
  generalize (if index*2+1 < q.length ∧ above compar q index (index*2+1) = true then index*2+1 else index) = m at *
  have hchild : ∀ j, 0 < j → (j-1)/2 = index → j = index*2+1 ∨ j = index*2+1+1 := by omega
  split
  · rename_i h
    have hr := above_edge ho h.2
    refine ⟨.inr ⟨h.1,by omega,by omega⟩,hr.trans ho hm h1,fun j hj hpj => ?_⟩
    rcases hchild j hj hpj with rfl | rfl
    · exact hr.trans ho hm h2
    · exact hself _
  · rename_i h
    refine ⟨by omega,h1,fun j hj hpj => ?_⟩
    rcases hchild j hj hpj with rfl | rfl
    · exact h2
    · by_cases hl : index*2+1+1 < q.length
      · exact .of_above (Bool.eq_false_iff.mpr (fun ha => h ⟨hl,ha⟩))
      · exact hout _ _ (by omega)

theorem SiftDown.swap {q : List α} {index m : Nat} (h : SiftDown compar q index)
    (hi : index < q.length) (hm : IsMin compar q index m) (hne : m ≠ index) :
    SiftDown compar (BinaryHeap.swap q index m) m := by
  obtain ⟨hml,hm0,hmp⟩ := hm.place.resolve_left hne
  refine ⟨?_,?_⟩
  · intro j hj hpj
    by_cases hjm : j = m
    · subst hjm
      exact edge_swap hi hml j index hm.self (by grind) (by grind)
    · by_cases hpi : (j-1)/2 = index
      · exact edge_swap hi hml m j (hm.child j hj hpi) (by grind) (by grind)
      · by_cases hji : j = index
        · subst hji
          exact edge_swap hi hml ((j-1)/2) m (h.skip hj m hm0 hmp) (by grind) (by grind)
        · exact edge_swap hi hml ((j-1)/2) j (h.edge j hj hpi) (by grind) (by grind)
  · intro _ j hj hpj
    have he := h.edge j hj (by omega)
    rw [hpj] at he
    exact edge_swap hi hml m j he (by grind) (by grind)

theorem bubbleDown_isHeap (ho : TotalOrder compar) (fuel : Nat) (q : List α) (index : Nat)
    (hf : q.length ≤ index+fuel) (h : SiftDown compar q index) : IsHeap compar (bubbleDown compar fuel q index) := by
  induction fuel generalizing q index with
  | zero =>
    change IsHeap compar q
    intro j hj x y hx hy
    obtain ⟨hlt,-⟩ := List.getElem?_eq_some_iff.mp hy
    exact h.edge j hj (by omega) x y hx hy
  | succ fuel ih =>
    unfold bubbleDown
    dsimp only
    by_cases hi : index < q.length
    · have hm := minIndex_isMin ho hi
      split
      · rename_i he
        rw [he] at hm
        intro j hj
        by_cases hpj : (j-1)/2 = index
        · rw [hpj]
          exact hm.child j hj hpj
        · exact h.edge j hj hpj
      · rename_i hne
        obtain ⟨hml,hm0,hmp⟩ := hm.place.resolve_left hne
        exact ih _ _ (by rw [length_swap]; omega) (h.swap hi hm hne)
    · -- nothing is left below the index
      have hmin : minIndex compar q index = index := by
        unfold minIndex
        simp only [show ¬(index*2+1 < q.length) by omega,show ¬(index*2+1+1 < q.length) by omega,false_and,if_false]
      rw [if_pos hmin]
      intro j hj x y hx hy
      obtain ⟨hlt,-⟩ := List.getElem?_eq_some_iff.mp hy
      exact h.edge j hj (by omega) x y hx hy

theorem pop_isHeap (ho : TotalOrder compar) {q : List α} (h : IsHeap compar q) : IsHeap compar (pop compar q) := by
  unfold pop
  split
  · exact isHeap_nil
  · rename_i z hz
    refine bubbleDown_isHeap ho _ _ _ (by simp) ⟨?_,fun h0 => absurd h0 (lt_irrefl 0)⟩
    intro j hj hpj x y hx hy
    simp only [List.getElem?_dropLast,List.getElem?_set,List.length_set] at hx hy
    split_ifs at hx hy
    all_goals first | omega | exact h j hj x y hx hy

/-! Draining. -/

/-- Take the top and pop, at most so many times: what was taken, and what is left. -/
def drain (compar : α → α → Int) : Nat → List α → List α × List α
  | 0, q => ([],q)
  | n+1, q =>
    match top q with
    | none => ([],q)
    | some x => (x :: (drain compar n (pop compar q)).1,(drain compar n (pop compar q)).2)

/-- A heap is drained in order, down to the empty one. -/
theorem drain_sorted (ho : TotalOrder compar) (n : Nat) (q : List α) (hn : q.length ≤ n) (h : IsHeap compar q) :
    (drain compar n q).2 = [] ∧ (drain compar n q).1.Perm q ∧
      (drain compar n q).1.Pairwise (fun x y => compar x y ≤ 0) := by
  induction n generalizing q with
  | zero =>
    have hq := List.eq_nil_of_length_eq_zero (Nat.le_zero.mp hn)
    subst hq
    exact ⟨rfl,.refl _,.nil⟩
  | succ n ih =>
    rw [drain]
    cases ht : top q with
    | none =>
      have hq := top_eq_none.mp ht
      subst hq
      exact ⟨rfl,.refl _,.nil⟩
    | some x =>
      have hp := pop_perm compar ht
      have hl : (pop compar q).length ≤ n := by
        have hc := hp.length_eq
        rw [List.length_cons] at hc
        omega
      obtain ⟨hleft,hperm,hsorted⟩ := ih (pop compar q) hl (pop_isHeap ho h)
      refine ⟨hleft,(hperm.cons x).trans hp.symm,?_⟩
      apply List.pairwise_cons.mpr
      refine ⟨?_,hsorted⟩
      intro y hy
      apply top_le ho h ht
      exact hp.mem_iff.mpr (.tail _ (hperm.mem_iff.mp hy))

end Spdylay.Library.BinaryHeap
