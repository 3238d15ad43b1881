import Spdylay.Session.ClientCertVector

/-! The certificate vector over every history of puts and resizes. -/
namespace Spdylay
namespace ClientCertVector
variable {v v' : ClientCertVector} {os : List Origin} {o : Origin}

/-- The filled slots come first, and the slot filled last is one of them. -/
structure Represents (v : ClientCertVector) (os : List Origin) : Prop where
  vector : v.vector = os.map some ++ List.replicate (v.capacity-os.length) none
  last : v.lastSlot ≤ os.length
  fits : os.length ≤ v.size
  room : v.size ≤ v.capacity

theorem Represents.getOrigin (h : v.Represents os) (slot : Nat) :
    v.getOrigin slot = if slot = 0 then none else os[slot-1]? := by
  have hf := h.fits
  rw [ClientCertVector.getOrigin,h.vector]
  by_cases h0 : slot = 0
  · rw [if_pos (.inl h0),if_pos h0]
  · rw [if_neg h0]
    split
    · rename_i hout
      have hlt := hout.resolve_left h0
      exact (List.getElem?_eq_none (by omega)).symm
    · rw [List.getD_eq_getElem?_getD,List.getElem?_append,List.length_map,List.getElem?_map]
      split
      · rename_i hin
        rw [List.getElem?_eq_getElem hin]
        rfl
      · rename_i hout
        rw [List.getElem?_eq_none (Nat.not_lt.mp hout),List.getElem?_replicate]
        split <;> rfl

theorem findFrom_eq (o : Origin) (i k : Nat) (os : List Origin) :
    findFrom o i (os.map some ++ List.replicate k none) = if o ∈ os then i+os.idxOf o+1 else 0 := by
  induction os generalizing i with
  | nil => cases k <;> rfl
  | cons x os ih =>
    rw [List.map_cons,List.cons_append,findFrom]
    by_cases hx : o = x
    · subst hx
      simp
    · rw [if_neg hx,ih]
      by_cases ho : o ∈ os
      · rw [if_pos ho,if_pos (.tail _ ho),List.idxOf_cons_ne _ (Ne.symm hx)]
        omega
      · rw [if_neg ho,if_neg (fun hm => (List.mem_cons.mp hm).elim hx ho)]

theorem Represents.find (h : v.Represents os) (o : Origin) : v.find o = if o ∈ os then os.idxOf o+1 else 0 := by
  have hf := h.fits
  rw [ClientCertVector.find,h.vector,List.take_append,List.length_map,List.take_of_length_le (by simpa using hf),
    List.take_replicate,findFrom_eq,Nat.zero_add]

/-! Putting. -/

/-- The slot that the next origin gets. -/
def nextSlot (v : ClientCertVector) : Nat := if v.lastSlot = v.size then 1 else v.lastSlot+1

theorem put_eq (h : 0 < v.size) (o : Origin) :
    v.put o = ({v with vector := v.vector.set (v.nextSlot-1) (some o), lastSlot := v.nextSlot},v.nextSlot) := by
  rw [put,if_neg h.ne']
  rfl

/-- The next slot is a filled one or the first empty one. -/
theorem Represents.nextSlot (h : v.Represents os) (hs : 0 < v.size) :
    0 < v.nextSlot ∧ v.nextSlot ≤ v.size ∧ v.nextSlot-1 ≤ os.length := by
  have h1 := h.last
  have h2 := h.fits
  rw [ClientCertVector.nextSlot]
  split <;> omega

/-- The origins after a put. -/
def placed (os : List Origin) (i : Nat) (o : Origin) : List Origin := if i < os.length then os.set i o else os ++ [o]

theorem length_placed {i : Nat} (h : i ≤ os.length) : (placed os i o).length = max os.length (i+1) := by
  rw [placed]
  split
  · rw [List.length_set]
    omega
  · rw [List.length_append,List.length_singleton]
    omega

theorem getElem?_placed {i : Nat} (h : i ≤ os.length) (j : Nat) :
    (placed os i o)[j]? = if j = i then some o else os[j]? := by
  rw [placed]
  split
  · rename_i hi
    rw [List.getElem?_set]
    by_cases hj : i = j
    · subst hj
      simp [hi]
    · rw [if_neg hj,if_neg (Ne.symm hj)]
  · rename_i hi
    have hlen : i = os.length := by omega
    subst hlen
    by_cases hj : j = os.length
    · subst hj
      simp
    · rw [if_neg hj]
      rcases Nat.lt_or_gt_of_ne hj with hlt | hgt
      · rw [List.getElem?_append_left hlt]
      · rw [List.getElem?_eq_none (by simp; omega),List.getElem?_eq_none (by omega)]

theorem Represents.put (h : v.Represents os) (hs : 0 < v.size) (o : Origin) :
    (v.put o).1.Represents (placed os (v.nextSlot-1) o) := by
  obtain ⟨hpos,hle,hat⟩ := h.nextSlot hs
  have h1 := h.last
  have h2 := h.fits
  have h3 := h.room
  have hlen := length_placed (o := o) hat
  rw [put_eq hs]
  refine ⟨?_,?_,?_,h3⟩
  · dsimp only
    rw [h.vector,placed]
    split
    · rename_i hi
      rw [List.set_append_left _ _ (by simpa using hi),List.map_set,List.length_set]
    · rename_i hi
      have hend : v.nextSlot-1 = os.length := by omega
      have hk : v.capacity-os.length = (v.capacity-(os.length+1))+1 := by omega
      rw [hend,List.set_append_right _ _ (by simp),List.length_map,Nat.sub_self,hk,List.replicate_succ,List.set_cons_zero,
        List.map_append,List.length_append,List.append_assoc]
      rfl
  · dsimp only
    omega
  · dsimp only
    omega

/-! Resizing. -/

theorem resize_cases {m m' : Mem} {n : Nat} (h : v.resize m n = (m',.ok v')) :
    (v.capacity < n ∧ v' = {v with vector := v.vector ++ List.replicate (n-v.capacity) none, size := n, capacity := n}) ∨
    (n ≤ v.capacity ∧ v' = {v with
      vector := v.vector.mapIdx (fun i o => if n ≤ i ∧ i < v.size then none else o), size := min v.size n,
      lastSlot := min v.lastSlot (min v.size n)}) := by
  rw [resize] at h
  split_ifs at h with hc hm
  · cases h
    exact .inl ⟨hc,rfl⟩
  · cases h
  · cases h
    refine .inr ⟨Nat.not_lt.mp hc,?_⟩
    have hlast : (if min v.size n < v.lastSlot then min v.size n else v.lastSlot) = min v.lastSlot (min v.size n) := by
      split <;> omega
    rw [hlast]

/-- A shrink empties the slots behind the new size. -/
theorem Represents.cleared (h : v.Represents os) (n : Nat) :
    v.vector.mapIdx (fun i o => if n ≤ i ∧ i < v.size then none else o) =
      (os.take n).map some ++ List.replicate (v.capacity-(os.take n).length) none := by
  have hf := h.fits
  have hr := h.room
  have hl := List.length_take (i := n) (l := os)
  rw [h.vector]
  apply List.ext_getElem?
  intro i
  rw [List.getElem?_mapIdx,List.getElem?_append,List.getElem?_append,List.length_map,List.length_map,List.getElem?_map,
    List.getElem?_map,List.getElem?_replicate,List.getElem?_replicate]
  by_cases hi : i < os.length
  · rw [if_pos hi,List.getElem?_eq_getElem hi]
    by_cases hn : i < n
    · rw [if_pos (by omega),List.getElem?_take_of_lt hn,List.getElem?_eq_getElem hi]
      simp [Nat.not_le.mpr hn]
    · rw [if_neg (by omega),if_pos (by omega)]
      have hin : n ≤ i ∧ i < v.size := by omega
      simp [hin]
  · have htake : ¬i < (os.take n).length := by omega
    rw [if_neg hi,if_neg htake]
    by_cases hc : i < v.capacity
    · have h1 : i-os.length < v.capacity-os.length := by omega
      have h2 : i-(os.take n).length < v.capacity-(os.take n).length := by omega
      rw [if_pos h1,if_pos h2]
      simp
    · have h1 : ¬i-os.length < v.capacity-os.length := by omega
      have h2 : ¬i-(os.take n).length < v.capacity-(os.take n).length := by omega
      rw [if_neg h1,if_neg h2]
      rfl

theorem Represents.resize {m m' : Mem} {n : Nat} (h : v.Represents os) (hr : v.resize m n = (m',.ok v')) :
    v'.Represents (os.take n) := by
  have h1 := h.last
  have h2 := h.fits
  have h3 := h.room
  rcases resize_cases hr with ⟨hc,rfl⟩ | ⟨hc,rfl⟩
  · have hall : os.take n = os := List.take_of_length_le (by omega)
    rw [hall]
    refine ⟨?_,h1,?_,le_rfl⟩
    · have hk : v.capacity-os.length+(n-v.capacity) = n-os.length := by omega
      dsimp only
      rw [h.vector,List.append_assoc,List.replicate_append_replicate,hk]
    · dsimp only
      omega
  · refine ⟨h.cleared n,?_,?_,?_⟩
    · dsimp only
      rw [List.length_take]
      omega
    · dsimp only
      rw [List.length_take]
      omega
    · dsimp only
      omega

/-! Histories. -/

inductive Op
  | put (origin : Origin)
  | resize (size : Nat)
  deriving DecidableEq, Repr

/-- A failed resize changes nothing. -/
def step (s : Mem × ClientCertVector) : Op → Mem × ClientCertVector
  | .put origin => (s.1,(s.2.put origin).1)
  | .resize size =>
    match s.2.resize s.1 size with
    | (m,.ok v) => (m,v)
    | (m,.error _) => (m,s.2)

def run (m : Mem) (size : Nat) (ops : List Op) : Mem × ClientCertVector := ops.foldl step (m,init size)

theorem Represents.put_slot (h : v.Represents os) (hs : 0 < v.size) (o : Origin) :
    0 < (v.put o).2 ∧ (v.put o).2 ≤ v.size ∧ (v.put o).1.getOrigin (v.put o).2 = some o ∧
      ∀ t, t ≠ (v.put o).2 → (v.put o).1.getOrigin t = v.getOrigin t := by
  obtain ⟨hpos,hle,hat⟩ := h.nextSlot hs
  have hp := h.put hs o
  have hslot : (v.put o).2 = v.nextSlot := by rw [put_eq hs]
  rw [hslot]
  refine ⟨hpos,hle,?_,?_⟩
  · rw [hp.getOrigin,if_neg hpos.ne',getElem?_placed hat,if_pos rfl]
  · intro t ht
    rw [hp.getOrigin,h.getOrigin]
    by_cases h0 : t = 0
    · rw [if_pos h0,if_pos h0]
    · rw [if_neg h0,if_neg h0,getElem?_placed hat,if_neg (by omega)]

end ClientCertVector
end Spdylay
