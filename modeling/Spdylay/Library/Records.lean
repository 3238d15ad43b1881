import Mathlib

/-! Sequences of records of one width: the records at the multiples of the width. -/
namespace Spdylay.Library.Records
variable {α β : Type} {enc : α → List β} {dec : List β → α} {width : Nat}

/-- The first `n` records of the data. -/
def readAll (dec : List β → α) (width n : Nat) (data : List β) : List α :=
  (List.range n).map (fun i => dec (data.drop (i*width)))

theorem readAll_succ (n : Nat) (data : List β) :
    readAll dec width (n+1) data = dec data :: readAll dec width n (data.drop width) := by
  unfold readAll
  rw [List.range_succ_eq_map, List.map_cons, List.map_map]
  simp only [Nat.zero_mul, List.drop_zero, List.cons.injEq, true_and]
  apply List.map_congr_left
  intro i _
  simp only [Function.comp_apply, List.drop_drop]
  congr 2
  rw [Nat.succ_mul, Nat.add_comm]

theorem length_readAll (n : Nat) (data : List β) : (readAll dec width n data).length = n := by
  simp [readAll]

/-- Records that were written are read back. -/
theorem readAll_flatMap {l : List α} (hw : ∀ a, (enc a).length = width)
    (hd : ∀ a ∈ l, ∀ rest, dec (enc a ++ rest) = a) : readAll dec width l.length (l.flatMap enc) = l := by
  induction l with
  | nil => rfl
  | cons a l ih =>
    obtain ⟨ha, hl⟩ := List.forall_mem_cons.mp hd
    rw [List.length_cons, readAll_succ, List.flatMap_cons, ha, List.drop_left' (hw a), ih hl]

/-- Data that was read is written again. -/
theorem flatMap_readAll (he : ∀ d, width ≤ d.length → enc (dec d) = d.take width) {n : Nat} {data : List β}
    (h : data.length = n*width) : (readAll dec width n data).flatMap enc = data := by
  induction n generalizing data with
  | zero =>
    rw [Nat.zero_mul] at h
    rw [List.eq_nil_of_length_eq_zero h]
    rfl
  | succ n ih =>
    rw [Nat.succ_mul] at h
    rw [readAll_succ, List.flatMap_cons, he data (by omega), ih (by rw [List.length_drop]; omega),
      List.take_append_drop]

/-! Data kept in pieces of the width. -/

theorem length_flatten {chunks : List (List β)} (h : ∀ c ∈ chunks, c.length = width) :
    chunks.flatten.length = chunks.length*width := by
  induction chunks with
  | nil => simp
  | cons c chunks ih =>
    obtain ⟨hc,hchunks⟩ := List.forall_mem_cons.mp h
    rw [List.flatten_cons,List.length_append,hc,ih hchunks,List.length_cons,Nat.succ_mul,Nat.add_comm]

/-- A piece stands at its multiple of the width. -/
theorem drop_flatten {chunks : List (List β)} (h : ∀ c ∈ chunks, c.length = width) {k : Nat} {c : List β}
    (hk : chunks[k]? = some c) : chunks.flatten.drop (k*width) = c ++ (chunks.drop (k+1)).flatten := by
  induction chunks generalizing k with
  | nil => simp at hk
  | cons x chunks ih =>
    obtain ⟨hx,hchunks⟩ := List.forall_mem_cons.mp h
    cases k with
    | zero =>
      rw [List.getElem?_cons_zero] at hk
      cases hk
      simp
    | succ k =>
      rw [List.getElem?_cons_succ] at hk
      rw [List.flatten_cons,Nat.succ_mul,Nat.add_comm,← List.drop_drop,List.drop_left' hx,ih hchunks hk]
      rfl

end Spdylay.Library.Records
