import Spdylay.Library.Numerals

/-! The chunked transfer coding: what is written chunk by chunk reads back as the data,
whatever follows it. -/
namespace Spdylay.Library.Http

def chunk (data : Octets) : Octets := numeral 16 data.length ++ 13 :: 10 :: (data ++ [13,10])

/-- The chunk of size zero, with an empty trailer behind it. -/
def lastChunk : Octets := [48,13,10,13,10]

/-- A message of the coding and what follows it. -/
def decode (s : Octets) : Option (Octets × Octets) := readChunks (s.length+1) s

theorem readLine_numeral (n : Nat) (rest : Octets) :
    readLine (numeral 16 n ++ 13 :: 10 :: rest) = some (numeral 16 n,rest) :=
  readLine_append (not_mem_of_all (all_isHexDigit_numeral n) (by decide)) rest

theorem readChunks_chunk {data : Octets} (h : data ≠ []) (fuel : Nat) (rest : Octets) :
    readChunks (fuel+1) (chunk data ++ rest) = (readChunks fuel rest).map (fun p => (data ++ p.1,p.2)) := by
  have hall := all_isHexDigit_numeral data.length
  have hline : chunk data ++ rest = numeral 16 data.length ++ 13 :: 10 :: (data ++ 13 :: 10 :: rest) := by
    simp [chunk]
  have htake : (numeral 16 data.length).takeWhile isHexDigit = numeral 16 data.length :=
    List.takeWhile_eq_self_iff.mpr (fun c hc => List.all_eq_true.mp hall c hc)
  have hdrop : (numeral 16 data.length).dropWhile isHexDigit = [] :=
    List.dropWhile_eq_nil_iff.mpr (fun c hc => List.all_eq_true.mp hall c hc)
  have hlen : data.length ≠ 0 := fun hz => h (List.length_eq_zero_iff.mp hz)
  have hcrlf : ((data ++ 13 :: 10 :: rest).drop data.length).take 2 = [13,10] := by
    rw [List.drop_left]
    rfl
  have hrest : (data ++ 13 :: 10 :: rest).drop (data.length+2) = rest := by
    rw [← List.drop_drop,List.drop_left]
    rfl
  rw [hline,readChunks,readLine_numeral]
  dsimp only
  rw [htake,hdrop,hexadecimal_numeral,if_neg (by simp [numeral_ne_nil]),if_neg hlen,if_pos hcrlf,hrest,List.take_left]

theorem readChunks_lastChunk (fuel : Nat) (rest : Octets) :
    readChunks (fuel+1) (lastChunk ++ rest) = some ([],rest) := rfl

theorem readChunks_chunks {datas : List Octets} (h : ∀ data ∈ datas, data ≠ []) (rest : Octets) {fuel : Nat}
    (hfuel : datas.length < fuel) :
    readChunks fuel (datas.flatMap chunk ++ (lastChunk ++ rest)) = some (datas.flatten,rest) := by
  induction datas generalizing fuel with
  | nil =>
    cases fuel with
    | zero => cases hfuel
    | succ fuel => exact readChunks_lastChunk fuel rest
  | cons data datas ih =>
    cases fuel with
    | zero => cases hfuel
    | succ fuel =>
      have hr := ih (fun d hd => h d (List.mem_cons_of_mem _ hd)) (Nat.lt_of_succ_lt_succ hfuel)
      rw [List.flatMap_cons,List.append_assoc,readChunks_chunk (h data List.mem_cons_self),hr]
      rfl

theorem length_le_flatMap_chunk (datas : List Octets) : datas.length ≤ (datas.flatMap chunk).length := by
  induction datas with
  | nil => exact Nat.le_refl 0
  | cons data datas ih =>
    rw [List.flatMap_cons,List.length_append,List.length_cons,chunk]
    simp only [List.length_append,List.length_cons,List.length_nil]
    omega

/-- Data written in chunks of any sizes but zero. -/
theorem decode_chunks {datas : List Octets} (h : ∀ data ∈ datas, data ≠ []) :
    decode (datas.flatMap chunk ++ lastChunk) = some (datas.flatten,[]) := by
  have hlen := length_le_flatMap_chunk datas
  rw [decode,← List.append_nil lastChunk]
  apply readChunks_chunks h
  rw [List.length_append]
  omega

/-- A coded message is longer than its data. -/
theorem decode_self_ne (s rest : Octets) : decode s ≠ some (s,rest) := by
  intro h
  have := (length_readChunks h).1
  omega

/-- The last chunk alone makes a coding of nothing but the empty data. -/
theorem decode_append_lastChunk_iff (s : Octets) : decode (s ++ lastChunk) = some (s,[]) ↔ s = [] := by
  constructor
  · intro h
    by_contra hs
    have hroom := (length_readChunks h).2 hs
    rw [List.length_append,lastChunk] at hroom
    simp only [List.length_cons,List.length_nil] at hroom
    omega
  · rintro rfl
    rfl

/-- Data that stands for itself is read back only when it is nothing and the last chunk
follows. -/
theorem decode_raw_iff (s : Octets) (last : Bool) :
    decode (s ++ if last then lastChunk else []) = some (s,[]) ↔ last = true ∧ s = [] := by
  cases last with
  | true =>
    rw [if_pos rfl,decode_append_lastChunk_iff]
    exact (and_iff_right rfl).symm
  | false =>
    rw [if_neg Bool.false_ne_true,List.append_nil]
    exact iff_of_false (decode_self_ne s []) (fun h => Bool.false_ne_true h.1)

end Spdylay.Library.Http
