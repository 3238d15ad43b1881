import Spdylay.Wire.FixedFrames

/-! The memory behind a payload. A parser is given a buffer and a length, and what the buffer holds
beyond that length makes no difference to it. -/
namespace Spdylay

/-- Two buffers that begin with the same `n` bytes. -/
def Agree (n : Nat) (p q : Bytes) : Prop := p.take n = q.take n

section
variable {n k : Nat} {p q : Bytes}

theorem Agree.mono (h : Agree n p q) (hk : k ≤ n) : Agree k p q := by
  have htake := congrArg (List.take k) h
  rwa [List.take_take, List.take_take, min_eq_left hk] at htake

theorem Agree.drop (h : Agree n p q) (k : Nat) : Agree (n-k) (p.drop k) (q.drop k) := by
  have hdrop := congrArg (List.drop k) h
  rwa [List.drop_take, List.drop_take] at hdrop

theorem Agree.getD (h : Agree n p q) {i : Nat} (hi : i < n) : p.getD i 0 = q.getD i 0 := by
  have hget := congrArg (fun l : Bytes => l.getD i 0) h
  simpa [List.getElem?_take, hi] using hget

theorem Agree.getUint16 (h : Agree n p q) (hn : 2 ≤ n) : getUint16 p = getUint16 q := by
  unfold Spdylay.getUint16
  rw [h.getD (by omega), h.getD (i := 1) (by omega)]

theorem Agree.getUint32 (h : Agree n p q) (hn : 4 ≤ n) : getUint32 p = getUint32 q := by
  unfold Spdylay.getUint32
  rw [h.getD (by omega), h.getD (i := 1) (by omega), h.getD (i := 2) (by omega), h.getD (i := 3) (by omega)]

theorem Agree.getStreamId (h : Agree n p q) (hn : 4 ≤ n) : getStreamId p = getStreamId q := by
  unfold Spdylay.getStreamId
  rw [h.getUint32 hn]

theorem Agree.self_take (n : Nat) (p : Bytes) : Agree n p (p.take n) := by
  rw [Agree, List.take_take, min_self]

/-! Frames without a name/value block. -/

theorem frameUnpackPing_agree (head : Bytes) (h : Agree n p q) : frameUnpackPing head p n = frameUnpackPing head q n := by
  unfold frameUnpackPing
  split
  · rfl
  · rw [h.getUint32 (by omega)]

theorem frameUnpackGoaway_agree (head : Bytes) (h : Agree n p q) : frameUnpackGoaway head p n = frameUnpackGoaway head q n := by
  unfold frameUnpackGoaway
  dsimp only
  split
  · split
    · rfl
    · rw [h.getStreamId (by omega)]
  · split
    · split
      · rfl
      · rw [h.getStreamId (by omega), (h.drop 4).getUint32 (by omega)]
    · rfl

theorem frameUnpackRstStream_agree (head : Bytes) (h : Agree n p q) :
    frameUnpackRstStream head p n = frameUnpackRstStream head q n := by
  unfold frameUnpackRstStream
  split
  · rfl
  · rw [h.getStreamId (by omega), (h.drop 4).getUint32 (by omega)]

theorem frameUnpackWindowUpdate_agree (head : Bytes) (h : Agree n p q) :
    frameUnpackWindowUpdate head p n = frameUnpackWindowUpdate head q n := by
  unfold frameUnpackWindowUpdate
  split
  · rfl
  · rw [h.getStreamId (by omega), (h.drop 4).getStreamId (by omega)]

theorem unpackSettingsEntry_agree (version : Nat) (h : Agree n p q) (hn : 8 ≤ n) :
    unpackSettingsEntry version p = unpackSettingsEntry version q := by
  unfold unpackSettingsEntry
  rw [(h.drop 4).getUint32 (by omega), h.getUint32 (by omega), h.getD (i := 0) (by omega), h.getD (i := 1) (by omega),
    h.getD (i := 2) (by omega), h.getD (i := 3) (by omega)]

theorem frameUnpackSettings_agree (m : Mem) (head : Bytes) (h : Agree n p q) :
    frameUnpackSettings m head p n = frameUnpackSettings m head q n := by
  unfold frameUnpackSettings
  dsimp only
  split
  · rfl
  · rename_i h4
    rw [h.getUint32 (by omega)]
    split
    · rfl
    · split
      · rfl
      · rename_i hlen
        have hentries : (List.range (getUint32 q)).map (fun i => unpackSettingsEntry (frameUnpackCtrlHd head).version
            (p.drop (4+i*8))) = (List.range (getUint32 q)).map (fun i =>
              unpackSettingsEntry (frameUnpackCtrlHd head).version (q.drop (4+i*8))) := by
          apply List.map_congr_left
          intro i hi
          have hlt := List.mem_range.mp hi
          exact unpackSettingsEntry_agree _ (h.drop (4+i*8)) (by omega)
        rw [hentries]

theorem countUnpackCertLoop_agree (h : Agree n p q) (fuel offset : Nat) :
    countUnpackCertLoop p n fuel offset = countUnpackCertLoop q n fuel offset := by
  induction fuel generalizing offset with
  | zero => rfl
  | succ fuel ih =>
    unfold countUnpackCertLoop
    split
    · rfl
    · rw [(h.drop offset).getUint32 (by omega)]
      dsimp only
      split
      · rfl
      · have hcert : (p.drop (offset+4)).take (getUint32 (q.drop offset)) =
            (q.drop (offset+4)).take (getUint32 (q.drop offset)) := (h.drop (offset+4)).mono (by omega)
        rw [hcert, ih]

theorem frameUnpackCredential_agree (m : Mem) (head : Bytes) (h : Agree n p q) :
    frameUnpackCredential m head p n = frameUnpackCredential m head q n := by
  unfold frameUnpackCredential
  split
  · rfl
  · rw [(h.drop 2).getUint32 (by omega), h.getUint16 (by omega)]
    dsimp only
    split
    · rfl
    · have hproof : (p.drop 6).take (getUint32 (q.drop 2)) = (q.drop 6).take (getUint32 (q.drop 2)) :=
        (h.drop 6).mono (by omega)
      rw [countUnpackCertLoop_agree (h.drop (6+getUint32 (q.drop 2))), hproof]

/-! Frames with one. -/

theorem frameUnpackSynStream_agree (qsort : Qsort) (m : Mem) (head : Bytes) (h : Agree n p q) (inflated : Bytes) :
    frameUnpackSynStream qsort m head p n inflated = frameUnpackSynStream qsort m head q n inflated := by
  have hwithout : frameUnpackSynStreamWithoutNv head p n = frameUnpackSynStreamWithoutNv head q n := by
    unfold frameUnpackSynStreamWithoutNv headLen synStreamNvOffset
    dsimp only
    split
    · rfl
    · rw [h.getStreamId (by omega), (h.drop 4).getStreamId (by omega), h.getD (by omega), h.getD (i := 9) (by omega)]
  unfold frameUnpackSynStream
  rw [hwithout]

theorem unpackStreamHeaders_agree (type : FrameType) (qsort : Qsort) (m : Mem) (head : Bytes) (h : Agree n p q)
    (inflated : Bytes) (hoffset : ∀ offset, frameNvOffset type (frameUnpackCtrlHd head).version = some offset → 12 ≤ offset) :
    unpackStreamHeaders type qsort m head p n inflated = unpackStreamHeaders type qsort m head q n inflated := by
  have hwithout : unpackStreamHeadersWithoutNv type head p n = unpackStreamHeadersWithoutNv type head q n := by
    unfold unpackStreamHeadersWithoutNv headLen
    dsimp only
    cases ho : frameNvOffset type (frameUnpackCtrlHd head).version with
    | none => rfl
    | some offset =>
      have hle := hoffset offset ho
      dsimp only
      split
      · rfl
      · rw [h.getStreamId (by omega)]
  unfold unpackStreamHeaders
  rw [hwithout]

end

end Spdylay
