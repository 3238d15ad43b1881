import Spdylay.Session.Runs

/-! The fixed part of a SYN_STREAM, written and read. The interface accepts the
priorities of its version and three bits are reserved for them in SPDY/3, but writer
and reader use two in both versions. -/
namespace Spdylay
open Session

/-- The frame that an accepted submission queues, with the id and the slot that
are assigned to it later. -/
def submittedSynStream (P : Platform) (s : Session) (flags : Nat) (assocStreamId : Int) (pri : Nat)
    (nv : List Bytes) (streamId : Int) (slot : Nat) : SynStream :=
  {frameSynStreamInit s.version.num (keepFlags flags) 0 (if s.server then assocStreamId else 0) pri
    (frameNvNormCopy P.qsort nv) with streamId := streamId, slot := slot}

theorem submitSynStreamShared_accepts {P : Platform} {s : Session} {flags : Nat} {assocStreamId : Int} {pri : Nat}
    {nv : List Bytes} {dataPrd : Option DataProvider}
    (h : (submitSynStreamShared P s flags assocStreamId pri nv dataPrd).2 = none) :
    pri ≤ s.getPriLowest ∧ ∃ n, submitSynStreamShared P s flags assocStreamId pri nv dataPrd =
      (mallocs n s).1.addFrame (.ctrl (.synStream (submittedSynStream P s flags assocStreamId pri nv 0 0))) dataPrd := by
  unfold submitSynStreamShared at h ⊢
  by_cases hpri : s.getPriLowest < pri
  · rw [if_pos hpri] at h
    cases h
  rw [if_neg hpri] at h ⊢
  refine ⟨Nat.le_of_not_lt hpri,?_⟩
  by_cases hassoc : assocStreamId ≠ 0 ∧ s.server ∧ s.isMyStreamId assocStreamId
  · rw [if_pos hassoc] at h
    cases h
  rw [if_neg hassoc] at h ⊢
  by_cases hnv : !frameNvCheckNull nv
  · rw [if_pos hnv] at h
    cases h
  rw [if_neg hnv] at h ⊢
  dsimp only at h ⊢
  generalize (if dataPrd.isSome then 4 else 3) = n at h ⊢
  by_cases hmem : (mallocs n s).2
  · rw [if_pos hmem]
    exact ⟨n,rfl⟩
  · rw [if_neg hmem] at h
    cases h

/-- A SYN_STREAM whose fields are in the range of their C types. -/
structure InRange (s : Session) (f : SynStream) : Prop where
  version : f.hd.version = s.version.num
  flags : f.hd.flags < 256
  pri : f.pri ≤ s.getPriLowest
  slot : f.slot < 256
  streamId : 1 ≤ f.streamId ∧ f.streamId ≤ int32Max
  assocStreamId : -2147483648 ≤ f.assocStreamId ∧ f.assocStreamId ≤ int32Max

/-- The parser returns what the packer was given. -/
def ReadsBack (f : SynStream) (block : Bytes) : Prop :=
  let bytes := framePackSynStream f block
  let r := frameUnpackSynStreamWithoutNv (bytes.take headLen) ((bytes.drop headLen).take (synStreamNvOffset-headLen))
    (synStreamNvOffset-headLen)
  r.2 = none ∧ r.1.hd.version = f.hd.version ∧ r.1.hd.flags = f.hd.flags ∧ r.1.streamId = f.streamId ∧
    r.1.assocStreamId = f.assocStreamId ∧ r.1.pri = f.pri ∧ r.1.slot = f.slot

instance (f : SynStream) (block : Bytes) : Decidable (ReadsBack f block) := by unfold ReadsBack; infer_instance

theorem framePackCtrlHd_length (type : FrameType) (hd : CtrlHd) : (framePackCtrlHd type hd).length = headLen := rfl

theorem getStreamId_put (n : Int) (rest : Bytes) :
    getStreamId (putUint32be (toUint32 n) ++ rest) = n % 2147483648 := by
  have hlt : toUint32 n < 4294967296 := by
    unfold toUint32
    omega
  unfold getStreamId
  rw [getUint32_put _ _ hlt]
  unfold toUint32 streamIdMask
  omega

/-- The fields as they come back: two bits of priority, ids without their sign. -/
theorem frameUnpackSynStream_pack {s : Session} {f : SynStream} (block : Bytes) (h : InRange s f) :
    let bytes := framePackSynStream f block
    ∃ length, frameUnpackSynStreamWithoutNv (bytes.take headLen)
      ((bytes.drop headLen).take (synStreamNvOffset-headLen)) (synStreamNvOffset-headLen) =
      (⟨⟨f.hd.version,f.hd.flags,length⟩,f.streamId,f.assocStreamId % 2147483648,f.pri % 4,
        if f.hd.version = 3 then f.slot else 0,[]⟩,none) := by
  intro bytes
  refine ⟨(frameUnpackCtrlHd (bytes.take headLen)).length,?_⟩
  have hhead : bytes.take headLen =
      framePackCtrlHd .synStream {f.hd with length := synStreamNvOffset-headLen+block.length} := by
    unfold bytes framePackSynStream
    rw [List.append_assoc,List.append_assoc,List.append_assoc]
    exact List.take_left' (framePackCtrlHd_length _ _)
  have hfixed : (bytes.drop headLen).take (synStreamNvOffset-headLen) = putUint32be (toUint32 f.streamId) ++
      (putUint32be (toUint32 f.assocStreamId) ++
        [UInt8.ofNat (f.pri*64),if f.hd.version = 3 then UInt8.ofNat f.slot else 0]) := rfl
  have hversion : getUint16 (bytes.take headLen) % 32768 = f.hd.version := by
    rw [hhead]
    unfold framePackCtrlHd
    rw [List.append_assoc,getUint16_put]
    all_goals
      dsimp only
      rw [h.version]
      cases s.version <;> decide
  have hflags : ((bytes.take headLen).getD 4 0).toNat = f.hd.flags := by
    rw [hhead]
    exact Nat.mod_eq_of_lt h.flags
  have hassoc : getStreamId (((bytes.drop headLen).take (synStreamNvOffset-headLen)).drop 4) =
      f.assocStreamId % 2147483648 := by
    rw [hfixed]
    exact getStreamId_put f.assocStreamId _
  have hid : getStreamId ((bytes.drop headLen).take (synStreamNvOffset-headLen)) = f.streamId := by
    have hr := h.streamId
    unfold int32Max at hr
    rw [hfixed,getStreamId_put]
    omega
  have hpri : (((bytes.drop headLen).take (synStreamNvOffset-headLen)).getD 8 0).toNat/64 = f.pri % 4 := by
    rw [hfixed]
    change f.pri*64 % 256/64 = f.pri % 4
    omega
  have hslot : (((bytes.drop headLen).take (synStreamNvOffset-headLen)).getD 9 0).toNat =
      if f.hd.version = 3 then f.slot else 0 := by
    rw [hfixed]
    change (if f.hd.version = 3 then UInt8.ofNat f.slot else 0 : UInt8).toNat = _
    split
    · exact Nat.mod_eq_of_lt h.slot
    · rfl
  unfold frameUnpackSynStreamWithoutNv frameUnpackCtrlHd
  dsimp only
  rw [if_neg (by decide),hversion,hflags,hid,hassoc,hpri,hslot]
  by_cases hv : f.hd.version = 3
  · rw [if_pos hv,if_pos hv]
  · rw [if_neg hv,if_neg hv]

/-- Exactly the SYN_STREAMs with one of the four highest priorities, an association
id that is not negative and, in SPDY/2, no slot come back as they were. -/
theorem readsBack_iff {s : Session} {f : SynStream} (block : Bytes) (h : InRange s f) :
    ReadsBack f block ↔ f.pri ≤ 3 ∧ 0 ≤ f.assocStreamId ∧ (s.version = .spdy3 ∨ f.slot = 0) := by
  obtain ⟨length,hr⟩ := frameUnpackSynStream_pack block h
  have ha := h.assocStreamId
  have hv := h.version
  unfold int32Max at ha
  unfold ReadsBack
  dsimp only at hr ⊢
  rw [hr]
  dsimp only
  have hassoc : f.assocStreamId % 2147483648 = f.assocStreamId ↔ 0 ≤ f.assocStreamId := by omega
  have hpri : f.pri % 4 = f.pri ↔ f.pri ≤ 3 := by omega
  have hslot : (if f.hd.version = 3 then f.slot else 0) = f.slot ↔ s.version = .spdy3 ∨ f.slot = 0 := by
    rw [hv]
    cases s.version with
    | spdy2 => simp [Version.num,eq_comm]
    | spdy3 => simp [Version.num]
  rw [hassoc,hpri,hslot]
  simp only [true_and]
  tauto

theorem keepFlags_lt (flags : Nat) : keepFlags flags < 256 := by
  unfold keepFlags
  split <;> split <;> omega

/-- What the interface accepts comes back from the wire exactly when its priority
fits the two bits, a server names no negative association and a slot is only
assigned in SPDY/3. -/
theorem submitted_reads_back_iff (P : Platform) (s : Session) (flags : Nat) (assocStreamId : Int) (pri : Nat)
    (nv : List Bytes) (dataPrd : Option DataProvider) (streamId : Int) (slot : Nat) (block : Bytes)
    (haccept : (submitSynStreamShared P s flags assocStreamId pri nv dataPrd).2 = none)
    (hassoc : -2147483648 ≤ assocStreamId ∧ assocStreamId ≤ int32Max)
    (hid : 1 ≤ streamId ∧ streamId ≤ int32Max) (hslot : slot < 256) :
    ReadsBack (submittedSynStream P s flags assocStreamId pri nv streamId slot) block ↔
      pri ≤ 3 ∧ (s.server → 0 ≤ assocStreamId) ∧ (s.version = .spdy3 ∨ slot = 0) := by
  obtain ⟨hpri,-⟩ := submitSynStreamShared_accepts haccept
  have hrange : InRange s (submittedSynStream P s flags assocStreamId pri nv streamId slot) := by
    refine ⟨rfl,keepFlags_lt flags,hpri,hslot,hid,?_⟩
    change -2147483648 ≤ (if s.server then assocStreamId else 0) ∧ (if s.server then assocStreamId else 0) ≤ int32Max
    split
    · exact hassoc
    · decide
  rw [readsBack_iff block hrange]
  change pri ≤ 3 ∧ 0 ≤ (if s.server then assocStreamId else 0) ∧ _ ↔ _
  cases s.server with
  | true => simp [submittedSynStream]
  | false => simp [submittedSynStream]

def spdy3Client : Session := (sampleClient .int32 [] []).start samplePlatform

/-- A SPDY/3 client may submit a request of priority 4, which its peer reads as 0. -/
theorem priority_four_reads_back_as_zero :
    (submitRequest samplePlatform spdy3Client 4 [[97],[98]] none).2 = none ∧
    ¬ReadsBack (submittedSynStream samplePlatform spdy3Client 1 0 4 [[97],[98]] 1 0) [] := by
  decide +kernel

theorem priority_three_reads_back :
    ReadsBack (submittedSynStream samplePlatform spdy3Client 1 0 3 [[97],[98]] 1 0) [] := by
  refine (submitted_reads_back_iff samplePlatform spdy3Client 1 0 3 [[97],[98]] none 1 0 [] ?_ ?_ ?_ ?_).mpr ?_
  all_goals decide +kernel

end Spdylay
