import Spdylay.Machine.InboundFraming
import Spdylay.Machine.Turns

/-! The end of a frame in a pass of the receive loop. Up to there a control frame
changes nothing but the inbound frame, the inflater and the memory that is left. -/
namespace Spdylay.Session
open Machine

/-- The session that reads payload in this pass, and its input. -/
def payloadStart (P : Platform) (s : Session) (input : Bytes) : Option (Session × Bytes) :=
  if s.iframe.state = .head then
    let h := s.recvHead P input
    match h.2.2 with
    | some _ => none
    | none => some (h.1,h.2.1)
  else some (s,input)

/-- Reading payload up to the end of the input or of the frame. -/
def payloadRead (P : Platform) (s : Session) (input : Bytes) : Session × Option Err :=
  let p := s.recvPreNv input (min input.length (s.iframe.payloadlen-s.iframe.off))
  (p.1.recvChunk P (p.2.1.take p.2.2)).creditChunk (p.2.1.take p.2.2).length

/-- The session that has read the last byte of the payload, if this pass reads it and
inflating it returns. -/
def payloadEnd (P : Platform) (s : Session) (input : Bytes) : Option Session :=
  if 0 < s.iframe.payloadlen-s.iframe.off ∧ input = [] then none
  else
    let c := s.payloadRead P input
    match c.2 with
    | some _ => none
    | none => if c.1.iframe.payloadlen = c.1.iframe.off ∧ c.1.iframe.errorCode ≠ some .endless then some c.1 else none

/-- The session that processes the frame whose last byte is read in this pass. -/
def atFrameEnd (P : Platform) (s : Session) (input : Bytes) : Option Session :=
  match s.payloadStart P input with
  | none => none
  | some (s1, input) => s1.payloadEnd P input

theorem recvPayload_payloadEnd {P : Platform} {s t : Session} {input : Bytes} (h : s.payloadEnd P input = some t) :
    (s.recvPayload P input).1 = (t.endFrame P).1 := by
  rw [payloadEnd] at h
  rw [recvPayload]
  by_cases hin : 0 < s.iframe.payloadlen-s.iframe.off ∧ input = []
  · rw [if_pos hin] at h
    cases h
  · rw [if_neg hin] at h ⊢
    dsimp only at h ⊢
    rw [← payloadRead]
    cases hc : (s.payloadRead P input).2 with
    | some e =>
      rw [hc] at h
      cases h
    | none =>
      rw [hc] at h
      dsimp only at h ⊢
      split at h
      · cases h
        split <;> rfl
      · cases h

theorem recvIter_atFrameEnd {P : Platform} {s t : Session} {input : Bytes} (h : s.atFrameEnd P input = some t) :
    (s.recvIter P input).1 = (t.endFrame P).1 := by
  unfold atFrameEnd payloadStart at h
  unfold recvIter
  by_cases hhead : s.iframe.state = .head
  · rw [if_pos hhead] at h ⊢
    dsimp only at h ⊢
    cases hr : (s.recvHead P input).2.2 with
    | some r =>
      rw [hr] at h
      cases h
    | none =>
      rw [hr] at h
      exact recvPayload_payloadEnd h
  · rw [if_neg hhead] at h ⊢
    exact recvPayload_payloadEnd h

/-- Only the inbound frame, the inflater and the memory differ. -/
def Reading (s t : Session) : Prop := ∃ f z m, t = {s with iframe := f, hdInflater := z, host := {s.host with mem := m}}

theorem Reading.refl (s : Session) : Reading s s := ⟨_,_,_,rfl⟩

theorem Reading.trans {s t v : Session} (h : Reading s t) (h' : Reading t v) : Reading s v := by
  obtain ⟨f,z,m,rfl⟩ := h
  obtain ⟨f',z',m',rfl⟩ := h'
  exact ⟨f',z',m',rfl⟩

theorem startPayload_reading (P : Platform) (s : Session) : Reading s (s.startPayload P).1 := by
  unfold startPayload reserveIframeBuf
  dsimp only
  split
  · split
    · split <;> exact ⟨_,_,_,rfl⟩
    · exact ⟨_,_,_,rfl⟩
  · exact ⟨_,_,_,rfl⟩

theorem recvHead_reading (P : Platform) (s : Session) (input : Bytes) : Reading s (s.recvHead P input).1 := by
  have htake : ∀ bytes, Reading s (s.takeHead bytes) := fun bytes => ⟨_,_,_,rfl⟩
  unfold recvHead
  split
  · exact .refl s
  · dsimp only
    split
    · have h := (htake (input.take (min (headLen-s.iframe.headbuf.length) input.length))).trans
        (startPayload_reading P _)
      split <;> exact h
    · exact htake _

theorem recvPreNv_reading (s : Session) (input : Bytes) (readlen : Nat) : Reading s (s.recvPreNv input readlen).1 := by
  unfold recvPreNv
  dsimp only
  split
  · exact ⟨_,_,_,rfl⟩
  · exact .refl s

theorem recvPreNv_headbuf (s : Session) (input : Bytes) (readlen : Nat) :
    (s.recvPreNv input readlen).1.iframe.headbuf = s.iframe.headbuf := by
  unfold recvPreNv
  dsimp only
  split
  · split <;> rfl
  · rfl

theorem inflateChunk_reading (P : Platform) (s : Session) (chunk : Bytes) : Reading s (s.inflateChunk P chunk) := by
  unfold inflateChunk
  dsimp only
  split
  · exact ⟨_,_,_,rfl⟩
  · exact .refl s

theorem inflateChunk_headbuf (P : Platform) (s : Session) (chunk : Bytes) :
    (s.inflateChunk P chunk).iframe.headbuf = s.iframe.headbuf := by
  unfold inflateChunk
  dsimp only
  split <;> rfl

theorem recvChunk_headbuf (P : Platform) (s : Session) (chunk : Bytes) :
    (s.recvChunk P chunk).iframe.headbuf = s.iframe.headbuf := by
  unfold recvChunk
  dsimp only
  split
  · exact inflateChunk_headbuf P s chunk
  · split
    · split <;> rfl
    · split <;> rfl

theorem recvChunk_reading {P : Platform} {s : Session} {chunk : Bytes} (h : s.iframe.isCtrl = true) :
    Reading s (s.recvChunk P chunk) := by
  unfold recvChunk
  dsimp only
  rw [if_pos h]
  split
  · exact (inflateChunk_reading P s chunk).trans ⟨_,_,_,rfl⟩
  · split <;> exact ⟨_,_,_,rfl⟩

theorem creditChunk_ctrl {s : Session} {n : Nat} (h : s.iframe.isCtrl = true) : s.creditChunk n = (s,none) := by
  unfold creditChunk
  dsimp only
  rw [if_neg]
  rintro ⟨-,-,hdata,-⟩
  rw [h] at hdata
  cases hdata

theorem payloadRead_headbuf (P : Platform) (s : Session) (input : Bytes) :
    (s.payloadRead P input).1.iframe.headbuf = s.iframe.headbuf := by
  unfold payloadRead
  dsimp only
  rw [Machine.creditChunk_iframe,recvChunk_headbuf,recvPreNv_headbuf]

/-- A control frame that is read leaves the rest of the session as it was. -/
theorem payloadRead_reading {P : Platform} {s : Session} {input : Bytes}
    (h : (s.payloadRead P input).1.iframe.isCtrl = true) : Reading s (s.payloadRead P input).1 := by
  unfold InboundFrame.isCtrl at h
  rw [payloadRead_headbuf] at h
  have hpre := recvPreNv_headbuf s input (min input.length (s.iframe.payloadlen-s.iframe.off))
  have hread := recvPreNv_reading s input (min input.length (s.iframe.payloadlen-s.iframe.off))
  unfold payloadRead
  dsimp only
  generalize s.recvPreNv input (min input.length (s.iframe.payloadlen-s.iframe.off)) = p at hpre hread
  have hctrl : p.1.iframe.isCtrl = true := by
    unfold InboundFrame.isCtrl
    rw [hpre]
    exact h
  have hctrl' : (p.1.recvChunk P (p.2.1.take p.2.2)).iframe.isCtrl = true := by
    unfold InboundFrame.isCtrl at hctrl ⊢
    rw [recvChunk_headbuf]
    exact hctrl
  rw [creditChunk_ctrl hctrl']
  exact hread.trans (recvChunk_reading hctrl)

theorem atFrameEnd_reading {P : Platform} {s t : Session} {input : Bytes} (h : s.atFrameEnd P input = some t)
    (hctrl : t.iframe.isCtrl = true) : Reading s t := by
  have hpayload : ∀ {s1 : Session} {input1 : Bytes}, s1.payloadEnd P input1 = some t → Reading s1 t := by
    intro s1 input1 h1
    unfold payloadEnd at h1
    dsimp only at h1
    split at h1
    · cases h1
    split at h1
    · cases h1
    split at h1
    · cases h1
      exact payloadRead_reading hctrl
    · cases h1
  unfold atFrameEnd payloadStart at h
  by_cases hhead : s.iframe.state = .head
  · rw [if_pos hhead] at h
    dsimp only at h
    cases hr : (s.recvHead P input).2.2 with
    | some r =>
      rw [hr] at h
      cases h
    | none =>
      rw [hr] at h
      exact (recvHead_reading P s input).trans (hpayload h)
  · rw [if_neg hhead] at h
    exact hpayload h

theorem atFrameEnd_complete {P : Platform} {s t : Session} {input : Bytes} (h : s.atFrameEnd P input = some t) :
    t.iframe.payloadlen = t.iframe.off ∧ t.iframe.errorCode ≠ some .endless := by
  unfold atFrameEnd payloadEnd at h
  split at h
  · cases h
  · dsimp only at h
    split at h
    · cases h
    split at h
    · cases h
    split at h
    · rename_i hend
      cases h
      exact hend
    · cases h

/-- The type of the control frame that ends in this pass, and the session that processes it. -/
def ctrlFrameEnd (P : Platform) (s : Session) (input : Bytes) : Option (FrameType × Session) :=
  match s.atFrameEnd P input with
  | none => none
  | some t =>
    if t.iframe.isCtrl then (FrameType.ofNum (getUint16 (t.iframe.headbuf.drop 2))).map (fun type => (type,t)) else none

theorem ctrlFrameEnd_spec {P : Platform} {s t : Session} {input : Bytes} {type : FrameType}
    (h : s.ctrlFrameEnd P input = some (type,t)) : s.atFrameEnd P input = some t ∧ t.iframe.isCtrl = true ∧
      FrameType.ofNum (getUint16 (t.iframe.headbuf.drop 2)) = some type ∧ Reading s t := by
  unfold ctrlFrameEnd at h
  split at h
  · cases h
  rename_i t' ht
  split at h
  · rename_i hctrl
    obtain ⟨type',htype,heq⟩ := Option.map_eq_some_iff.mp h
    cases heq
    exact ⟨ht,hctrl,htype,atFrameEnd_reading ht hctrl⟩
  · cases h

/-- After the frame is processed only the inbound frame is reset and the end is noted. -/
theorem recvIter_ctrlFrameEnd {P : Platform} {s t : Session} {input : Bytes} {type : FrameType}
    (h : s.ctrlFrameEnd P input = some (type,t)) :
    (s.recvIter P input).1 = (t.dispatchCtrlFrame P).1 ∨
    (s.recvIter P input).1 = {(t.dispatchCtrlFrame P).1 with iframe := (t.dispatchCtrlFrame P).1.iframe.reset}.emit
      .frameDone := by
  obtain ⟨ht,hctrl,-,-⟩ := ctrlFrameEnd_spec h
  rw [recvIter_atFrameEnd ht]
  have hfatal : (t.processCtrlFrame P).1 = (t.dispatchCtrlFrame P).1 := onlyFatal_fst _
  obtain ⟨hend,hlive⟩ := atFrameEnd_complete ht
  unfold endFrame
  rw [if_neg hlive,if_pos hend,if_pos hctrl]
  dsimp only
  split
  · rw [hfatal]
    exact .inr rfl
  · exact .inl hfatal

end Spdylay.Session
