import Spdylay.Machine.Errors

/-! Where the receive loop is within the frame it reads. -/
namespace Spdylay.Machine
open Library Session

structure FrameOk (f : InboundFrame) : Prop where
  head : f.state = .head → f.headbuf.length < headLen ∧ f.off = 0 ∧ f.payloadlen = 0
  body : f.state ≠ .head → f.headbuf.length = headLen ∧ f.off ≤ f.payloadlen
  buffer : f.inflatebuf.Ok
  error : ∀ e, f.errorCode = some e → inboundError e

theorem FrameOk.reset {f : InboundFrame} : FrameOk f.reset :=
  ⟨fun _ => ⟨by simp [InboundFrame.reset,headLen],rfl,rfl⟩,fun h => absurd rfl h,bufferReset_ok _,nofun⟩

/-- The same place in the same frame. -/
structure SamePlace (f f' : InboundFrame) : Prop where
  headbuf : f'.headbuf = f.headbuf
  payloadlen : f'.payloadlen = f.payloadlen
  body : f'.state ≠ .head

/-! The header. -/

/-- The state after a complete header. -/
theorem startPayload_spec (P : Platform) (s : Session) (hb : s.iframe.inflatebuf.Ok)
    (he : ∀ e, s.iframe.errorCode = some e → inboundError e) (hs : s.iframe.off = 0)
    (hlen : s.iframe.headbuf.length = headLen) :
    FrameOk (s.startPayload P).1.iframe ∧ (s.startPayload P).1.iframe.state ≠ .head ∧
      (s.startPayload P).1.iframe.headbuf = s.iframe.headbuf ∧ (s.startPayload P).1.iframe.off = 0 ∧
      (s.startPayload P).1.iframe.payloadlen = getUint32 (s.iframe.headbuf.drop 4) % 16777216 ∧
      ∀ e, (s.startPayload P).2 = some e → e = .nomem := by
  have hok : ∀ (state : InboundState) (buf : Bytes) (bufmax buflen len : Nat) (errorCode : Option Err),
      state ≠ .head → (∀ e, errorCode = some e → inboundError e) →
      FrameOk ⟨state,s.iframe.headbuf,buf,bufmax,buflen,len,s.iframe.off,s.iframe.inflatebuf,errorCode⟩ :=
    fun state buf bufmax buflen len errorCode hstate herr =>
      ⟨fun hh => absurd hh hstate,fun _ => ⟨hlen,by simp [hs]⟩,hb,herr⟩
  unfold startPayload
  dsimp only
  split
  · have hp : (s.ctrlPayload s.iframe (getUint32 (s.iframe.headbuf.drop 4) % 16777216)).1 ≠ .head ∧
        ∀ e, (s.ctrlPayload s.iframe (getUint32 (s.iframe.headbuf.drop 4) % 16777216)).2.2 = some e →
          inboundError e := by
      unfold ctrlPayload
      dsimp only
      have hbig : ∀ e, some Err.frameTooLarge = some e → inboundError e := by
        intro e h
        cases h
        exact .inl (.inl rfl)
      split
      · split
        · exact ⟨nofun,hbig⟩
        · exact ⟨nofun,he⟩
      · split
        · refine ⟨nofun,?_⟩
          split
          · exact hbig
          · exact he
        · exact ⟨nofun,he⟩
    unfold reserveIframeBuf
    dsimp only
    split_ifs
    · exact ⟨hok _ _ _ _ _ _ hp.1 hp.2,hp.1,rfl,hs,rfl,nofun⟩
    · exact ⟨hok _ _ _ _ _ _ hp.1 hp.2,hp.1,rfl,hs,rfl,fun e h => by cases h; rfl⟩
    · exact ⟨hok _ _ _ _ _ _ hp.1 hp.2,hp.1,rfl,hs,rfl,nofun⟩
  · have hne : (if s.checkDataRecvAllowed (getUint32 s.iframe.headbuf) then InboundState.payload
        else .payloadIgn) ≠ .head := by split <;> exact nofun
    exact ⟨hok _ _ _ _ _ _ hne he,hne,rfl,hs,rfl,nofun⟩

/-! The payload. -/

theorem recvPreNv_spec (s : Session) (input : Bytes) (readlen : Nat) (h : FrameOk s.iframe)
    (hs : s.iframe.state ≠ .head) (hle : readlen ≤ s.iframe.payloadlen-s.iframe.off) :
    ∃ n ≤ readlen, (s.recvPreNv input readlen).2.1 = input.drop n ∧ (s.recvPreNv input readlen).2.2 = readlen-n ∧
      (s.recvPreNv input readlen).1.iframe.off = s.iframe.off+n ∧ FrameOk (s.recvPreNv input readlen).1.iframe ∧
      SamePlace s.iframe (s.recvPreNv input readlen).1.iframe := by
  have hb := h.body hs
  unfold recvPreNv
  dsimp only
  split
  · have hn := Nat.min_le_right (s.iframe.payloadNvOffset.getD 0-s.iframe.off) readlen
    generalize min (s.iframe.payloadNvOffset.getD 0-s.iframe.off) readlen = n at hn ⊢
    have hoff : s.iframe.off+n ≤ s.iframe.payloadlen := by omega
    refine ⟨n,hn,rfl,rfl,?_⟩
    split
    · exact ⟨rfl,⟨nofun,fun _ => ⟨hb.1,hoff⟩,h.buffer,h.error⟩,rfl,rfl,nofun⟩
    · exact ⟨rfl,⟨fun hh => absurd hh hs,fun _ => ⟨hb.1,hoff⟩,h.buffer,h.error⟩,rfl,rfl,hs⟩
  · exact ⟨0,Nat.zero_le _,rfl,rfl,rfl,h,rfl,rfl,hs⟩

theorem inflateChunk_spec (P : Platform) (s : Session) (chunk : Bytes) (h : FrameOk s.iframe) :
    (s.inflateChunk P chunk).iframe.state = s.iframe.state ∧ (s.inflateChunk P chunk).iframe.off = s.iframe.off ∧
      (s.inflateChunk P chunk).iframe.headbuf = s.iframe.headbuf ∧
      (s.inflateChunk P chunk).iframe.payloadlen = s.iframe.payloadlen ∧
      (s.inflateChunk P chunk).iframe.inflatebuf.Ok ∧
      ∀ e, (s.inflateChunk P chunk).iframe.errorCode = some e → inboundError e := by
  unfold inflateChunk
  dsimp only
  split
  · have hb : (if s.iframe.errorCode = some .frameTooLarge then bufferReset s.iframe.inflatebuf
        else s.iframe.inflatebuf).Ok := by
      split
      · exact bufferReset_ok _
      · exact h.buffer
    obtain ⟨hbuf,herr⟩ := inflateHd_ok P.toZlib s.version s.host.mem s.hdInflater _ chunk hb
    generalize inflateHd P.toZlib s.version s.host.mem s.hdInflater _ chunk = r at hbuf herr ⊢
    refine ⟨rfl,rfl,rfl,rfl,hbuf,?_⟩
    intro e he
    dsimp only at he
    split at he
    · rename_i e' he'
      cases he
      rcases herr e he' with h | h | h
      · exact .inl (.inr (.inr h))
      · exact .inl (.inr (.inl h))
      · exact .inr h
    · split at he
      · cases he
        exact .inl (.inl rfl)
      · exact h.error e he
  · exact ⟨rfl,rfl,rfl,rfl,h.buffer,h.error⟩

theorem recvChunk_spec (P : Platform) (s : Session) (chunk : Bytes) (h : FrameOk s.iframe) (hs : s.iframe.state ≠ .head)
    (hle : s.iframe.off+chunk.length ≤ s.iframe.payloadlen) :
    (s.recvChunk P chunk).iframe.off = s.iframe.off+chunk.length ∧ FrameOk (s.recvChunk P chunk).iframe ∧
      SamePlace s.iframe (s.recvChunk P chunk).iframe := by
  have hb := h.body hs
  have hi := inflateChunk_spec P s chunk h
  unfold recvChunk
  dsimp only
  split_ifs
  · obtain ⟨h1,h2,h3,h4,h5,h6⟩ := hi
    refine ⟨by rw [h2],⟨?_,?_,h5,h6⟩,h3,h4,?_⟩
    · intro hh
      exact absurd (h1.symm.trans hh) hs
    · intro _
      dsimp only
      rw [h2,h3,h4]
      exact ⟨hb.1,hle⟩
    · exact fun hh => hs (h1.symm.trans hh)
  all_goals exact ⟨rfl,⟨fun hh => absurd hh hs,fun _ => ⟨hb.1,hle⟩,h.buffer,h.error⟩,rfl,rfl,hs⟩

theorem creditChunk_steps (s : Session) (n : Nat) (g : Ghost) : Steps (core s g) (core (s.creditChunk n).1 g) := by
  unfold creditChunk
  dsimp only
  split
  · exact updateRecvWindowSize_steps _ _ _ g
  · exact .refl

theorem creditChunk_iframe (s : Session) (n : Nat) : (s.creditChunk n).1.iframe = s.iframe :=
  congrArg Prod.fst (creditChunk_steps s n cleanGhost).inSteps.reading_eq

theorem updateRecvWindowSize_error {s : Session} {streamId : Int} {n : Nat} {e : Err}
    (h : (s.updateRecvWindowSize streamId n).2 = some e) : e = .nomem := by
  unfold updateRecvWindowSize at h
  cases hst : s.getStream streamId with
  | none =>
    rw [hst] at h
    cases h
  | some st =>
    rw [hst] at h
    dsimp only at h
    generalize (if int32Max-(n : Int) < st.recvWindowSize then int32Max else st.recvWindowSize+n) = size at h
    split at h
    · split at h
      · cases h
      · rename_i he
        cases h
        exact addCtrl_error _ _ _ he
    · cases h

theorem creditChunk_error {s : Session} {n : Nat} {e : Err} (h : (s.creditChunk n).2 = some e) : e = .nomem := by
  unfold creditChunk at h
  dsimp only at h
  split at h
  · exact updateRecvWindowSize_error h
  · cases h

/-- The processing of a complete frame leaves the inbound frame to its caller. -/
theorem processFrame_iframe (P : Platform) (s : Session) :
    (if s.iframe.isCtrl then s.processCtrlFrame P else s.processDataFrame).1.iframe = s.iframe := by
  split
  · obtain ⟨g,h⟩ := dispatchCtrlFrame_receives P s cleanGhost
    rw [processCtrlFrame,onlyFatal_fst]
    exact congrArg Prod.fst h.steps.reading_eq
  · rw [processDataFrame,onlyFatal_fst]
    exact congrArg Prod.fst (onDataReceived_steps s _ _ _ cleanGhost).inSteps.reading_eq

theorem endFrame_failed_iframe {P : Platform} {s : Session} {e : Err} (h : (s.endFrame P).2 = some e) :
    (s.endFrame P).1.iframe = s.iframe := by
  have hp := processFrame_iframe P s
  unfold endFrame at h ⊢
  by_cases hendless : s.iframe.errorCode = some .endless
  · rw [if_pos hendless]
  rw [if_neg hendless] at h ⊢
  by_cases heq : s.iframe.payloadlen = s.iframe.off
  · rw [if_pos heq] at h ⊢
    dsimp only at h ⊢
    split at h
    · cases h
    · exact hp
  · rw [if_neg heq]

/-- What one pass over the payload does. -/
inductive PayloadStep (s : Session) (input : Bytes) (k : Nat) : Session × Bytes × Option (Option Err) → Prop
  | wait : k = 0 → input = [] → PayloadStep s input k (s,input,some none)
  | failed (s' : Session) (e : Err) : FrameOk s'.iframe → SamePlace s.iframe s'.iframe →
      s'.iframe.off = s.iframe.off+k →
      e = .nomem ∨ (s'.iframe.errorCode = some .endless ∧ e = .endless) ∨
        (e = .assertion .nvOffset ∧ knownVersion s.iframe.headbuf = false ∧ s.iframe.payloadlen = s.iframe.off+k) →
      PayloadStep s input k (s',input.drop k,some (some e))
  | ended (s' : Session) : s.iframe.payloadlen = s.iframe.off+k → (∃ f : InboundFrame, s'.iframe = f.reset) →
      PayloadStep s input k (s',input.drop k,none)
  | partly (s' : Session) : s.iframe.off+k < s.iframe.payloadlen → FrameOk s'.iframe → SamePlace s.iframe s'.iframe →
      s'.iframe.off = s.iframe.off+k → 0 < k → PayloadStep s input k (s',input.drop k,none)

theorem recvPayload_spec (P : Platform) (s : Session) (input : Bytes) (h : FrameOk s.iframe)
    (hs : s.iframe.state ≠ .head) :
    PayloadStep s input (min input.length (s.iframe.payloadlen-s.iframe.off)) (s.recvPayload P input) := by
  have hb := h.body hs
  unfold recvPayload
  dsimp only
  split
  · rename_i hw
    exact .wait (by simp [hw.2]) hw.2
  · rename_i hw
    obtain ⟨n,hn,hin,hrest,hoff,hok,hplace⟩ := recvPreNv_spec s input
      (min input.length (s.iframe.payloadlen-s.iframe.off)) h hs (Nat.min_le_right _ _)
    have hk1 := Nat.min_le_left input.length (s.iframe.payloadlen-s.iframe.off)
    have hk2 := Nat.min_le_right input.length (s.iframe.payloadlen-s.iframe.off)
    have hpos : 0 < min input.length (s.iframe.payloadlen-s.iframe.off) ∨
        s.iframe.payloadlen = s.iframe.off := by
      by_cases hrem : 0 < s.iframe.payloadlen-s.iframe.off
      · refine .inl (Nat.lt_min.mpr ⟨List.length_pos_iff.mpr (fun hi => hw ⟨hrem,hi⟩),hrem⟩)
      · exact .inr (by omega)
    generalize min input.length (s.iframe.payloadlen-s.iframe.off) = k at *
    generalize s.recvPreNv input k = p at *
    obtain ⟨s1,in1,rest⟩ := p
    dsimp only at *
    subst hin
    subst hrest
    have hlen : ((input.drop n).take (k-n)).length = k-n := by
      rw [List.length_take,List.length_drop]
      omega
    have hdrop : (input.drop n).drop (k-n) = input.drop k := by
      rw [List.drop_drop]
      congr 1
      omega
    obtain ⟨hoff2,hok2,hplace2⟩ := recvChunk_spec P s1 ((input.drop n).take (k-n)) hok hplace.body
      (by rw [hlen,hoff,hplace.payloadlen]; omega)
    have hif := creditChunk_iframe (s1.recvChunk P ((input.drop n).take (k-n))) ((input.drop n).take (k-n)).length
    have herr := @creditChunk_error (s1.recvChunk P ((input.drop n).take (k-n))) ((input.drop n).take (k-n)).length
    generalize (s1.recvChunk P ((input.drop n).take (k-n))).creditChunk ((input.drop n).take (k-n)).length = c at *
    rw [hdrop]
    rw [← hif] at hoff2 hok2 hplace2
    have hoff3 : c.1.iframe.off = s.iframe.off+k := by
      rw [hoff2,hoff,hlen]
      omega
    have hplace3 : SamePlace s.iframe c.1.iframe :=
      ⟨hplace2.headbuf.trans hplace.headbuf,hplace2.payloadlen.trans hplace.payloadlen,hplace2.body⟩
    split
    · rename_i e he
      rw [herr he]
      exact .failed _ _ hok2 hplace3 hoff3 (.inl rfl)
    · cases hend : (c.1.endFrame P).2 with
      | some e =>
        have hsame := endFrame_failed_iframe hend
        rcases endFrame_error hok2.error hend with ⟨hendless,rfl⟩ | ⟨heq,hcase⟩
        · exact .failed _ _ (hsame ▸ hok2) (hsame ▸ hplace3) (hsame ▸ hoff3) (.inr (.inl ⟨hsame ▸ hendless,rfl⟩))
        rw [hplace3.payloadlen,hoff3] at heq
        rw [hplace3.headbuf] at hcase
        rcases hcase with rfl | ⟨rfl,hv⟩
        · exact .failed _ _ (hsame ▸ hok2) (hsame ▸ hplace3) (hsame ▸ hoff3) (.inl rfl)
        · exact .failed _ _ (hsame ▸ hok2) (hsame ▸ hplace3) (hsame ▸ hoff3) (.inr (.inr ⟨rfl,hv,heq⟩))
      | none =>
        have hlive := endFrame_live hend
        by_cases heq : c.1.iframe.payloadlen = c.1.iframe.off
        · refine .ended _ (by rw [← hplace3.payloadlen,heq,hoff3]) ?_
          unfold endFrame at hend ⊢
          rw [if_neg hlive,if_pos heq] at hend ⊢
          dsimp only at hend ⊢
          split at hend
          · exact ⟨_,rfl⟩
          · cases hend
        · have hsame : (c.1.endFrame P).1 = c.1 := by
            unfold endFrame
            rw [if_neg hlive,if_neg heq]
          rw [hsame]
          rw [hplace3.payloadlen,hoff3] at heq
          have hlt : s.iframe.off+k < s.iframe.payloadlen := by omega
          exact .partly _ hlt hok2 hplace3 hoff3 (by omega)

end Spdylay.Machine
