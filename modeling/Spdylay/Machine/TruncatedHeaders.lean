import Spdylay.Machine.FrameEnds
import Spdylay.Machine.Assertions

/-! Frames with a name/value block that end before the block. Their bytes are buffered
like those of the other control frames and the parser is told that the whole fixed
part is there; what makes it refuse them is that nothing has been inflated. -/
namespace Spdylay
open Machine Session

/-- The frame is of a type with a name/value block and its payload does not reach it. -/
structure InboundFrame.Truncated (f : InboundFrame) : Prop where
  body : f.state ≠ .head
  ctrl : f.isCtrl = true
  short : ∃ offset, f.payloadNvOffset = some offset ∧ f.payloadlen ≤ offset

/-- Between frames nothing is left of the last block, and a truncated frame does not
begin one. -/
structure InboundFrame.Quiet (f : InboundFrame) : Prop where
  head : f.state = .head → f.inflatebuf.bytes = [] ∧ f.errorCode = none
  truncated : f.Truncated → f.state = .payload ∧ f.payloadNvOffset = some f.buflen ∧ f.inflatebuf.bytes = [] ∧
    f.errorCode = none

namespace InboundFrame
variable {f f' : InboundFrame}

theorem Truncated.of_samePlace (h : SamePlace f f') (hs : f.state ≠ .head) (ht : f'.Truncated) : f.Truncated := by
  obtain ⟨-,hc,hn⟩ := ht
  refine ⟨hs,?_,?_⟩
  · rwa [isCtrl,← h.headbuf]
  · rwa [payloadNvOffset,← h.headbuf,← h.payloadlen]

theorem Quiet.reset (f : InboundFrame) : f.reset.Quiet := ⟨fun _ => ⟨rfl,rfl⟩,fun h => absurd rfl h.body⟩

/-- Within a frame only a truncated one has anything to keep. -/
theorem Quiet.of_samePlace (h : f.Quiet) (hs : f.state ≠ .head) (hp : SamePlace f f')
    (hk : f.Truncated → f'.state = f.state ∧ f'.buflen = f.buflen ∧ f'.inflatebuf = f.inflatebuf ∧
      f'.errorCode = f.errorCode) : f'.Quiet := by
  refine ⟨fun hh => absurd hh hp.body,?_⟩
  intro ht
  have ht' := ht.of_samePlace hp hs
  obtain ⟨h1,h2,h3,h4⟩ := h.truncated ht'
  obtain ⟨k1,k2,k3,k4⟩ := hk ht'
  rw [k1,k2,k3,k4,payloadNvOffset,hp.headbuf]
  exact ⟨h1,h2,h3,h4⟩

end InboundFrame

namespace Session
variable {P : Platform} {s : Session}

theorem startPayload_quiet (hq : s.iframe.inflatebuf.bytes = [] ∧ s.iframe.errorCode = none) (hs : s.iframe.off = 0)
    (hok : s.iframe.inflatebuf.Ok) (hlen : s.iframe.headbuf.length = headLen) : (s.startPayload P).1.iframe.Quiet := by
  have hspec := startPayload_spec P s hok (by rw [hq.2]; exact nofun) hs hlen
  refine ⟨fun hh => absurd hh hspec.2.1,?_⟩
  rintro ⟨-,hctrl,offset,hoffset,hle⟩
  rw [InboundFrame.isCtrl,hspec.2.2.1] at hctrl
  rw [InboundFrame.payloadNvOffset,hspec.2.2.1] at hoffset
  rw [hspec.2.2.2.2.1] at hle
  have hplace : s.ctrlPayload s.iframe (getUint32 (s.iframe.headbuf.drop 4) % 16777216) = (.payload,offset,none) := by
    have hnv : s.iframe.payloadNvOffset = some offset := hoffset
    simp only [ctrlPayload,hnv,if_neg (not_lt.mpr hle),hq.2]
  have hnv : ∀ f : InboundFrame, f.headbuf = s.iframe.headbuf → f.payloadNvOffset = some offset := by
    intro f hf
    rw [InboundFrame.payloadNvOffset,hf]
    exact hoffset
  have hc : s.iframe.isCtrl = true := hctrl
  simp only [startPayload,hc,if_true,hplace,reserveIframeBuf]
  split
  · split
    · exact ⟨rfl,hnv _ rfl,hq.1,rfl⟩
    · exact ⟨rfl,hnv _ rfl,hq.1,rfl⟩
  · exact ⟨rfl,hnv _ rfl,hq.1,rfl⟩

theorem recvHead_quiet {input : Bytes} (h : FrameOk s.iframe) (hs : s.iframe.state = .head) (hq : s.iframe.Quiet) :
    (s.recvHead P input).1.iframe.Quiet := by
  obtain ⟨-,hoff,-⟩ := h.head hs
  rw [recvHead]
  split
  · exact hq
  · dsimp only
    split
    · rename_i hfull
      have hp := startPayload_quiet (P := P)
        (s := s.takeHead (input.take (min (headLen-s.iframe.headbuf.length) input.length))) (hq.head hs) hoff h.buffer hfull
      split
      · exact hp
      · exact hp
    · exact ⟨fun _ => hq.head hs,fun ht => absurd hs ht.body⟩

theorem recvPreNv_quiet {input : Bytes} {n : Nat} (hs : s.iframe.state ≠ .head) (hq : s.iframe.Quiet)
    (hp : SamePlace s.iframe (s.recvPreNv input n).1.iframe) : (s.recvPreNv input n).1.iframe.Quiet := by
  refine hq.of_samePlace hs hp ?_
  intro ht
  have hst := (hq.truncated ht).1
  rw [recvPreNv,if_neg (by rw [hst]; exact nofun)]
  exact ⟨rfl,rfl,rfl,rfl⟩

theorem recvChunk_quiet {chunk : Bytes} (hs : s.iframe.state ≠ .head) (hq : s.iframe.Quiet)
    (hp : SamePlace s.iframe (s.recvChunk P chunk).iframe) : (s.recvChunk P chunk).iframe.Quiet := by
  refine hq.of_samePlace hs hp ?_
  intro ht
  have hst := (hq.truncated ht).1
  simp [recvChunk,hst,ht.ctrl]

/-- What a pass over the payload leaves: the session before the pass, the session that
has read, or the session that has processed the frame. -/
theorem recvPayload_cases (P : Platform) (s : Session) (input : Bytes) :
    (s.recvPayload P input).1 = s ∨ (s.recvPayload P input).1 = (s.payloadRead P input).1 ∨
      (s.recvPayload P input).1 = ((s.payloadRead P input).1.endFrame P).1 := by
  simp only [recvPayload]
  split
  · exact .inl rfl
  · split
    · exact .inr (.inl rfl)
    · refine .inr (.inr ?_)
      split <;> rfl

theorem recvPayload_endFrame {input : Bytes} (hw : ¬(0 < s.iframe.payloadlen-s.iframe.off ∧ input = []))
    (hr : (s.payloadRead P input).2 = none) : (s.recvPayload P input).1 = ((s.payloadRead P input).1.endFrame P).1 := by
  simp only [recvPayload,if_neg hw]
  simp only [payloadRead] at hr ⊢
  rw [hr]
  dsimp only
  split <;> rfl

/-- How far a pass reads. -/
theorem payloadRead_spec (P : Platform) (input : Bytes) (h : FrameOk s.iframe) (hs : s.iframe.state ≠ .head) :
    FrameOk (s.payloadRead P input).1.iframe ∧ SamePlace s.iframe (s.payloadRead P input).1.iframe ∧
      (s.payloadRead P input).1.iframe.off = s.iframe.off+min input.length (s.iframe.payloadlen-s.iframe.off) ∧
      (s.iframe.Quiet → (s.payloadRead P input).1.iframe.Quiet) := by
  obtain ⟨n,hn,hin,hrest,hoff,hok,hplace⟩ := recvPreNv_spec s input
    (min input.length (s.iframe.payloadlen-s.iframe.off)) h hs (Nat.min_le_right _ _)
  have hb := (h.body hs).2
  simp only [payloadRead]
  rw [creditChunk_iframe]
  have hlen : ((s.recvPreNv input (min input.length (s.iframe.payloadlen-s.iframe.off))).2.1.take
      (s.recvPreNv input (min input.length (s.iframe.payloadlen-s.iframe.off))).2.2).length =
      min input.length (s.iframe.payloadlen-s.iframe.off)-n := by
    rw [hrest,hin,List.length_take,List.length_drop]
    omega
  have hspec := recvChunk_spec P _ _ hok hplace.body (by rw [hoff,hplace.payloadlen,hlen]; omega)
  refine ⟨hspec.2.1,⟨?_,?_,hspec.2.2.body⟩,?_,?_⟩
  · exact hspec.2.2.headbuf.trans hplace.headbuf
  · exact hspec.2.2.payloadlen.trans hplace.payloadlen
  · rw [hspec.1,hoff,hlen]
    omega
  · exact fun hq => recvChunk_quiet hplace.body (recvPreNv_quiet hs hq hplace) hspec.2.2

theorem endFrame_quiet (hq : s.iframe.Quiet) : (s.endFrame P).1.iframe.Quiet := by
  have hp := processFrame_iframe P s
  rw [endFrame]
  split
  · exact hq
  split
  · dsimp only
    split
    · exact .reset _
    · rw [hp]
      exact hq
  · exact hq

theorem recvIter_quiet {input : Bytes} (h : FrameOk s.iframe) (hq : s.iframe.Quiet) :
    (s.recvIter P input).1.iframe.Quiet := by
  have hpayload : ∀ (t : Session) (rest : Bytes), FrameOk t.iframe → t.iframe.state ≠ .head → t.iframe.Quiet →
      (t.recvPayload P rest).1.iframe.Quiet := by
    intro t rest ht hb hqt
    have hr := (payloadRead_spec P rest ht hb).2.2.2 hqt
    rcases recvPayload_cases P t rest with he | he | he
    · rw [he]
      exact hqt
    · rw [he]
      exact hr
    · rw [he]
      exact endFrame_quiet hr
  rw [recvIter]
  split
  · rename_i hs
    have hh : (s.recvHead P input).1.iframe.Quiet := recvHead_quiet h hs hq
    obtain ⟨hsound,hbody⟩ := recvHead_sound P s input h hs
    dsimp only
    split
    · exact hh
    · rename_i hr
      exact hpayload _ _ hsound.frame (hbody hr) hh
  · rename_i hs
    exact hpayload s input h hs hq

/-- Only the receive loop touches the inbound frame. -/
theorem turn_iframe {s' : Session} (h : Turn P s s') (hr : ∀ input, s' ≠ (s.recvIter P input).1) :
    s'.iframe = s.iframe := by
  cases h with
  | prepare ha => exact congrArg Prod.fst (prepareNext_steps P (g := cleanGhost) rfl ha).reading_eq
  | write item ha => exact congrArg Prod.fst (sendWrite_steps (g := cleanGhost) ha).reading_eq
  | recv input => exact absurd rfl (hr input)
  | submit op hs hr' => exact congrArg Prod.fst (submission_steps P s op cleanGhost hs hr').inSteps.reading_eq
  | report e => rfl

/-- A property of the inbound frame that the receive loop keeps holds in every state. -/
theorem reachable_iframe {I : InboundFrame → Prop} {u : Setup} (h : Reachable P u s) (h0 : I (u.start P).iframe)
    (hr : ∀ (t : Session) input, I t.iframe → I (t.recvIter P input).1.iframe) : I s.iframe := by
  induction h with
  | refl => exact h0
  | @tail t t' _ ht ih =>
    by_cases hx : ∃ input, t' = (t.recvIter P input).1
    · obtain ⟨input,rfl⟩ := hx
      exact hr t input ih
    · rw [turn_iframe ht (not_exists.mp hx)]
      exact ih

theorem reachable_quiet {u : Setup} (h : Reachable P u s) : FrameOk s.iframe ∧ s.iframe.Quiet := by
  refine reachable_iframe (I := fun f => FrameOk f ∧ f.Quiet) h ⟨frameOk_start P u,?_⟩ ?_
  · rw [Setup.start]
    split <;> exact ⟨fun _ => ⟨rfl,rfl⟩,fun ht => absurd rfl ht.body⟩
  · rintro t input ⟨hok,hq⟩
    exact ⟨(recvIter_sound P t input hok).frame,recvIter_quiet hok hq⟩

/-! The parsers have nothing to read. -/

theorem frameUnpackNv_nil (qsort : Qsort) (m : Mem) {lenSize : Nat} (h : lenSize ≠ 0) :
    frameUnpackNv qsort m [] lenSize = (m,[],some .invalidFrame) := by
  rw [frameUnpackNv,frameCountUnpackNvSpace,if_pos (by simpa using Nat.pos_of_ne_zero h)]

/-- The errors of a frame that is not a frame at all. -/
def Unparsed (e : Err) : Prop := e = .invalidFrame ∨ e = .unsupportedVersion

theorem parseSynStream_truncated (hi : s.iframe.inflatebuf.bytes = []) (he : s.iframe.errorCode = none) :
    ∃ f e, s.parseSynStream P = (s,f,some e) ∧ Unparsed e := by
  simp only [parseSynStream,he,hi,frameUnpackSynStream]
  split
  · exact ⟨_,_,rfl,.inr rfl⟩
  · rename_i hv
    cases hr : (frameUnpackSynStreamWithoutNv s.iframe.headbuf s.iframe.buf s.iframe.buflen).2 with
    | some e =>
      refine ⟨_,e,rfl,.inl ?_⟩
      rw [frameUnpackSynStreamWithoutNv] at hr
      split at hr
      · cases hr
        rfl
      · cases hr
    | none =>
      dsimp only
      rw [frameUnpackNv_nil _ _ hv]
      exact ⟨_,_,rfl,.inl rfl⟩

theorem parseStreamHeaders_truncated {type : FrameType} {offset : Nat}
    (hv : frameNvOffset type (getUint16 s.iframe.headbuf % 32768) = some offset) (hi : s.iframe.inflatebuf.bytes = [])
    (he : s.iframe.errorCode = none) : ∃ f e, s.parseStreamHeaders P type = (s,f,some e) ∧ Unparsed e := by
  have hv' : frameNvOffset type (frameUnpackCtrlHd s.iframe.headbuf).version = some offset := hv
  simp only [parseStreamHeaders,he,hi,unpackStreamHeaders]
  cases hr : (unpackStreamHeadersWithoutNv type s.iframe.headbuf s.iframe.buf s.iframe.buflen).2 with
  | some e =>
    refine ⟨_,e,rfl,.inl ?_⟩
    simp only [unpackStreamHeadersWithoutNv,hv'] at hr
    split at hr
    · cases hr
      rfl
    · cases hr
  | none =>
    dsimp only
    split
    · exact ⟨_,_,rfl,.inr rfl⟩
    · rename_i hl
      rw [frameUnpackNv_nil _ _ hl]
      exact ⟨_,_,rfl,.inl rfl⟩

theorem handleHeadersError_unparsed {type : Nat} {streamId : Int} {f : Frame} {e : Err} (he : Unparsed e) :
    s.handleHeadersError type streamId f e = (s.handleParseError type e).failSession goawayProtocolError := by
  rcases he with rfl | rfl
  · rfl
  · rfl

/-- A truncated frame fails the session. -/
theorem dispatchCtrlFrame_truncated (ht : s.iframe.Truncated) (hq : s.iframe.Quiet) :
    ∃ type e, s.dispatchCtrlFrame P = (s.handleParseError type e).failSession goawayProtocolError ∧ Unparsed e := by
  obtain ⟨-,-,hi,he⟩ := hq.truncated ht
  obtain ⟨offset,hoffset,-⟩ := ht.short
  rw [InboundFrame.payloadNvOffset] at hoffset
  rw [dispatchCtrlFrame]
  cases htype : FrameType.ofNum (getUint16 (s.iframe.headbuf.drop 2)) with
  | none =>
    rw [htype] at hoffset
    cases hoffset
  | some type =>
    rw [htype] at hoffset
    obtain ⟨nv,hnv,-⟩ := Option.map_eq_some_iff.mp hoffset
    cases type with
    | synStream =>
      obtain ⟨f,e,hp,hu⟩ := parseSynStream_truncated (P := P) hi he
      refine ⟨FrameType.synStream.num,e,?_,hu⟩
      simp only [processSynStream,hp]
      exact handleHeadersError_unparsed hu
    | synReply =>
      obtain ⟨f,e,hp,hu⟩ := parseStreamHeaders_truncated (P := P) hnv hi he
      refine ⟨FrameType.synReply.num,e,?_,hu⟩
      simp only [processSynReply,hp]
      exact handleHeadersError_unparsed hu
    | headers =>
      obtain ⟨f,e,hp,hu⟩ := parseStreamHeaders_truncated (P := P) hnv hi he
      refine ⟨FrameType.headers.num,e,?_,hu⟩
      simp only [processHeaders,hp]
      exact handleHeadersError_unparsed hu
    | _ => cases hnv

/-! The GOAWAY. -/

theorem mem_of_headD {m : Mem} (h : ¬m.headD true = true) : false ∈ m := by
  cases m with
  | nil => exact absurd rfl h
  | cons b m =>
    cases b with
    | false => exact List.mem_cons_self
    | true => exact absurd rfl h

theorem pushOb_outcome (s : Session) (item : OutboundItem) :
    (∃ m q, s.pushOb item = ({s.setMem m with obPq := q},none) ∧ q.q.Perm (item :: s.obPq.q)) ∨
    false ∈ s.host.mem ∧ ∃ m, s.pushOb item = (s.setMem m,some .nomem) := by
  have hperm := Library.BinaryHeap.push_perm outboundItemCompar s.obPq.q item
  by_cases hcap : s.obPq.capacity ≤ s.obPq.q.length
  · by_cases hm : s.host.mem.headD true = true
    · refine .inl ⟨s.host.mem.tail,⟨s.obPq.capacity*2,Library.BinaryHeap.push outboundItemCompar s.obPq.q item⟩,?_,hperm⟩
      simp only [pushOb,pqPush,if_pos hcap,if_pos hm]
    · refine .inr ⟨mem_of_headD hm,s.host.mem.tail,?_⟩
      simp only [pushOb,pqPush,if_pos hcap,if_neg hm]
  · refine .inl ⟨s.host.mem,{s.obPq with q := Library.BinaryHeap.push outboundItemCompar s.obPq.q item},?_,hperm⟩
    simp only [pushOb,pqPush,if_neg hcap]

/-- The session with a changed memory, a longer log and another queue. -/
def queued (s : Session) (m : Mem) (events : List Event) (n : Nat) (q : Pq) : Session :=
  {s with host := {s.host with mem := m, log := s.host.log ++ events}, nextSeq := n, obPq := q}

theorem queued_nil (s : Session) (m : Mem) (n : Nat) :
    s.queued m [] n s.obPq = {s with host := {s.host with mem := m}, nextSeq := n} := by
  rw [queued,List.append_nil]

/-- Queueing a GOAWAY adds one item, or fails for lack of memory. -/
theorem addGoaway_outcome (s : Session) (lastGoodStreamId : Int) (statusCode : Nat) :
    (∃ item m q, item.frame = .ctrl (.goaway (frameGoawayInit s.version.num lastGoodStreamId statusCode)) ∧
      s.addGoaway lastGoodStreamId statusCode = (s.queued m [.accepted item] (s.nextSeq+1) q,none) ∧
      q.q.Perm (item :: s.obPq.q)) ∨
    false ∈ s.host.mem ∧ ∃ m n, s.addGoaway lastGoodStreamId statusCode = (s.queued m [] n s.obPq,some .nomem) := by
  generalize hitem : s.newItem (.ctrl (.goaway (frameGoawayInit s.version.num lastGoodStreamId statusCode))) none = item
  by_cases h1 : s.mallocOk = true
  · by_cases h2 : s.malloc.mallocOk = true
    · have hpush : (({s.malloc.malloc with nextSeq := s.malloc.nextSeq+1} : Session).markClosing
          (.ctrl (.goaway (frameGoawayInit s.version.num lastGoodStreamId statusCode)))).pushItem
          (s.malloc.newItem (.ctrl (.goaway (frameGoawayInit s.version.num lastGoodStreamId statusCode))) none) =
          ({s.malloc.malloc with nextSeq := s.nextSeq+1} : Session).pushOb item := by
        rw [← hitem]
        rfl
      dsimp only at hpush
      rcases pushOb_outcome {s.malloc.malloc with nextSeq := s.nextSeq+1} item with ⟨m,q,he,hq⟩ | ⟨hm,m,he⟩
      · refine .inl ⟨item,m,q,by rw [← hitem]; rfl,?_,hq⟩
        rw [addGoaway,addCtrl,if_pos h1,addFrame,if_pos h2]
        dsimp only
        rw [hpush,he,← hitem]
        rfl
      · refine .inr ⟨List.mem_of_mem_tail (List.mem_of_mem_tail hm),m,s.nextSeq+1,?_⟩
        rw [addGoaway,addCtrl,if_pos h1,addFrame,if_pos h2]
        dsimp only
        rw [hpush,he,queued_nil]
        rfl
    · refine .inr ⟨List.mem_of_mem_tail (mem_of_headD h2),s.host.mem.tail.tail,s.nextSeq,?_⟩
      rw [addGoaway,addCtrl,if_pos h1,addFrame,if_neg h2,queued_nil]
      rfl
  · refine .inr ⟨mem_of_headD h1,s.host.mem.tail,s.nextSeq,?_⟩
    rw [addGoaway,addCtrl,if_neg h1,queued_nil]
    rfl

/-- The session that the parser of a truncated frame has left. -/
theorem endFrame_truncated (ht : s.iframe.Truncated) (hq : s.iframe.Quiet) (hend : s.iframe.payloadlen = s.iframe.off) :
    ∃ type e, let failed := (s.handleParseError type e).failSession goawayProtocolError
      Unparsed e ∧ (failed.2 = none ∧
        s.endFrame P = ({failed.1 with iframe := failed.1.iframe.reset}.emit .frameDone,none) ∨
        failed.2 = some .nomem ∧ s.endFrame P = (failed.1,some .nomem)) := by
  obtain ⟨type,e,hd,hu⟩ := dispatchCtrlFrame_truncated (P := P) ht hq
  refine ⟨type,e,hu,?_⟩
  have hlive : s.iframe.errorCode ≠ some .endless := by
    rw [(hq.truncated ht).2.2.2]
    rintro ⟨⟩
  rw [endFrame,if_neg hlive,if_pos hend,if_pos ht.ctrl]
  simp only [processCtrlFrame,hd]
  cases hf : ((s.handleParseError type e).failSession goawayProtocolError).2 with
  | none =>
    left
    simp only [onlyFatal,hf]
    trivial
  | some e' =>
    obtain rfl : e' = .nomem := failSession_error hf
    right
    simp only [onlyFatal,hf]
    exact ⟨trivial,rfl⟩

/-! Passes over a truncated frame. -/

/-- The payload is buffered. -/
theorem payloadRead_truncated {input : Bytes} (ht : s.iframe.Truncated) (hq : s.iframe.Quiet) :
    ∃ f, s.payloadRead P input = ({s with iframe := f},none) := by
  have hst := (hq.truncated ht).1
  have hpre : ∀ n, s.recvPreNv input n = (s,input,n) := by
    intro n
    rw [recvPreNv,if_neg (by rw [hst]; exact nofun)]
  have hchunk : ∀ chunk, ∃ f, s.recvChunk P chunk = {s with iframe := f} ∧ f.headbuf = s.iframe.headbuf := by
    intro chunk
    simp only [recvChunk,hst,ht.ctrl,reduceCtorEq,if_false,if_true]
    exact ⟨_,rfl,rfl⟩
  simp only [payloadRead,hpre]
  obtain ⟨f,hf,hhead⟩ := hchunk (input.take (min input.length (s.iframe.payloadlen-s.iframe.off)))
  rw [hf]
  refine ⟨f,creditChunk_ctrl ?_⟩
  have hc : f.isCtrl = s.iframe.isCtrl := by rw [InboundFrame.isCtrl,InboundFrame.isCtrl,hhead]
  exact hc.trans ht.ctrl

theorem recvHead_mem {input : Bytes} : ∀ b ∈ (s.recvHead P input).1.host.mem, b ∈ s.host.mem := by
  have hstart : ∀ t : Session, ∀ b ∈ (t.startPayload P).1.host.mem, b ∈ t.host.mem := by
    intro t
    simp only [startPayload,reserveIframeBuf]
    split
    · split
      · split <;> exact fun b hb => List.mem_of_mem_tail hb
      · exact fun b hb => hb
    · exact fun b hb => hb
  rw [recvHead]
  split
  · exact fun b hb => hb
  · dsimp only
    split
    · split <;> exact hstart _
    · exact fun b hb => hb

/-- The pass that reads payload is a pass of the loop. -/
theorem recvIter_payloadStart {input rest : Bytes} {s₁ : Session} (h : s.payloadStart P input = some (s₁,rest)) :
    s.recvIter P input = s₁.recvPayload P rest := by
  rw [payloadStart] at h
  rw [recvIter]
  split
  · rename_i hs
    rw [if_pos hs] at h
    dsimp only at h ⊢
    cases hr : (s.recvHead P input).2.2 with
    | some r =>
      rw [hr] at h
      cases h
    | none =>
      rw [hr] at h
      cases h
      rfl
  · rename_i hs
    rw [if_neg hs] at h
    cases h
    rfl

/-- The session that reads payload in a pass. -/
theorem payloadStart_spec {u : Setup} {input rest : Bytes} {s₁ : Session} (hs : Reachable P u s)
    (h : s.payloadStart P input = some (s₁,rest)) :
    Reading s s₁ ∧ (∀ b ∈ s₁.host.mem, b ∈ s.host.mem) ∧ FrameOk s₁.iframe ∧ s₁.iframe.state ≠ .head ∧
      s₁.iframe.Quiet := by
  obtain ⟨hok,hq⟩ := reachable_quiet hs
  rw [payloadStart] at h
  split at h
  · rename_i hhead
    obtain ⟨hsound,hbody⟩ := recvHead_sound P s input hok hhead
    dsimp only at h
    split at h
    · cases h
    · rename_i hr
      cases h
      exact ⟨recvHead_reading P s input,recvHead_mem,hsound.frame,hbody hr,recvHead_quiet hok hhead hq⟩
  · rename_i hhead
    cases h
    exact ⟨.refl s,fun b hb => hb,hok,hhead,hq⟩

end Session

/-- What a refused frame leaves: a report, and a GOAWAY in the queue if there was memory. -/
structure Refused (s s' : Session) (events : List Event) (items : List OutboundItem) : Prop where
  streams : s'.streams = s.streams
  obSsPq : s'.obSsPq = s.obSsPq
  log : s'.host.log = s.host.log ++ events
  obPq : s'.obPq.q.Perm (items ++ s.obPq.q)
  events : ∀ e ∈ events, (∃ type head payload err, e = .ctrlRecvParseError type head payload err) ∨
    (∃ item ∈ items, e = .accepted item) ∨ e = .frameDone
  items : ∀ item ∈ items, item.frame =
    .ctrl (.goaway (frameGoawayInit s.version.num s.lastRecvStreamId goawayProtocolError))

theorem Refused.reading {s s' : Session} (h : Reading s s') : Refused s s' [] [] := by
  obtain ⟨f,z,m,rfl⟩ := h
  exact ⟨rfl,rfl,(List.append_nil _).symm,.refl _,nofun,nofun⟩

theorem Refused.of_reading {s t s' : Session} {events : List Event} {items : List OutboundItem} (h : Reading s t)
    (hr : Refused t s' events items) : Refused s s' events items := by
  obtain ⟨f,z,m,rfl⟩ := h
  exact ⟨hr.streams,hr.obSsPq,hr.log,hr.obPq,hr.events,hr.items⟩

/-- The last byte of a truncated frame has been read. -/
theorem endFrame_refused {P : Platform} {t : Session} (ht : t.iframe.Truncated) (hq : t.iframe.Quiet)
    (hend : t.iframe.payloadlen = t.iframe.off) : ∃ events items, Refused t (t.endFrame P).1 events items ∧
      (false ∉ t.host.mem → (t.endFrame P).1.goawayFailOnSend = true ∧ items ≠ []) := by
  obtain ⟨type,e,-,hcase⟩ := endFrame_truncated (P := P) ht hq hend
  have hreport : (t.handleParseError type e).host.log = t.host.log ++
      [.ctrlRecvParseError type t.iframe.headbuf (t.iframe.buf.take t.iframe.buflen) e] := rfl
  rcases addGoaway_outcome {t.handleParseError type e with goawayFailOnSend := true} t.lastRecvStreamId
    goawayProtocolError with ⟨item,m,q,hitem,hadd,hperm⟩ | ⟨hm,m,n,hadd⟩
  · have hfail : (t.handleParseError type e).failSession goawayProtocolError = _ := hadd
    rw [hfail] at hcase
    rcases hcase with ⟨-,he⟩ | ⟨hx,-⟩
    · rw [he]
      refine ⟨[.ctrlRecvParseError type t.iframe.headbuf (t.iframe.buf.take t.iframe.buflen) e,.accepted item,.frameDone],
        [item],⟨rfl,rfl,?_,hperm,?_,?_⟩,fun _ => ⟨rfl,List.cons_ne_nil _ _⟩⟩
      · simp only [emit,queued,hreport,List.append_assoc,List.cons_append,List.nil_append]
      · intro ev hev
        simp only [List.mem_cons,List.not_mem_nil,or_false] at hev
        rcases hev with rfl | rfl | rfl
        · exact .inl ⟨_,_,_,_,rfl⟩
        · exact .inr (.inl ⟨item,List.mem_singleton.mpr rfl,rfl⟩)
        · exact .inr (.inr rfl)
      · intro it hit
        rw [List.mem_singleton.mp hit,hitem]
        rfl
    · cases hx
  · have hfail : (t.handleParseError type e).failSession goawayProtocolError = _ := hadd
    rw [hfail] at hcase
    rcases hcase with ⟨hx,-⟩ | ⟨-,he⟩
    · cases hx
    · rw [he]
      refine ⟨[.ctrlRecvParseError type t.iframe.headbuf (t.iframe.buf.take t.iframe.buflen) e],[],
        ⟨rfl,rfl,?_,.refl _,?_,nofun⟩,fun hx => absurd hm hx⟩
      · simp only [queued,hreport,List.append_nil]
      · intro ev hev
        rw [List.mem_singleton.mp hev]
        exact .inl ⟨_,_,_,_,rfl⟩

/-- A SYN_STREAM, SYN_REPLY or HEADERS that ends before its name/value block changes no
stream, queues nothing but a GOAWAY and is reported as a parse error only; when its
last byte has been read the session is failed. -/
theorem truncated_headers_never_act {P : Platform} {u : Setup} {s s₁ : Session} {input rest : Bytes}
    (hs : Reachable P u s) (hp : s.payloadStart P input = some (s₁,rest)) (ht : s₁.iframe.Truncated) :
    let s' := (s.recvIter P input).1
    ∃ events items, Refused s s' events items ∧
      (s₁.iframe.payloadlen-s₁.iframe.off ≤ rest.length → (∀ b ∈ s.host.mem, b = true) →
        s'.goawayFailOnSend = true ∧ items ≠ []) := by
  intro s'
  obtain ⟨hread,hmem,hok,hbody,hq⟩ := payloadStart_spec hs hp
  obtain ⟨f,hf⟩ : ∃ f, s₁.payloadRead P rest = ({s₁ with iframe := f},none) := payloadRead_truncated ht hq
  obtain ⟨-,hplace,hoff,hquiet⟩ := payloadRead_spec P rest hok hbody
  rw [hf] at hplace hoff hquiet
  have hs' : s' = (s₁.recvPayload P rest).1 := by rw [← recvIter_payloadStart hp]
  have hle := (hok.body hbody).2
  rw [hs']
  by_cases hwait : 0 < s₁.iframe.payloadlen-s₁.iframe.off ∧ rest = []
  · -- no byte of the payload has arrived
    rw [recvPayload,if_pos hwait]
    refine ⟨[],[],.reading hread,fun hx => ?_⟩
    rw [hwait.2] at hx
    exact absurd hwait.1 (not_lt.mpr hx)
  · have hend : (s₁.recvPayload P rest).1 = ({s₁ with iframe := f}.endFrame P).1 := by
      rw [recvPayload_endFrame hwait (by rw [hf]),hf]
    have hreadf : Reading s {s₁ with iframe := f} := hread.trans ⟨f,_,_,rfl⟩
    rw [hend]
    by_cases hlast : f.payloadlen = f.off
    · have htf : f.Truncated := by
        obtain ⟨-,hc,hn⟩ := ht
        refine ⟨hplace.body,?_,?_⟩
        · rwa [InboundFrame.isCtrl,hplace.headbuf]
        · rwa [InboundFrame.payloadNvOffset,hplace.headbuf,hplace.payloadlen]
      obtain ⟨events,items,hr,hfail⟩ := endFrame_refused (P := P) (t := {s₁ with iframe := f}) htf (hquiet hq) hlast
      refine ⟨events,items,hr.of_reading hreadf,fun _ hm => hfail ?_⟩
      exact fun hx => Bool.false_ne_true (hm false (hmem false hx))
    · -- more of the payload is to come
      have hsame : ({s₁ with iframe := f}.endFrame P).1 = {s₁ with iframe := f} := by
        rw [endFrame,if_neg hlast]
        split <;> rfl
      rw [hsame]
      refine ⟨[],[],.reading hreadf,fun hx => absurd ?_ hlast⟩
      rw [hplace.payloadlen,hoff]
      omega

/-- A server that has a stream already is sent a SYN_STREAM of four bytes. -/
theorem short_syn_stream_fails_session :
    let s := ((sampleServer [] []).start peerPlatform).run peerPlatform [.memRecv (firstRequest 0 1)]
    let s' := (s.recvIter peerPlatform [128,3,0,1,0,0,0,4,0,0,0,3]).1
    ∃ events items, Refused s s' events items ∧ s'.goawayFailOnSend = true ∧ items ≠ [] := by
  intro s s'
  have hs : Reachable peerPlatform (sampleServer [] []) s := run_reachable _ _ _
  have hp : s.payloadStart peerPlatform [128,3,0,1,0,0,0,4,0,0,0,3] =
      some ((s.recvHead peerPlatform [128,3,0,1,0,0,0,4,0,0,0,3]).1,
        (s.recvHead peerPlatform [128,3,0,1,0,0,0,4,0,0,0,3]).2.1) := by
    have hr : (s.recvHead peerPlatform [128,3,0,1,0,0,0,4,0,0,0,3]).2.2 = none := by decide +kernel
    rw [payloadStart,if_pos (by decide +kernel)]
    simp only [hr]
  have ht : (s.recvHead peerPlatform [128,3,0,1,0,0,0,4,0,0,0,3]).1.iframe.Truncated :=
    ⟨by decide +kernel,by decide +kernel,10,by decide +kernel,by decide +kernel⟩
  obtain ⟨events,items,hr,hfail⟩ := truncated_headers_never_act hs hp ht
  exact ⟨events,items,hr,hfail (by decide +kernel) (by decide +kernel)⟩

end Spdylay
