import Spdylay.Session.Runs

/-! What the application hears of the frames that come in: the control frames reported, the
chunks of DATA and the ends of frames. Neither submitting nor sending adds to it. -/
namespace Spdylay
open Library

def hears : Event → Bool
  | .ctrlRecv _ | .dataChunkRecv _ _ _ | .frameDone => true
  | _ => false

namespace Session
variable (s : Session)

def heard : List Event := s.host.log.filter hears

theorem heard_hear {e : Event} (h : hears e = true) : (s.emit e).heard = s.heard ++ [e] := by
  simp [heard, emit, h]

theorem heard_emit {e : Event} (h : hears e = false) : (s.emit e).heard = s.heard := by
  simp [heard, emit, h]

/-! Queueing. -/

@[simp] theorem heard_pushOb (item : OutboundItem) : (s.pushOb item).1.heard = s.heard := by
  rw [pushOb]
  split <;> rfl

@[simp] theorem heard_pushObSs (item : OutboundItem) : (s.pushObSs item).1.heard = s.heard := by
  rw [pushObSs]
  split <;> rfl

@[simp] theorem heard_pushItem (item : OutboundItem) : (s.pushItem item).1.heard = s.heard := by
  rw [pushItem]
  split <;> simp

@[simp] theorem heard_markClosing (frame : OutFrame) : (s.markClosing frame).heard = s.heard := by
  unfold markClosing
  split <;> rfl

@[simp] theorem heard_addFrame (frame : OutFrame) (aux : Option DataProvider) :
    (s.addFrame frame aux).1.heard = s.heard := by
  have hpush : ((({s.malloc with nextSeq := s.nextSeq+1}).markClosing frame).pushItem
      (s.newItem frame aux)).1.heard = s.heard := by
    rw [heard_pushItem, heard_markClosing]
    rfl
  rw [addFrame]
  split
  · dsimp only
    split
    · rw [heard_emit _ rfl, hpush]
    · exact hpush
  · rfl

@[simp] theorem heard_addCtrl (f : Frame) : (s.addCtrl f).1.heard = s.heard := by
  rw [addCtrl]
  split
  · exact s.malloc.heard_addFrame _ _
  · rfl

theorem heard_mallocs (n : Nat) : (mallocs n s).1.heard = s.heard := by
  induction n generalizing s with
  | zero => rfl
  | succ n ih =>
    rw [mallocs]
    split
    · exact ih s.malloc
    · rfl

theorem heard_mallocs_addFrame (n : Nat) (frame : OutFrame) (aux : Option DataProvider) :
    ((mallocs n s).1.addFrame frame aux).1.heard = s.heard := by
  rw [heard_addFrame, heard_mallocs]

/-! Opening and closing streams. -/

@[simp] theorem heard_countOpened (id : Int) : (s.countOpened id).heard = s.heard := by
  unfold countOpened
  split <;> rfl

@[simp] theorem heard_countClosed (id : Int) : (s.countClosed id).heard = s.heard := by
  unfold countClosed
  split <;> rfl

@[simp] theorem heard_openStream (id : Int) (flags pri : Nat) (state : StreamState) :
    (s.openStream id flags pri state).1.heard = s.heard := by
  rw [openStream]
  split
  · dsimp only
    split
    · rw [heard_countOpened]
      rfl
    · rw [heard_countOpened, heard_emit _ rfl]
      rfl
  · rfl

@[simp] theorem heard_freeDeferred (st : Stream) : (s.freeDeferred st).heard = s.heard := by
  unfold freeDeferred
  split
  · exact s.heard_emit rfl
  · rfl

@[simp] theorem heard_closeStream (id : Int) (statusCode : Nat) : (s.closeStream id statusCode).1.heard = s.heard := by
  unfold closeStream
  split
  · rename_i st _
    have hclose : (if st.state ≠ .initial then s.emit (.streamClose id statusCode) else s).heard = s.heard := by
      split
      · exact s.heard_emit rfl
      · rfl
    have hcount := heard_countClosed (if st.state ≠ .initial then s.emit (.streamClose id statusCode) else s) id
    rw [hclose] at hcount
    dsimp only
    rw [heard_freeDeferred]
    exact hcount
  · rfl

@[simp] theorem heard_closeStreamIfShutRdwr (id : Int) : (s.closeStreamIfShutRdwr id).heard = s.heard := by
  unfold closeStreamIfShutRdwr
  split
  · split <;> simp
  · rfl

@[simp] theorem heard_closePushedStreams (id : Int) (statusCode : Nat) :
    (s.closePushedStreams id statusCode).heard = s.heard := by
  unfold closePushedStreams
  split
  · rename_i st hst
    clear hst
    induction st.pushedStreams generalizing s with
    | nil => rfl
    | cons id ids ih => exact (ih (s.closeStream id statusCode).1).trans (s.heard_closeStream _ _)
  · rfl

@[simp] theorem heard_deferData (st : Stream) (item : OutboundItem) (flowControl : Bool) :
    (s.deferData st item flowControl).1.heard = s.heard := by
  unfold deferData
  split <;> rfl

/-! Submitting. -/

@[simp] theorem heard_submitData (id : Int) (flags : Nat) (prd : DataProvider) :
    (s.submitData id flags prd).1.heard = s.heard := by
  rw [submitData]
  split
  · exact s.malloc.heard_addFrame _ _
  · rfl

@[simp] theorem heard_failSession (statusCode : Nat) : (s.failSession statusCode).1.heard = s.heard :=
  heard_addCtrl {s with goawayFailOnSend := true} _

theorem heard_submitSynStreamShared (P : Platform) (flags : Nat) (assoc : Int) (pri : Nat) (nv : List Bytes)
    (prd : Option DataProvider) : (s.submitSynStreamShared P flags assoc pri nv prd).1.heard = s.heard := by
  unfold submitSynStreamShared
  dsimp only
  generalize (if prd.isSome = true then 4 else 3) = n
  split
  · rfl
  · split
    · rfl
    · split
      · rfl
      · split
        · exact s.heard_mallocs_addFrame _ _ _
        · exact s.heard_mallocs _

/-- A call that is neither send nor mem_recv. -/
theorem heard_submission (P : Platform) (op : Op) (hs : op ≠ .send) (hr : ∀ input, op ≠ .memRecv input) :
    (s.call P op).1.heard = s.heard := by
  cases op with
  | submitSynStream => exact s.heard_submitSynStreamShared P _ _ _ _ _
  | submitServerPush => exact s.heard_submitSynStreamShared P _ _ _ _ _
  | submitRequest => exact s.heard_submitSynStreamShared P _ _ _ _ _
  | submitSynReply =>
    rw [call, submitSynReply]
    split
    · rfl
    · dsimp only
      split
      · exact s.heard_mallocs_addFrame _ _ _
      · exact s.heard_mallocs _
  | submitHeaders =>
    rw [call, submitHeaders]
    split
    · rfl
    · dsimp only
      split
      · exact s.heard_mallocs_addFrame _ _ _
      · exact s.heard_mallocs _
  | submitResponse id nv prd =>
    rw [call, submitResponse]
    split
    · rfl
    · dsimp only
      generalize (if prd.isSome = true then 3 else 2) = n
      split
      · exact s.heard_mallocs_addFrame _ _ _
      · exact s.heard_mallocs _
  | submitData => exact s.heard_submitData _ _ _
  | submitPing => exact heard_addCtrl s.getNextUniqueId.1 _
  | submitRstStream => exact s.heard_addCtrl _
  | submitGoaway => exact s.heard_addCtrl _
  | submitSettings flags iv =>
    rw [call, submitSettings]
    split
    · rfl
    · dsimp only
      split
      · split
        · exact s.heard_mallocs_addFrame _ _ _
        · exact s.heard_mallocs_addFrame _ _ _
      · exact s.heard_mallocs _
  | submitWindowUpdate id delta =>
    rw [call, submitWindowUpdate]
    split
    · rfl
    · split
      · exact heard_addCtrl _ _
      · rfl
  | resumeData id =>
    rw [call, resumeData]
    split
    · split
      · split
        · rfl
        · dsimp only
          split <;> exact s.heard_pushOb _
      · rfl
    · rfl
  | setNoAutoWindowUpdate => rfl
  | setMaxRecvCtrlFrameBuffer n =>
    rw [call, setMaxRecvCtrlFrameBuffer]
    split <;> rfl
  | setInitialClientCertOrigin scheme host port =>
    rw [call, setInitialClientCertOrigin]
    split_ifs <;> rfl
  | send => exact absurd rfl hs
  | memRecv input => exact absurd rfl (hr input)

/-! Preparing. -/

@[simp] theorem heard_reserveFramebuf (n : Nat) : (s.reserveFramebuf n).1.heard = s.heard := by
  unfold reserveFramebuf
  split_ifs <;> rfl

@[simp] theorem heard_reserveNvbuf (n : Nat) : (s.reserveNvbuf n).1.heard = s.heard := by
  unfold reserveNvbuf
  split_ifs <;> rfl

@[simp] theorem heard_queueCredential (origin : Origin) (answer : CredentialAnswer) :
    (s.queueCredential origin answer).1.heard = s.heard := by
  rw [queueCredential]
  split
  · rfl
  · dsimp only
    split
    · rfl
    · split
      · split <;> exact heard_mallocs_addFrame _ _ _ _
      · exact heard_mallocs _ _

@[simp] theorem heard_prepCredential (f : SynStream) : (s.prepCredential f).1.heard = s.heard := by
  unfold prepCredential
  split
  · rfl
  · split
    · rfl
    · dsimp only
      split
      · rfl
      · split
        · rfl
        · split
          · rfl
          · exact heard_queueCredential _ _ _

@[simp] theorem heard_frameAllocPackNv (P : Platform) (nv : Nv) (nvOffset lenSize : Nat) :
    (frameAllocPackNv P s nv nvOffset lenSize).1.heard = s.heard := by
  have hf := (heard_reserveFramebuf (s.reserveNvbuf (frameCountNvSpace nv lenSize)).1
    (nvOffset+P.deflateBound s.hdDeflater (frameCountNvSpace nv lenSize))).trans (s.heard_reserveNvbuf _)
  unfold frameAllocPackNv
  dsimp only
  split
  · exact s.heard_reserveNvbuf _
  · split
    · exact hf
    · split
      · exact hf
      · split <;> exact hf

theorem heard_prepSynStreamPack (P : Platform) (item : OutboundItem) (f : SynStream) :
    (prepSynStreamPack P s item f).ses.heard = s.heard := by
  have hpack := heard_frameAllocPackNv {s with nextStreamId := s.nextStreamId+2} P (s.wireNv P f.nv) synStreamNvOffset
    (frameGetLenSize f.hd.version)
  unfold prepSynStreamPack
  dsimp only
  split
  · rfl
  · split
    · exact hpack
    · split <;> exact (heard_openStream _ _ _ _ _).trans hpack

theorem heard_prepSynStream (P : Platform) (item : OutboundItem) (f : SynStream) :
    (prepSynStream P s item f).ses.heard = s.heard := by
  have hcred := s.heard_prepCredential f
  unfold prepSynStream
  split
  · rfl
  · split
    · dsimp only
      split
      · split <;> exact (heard_pushObSs _ _).trans hcred
      · exact (heard_prepSynStreamPack _ P _ _).trans hcred
      · exact (heard_prepSynStreamPack _ P _ _).trans hcred
    · exact s.heard_prepSynStreamPack P _ _

theorem heard_prepStreamHeaders (P : Platform) (item : OutboundItem) (type : FrameType) (wrap : StreamHeaders → Frame)
    (f : StreamHeaders) : (prepStreamHeaders P s item type wrap f).ses.heard = s.heard := by
  unfold prepStreamHeaders
  dsimp only
  split
  · rfl
  · split
    · rfl
    · split <;> exact s.heard_frameAllocPackNv P _ _ _

theorem heard_prepFixed (item : OutboundItem) (bytes : Bytes) : (s.prepFixed item bytes).ses.heard = s.heard := by
  unfold prepFixed
  dsimp only
  split <;> exact s.heard_reserveFramebuf _

theorem heard_prepPacked (item : OutboundItem) (r : Except Err Bytes) : (s.prepPacked item r).ses.heard = s.heard := by
  unfold prepPacked
  split
  · exact s.heard_prepFixed item _
  · rfl

@[simp] theorem heard_packData (seq : Nat) (d : DataFrame) (datamax : Nat) :
    (s.packData seq d datamax).1.heard = s.heard := by
  have hr := s.heard_reserveFramebuf (datamax+8)
  unfold packData
  dsimp only
  split
  · exact hr
  · split
    · exact hr
    · exact hr
    · exact hr
    · split
      · exact hr
      · exact (heard_emit _ rfl).trans hr

theorem heard_prepData (item : OutboundItem) (d : DataFrame) : (s.prepData item d).ses.heard = s.heard := by
  unfold prepData
  split
  · rfl
  · split
    · rfl
    · dsimp only
      split
      · exact s.heard_deferData _ _ _
      · have hp := s.heard_packData item.seq d
        split
        · exact hp _
        · exact (heard_deferData _ _ _ _).trans (hp _)
        · exact (heard_addCtrl _ _).trans (hp _)
        · exact hp _

theorem heard_prepFrame (P : Platform) (item : OutboundItem) : (prepFrame P s item).ses.heard = s.heard := by
  unfold prepFrame
  split
  · exact s.heard_prepSynStream P item _
  · split
    · rfl
    · exact s.heard_prepStreamHeaders P item _ _ _
  · exact s.heard_prepFixed item _
  · exact s.heard_prepPacked item _
  · exact s.heard_prepFixed item _
  · split
    · rfl
    · exact s.heard_prepStreamHeaders P item _ _ _
  · split
    · rfl
    · exact s.heard_prepFixed item _
  · split
    · rfl
    · exact s.heard_prepPacked item _
  · exact s.heard_prepFixed item _
  · exact s.heard_prepData item _

/-! Sending. -/

@[simp] theorem heard_activate (item : OutboundItem) (bytes : Bytes) : (s.activate item bytes).heard = s.heard := by
  have hp : (s.emit (.prepared item.seq bytes)).heard = s.heard := s.heard_emit rfl
  unfold activate
  dsimp only
  split
  · exact (heard_emit _ rfl).trans hp
  · exact hp

@[simp] theorem heard_dropItem (item : OutboundItem) (e : Err) : (s.dropItem item e).heard = s.heard := by
  unfold dropItem
  dsimp only
  rw [heard_emit _ rfl]
  split
  · rfl
  · split
    · exact s.heard_emit rfl
    · rfl
  · rfl

@[simp] theorem heard_activeReset (cause : Finish) : (s.activeReset cause).heard = s.heard := by
  unfold activeReset
  split
  · exact s.heard_emit rfl
  · rfl

theorem heard_submitBody (id : Int) (prd : Option DataProvider) : (s.submitBody id prd).1.heard = s.heard := by
  unfold submitBody
  split
  · rfl
  · dsimp only
    split <;> exact s.heard_submitData _ _ _

theorem heard_shutdown_if (p q : Prop) [Decidable p] [Decidable q] (id : Int) :
    (if p then (if q then s.shutdownWr id else s).shutdownRd id else if q then s.shutdownWr id else s).heard = s.heard := by
  split_ifs <;> rfl

theorem heard_afterCtrlSent (item : OutboundItem) (f : Frame) : (s.afterCtrlSent item f).1.heard = s.heard := by
  cases f with
  | synStream f =>
    rw [afterCtrlSent, afterSynStreamSent]
    split
    · rfl
    · dsimp only
      rw [heard_submitBody, heard_closeStreamIfShutRdwr, heard_shutdown_if]
      rfl
  | synReply f =>
    rw [afterCtrlSent, afterSynReplySent]
    split
    · rfl
    · dsimp only
      rw [heard_submitBody, heard_closeStreamIfShutRdwr]
      split_ifs <;> rfl
  | rstStream f =>
    rw [afterCtrlSent, afterRstStreamSent]
    dsimp only
    rw [heard_closeStream]
    split
    · exact s.heard_closePushedStreams _ _
    · rfl
  | headers f =>
    rw [afterCtrlSent, afterHeadersSent]
    split
    · rfl
    · dsimp only
      rw [heard_closeStreamIfShutRdwr]
      split_ifs <;> rfl
  | _ => rfl

theorem heard_continueData (item : OutboundItem) (d : DataFrame) (st : Stream) :
    (s.continueData item d st).1.heard = s.heard := by
  have hp := s.heard_packData item.seq d
  unfold continueData
  dsimp only
  split
  · split <;> exact s.heard_deferData _ _ _
  · split
    · exact (heard_emit _ rfl).trans (hp _)
    · split <;> exact (heard_deferData _ _ _ _).trans (hp _)
    · rw [heard_activeReset]
      exact (heard_addCtrl _ _).trans (hp _)
    · exact (heard_activeReset _ _).trans (hp _)

theorem heard_afterDataSent (item : OutboundItem) (d : DataFrame) : (s.afterDataSent item d).1.heard = s.heard := by
  have hfin : ∀ s : Session, (s.afterDataFin d).heard = s.heard := by
    intro s
    unfold afterDataFin
    split
    · split
      · exact (heard_closeStreamIfShutRdwr _ _).trans rfl
      · rfl
    · rfl
  rw [afterDataSent]
  dsimp only
  have hsent := (hfin _).trans (s.heard_emit (e := .dataSend (if d.eof then d.flags else 0) d.streamId
    (s.aob.framebuf.length-headLen)) rfl)
  generalize (s.emit _).afterDataFin d = t at hsent
  split
  · exact (t.heard_activeReset _).trans hsent
  · split
    · split
      · exact hsent
      · exact (t.heard_continueData item d _).trans hsent
    · split
      · exact (t.heard_pushOb item).trans hsent
      · exact ((heard_activeReset _ _).trans (t.heard_pushOb item)).trans hsent

theorem heard_afterFrameSent : s.afterFrameSent.1.heard = s.heard := by
  unfold afterFrameSent
  split
  · rfl
  · rename_i item _
    split
    · rename_i f _
      have hsent := ((s.emit (.ctrlSend f)).heard_afterCtrlSent item f).trans (s.heard_emit rfl)
      dsimp only
      split
      · exact (heard_activeReset _ _).trans hsent
      · exact hsent
    · exact s.heard_afterDataSent item _

theorem heard_sendWrite (item : OutboundItem) : (s.sendWrite item).1.heard = s.heard := by
  have hdebit : ∀ s : Session, (s.debit item).heard = s.heard := by
    intro s
    unfold debit
    split
    · split <;> rfl
    · rfl
  unfold sendWrite
  dsimp only
  split
  · rfl
  · rfl
  · rename_i n _
    unfold sendAccepted
    dsimp only
    generalize hw : Session.debit _ item = t
    have ht : t.heard = s.heard := by
      rw [← hw, hdebit]
      exact heard_emit _ rfl
    split
    · split <;> exact t.heard_afterFrameSent.trans ht
    · exact ht

theorem heard_popNextObItem {item : OutboundItem} {s1 : Session} (h : s.popNextObItem = some (item, s1)) :
    s1.heard = s.heard := by
  unfold popNextObItem at h
  split at h
  · cases h
  · split at h
    · cases h
    · cases h
      rfl
  · cases h
    rfl
  · cases h
    rfl

theorem heard_sendIter (P : Platform) : (sendIter P s).1.heard = s.heard := by
  unfold sendIter
  split
  · exact s.heard_sendWrite _
  · split
    · rfl
    · rename_i item s1 hpop
      have hprep := (s1.heard_prepFrame P item).trans (s.heard_popNextObItem hpop)
      dsimp only
      split
      · exact ((heard_sendWrite _ _).trans (heard_activate _ _ _)).trans hprep
      · exact hprep
      · exact hprep
      · exact (heard_dropItem _ _ _).trans hprep

theorem heard_sendLoop (P : Platform) (fuel : Nat) : (sendLoop P fuel s).1.heard = s.heard := by
  induction fuel generalizing s with
  | zero => rfl
  | succ fuel ih =>
    have hiter := s.heard_sendIter P
    rw [sendLoop]
    split
    · rename_i heq
      rwa [heq] at hiter
    · rename_i heq
      rw [heq] at hiter
      exact (ih _).trans hiter

/-- Of the calls only mem_recv can add to what is heard. -/
theorem heard_call (P : Platform) (op : Op) (hr : ∀ input, op ≠ .memRecv input) : (s.call P op).1.heard = s.heard := by
  by_cases hs : op = .send
  · subst hs
    exact s.heard_sendLoop P _
  · exact s.heard_submission P op hs hr

/-! Receiving, the frames reported apart. -/

@[simp] theorem heard_handleInvalidStream (id : Int) (f : Frame) (statusCode : Nat) :
    (s.handleInvalidStream id f statusCode).1.heard = s.heard := by
  have hrst : (s.addRstStream id statusCode).1.heard = s.heard := s.heard_addCtrl _
  unfold handleInvalidStream
  dsimp only
  split
  · exact hrst
  · exact (heard_emit _ rfl).trans hrst

@[simp] theorem heard_handleUnparsed (type : Nat) (e : Err) : (s.handleUnparsed type e).1.heard = s.heard := by
  unfold handleUnparsed
  split
  · exact (heard_failSession _ _).trans (s.heard_emit rfl)
  · rfl

@[simp] theorem heard_handleHeadersError (type : Nat) (id : Int) (f : Frame) (e : Err) :
    (s.handleHeadersError type id f e).1.heard = s.heard := by
  unfold handleHeadersError
  split
  · exact s.heard_handleInvalidStream _ _ _
  · exact s.heard_handleUnparsed _ _

@[simp] theorem heard_finReceived (id : Int) : (s.finReceived id).heard = s.heard :=
  (heard_closeStreamIfShutRdwr _ _).trans rfl

@[simp] theorem heard_releaseDeferred (id : Int) : (s.releaseDeferred id).1.heard = s.heard := by
  unfold releaseDeferred
  split
  · rfl
  · split
    · rfl
    · split
      · dsimp only
        split <;> exact s.heard_pushOb _
      · rfl

theorem heard_updateInitialWindowSizeLoop (new old : Int) (ids : List Int) :
    (updateInitialWindowSizeLoop new old ids s).1.heard = s.heard := by
  induction ids generalizing s with
  | nil => rfl
  | cons id ids ih =>
    have hone := heard_releaseDeferred (s.modifyStream id (streamUpdateInitialWindowSize s.windowArith new old)) id
    unfold updateInitialWindowSizeLoop
    dsimp only
    split
    · exact (ih _).trans hone
    · exact hone

theorem heard_applySettingsEntry (e : SettingsEntry) : (s.applySettingsEntry e).1.heard = s.heard := by
  unfold applySettingsEntry
  dsimp only
  split
  · split
    · split <;> exact s.heard_updateInitialWindowSizeLoop _ _ _
    · rfl
  · split
    · split <;> rfl
    · rfl

theorem heard_settingsLoop (iv : List SettingsEntry) (check : List Nat) (done : List SettingsEntry) :
    (settingsLoop iv check done s).1.heard = s.heard := by
  induction iv generalizing s check done with
  | nil => rfl
  | cons e rest ih =>
    unfold settingsLoop
    split
    · exact ih s _ _
    · dsimp only
      split
      · exact (ih _ _ _).trans (s.heard_applySettingsEntry e)
      · exact s.heard_applySettingsEntry e

@[simp] theorem heard_creditChunk (n : Nat) : (s.creditChunk n).1.heard = s.heard := by
  unfold creditChunk
  dsimp only
  split
  · unfold updateRecvWindowSize
    split
    · rfl
    · rename_i st _
      dsimp only
      generalize (if int32Max-n < st.recvWindowSize then int32Max else st.recvWindowSize+n) = size
      split
      · split <;> exact heard_addCtrl _ _
      · rfl
  · rfl

end Session
end Spdylay
