import Spdylay.Library.Loop
import Spdylay.Machine.Sending

/-! The send loop comes to its end. Every pass takes an item from a queue or an answer from a callback, and
what a pass queues in turn is less than that answer stands for. -/
namespace Spdylay
open Library

namespace Session
variable (s : Session)

/-- Items that wait, and answers of callbacks that are left, each for what can be queued after it. -/
def work : Nat := s.obPq.q.length+s.obSsPq.q.length+4*(s.host.sends.length+s.host.reads.length+s.host.credentials.length)

/-! Queueing. -/

theorem pqPush_length {m : Mem} {pq pq' : Pq} {item : OutboundItem} (h : (pqPush m pq item).2 = some pq') :
    pq'.q.length = pq.q.length+1 := by
  have hlen := (BinaryHeap.push_perm outboundItemCompar pq.q item).length_eq
  rw [pqPush] at h
  split at h
  · split at h
    · cases h
      exact hlen
    · cases h
  · cases h
    exact hlen

theorem work_emit (e : Event) : (s.emit e).work = s.work := rfl

theorem work_mallocs (n : Nat) : (mallocs n s).1.work = s.work := by
  induction n generalizing s with
  | zero => rfl
  | succ n ih =>
    rw [mallocs]
    split
    · exact ih s.malloc
    · rfl

theorem work_markClosing (frame : OutFrame) : (s.markClosing frame).work = s.work := by
  unfold markClosing
  split <;> rfl

theorem work_pushOb (item : OutboundItem) : (s.pushOb item).1.work ≤ s.work+1 := by
  rw [pushOb]
  split
  · rename_i m pq h
    have hlen := pqPush_length (congrArg Prod.snd h)
    simp only [work, setMem, hlen]
    omega
  · exact Nat.le_succ _

theorem work_pushObSs (item : OutboundItem) : (s.pushObSs item).1.work ≤ s.work+1 := by
  rw [pushObSs]
  split
  · rename_i m pq h
    have hlen := pqPush_length (congrArg Prod.snd h)
    simp only [work, setMem, hlen]
    omega
  · exact Nat.le_succ _

theorem work_addFrame (frame : OutFrame) (aux : Option DataProvider) : (s.addFrame frame aux).1.work ≤ s.work+1 := by
  rw [addFrame]
  split
  · have hmark := work_markClosing {s.malloc with nextSeq := s.nextSeq+1} frame
    have hpush : ((({s.malloc with nextSeq := s.nextSeq+1}).markClosing frame).pushItem (s.newItem frame aux)).1.work ≤
        s.work+1 := by
      rw [pushItem]
      split
      · exact (work_pushObSs _ _).trans (le_of_eq (congrArg (· + 1) hmark))
      · exact (work_pushOb _ _).trans (le_of_eq (congrArg (· + 1) hmark))
    dsimp only
    split
    · exact hpush
    · exact hpush
  · exact Nat.le_succ _

theorem work_addCtrl (f : Frame) : (s.addCtrl f).1.work ≤ s.work+1 := by
  rw [addCtrl]
  split
  · exact s.malloc.work_addFrame _ _
  · exact Nat.le_succ _

theorem work_submitData (id : Int) (flags : Nat) (prd : DataProvider) : (s.submitData id flags prd).1.work ≤ s.work+1 := by
  rw [submitData]
  split
  · exact s.malloc.work_addFrame _ _
  · exact Nat.le_succ _

theorem work_submitBody (id : Int) (prd : Option DataProvider) : (s.submitBody id prd).1.work ≤ s.work+1 := by
  unfold submitBody
  split
  · exact Nat.le_succ _
  · dsimp only
    split <;> exact s.work_submitData _ _ _

/-! Streams. -/

theorem work_countOpened (id : Int) : (s.countOpened id).work = s.work := by
  unfold countOpened
  split <;> rfl

theorem work_countClosed (id : Int) : (s.countClosed id).work = s.work := by
  unfold countClosed
  split <;> rfl

theorem work_openStream (id : Int) (flags pri : Nat) (state : StreamState) :
    (s.openStream id flags pri state).1.work = s.work := by
  rw [openStream]
  split
  · dsimp only
    split
    · exact work_countOpened _ _
    · exact work_countOpened _ _
  · rfl

theorem work_closeStream (id : Int) (statusCode : Nat) : (s.closeStream id statusCode).1.work = s.work := by
  have hfree : ∀ (t : Session) (st : Stream), (t.freeDeferred st).work = t.work := by
    intro t st
    unfold freeDeferred
    split <;> rfl
  unfold closeStream
  split
  · dsimp only
    rw [hfree]
    refine (work_countClosed _ _).trans ?_
    split <;> rfl
  · rfl

theorem work_closeStreamIfShutRdwr (id : Int) : (s.closeStreamIfShutRdwr id).work = s.work := by
  unfold closeStreamIfShutRdwr
  split
  · split
    · exact s.work_closeStream _ _
    · rfl
  · rfl

theorem work_closePushedStreams (id : Int) (statusCode : Nat) : (s.closePushedStreams id statusCode).work = s.work := by
  unfold closePushedStreams
  split
  · rename_i st hst
    clear hst
    induction st.pushedStreams generalizing s with
    | nil => rfl
    | cons id ids ih => exact (ih (s.closeStream id statusCode).1).trans (s.work_closeStream _ _)
  · rfl

theorem work_deferData (st : Stream) (item : OutboundItem) (flowControl : Bool) :
    (s.deferData st item flowControl).1.work = s.work := by
  unfold deferData
  split <;> rfl

/-! Preparing. Nothing is queued without an answer. -/

theorem work_reserveFramebuf (n : Nat) : (s.reserveFramebuf n).1.work = s.work := by
  unfold reserveFramebuf
  split_ifs <;> rfl

theorem work_reserveNvbuf (n : Nat) : (s.reserveNvbuf n).1.work = s.work := by
  unfold reserveNvbuf
  split_ifs <;> rfl

theorem work_queueCredential (origin : Origin) (answer : CredentialAnswer) :
    (s.queueCredential origin answer).1.work ≤ s.work+1 := by
  have hadd : ∀ (t : Session) (n : Nat) (frame : OutFrame), t.work = s.work →
      ((mallocs n t).1.addFrame frame none).1.work ≤ s.work+1 := by
    intro t n frame ht
    exact (work_addFrame _ _ _).trans (le_of_eq (congrArg (· + 1) ((t.work_mallocs n).trans ht)))
  rw [queueCredential]
  split
  · exact Nat.le_succ _
  · dsimp only
    split
    · exact Nat.le_succ _
    · split
      · split <;> exact hadd _ _ _ rfl
      · exact (le_of_eq (work_mallocs _ _)).trans (Nat.le_succ _)

/-- The list of certificates is an answer, and a CREDENTIAL is queued for it. -/
theorem work_prepCredential (f : SynStream) : (s.prepCredential f).1.work ≤ s.work ∧
    ((s.prepCredential f).2 = .error .credentialPending → (s.prepCredential f).1.work+1 ≤ s.work) := by
  unfold prepCredential
  split
  · exact ⟨le_refl _, by rintro ⟨⟩⟩
  · split
    · exact ⟨le_refl _, by rintro ⟨⟩⟩
    · dsimp only
      split
      · exact ⟨le_refl _, by rintro ⟨⟩⟩
      · split
        · exact ⟨le_refl _, by rintro ⟨⟩⟩
        · rename_i origin _ _ _ answer rest hrest
          have hanswer : work {s with host := {s.host with credentials := rest}} + 4 = s.work := by
            simp only [work, hrest, List.length_cons]
            omega
          generalize ({s with host := {s.host with credentials := rest}} : Session) = t at hanswer
          have hqueue := t.work_queueCredential origin answer
          split
          · refine ⟨?_, by rintro ⟨⟩⟩
            change t.work ≤ s.work
            omega
          · exact ⟨by omega, fun _ => by omega⟩

theorem work_frameAllocPackNv (P : Platform) (nv : Nv) (nvOffset lenSize : Nat) :
    (frameAllocPackNv P s nv nvOffset lenSize).1.work = s.work := by
  have hf := (work_reserveFramebuf (s.reserveNvbuf (frameCountNvSpace nv lenSize)).1
    (nvOffset+P.deflateBound s.hdDeflater (frameCountNvSpace nv lenSize))).trans (s.work_reserveNvbuf _)
  unfold frameAllocPackNv
  dsimp only
  split
  · exact s.work_reserveNvbuf _
  · split
    · exact hf
    · split
      · exact hf
      · split <;> exact hf

theorem work_prepSynStreamPack (P : Platform) (item : OutboundItem) (f : SynStream) :
    (prepSynStreamPack P s item f).ses.work = s.work := by
  have hpack := work_frameAllocPackNv {s with nextStreamId := s.nextStreamId+2} P (s.wireNv P f.nv) synStreamNvOffset
    (frameGetLenSize f.hd.version)
  unfold prepSynStreamPack
  dsimp only
  split
  · rfl
  · split
    · exact hpack
    · split <;> exact (work_openStream _ _ _ _ _).trans hpack

theorem work_prepSynStream (P : Platform) (item : OutboundItem) (f : SynStream) : (prepSynStream P s item f).ses.work ≤ s.work := by
  obtain ⟨hcred, hpending⟩ := s.work_prepCredential f
  unfold prepSynStream
  split
  · exact le_refl _
  · split
    · dsimp only
      split
      · rename_i hp
        have hpush := work_pushObSs (s.prepCredential f).1 {item with pri := obPriAfterCredential}
        have hless := hpending hp
        split <;> exact hpush.trans hless
      · exact (le_of_eq (work_prepSynStreamPack _ P _ _)).trans hcred
      · exact (le_of_eq (work_prepSynStreamPack _ P _ _)).trans hcred
    · exact le_of_eq (s.work_prepSynStreamPack P _ _)

theorem work_prepStreamHeaders (P : Platform) (item : OutboundItem) (type : FrameType) (wrap : StreamHeaders → Frame)
    (f : StreamHeaders) : (prepStreamHeaders P s item type wrap f).ses.work = s.work := by
  unfold prepStreamHeaders
  dsimp only
  split
  · rfl
  · split
    · rfl
    · split <;> exact s.work_frameAllocPackNv P _ _ _

theorem work_prepFixed (item : OutboundItem) (bytes : Bytes) : (s.prepFixed item bytes).ses.work = s.work := by
  unfold prepFixed
  dsimp only
  split <;> exact s.work_reserveFramebuf _

theorem work_prepPacked (item : OutboundItem) (r : Except Err Bytes) : (s.prepPacked item r).ses.work = s.work := by
  unfold prepPacked
  split
  · exact s.work_prepFixed item _
  · rfl

/-- read_callback gives an answer, or there is none left and the item is deferred. -/
theorem work_packData (seq : Nat) (d : DataFrame) (datamax : Nat) : (s.packData seq d datamax).1.work ≤ s.work ∧
    ((s.packData seq d datamax).2.2 = .error .temporalCallbackFailure → (s.packData seq d datamax).1.work+4 ≤ s.work) := by
  have hr := s.work_reserveFramebuf (datamax+8)
  have hnomem := Machine.reserveFramebuf_error s (datamax+8)
  unfold packData
  dsimp only
  generalize s.reserveFramebuf (datamax+8) = r at hr hnomem
  have htail : work {r.1 with host := {r.1.host with reads := r.1.host.reads.tail}} ≤ s.work := by
    rw [← hr]
    simp only [work, List.length_tail]
    omega
  split
  · rename_i e he
    refine ⟨le_of_eq hr, ?_⟩
    rintro ⟨⟩
    cases hnomem _ he
  · split
    · exact ⟨htail, by rintro ⟨⟩⟩
    · rename_i hhead
      refine ⟨htail, fun _ => ?_⟩
      cases hreads : r.1.host.reads with
      | nil =>
        rw [hreads] at hhead
        cases hhead
      | cons answer rest =>
        rw [← hr]
        simp only [work, hreads, List.tail_cons, List.length_cons]
        omega
    · exact ⟨htail, by rintro ⟨⟩⟩
    · split
      · exact ⟨htail, by rintro ⟨⟩⟩
      · exact ⟨htail, by rintro ⟨⟩⟩

theorem work_prepData (item : OutboundItem) (d : DataFrame) : (s.prepData item d).ses.work ≤ s.work := by
  unfold prepData
  split
  · exact le_refl _
  · split
    · exact le_refl _
    · rename_i st _
      dsimp only
      split
      · exact le_of_eq (s.work_deferData _ _ _)
      · obtain ⟨hp, htemporal⟩ := s.work_packData item.seq d (s.nextDataRead st)
        split
        · exact hp
        · exact (le_of_eq (work_deferData _ _ _ _)).trans hp
        · rename_i hr
          have hrst := work_addCtrl (s.packData item.seq d (s.nextDataRead st)).1
            (.rstStream (frameRstStreamInit (s.packData item.seq d (s.nextDataRead st)).1.version.num d.streamId internalError))
          have hless := htemporal hr
          exact hrst.trans (by omega)
        · exact hp

theorem work_prepFrame (P : Platform) (item : OutboundItem) : (prepFrame P s item).ses.work ≤ s.work := by
  unfold prepFrame
  split
  · exact s.work_prepSynStream P item _
  · split
    · exact le_refl _
    · exact le_of_eq (s.work_prepStreamHeaders P item _ _ _)
  · exact le_of_eq (s.work_prepFixed item _)
  · exact le_of_eq (s.work_prepPacked item _)
  · exact le_of_eq (s.work_prepFixed item _)
  · split
    · exact le_refl _
    · exact le_of_eq (s.work_prepStreamHeaders P item _ _ _)
  · split
    · exact le_refl _
    · exact le_of_eq (s.work_prepFixed item _)
  · split
    · exact le_refl _
    · exact le_of_eq (s.work_prepPacked item _)
  · exact le_of_eq (s.work_prepFixed item _)
  · exact s.work_prepData item _

/-! Sending. A frame that is complete queues one item at most. -/

theorem work_activate (item : OutboundItem) (bytes : Bytes) : (s.activate item bytes).work = s.work := by
  unfold activate
  dsimp only
  split <;> rfl

theorem work_dropItem (item : OutboundItem) (e : Err) : (s.dropItem item e).work = s.work := by
  unfold dropItem
  dsimp only
  rw [work_emit]
  split
  · rfl
  · split <;> rfl
  · rfl

theorem work_activeReset (cause : Finish) : (s.activeReset cause).work = s.work := by
  unfold activeReset
  split <;> rfl

theorem work_debit (item : OutboundItem) : (s.debit item).work = s.work := by
  unfold debit
  split
  · split <;> rfl
  · rfl

theorem work_shutdown_if (p q : Prop) [Decidable p] [Decidable q] (id : Int) :
    (if p then (if q then s.shutdownWr id else s).shutdownRd id else if q then s.shutdownWr id else s).work = s.work := by
  split_ifs <;> rfl

theorem work_afterCtrlSent (item : OutboundItem) (f : Frame) : (s.afterCtrlSent item f).1.work ≤ s.work+1 := by
  cases f with
  | synStream f =>
    rw [afterCtrlSent, afterSynStreamSent]
    split
    · exact Nat.le_succ _
    · refine (work_submitBody _ _ _).trans (le_of_eq (congrArg (· + 1) ?_))
      rw [work_closeStreamIfShutRdwr, work_shutdown_if]
      rfl
  | synReply f =>
    rw [afterCtrlSent, afterSynReplySent]
    split
    · exact Nat.le_succ _
    · refine (work_submitBody _ _ _).trans (le_of_eq (congrArg (· + 1) ?_))
      rw [work_closeStreamIfShutRdwr]
      split_ifs <;> rfl
  | rstStream f =>
    rw [afterCtrlSent, afterRstStreamSent]
    dsimp only
    rw [work_closeStream]
    split
    · exact (le_of_eq (s.work_closePushedStreams _ _)).trans (Nat.le_succ _)
    · exact Nat.le_succ _
  | headers f =>
    rw [afterCtrlSent, afterHeadersSent]
    split
    · exact Nat.le_succ _
    · dsimp only
      rw [work_closeStreamIfShutRdwr]
      split_ifs <;> exact Nat.le_succ _
  | _ => exact Nat.le_succ _

theorem work_afterDataFin (d : DataFrame) : (s.afterDataFin d).work = s.work := by
  unfold afterDataFin
  split
  · split
    · exact work_closeStreamIfShutRdwr _ _
    · rfl
  · rfl

theorem work_continueData (item : OutboundItem) (d : DataFrame) (st : Stream) :
    (s.continueData item d st).1.work ≤ s.work+1 := by
  obtain ⟨hp, -⟩ := s.work_packData item.seq d (s.nextDataRead st)
  have hpack : (s.packData item.seq d (s.nextDataRead st)).1.work ≤ s.work+1 := hp.trans (Nat.le_succ _)
  unfold continueData
  dsimp only
  split
  · split <;> exact (le_of_eq (s.work_deferData _ _ _)).trans (Nat.le_succ _)
  · split
    · exact hpack
    · split <;> exact (le_of_eq (work_deferData _ _ _ _)).trans hpack
    · rw [work_activeReset]
      exact (work_addCtrl _ _).trans (Nat.succ_le_succ hp)
    · exact (le_of_eq (work_activeReset _ _)).trans hpack

theorem work_afterDataSent (item : OutboundItem) (d : DataFrame) : (s.afterDataSent item d).1.work ≤ s.work+1 := by
  have hfin := work_afterDataFin (s.emit (.dataSend (if d.eof then d.flags else 0) d.streamId
    (s.aob.framebuf.length-headLen))) d
  rw [afterDataSent]
  dsimp only
  rw [work_emit] at hfin
  generalize (s.emit _).afterDataFin d = t at hfin
  rw [← hfin]
  split
  · exact (le_of_eq (t.work_activeReset _)).trans (Nat.le_succ _)
  · split
    · split
      · exact Nat.le_succ _
      · exact t.work_continueData item d _
    · split
      · exact t.work_pushOb item
      · exact (le_of_eq (work_activeReset _ _)).trans (t.work_pushOb item)

theorem work_afterFrameSent : s.afterFrameSent.1.work ≤ s.work+1 := by
  unfold afterFrameSent
  split
  · exact Nat.le_succ _
  · rename_i item _
    split
    · rename_i f _
      have hsent := (s.emit (.ctrlSend f)).work_afterCtrlSent item f
      dsimp only
      split
      · exact (le_of_eq (work_activeReset _ _)).trans hsent
      · exact hsent
    · exact s.work_afterDataSent item _

theorem work_sendAccepted (item : OutboundItem) (n : Nat) : (s.sendAccepted item n).1.work ≤ s.work+1 := by
  unfold sendAccepted
  dsimp only
  generalize hw : Session.debit _ item = t
  have ht : t.work = s.work := by
    rw [← hw, work_debit]
    rfl
  rw [← ht]
  split
  · split <;> exact t.work_afterFrameSent
  · exact Nat.le_succ _

/-- The loop goes on after an answer of send_callback. -/
theorem work_sendWrite (item : OutboundItem) (h : (s.sendWrite item).2 = none) : (s.sendWrite item).1.work < s.work := by
  cases hsends : s.host.sends with
  | nil =>
    rw [sendWrite, hsends] at h
    cases h
  | cons answer rest =>
    rw [sendWrite, hsends] at h ⊢
    dsimp only [List.headD_cons, List.tail_cons] at h ⊢
    cases answer with
    | wouldblock => cases h
    | failure => cases h
    | accept n =>
      refine lt_of_le_of_lt (work_sendAccepted _ item n) ?_
      simp only [work, hsends, List.length_cons]
      omega

theorem work_popNextObItem {item : OutboundItem} {s1 : Session} (h : s.popNextObItem = some (item, s1)) :
    s1.work+1 = s.work := by
  have hpop : ∀ {pq : Pq} {x : OutboundItem}, pqTop pq = some x → (pqPop pq).q.length+1 = pq.q.length :=
    fun htop => (BinaryHeap.pop_perm outboundItemCompar htop).length_eq.symm
  unfold popNextObItem at h
  split at h
  · cases h
  · rename_i syn _ htop
    split at h
    · cases h
    · cases h
      have hlen := hpop htop
      simp only [work]
      omega
  · rename_i htop _
    cases h
    have hlen := hpop htop
    simp only [work]
    omega
  · rename_i htop
    cases h
    have hlen := hpop htop
    simp only [work]
    omega

/-- Every pass but the last lessens the work. -/
theorem work_sendIter (P : Platform) {t : Session} (h : Loop.Goes (sendIter P) s t) : t.work < s.work := by
  rw [Loop.Goes, sendIter] at h
  split at h
  · have hless := s.work_sendWrite _ (congrArg Prod.snd h)
    rwa [h] at hless
  · split at h
    · cases h
    · rename_i item s1 hpop
      have hless := s.work_popNextObItem hpop
      have hprep := s1.work_prepFrame P item
      dsimp only at h
      split at h
      · rename_i bytes _
        have hwrite := work_sendWrite _ _ (congrArg Prod.snd h)
        rw [h, work_activate] at hwrite
        change t.work < _ at hwrite
        omega
      · cases h
        omega
      · cases h
        omega
      · have ht := congrArg Prod.fst h
        dsimp only at ht
        rw [← ht, work_dropItem]
        omega

theorem sendLoop_eq_run (P : Platform) (fuel : Nat) : sendLoop P fuel s = Loop.run (sendIter P) none fuel s := by
  induction fuel generalizing s with
  | zero => rfl
  | succ fuel ih =>
    rw [sendLoop, Loop.run]
    split
    · rename_i h
      rw [h]
    · rename_i h
      rw [h]
      exact ih _

/-! The last pass. -/

theorem popNextObItem_none (h : s.popNextObItem = none) (hitem : s.aob.item = none) : s.wantWrite = false := by
  have hempty : ∀ {pq : Pq}, pqTop pq = none → pqEmpty pq = true := by
    intro pq htop
    rw [pqEmpty, BinaryHeap.top_eq_none.mp htop]
    rfl
  have hqueues : pqEmpty s.obPq = true ∧ (pqEmpty s.obSsPq = true ∨ s.isOutgoingConcurrentStreamsMax = true) := by
    unfold popNextObItem at h
    split at h
    · rename_i hob hss
      exact ⟨hempty hob, .inl (hempty hss)⟩
    · rename_i hob _
      split at h
      · rename_i hmax
        exact ⟨hempty hob, .inr hmax⟩
      · cases h
    · cases h
    · cases h
  obtain ⟨hob, hss⟩ := hqueues
  rw [wantWrite, hitem, hob]
  rcases hss with hss | hss
  · simp [hss]
  · simp [hss]

/-- A write ends the loop without an error when send_callback would block, and leaves the frame where it is. -/
theorem sendWrite_blocks {item : OutboundItem} (h : (s.sendWrite item).2 = some none) :
    s.host.sends.headD .wouldblock = .wouldblock ∧ (s.sendWrite item).1.aob = s.aob := by
  unfold sendWrite at h ⊢
  dsimp only at h ⊢
  split
  · rename_i hanswer
    exact ⟨hanswer, rfl⟩
  · rename_i hanswer
    rw [hanswer] at h
    cases h
  · rename_i n hanswer
    rw [hanswer] at h
    dsimp only at h
    unfold sendAccepted at h
    dsimp only at h
    split at h
    · split at h
      · cases h
      · cases h
    · cases h

/-- The state in which a pass calls send_callback, if it comes to that. -/
def offering (P : Platform) (s : Session) : Session := if s.aob.item.isSome then s else s.prepareNext P

/-- A pass in which send_callback was offered the frame of `item` and would have blocked. -/
structure Blocks (P : Platform) (s : Session) (item : OutboundItem) : Prop where
  active : (s.offering P).aob.item = some item
  answer : (s.offering P).host.sends.headD .wouldblock = .wouldblock
  result : (sendIter P s).1 = ((s.offering P).sendWrite item).1
  kept : (sendIter P s).1.aob = (s.offering P).aob

theorem sendIter_last (P : Platform) (h : (sendIter P s).2 = some none) :
    (∃ item, Blocks P s item) ∨ (sendIter P s).1.wantWrite = false := by
  cases hitem : s.aob.item with
  | some item =>
    have hiter : sendIter P s = s.sendWrite item := by
      rw [sendIter, hitem]
    have hoffer : s.offering P = s := by
      rw [offering, hitem]
      rfl
    rw [hiter] at h
    obtain ⟨hanswer, haob⟩ := s.sendWrite_blocks h
    refine .inl ⟨item, ?_, ?_, ?_, ?_⟩
    · rw [hoffer, hitem]
    · rw [hoffer, hanswer]
    · rw [hoffer, hiter]
    · rw [hoffer, hiter, haob]
  | none =>
    have hoffer : s.offering P = s.prepareNext P := by
      rw [offering, hitem]
      rfl
    unfold sendIter at h
    rw [hitem] at h
    dsimp only at h
    cases hpop : s.popNextObItem with
    | none =>
      rw [sendIter, hitem, hpop]
      exact .inr (s.popNextObItem_none hpop hitem)
    | some r =>
      obtain ⟨item, s1⟩ := r
      rw [hpop] at h
      dsimp only at h
      split at h
      · rename_i bytes hbytes
        have hiter : sendIter P s =
            ((prepFrame P s1 item).ses.activate (prepFrame P s1 item).item bytes).sendWrite (prepFrame P s1 item).item := by
          rw [sendIter, hitem, hpop]
          dsimp only
          rw [hbytes]
        have hprepare : s.prepareNext P = (prepFrame P s1 item).ses.activate (prepFrame P s1 item).item bytes := by
          rw [prepareNext, hpop]
          dsimp only
          rw [hbytes]
        obtain ⟨hanswer, haob⟩ := sendWrite_blocks _ h
        rw [hprepare] at hoffer
        refine .inl ⟨(prepFrame P s1 item).item, ?_, ?_, ?_, ?_⟩
        · rw [hoffer, activate_active]
        · rw [hoffer, hanswer]
        · rw [hoffer, hiter]
        · rw [hoffer, hiter, haob]
      · cases h
      · cases h
      · dsimp only at h
        split at h
        · cases h
        · cases h

end Session

/-- The send loop, which has no bound in the code, ends from every state, with what the model computes: the
answers of send_callback run out, and then it blocks. If it returns 0, the last thing it did was to offer a frame
to send_callback, which would have blocked, and that frame is still being written; or the session has nothing
more to write. -/
theorem session_send_ends (P : Platform) (s : Session) :
    Loop.Stops (Session.sendIter P) s (s.send P).1 (s.send P).2 ∧
    (∀ t r, Loop.Stops (Session.sendIter P) s t r → s.send P = (t, r)) ∧
    ((s.send P).2 = none →
      (∃ t item, Relation.ReflTransGen (Loop.Goes (Session.sendIter P)) s t ∧ Session.Blocks P t item ∧
        (s.send P).1 = (Session.sendIter P t).1 ∧ (s.send P).1.aob.item = some item) ∨
      (s.send P).1.wantWrite = false) := by
  have hmeasure : ∀ s t : Session, Loop.Goes (Session.sendIter P) s t → t.work < s.work := fun s t => s.work_sendIter P
  have hfuel : s.work < s.sendFuel := by
    rw [Session.sendFuel, Session.work]
    omega
  have hsend : s.send P = Loop.run (Session.sendIter P) none s.sendFuel s := s.sendLoop_eq_run P _
  have hstops : Loop.Stops (Session.sendIter P) s (s.send P).1 (s.send P).2 := by
    rw [hsend]
    exact Loop.stops_run hmeasure hfuel
  refine ⟨hstops, ?_, ?_⟩
  · intro t r ht
    rw [hsend]
    exact Loop.run_of_stops hmeasure hfuel ht
  · intro hnone
    obtain ⟨t, hgoes, hlast⟩ := hstops
    have hstate : (s.send P).1 = (Session.sendIter P t).1 := by rw [hlast]
    rcases t.sendIter_last P (by rw [hlast, hnone]) with ⟨item, hblocks⟩ | hend
    · refine .inl ⟨t, item, hgoes, hblocks, hstate, ?_⟩
      rw [hstate, hblocks.kept, hblocks.active]
    · rw [hstate]
      exact .inr hend

end Spdylay
