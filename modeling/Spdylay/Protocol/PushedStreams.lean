import Spdylay.Machine.FrameEnds
import Spdylay.Protocol.StreamRecords

/-! Streams that are pushed with a request. A stream has a list for the ids of the
streams pushed with it, which nothing ever adds to. -/
namespace Spdylay.Machine
open Library

/-- No stream knows of one pushed with it. -/
def NoPushes (c : Core) : Prop := ∀ id st, c.streams.find id = some st → st.pushedStreams = []

namespace NoPushes
variable {c c' : Core}

theorem same (h : NoPushes c) (hs : c'.streams = c.streams) : NoPushes c' := by
  unfold NoPushes
  rw [hs]
  exact h

theorem find (h : NoPushes c) (hs : ∀ id st', c'.streams.find id = some st' →
    ∃ st, c.streams.find id = some st ∧ st'.pushedStreams = st.pushedStreams) : NoPushes c' := by
  intro id st' hst'
  obtain ⟨st,hst,hp⟩ := hs id st' hst'
  exact hp.trans (h id st hst)

theorem modify (h : NoPushes c) (streamId : Int) (f : Stream → Stream) (hf)
    (hp : ∀ st, (f st).pushedStreams = st.pushedStreams) : NoPushes (c.modifyStream streamId f hf) := by
  refine h.find (fun id st' hst' => ?_)
  rw [Core.find_modifyStream] at hst'
  split at hst'
  · obtain ⟨st,hst,rfl⟩ := Option.map_eq_some_iff.mp hst'
    exact ⟨st,hst,hp st⟩
  · exact ⟨st',hst',rfl⟩

theorem detach (h : NoPushes c) (streamId : Int) : NoPushes (c.detach streamId) :=
  h.modify streamId _ _ (fun _ => rfl)

theorem park (h : NoPushes c) (streamId : Int) (item : OutboundItem) (fc : Bool) : NoPushes (c.park streamId item fc) :=
  h.modify streamId _ _ (fun _ => rfl)

theorem setWindow (h : NoPushes c) (streamId : Int) (f : Int → Int) : NoPushes (c.setWindow streamId f) :=
  h.modify streamId _ _ (fun _ => rfl)

theorem insert (h : NoPushes c) {st : Stream} {streams} (hp : st.pushedStreams = [])
    (hi : c.streams.insert st = some streams) (hs : c'.streams = streams) : NoPushes c' := by
  intro id st' hst'
  rw [hs,OrderedTable.find_insert hi] at hst'
  split at hst'
  · cases hst'
    exact hp
  · exact h id st' hst'

theorem settled_pushedStreams (f : Int → Int) (st : Stream) : (settled f st).pushedStreams = st.pushedStreams := by
  unfold settled
  split <;> rfl

theorem rewindow (h : NoPushes c) (streamId : Int) (f : Int → Int) : NoPushes (c.rewindow streamId f) := by
  refine h.find (fun id st' hst' => ?_)
  rw [Core.find_rewindow] at hst'
  split at hst'
  · obtain ⟨st,hst,rfl⟩ := Option.map_eq_some_iff.mp hst'
    exact ⟨st,hst,settled_pushedStreams f st⟩
  · exact ⟨st',hst',rfl⟩

theorem countOpened (h : NoPushes c) (streamId : Int) : NoPushes (c.countOpened streamId) := by
  unfold Core.countOpened
  split <;> exact h

theorem act (hm : Act c c') (h : NoPushes c) : NoPushes c' := by
  cases hm with
  | note e he => exact h
  | accept item hs =>
    unfold Core.enqueue
    split <;> exact h
  | skipSeq => exact h
  | restate streamId f hf => exact h.modify streamId f _ hf.pushedStreams
  | close streamId st hst =>
    have hremove : (c.close st).streams = c.streams.remove st.streamId := by
      unfold Core.close Core.freeDeferred
      split <;> rfl
    refine h.find (fun id st' hst' => ?_)
    rw [hremove,OrderedTable.find_remove] at hst'
    split at hst'
    · cases hst'
    · exact ⟨st',hst',rfl⟩
  | resume streamId st item hst hi => exact (h.detach streamId).same rfl

theorem inb (hm : Inb c c') (h : NoPushes c) : NoPushes c' := by
  cases hm with
  | seePeer streamId hn => exact h
  | openPeer st streams hn hw hd hp hi =>
    have hnew : NoPushes {c with lastRecvStreamId := st.streamId, streams := streams} := h.insert hp hi rfl
    exact hnew.countOpened _
  | openPeerFailed st hn hi =>
    have hsame : NoPushes (({c with lastRecvStreamId := st.streamId}).note (.insertFailed st.streamId)) := h
    exact hsame.countOpened _
  | raise streamId delta st hst => exact (h.rewindow streamId _).same rfl
  | raiseStuck streamId delta st hst => exact (h.setWindow streamId (fun w => c.arith.store (w+delta))).same rfl
  | rebase value hf hv =>
    refine h.find (fun id st' hst' => ?_)
    rw [Core.find_rebase] at hst'
    obtain ⟨st,hst,rfl⟩ := Option.map_eq_some_iff.mp hst'
    exact ⟨st,hst,settled_pushedStreams _ st⟩
  | rebaseStuck streamId f => exact (h.setWindow streamId f).same rfl
  | setRemote id value hid => exact h
  | setOversize value hv => exact h

theorem outb (hm : Outb c c') (h : NoPushes c) : NoPushes c' := by
  cases hm with
  | openOwn st streams hid hw hd hp hi =>
    have hnew : NoPushes {c with nextStreamId := c.nextStreamId+2, streams := streams} := h.insert hp hi rfl
    exact hnew.countOpened _
  | openOwnFailed st hid hi =>
    have hsame : NoPushes (({c with nextStreamId := c.nextStreamId+2}).note (.insertFailed st.streamId)) := h
    exact hsame.countOpened _
  | defer item d st flowControl hh ha hd hp => exact (h.park d.streamId item flowControl).same rfl
  | parkActive item item' d st flowControl ha hf hs hd hp => exact (h.park d.streamId item' flowControl).same rfl
  | write item n ha hn =>
    unfold Core.debit
    split
    · split
      · exact NoPushes.setWindow (c := c.write n) h _ _
      · exact h
    · exact h
  | _ => exact h

end NoPushes

theorem noPushes_invariant : Invariant NoPushes where
  start _ _ := by
    intro id st hst
    cases hst
  act _ _ := NoPushes.act
  inb _ _ := NoPushes.inb
  read _ _ _ h := h
  outb _ _ := NoPushes.outb
  report _ _ h := h

end Spdylay.Machine

namespace Spdylay.Protocol
open Library Session Conn

theorem pushedStreams_eq_nil {P : Platform} {u : Setup} {s : Session} (h : Reachable P u s) {id : Int} {st : Stream}
    (hst : s.getStream id = some st) : st.pushedStreams = [] := by
  obtain ⟨g,hn,-⟩ := Machine.noPushes_invariant.reachable h
  exact hn id st hst

theorem closePushedStreams_eq {s : Session} (h : ∀ id st, s.getStream id = some st → st.pushedStreams = []) (id : Int)
    (statusCode : Nat) : s.closePushedStreams id statusCode = s := by
  unfold closePushedStreams
  split
  · rename_i st hst
    rw [h id st hst]
    rfl
  · rfl

/-- A close takes one stream out of the map. -/
theorem getStream_closeStream (s : Session) (k : Int) (statusCode : Nat) (id : Int) :
    (s.closeStream k statusCode).1.getStream id = if k = id then none else s.getStream id := by
  unfold closeStream
  split
  · rename_i st hst
    dsimp only
    have hremove : ∀ s' : Session, ({s' with streams := s'.streams.remove k}.freeDeferred st).getStream id =
        if k = id then none else s'.getStream id := by
      intro s'
      unfold freeDeferred
      split <;> exact OrderedTable.find_remove _ _ _
    rw [hremove]
    have hsame : ((if st.state ≠ .initial then s.emit (.streamClose k statusCode) else s).countClosed k).getStream id =
        s.getStream id := by
      unfold countClosed
      split_ifs <;> rfl
    rw [hsame]
  · rename_i hst
    split
    · rename_i hk
      rw [← hk]
      exact hst
    · rfl

/-- The stream was opened with a SYN_STREAM of this association. -/
def Pushed (s : Session) (id assoc : Int) : Prop :=
  ∃ f : SynStream, f.streamId = id ∧ f.assocStreamId = assoc ∧
    if s.server then .beforeCtrlSend (.synStream f) ∈ s.host.log else .ctrlRecv (.synStream f) ∈ s.host.log

/-- No stream pushed with this association is open. -/
def PushesClosed (s s' : Session) (assoc : Int) : Prop := ∀ id, Pushed s id assoc → s'.getStream id = none

/-- The RST_STREAM that is received in this pass of the receive loop. -/
def receivedRst (P : Platform) (s : Session) (input : Bytes) : Option RstStream :=
  match s.ctrlFrameEnd P input with
  | some (.rstStream, t) => (frameUnpackRstStream t.iframe.headbuf t.iframe.buf t.iframe.buflen).toOption
  | _ => none

/-- The RST_STREAM whose last byte this write hands to the transport. -/
def sentRst (s : Session) : Option RstStream :=
  match s.aob.item, s.host.sends.headD .wouldblock with
  | some ⟨.ctrl (.rstStream f), _, _, _⟩, .accept n =>
    if s.aob.framebufoff+min n (s.aob.framebuf.length-s.aob.framebufoff) = s.aob.framebuf.length then some f else none
  | _, _ => none

/-- A pushed stream has an id of the side that pushes. -/
theorem Pushed.side {P : Platform} {u : Setup} {s : Session} (h : Reachable P u s) {id assoc : Int}
    (hp : Pushed s id assoc) : s.isMyStreamId id = s.server := by
  have hr := records_invariant.reachable h
  obtain ⟨f,rfl,-,hf⟩ := hp
  cases hs : s.server with
  | true =>
    rw [hs] at hf
    exact (hr.begun (.synStream f) hf).1
  | false =>
    rw [hs] at hf
    exact (hr.received f hf).1

/-- A reset of the request alone leaves the pushed streams. -/
theorem pushesClosed_iff {P : Platform} {u : Setup} {s s' : Session} (h : Reachable P u s) {k : Int}
    (hk : s.isMyStreamId k ≠ s.server) (hs : ∀ id, id ≠ k → s'.getStream id = s.getStream id) :
    PushesClosed s s' k ↔ PushesClosed s s k := by
  refine forall₂_congr (fun id hp => ?_)
  rw [hs id]
  rintro rfl
  exact hk (hp.side h)

theorem onRstStreamReceived_other {s : Session} (h : ∀ id st, s.getStream id = some st → st.pushedStreams = [])
    (f : RstStream) {id : Int} (hid : id ≠ f.streamId) : (s.onRstStreamReceived f).1.getStream id = s.getStream id := by
  unfold onRstStreamReceived
  split
  · rfl
  · dsimp only
    have hsame : (if (s.emit (.ctrlRecv (.rstStream f))).server ∧
        !(s.emit (.ctrlRecv (.rstStream f))).isMyStreamId f.streamId ∧ f.statusCode = cancel then
          (s.emit (.ctrlRecv (.rstStream f))).closePushedStreams f.streamId f.statusCode
        else s.emit (.ctrlRecv (.rstStream f))) = s.emit (.ctrlRecv (.rstStream f)) := by
      split
      · exact closePushedStreams_eq (s := s.emit (.ctrlRecv (.rstStream f))) h _ _
      · rfl
    rw [hsame,getStream_closeStream,if_neg hid.symm]
    rfl

theorem receivedRst_other {P : Platform} {u : Setup} {s : Session} (h : Reachable P u s) {input : Bytes}
    {f : RstStream} (hf : receivedRst P s input = some f) {id : Int} (hid : id ≠ f.streamId) :
    (s.recvIter P input).1.getStream id = s.getStream id := by
  unfold receivedRst at hf
  split at hf
  · rename_i t ht
    obtain ⟨-,-,htype,fr,z,m,hread⟩ := ctrlFrameEnd_spec ht
    have hunpack : frameUnpackRstStream t.iframe.headbuf t.iframe.buf t.iframe.buflen = .ok f := by
      cases hu : frameUnpackRstStream t.iframe.headbuf t.iframe.buf t.iframe.buflen with
      | ok f' =>
        rw [hu] at hf
        cases hf
        rfl
      | error e =>
        rw [hu] at hf
        cases hf
    have hdispatch : t.dispatchCtrlFrame P = t.onRstStreamReceived f := by
      unfold dispatchCtrlFrame
      dsimp only
      rw [htype,hunpack]
      rfl
    have hpush : ∀ id st, t.getStream id = some st → st.pushedStreams = [] := by
      rw [hread]
      exact fun id st hst => pushedStreams_eq_nil h hst
    have hother := onRstStreamReceived_other hpush f hid
    have hsame : t.getStream id = s.getStream id := by
      rw [hread]
      rfl
    rcases recvIter_ctrlFrameEnd ht with hr | hr
    · rw [hr,hdispatch,hother,hsame]
    · rw [hr,hdispatch]
      exact hother.trans hsame
  · cases hf

theorem afterRstStreamSent_other {s : Session} (h : ∀ id st, s.getStream id = some st → st.pushedStreams = [])
    (f : RstStream) {id : Int} (hid : id ≠ f.streamId) : (s.afterRstStreamSent f).getStream id = s.getStream id := by
  unfold afterRstStreamSent
  rw [closePushedStreams_eq h,ite_self]
  dsimp only
  rw [getStream_closeStream,if_neg hid.symm]

theorem afterFrameSent_rst_other {s : Session} (h : ∀ id st, s.getStream id = some st → st.pushedStreams = [])
    {item : OutboundItem} {f : RstStream} (ha : s.aob.item = some item) (hf : item.frame = .ctrl (.rstStream f))
    {id : Int} (hid : id ≠ f.streamId) : s.afterFrameSent.1.getStream id = s.getStream id := by
  have hreset : ∀ (s' : Session) (cause : Finish), (s'.activeReset cause).getStream id = s'.getStream id := by
    intro s' cause
    unfold activeReset
    cases s'.aob.item <;> rfl
  unfold afterFrameSent
  rw [ha]
  dsimp only
  rw [hf]
  dsimp only
  unfold afterCtrlSent
  dsimp only
  rw [hreset,afterRstStreamSent_other (s := s.emit (.ctrlSend (.rstStream f))) h f hid]
  rfl

theorem sentRst_other {P : Platform} {u : Setup} {s : Session} (h : Reachable P u s) {item : OutboundItem}
    {f : RstStream} (ha : s.aob.item = some item) (hf : sentRst s = some f) {id : Int} (hid : id ≠ f.streamId) :
    (s.sendWrite item).1.getStream id = s.getStream id := by
  unfold sentRst at hf
  rw [ha] at hf
  split at hf
  · rename_i f' aux pri seq n hitem hanswer
    cases hitem
    split at hf
    · rename_i hend
      cases hf
      unfold sendWrite
      dsimp only
      rw [hanswer]
      let s0 : Session := {s with host := {s.host with sends := s.host.sends.tail}}
      let k := min n (s.aob.framebuf.length-s.aob.framebufoff)
      let s1 : Session := {s0.emit (.sent ((s.aob.framebuf.drop s.aob.framebufoff).take k)) with
        aob := {s.aob with framebufoff := s.aob.framebufoff+k}}
      have hother : s1.afterFrameSent.1.getStream id = s1.getStream id :=
        afterFrameSent_rst_other (s := s1) (fun id st hst => pushedStreams_eq_nil h hst) ha rfl hid
      have hsend : (s0.sendAccepted ⟨.ctrl (.rstStream f),aux,pri,seq⟩ n).1 = s1.afterFrameSent.1 := by
        unfold sendAccepted
        change (if s1.aob.framebufoff = s1.aob.framebuf.length then _ else _ : Session × Option (Option Err)).1 = _
        rw [if_pos (show s1.aob.framebufoff = s1.aob.framebuf.length from hend)]
        dsimp only
        split <;> rfl
      rw [hsend,hother]
      rfl
    · cases hf
  · cases hf

/-- When a request is cancelled, the streams pushed with it are closed after the pass
exactly if none of them was open before: the cancellation closes no pushed stream. -/
theorem cancel_closes_pushes_iff {P : Platform} {u : Setup} {s : Session} (h : Reachable P u s) :
    (∀ input f, s.server = true → receivedRst P s input = some f → f.statusCode = cancel →
      s.isMyStreamId f.streamId = false →
      (PushesClosed s (s.recvIter P input).1 f.streamId ↔ PushesClosed s s f.streamId)) ∧
    (∀ item f, s.server = false → s.aob.item = some item → sentRst s = some f → f.statusCode = cancel →
      s.isMyStreamId f.streamId = true →
      (PushesClosed s (s.sendWrite item).1 f.streamId ↔ PushesClosed s s f.streamId)) := by
  constructor
  · intro input f hs hf _ hid
    refine pushesClosed_iff h ?_ (fun id hne => receivedRst_other h hf hne)
    rw [hid,hs]
    exact Bool.false_ne_true
  · intro item f hs ha hf _ hid
    refine pushesClosed_iff h ?_ (fun id hne => sentRst_other h ha hf hne)
    rw [hid,hs]
    exact Bool.false_ne_true.symm

/-- RST_STREAM with CANCEL for stream 1. -/
def cancelRequest : Bytes := [128,3,0,3,0,0,0,8,0,0,0,1,0,0,0,5]

/-- A server that has a request and goes on with these calls. -/
def requestedServer (ops : List Op) : Session :=
  ((sampleServer [.accept 1000] []).start peerPlatform).run peerPlatform (.memRecv (firstRequest 1 1) :: ops)

/-- A server that pushes a stream with its request. -/
def pushingServer : Session := requestedServer [.submitServerPush 1 [] none,.send]

theorem cancelled_push_stays_open :
    pushingServer.server = true ∧
    receivedRst peerPlatform pushingServer cancelRequest = some ⟨⟨3,0,8⟩,1,cancel⟩ ∧
    pushingServer.isMyStreamId 1 = false ∧
    ¬PushesClosed pushingServer (pushingServer.recvIter peerPlatform cancelRequest).1 1 := by
  refine ⟨by decide +kernel,by decide +kernel,by decide +kernel,?_⟩
  intro h
  have hpushed : Pushed pushingServer 2 1 := by
    refine ⟨⟨⟨3,2,26⟩,2,1,3,0,[]⟩,rfl,rfl,?_⟩
    rw [if_pos (by decide +kernel)]
    decide +kernel
  have hopen : ((pushingServer.recvIter peerPlatform cancelRequest).1.getStream 2).isSome = true := by
    decide +kernel
  rw [h 2 hpushed] at hopen
  cases hopen

/-- A SYN_STREAM is about to be sent. -/
def opensStream : Event → Bool
  | .beforeCtrlSend (.synStream _) => true
  | _ => false

/-- Before anything is pushed there is nothing to close. -/
theorem cancel_without_push :
    PushesClosed (requestedServer []) ((requestedServer []).recvIter peerPlatform cancelRequest).1 1 := by
  refine ((cancel_closes_pushes_iff (run_reachable peerPlatform (sampleServer [.accept 1000] []) _)).1 cancelRequest
    ⟨⟨3,0,8⟩,1,cancel⟩ ?_ ?_ rfl ?_).mpr ?_
  · decide +kernel
  · decide +kernel
  · decide +kernel
  · rintro id ⟨f,-,hassoc,hf⟩
    rw [if_pos (by decide +kernel)] at hf
    refine absurd (List.any_eq_true.mpr ⟨_,hf,rfl⟩ : (requestedServer []).host.log.any opensStream = true) ?_
    decide +kernel

end Spdylay.Protocol
