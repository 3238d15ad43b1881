import Spdylay.Machine.FrameEnds
import Spdylay.Protocol.Shutdown

/-! A SYN_STREAM that is answered with RST_STREAM, and what becomes of its id. -/
namespace Spdylay.Protocol
open Library Session Conn

/-! The last id of the peer. -/

theorem Side.last {c c' : Conn} (h : Side c c') :
    c'.lastRecvStreamId = c.lastRecvStreamId ∨ c.NewPeerId c'.lastRecvStreamId := by
  cases h with
  | seePeer id _ hn => exact .inr hn
  | admitStream f _ hn => exact .inr hn
  | admitUnopened f es _ hn => exact .inr hn
  | refuse frame => exact .inl (by simp [Conn.skipSeq])
  | complete item f => exact .inl (by simp)
  | _ => exact .inl rfl

theorem Move.last {c c' : Conn} (h : Move c c') :
    c'.lastRecvStreamId = c.lastRecvStreamId ∨ c.NewPeerId c'.lastRecvStreamId := by
  cases h with
  | side h => exact h.last
  | accept item => exact .inl (by simp)
  | credential syn item f origin => exact .inl (by simp)
  | _ => exact .inl rfl

theorem Step.last {c c' : Conn} (h : Step c c') :
    c'.lastRecvStreamId = c.lastRecvStreamId ∨ c.NewPeerId c'.lastRecvStreamId := by
  cases h with
  | move h => exact h.last
  | chunk => exact .inl rfl

/-- The last id seen is not one of this side. -/
theorem lastRecv_invariant : Invariant (fun c => c.isMine c.lastRecvStreamId = false) where
  start P u := rfl
  step c c' h hl := by
    rw [h.later.isMine]
    rcases h.last with hsame | hnew
    · rw [hsame]
      exact hl
    · exact hnew.2.1

/-! Ids that no stream gets any more. -/

/-- No stream has the id, and none will get it. -/
structure Spent (c : Conn) (id : Int) : Prop where
  ids : Ids c
  closed : c.streams id = none
  never : c.shutDown = true ∨ c.Used id

theorem Spent.step {c c' : Conn} {id : Int} (h : Step c c') (hs : Spent c id) : Spent c' id := by
  refine ⟨hs.ids.step h,?_,hs.never.imp h.later.shutDown h.later.used⟩
  rcases hs.never with hd | hu
  · exact (Steps.after_shutDown (.single h) hd).2.2 id hs.closed
  · exact hs.ids.gone h hu hs.closed

/-- No close of the id is reported. -/
theorem Spent.not_closed {c c' : Conn} {id : Int} (h : Step c c') (hs : Spent c id) :
    ∃ es, c'.log = c.log ++ es ∧ ∀ statusCode, Event.streamClose id statusCode ∉ es := by
  obtain ⟨es,hes,hg⟩ := h.logs
  refine ⟨es,hes,?_⟩
  intro statusCode hmem
  obtain ⟨pre,post,hcut⟩ := List.append_of_mem hmem
  obtain ⟨-,-,hrep⟩ := hg pre _ post hcut
  rcases hrep with hopen | ⟨f,rfl,hf⟩
  · exact hopen hs.closed
  · -- the report of a SYN_STREAM that was accepted in this step
    obtain ⟨pre',post',rfl⟩ := List.append_of_mem hf
    have hm := (hg pre' (.ctrlRecv (.synStream f)) (post' ++ .streamClose f.streamId statusCode :: post)
      (by rw [hcut]; simp)).1
    obtain ⟨hd,hn,-⟩ := hm
    rcases hs.never with hd' | hu
    · rw [hd'] at hd
      cases hd
    · exact newPeerId_fresh hn hu

theorem Spent.steps {c c' : Conn} {id : Int} (h : Steps c c') (hs : Spent c id) : Spent c' id ∧
    ∃ es, c'.log = c.log ++ es ∧ ∀ statusCode, Event.streamClose id statusCode ∉ es := by
  induction h with
  | refl => exact ⟨hs,[],(List.append_nil _).symm,fun _ => List.not_mem_nil⟩
  | tail _ h ih =>
    obtain ⟨hs1,es1,hes1,hn1⟩ := ih
    obtain ⟨es2,hes2,hn2⟩ := hs1.not_closed h
    refine ⟨hs1.step h,es1 ++ es2,by rw [hes2,hes1,List.append_assoc],?_⟩
    intro statusCode hmem
    rcases List.mem_append.mp hmem with hmem | hmem
    · exact hn1 statusCode hmem
    · exact hn2 statusCode hmem

/-! The pass of the receive loop that refuses a SYN_STREAM. -/

/-- The SYN_STREAM whose last byte is read in this pass, and the error of its parsing. -/
def receivedSyn (P : Platform) (s : Session) (input : Bytes) : Option (SynStream × Option Err) :=
  match s.ctrlFrameEnd P input with
  | some (.synStream, t) => some (t.parseSynStream P).2
  | _ => none

/-- An RST_STREAM for the id is queued between the two states. -/
def QueuesRst (s s' : Session) (id : Int) : Prop :=
  ∃ es item f, s'.host.log = s.host.log ++ es ∧ .accepted item ∈ es ∧ item.frame = .ctrl (.rstStream f) ∧
    f.streamId = id

/-- An id that this side has given, or the peer has reached. -/
def takenId (s : Session) (id : Int) : Bool :=
  if s.isMyStreamId id then id < s.nextStreamId else id ≤ s.lastRecvStreamId

theorem takenId_used {s : Session} {id : Int} (h : takenId s id = true) : (conn s none).Used id := by
  unfold takenId at h
  have hmine : (conn s none).isMine id = s.isMyStreamId id := rfl
  unfold Conn.Used
  rw [hmine]
  split at h
  · rename_i hm
    rw [if_pos hm]
    exact of_decide_eq_true h
  · rename_i hm
    rw [if_neg hm]
    exact of_decide_eq_true h

/-- An accepted SYN_STREAM queues nothing. -/
theorem acceptSynStream_log (s : Session) (f : SynStream) :
    ∃ es, (s.acceptSynStream f).host.log = s.host.log ++ es ∧ ∀ item, Event.accepted item ∉ es := by
  have hopen : ∃ es, (s.openReceived f).host.log = s.host.log ++ es ∧ ∀ item, Event.accepted item ∉ es := by
    have hshut : ∀ (s : Session) (b : Bool), (if b then s.shutdownRd f.streamId else s).host.log = s.host.log := by
      intro s b
      cases b <;> rfl
    have hshut' : ∀ (s : Session) (b : Bool), (if b then s.shutdownWr f.streamId else s).host.log = s.host.log := by
      intro s b
      cases b <;> rfl
    unfold openReceived
    split
    · exact ⟨[],(List.append_nil _).symm,fun _ => List.not_mem_nil⟩
    · dsimp only
      rcases conn_openStream s f.streamId f.hd.flags f.pri .opening none with ⟨ho,-,he⟩ | ⟨ho,es,hq,he⟩
      · refine ⟨[],?_,fun _ => List.not_mem_nil⟩
        rw [ho,if_pos rfl,hshut',hshut,List.append_nil]
        exact congrArg Conn.log he
      · refine ⟨es,?_,?_⟩
        · rw [ho,if_neg nofun]
          exact congrArg Conn.log he
        · intro item hitem
          cases hq _ hitem
  obtain ⟨es,hes,hn⟩ := hopen
  unfold acceptSynStream
  dsimp only
  split
  · split
    · refine ⟨es ++ [.ctrlRecv (.synStream f),.requestRecv f.streamId,.streamClose f.streamId statusOk],?_,?_⟩
      · simp [emit,hes]
      · simp [hn]
    · refine ⟨es ++ [.ctrlRecv (.synStream f),.requestRecv f.streamId],?_,?_⟩
      · simp [emit,hes]
      · simp [hn]
  · refine ⟨es ++ [.ctrlRecv (.synStream f)],?_,?_⟩
    · simp [emit,hes]
    · simp [hn]

/-- A SYN_STREAM without a parse error that is refused leaves its id spent. -/
theorem onSynStreamReceived_spent {s : Session} {f : SynStream} (hi : Ids (conn s none))
    (hlast : (conn s none).isMine s.lastRecvStreamId = false) (hnone : s.getStream f.streamId = none)
    (hq : QueuesRst s (s.onSynStreamReceived f).1 f.streamId) : Spent (conn (s.onSynStreamReceived f).1 none) f.streamId := by
  have hclosed := conn_find_none none hnone
  have hmoves := onSynStreamReceived_moves s f
  unfold onSynStreamReceived at hq hmoves ⊢
  split at hq
  · rename_i hg
    rw [if_pos hg]
    exact ⟨hi,hclosed,.inl hg⟩
  rename_i hg
  rw [if_neg hg] at hmoves ⊢
  split at hq
  · rename_i heq
    rw [if_pos heq] at hmoves ⊢
    have hused : (conn s none).Used f.streamId := by
      unfold Conn.Used
      rw [← heq,hlast]
      exact le_rfl
    exact (Spent.steps hmoves.steps ⟨hi,hclosed,.inr hused⟩).1
  rename_i heq
  rw [if_neg heq] at hmoves ⊢
  split at hq
  · rename_i hnew
    rw [if_pos hnew]
    let s1 : Session := {s.emit (.invalidCtrlRecv (.synStream f) protocolError) with goawayFailOnSend := true}
    have hdown : (conn s1 none).shutDown = true := Bool.or_true _
    have hs1 : Spent (conn s1 none) f.streamId := ⟨⟨hi.next,hi.parity,hi.used⟩,hclosed,.inl hdown⟩
    exact (Spent.steps (submitGoaway_moves s1 goawayProtocolError none).steps hs1).1
  rename_i hnew
  rw [if_neg hnew]
  dsimp only at hq ⊢
  have hpeer := conn_newPeerId (by simpa using hnew : s.isNewPeerStreamId f.streamId = true)
  split at hq
  · -- an accepted SYN_STREAM is not answered
    obtain ⟨es,item,g,hes,hitem,-⟩ := hq
    obtain ⟨es',hes',hn⟩ := acceptSynStream_log {s with lastRecvStreamId := f.streamId} f
    have heq' : es = es' := List.append_cancel_left (hes.symm.trans hes')
    rw [heq'] at hitem
    exact absurd hitem (hn item)
  · rename_i hstatus
    rw [if_neg hstatus]
    let s1 : Session := {s with lastRecvStreamId := f.streamId}
    have hlater : Later (conn s none) (conn s1 none) :=
      ⟨rfl,le_rfl,rfl,hpeer.2.2.le,fun h => h,fun h => h,fun h => h⟩
    have hused : (conn s1 none).Used f.streamId := by
      unfold Conn.Used
      rw [hlater.isMine,hpeer.2.1]
      exact le_rfl
    have hs1 : Spent (conn s1 none) f.streamId :=
      ⟨⟨hi.next,hi.parity,fun id l hl => hlater.used (hi.used id l hl)⟩,hclosed,.inr hused⟩
    exact (Spent.steps (handleInvalidStream_moves s1 _ _ _).steps hs1).1

theorem parseSynStream_fst (P : Platform) (s : Session) : ∃ m, (s.parseSynStream P).1 = s.setMem m := by
  unfold parseSynStream
  dsimp only
  split
  · exact ⟨_,rfl⟩
  · exact ⟨s.host.mem,rfl⟩
  · exact ⟨s.host.mem,rfl⟩

theorem processed_spent {P : Platform} {u : Setup} {s t : Session} (h : Reachable P u s) {input : Bytes}
    (ht : s.ctrlFrameEnd P input = some (.synStream,t)) (he : (t.parseSynStream P).2.2 = none)
    (hnone : s.getStream (t.parseSynStream P).2.1.streamId = none)
    (hq : QueuesRst s (s.recvIter P input).1 (t.parseSynStream P).2.1.streamId) :
    Spent (conn (s.recvIter P input).1 none) (t.parseSynStream P).2.1.streamId := by
  obtain ⟨-,-,htype,fr,z,m,hread⟩ := ctrlFrameEnd_spec ht
  obtain ⟨m',hm'⟩ := parseSynStream_fst P t
  generalize hparse : t.parseSynStream P = p at he hnone hq hm' ⊢
  let f : SynStream := {p.2.1 with nv := t.receivedNv p.2.1.nv}
  have hdispatch : t.dispatchCtrlFrame P = p.1.onSynStreamReceived f := by
    unfold dispatchCtrlFrame
    dsimp only
    rw [htype]
    dsimp only
    unfold processSynStream
    rw [hparse]
    dsimp only
    rw [he]
  have hp : p.1 = {s with iframe := fr, hdInflater := z, host := {s.host with mem := m'}} := by
    rw [hm',hread]
    rfl
  have hids : Ids (conn p.1 none) := by
    have hi := ids_invariant.reachable h
    rw [hp]
    exact ⟨hi.next,hi.parity,hi.used⟩
  have hpeer := lastRecv_invariant.reachable h
  have hlast : (conn p.1 none).isMine p.1.lastRecvStreamId = false := by
    rw [hp]
    exact hpeer
  have hfree : p.1.getStream f.streamId = none := by
    rw [hp]
    exact hnone
  have hlog : p.1.host.log = s.host.log := by rw [hp]
  obtain ⟨es,item,g,hes,hitem,hg,hid⟩ := hq
  rcases recvIter_ctrlFrameEnd ht with hr | hr
  · rw [hr,hdispatch] at hes ⊢
    refine onSynStreamReceived_spent (f := f) hids hlast hfree ⟨es,item,g,?_,hitem,hg,hid⟩
    rw [hlog]
    exact hes
  · rw [hr,hdispatch] at hes ⊢
    generalize hon : (p.1.onSynStreamReceived f).1 = r at hes ⊢
    have hgrow : (conn p.1 none).log <+: (conn r none).log := by
      rw [← hon]
      exact Steps.log_grows (onSynStreamReceived_moves p.1 f).steps
    obtain ⟨es',hes'⟩ := hgrow
    have hlogr : r.host.log = s.host.log ++ es' := by
      rw [← hlog]
      exact hes'.symm
    have hsame : es = es' ++ [.frameDone] := by
      have hlog' : (r.host.log ++ [Event.frameDone]) = s.host.log ++ es := hes
      rw [hlogr,List.append_assoc] at hlog'
      exact (List.append_cancel_left hlog').symm
    have hitem' : .accepted item ∈ es' := by
      rw [hsame] at hitem
      simpa using hitem
    have hspent : Spent (conn r none) f.streamId := by
      rw [← hon]
      refine onSynStreamReceived_spent (f := f) hids hlast hfree ⟨es',item,g,?_,hitem',hg,hid⟩
      rw [hon,hlogr,hlog]
    exact (hspent.step (.move (.side (.read _ r.iframe.reset)))).step (.move (.side (.note _ .frameDone rfl)))

/-- In every session that can come about: when a SYN_STREAM with an id of no open stream
is answered with RST_STREAM, and it was parsed without an error, or a GOAWAY has been
sent or received or the session has failed, or the id was taken before, then no stream
with this id is opened in any later state, and so the RST_STREAM closes none. -/
theorem refused_id_stays_closed {P : Platform} {u : Setup} {s : Session} (h : Reachable P u s) {input : Bytes}
    {f : SynStream} {e : Option Err} (hf : receivedSyn P s input = some (f,e)) (hnone : s.getStream f.streamId = none)
    (hq : QueuesRst s (s.recvIter P input).1 f.streamId)
    (hcond : e = none ∨ s.goawayFlags = true ∨ takenId s f.streamId = true) :
    ∀ s', Turns P (s.recvIter P input).1 s' → s'.getStream f.streamId = none ∧
      ∃ es, s'.host.log = (s.recvIter P input).1.host.log ++ es ∧
        ∀ statusCode, Event.streamClose f.streamId statusCode ∉ es := by
  have hi := ids_invariant.reachable h
  have hclosed := conn_find_none none hnone
  have hturn := turn_steps (Turn.recv (P := P) s input)
  suffices hs : Spent (conn (s.recvIter P input).1 none) f.streamId by
    intro s' ht
    obtain ⟨hs',es,hes,hn⟩ := hs.steps (turns_steps ht)
    exact ⟨Option.map_eq_none_iff.mp hs'.closed,es,hes,hn⟩
  rcases hcond with rfl | hdown | htaken
  · unfold receivedSyn at hf
    split at hf
    · rename_i t ht
      have hp := Option.some.inj hf
      have h1 : (t.parseSynStream P).2.1 = f := congrArg Prod.fst hp
      have h2 : (t.parseSynStream P).2.2 = none := congrArg Prod.snd hp
      rw [← h1] at hnone hq ⊢
      exact processed_spent h ht h2 hnone hq
    · cases hf
  · exact (Spent.steps hturn ⟨hi,hclosed,.inl hdown⟩).1
  · exact (Spent.steps hturn ⟨hi,hclosed,.inr (takenId_used htaken)⟩).1

def newServer : Session := (sampleServer [.accept 1000] []).start samplePlatform

/-- A client's SYN_STREAM with an associated stream. -/
def associatedRequest : Bytes := [128,3,0,1,1,0,0,21,0,0,0,1,0,0,0,1,0,0,120,1,0,4,0,251,255,0,0,0,0]

theorem associated_request_stays_closed :
    receivedSyn samplePlatform newServer associatedRequest = some (⟨⟨3,1,21⟩,1,1,0,0,[]⟩,none) ∧
    (newServer.recvIter samplePlatform associatedRequest).1.getStream 1 = none := by
  have hf : receivedSyn samplePlatform newServer associatedRequest = some (⟨⟨3,1,21⟩,1,1,0,0,[]⟩,none) := by
    decide +kernel
  have hq : QueuesRst newServer (newServer.recvIter samplePlatform associatedRequest).1 1 := by
    refine ⟨[.accepted ⟨.ctrl (.rstStream ⟨⟨3,0,8⟩,1,protocolError⟩),none,7,0⟩,
      .invalidCtrlRecv (.synStream ⟨⟨3,1,21⟩,1,1,0,0,[]⟩) protocolError,.frameDone],_,_,?_,.head _,rfl,rfl⟩
    decide +kernel
  exact ⟨hf,(refused_id_stays_closed (u := sampleServer [.accept 1000] []) .refl hf (by decide +kernel) hq (.inl rfl)
    _ .refl).1⟩

/-! A stored block of eighteen bytes, spread over two SYN_STREAMs of stream 1. -/

/-- The list of the first has a name in upper case. -/
def badRequest : Bytes := [128,3,0,1,1,0,0,31,0,0,0,1,0,0,0,0,0,0,120,1,0,18,0,237,255,
  0,0,0,1,0,0,0,1,65,0,0,0,1,98]

/-- The list of the second is empty. -/
def goodRequest : Bytes := [128,3,0,1,1,0,0,14,0,0,0,1,0,0,0,0,0,0,0,0,0,0]

/-- The first is refused, and the second opens the stream. -/
theorem refused_id_is_opened :
    (receivedSyn samplePlatform newServer badRequest).map (fun r => (r.1.streamId,r.2)) =
      some (1,some .invalidHeaderBlock) ∧
    newServer.getStream 1 = none ∧ QueuesRst newServer (newServer.recvIter samplePlatform badRequest).1 1 ∧
    ∃ s', Turns samplePlatform (newServer.recvIter samplePlatform badRequest).1 s' ∧ s'.getStream 1 ≠ none := by
  refine ⟨by decide +kernel,by decide +kernel,?_,?_⟩
  · refine ⟨[.accepted ⟨.ctrl (.rstStream ⟨⟨3,0,8⟩,1,protocolError⟩),none,7,0⟩,
      .invalidCtrlRecv (.synStream ⟨⟨3,1,31⟩,1,0,0,0,[([65],[98])]⟩) protocolError,.frameDone],_,_,?_,.head _,rfl,rfl⟩
    decide +kernel
  · refine ⟨_,.single (.recv _ goodRequest),?_⟩
    decide +kernel

end Spdylay.Protocol
