import Spdylay.Machine.StreamCounters
import Spdylay.Machine.Turns
import Spdylay.Protocol.Shutdown

/-! The ids that a session gives to its own streams. -/
namespace Spdylay.Protocol
open Library Session Conn

/-- The id of a SYN_STREAM that is begun. -/
def beginsId : Event → Option Int
  | .beforeCtrlSend (.synStream f) => some f.streamId
  | _ => none

/-- The ids of the SYN_STREAMs begun so far, in their order. -/
def synStreamIds (log : List Event) : List Int := log.filterMap beginsId

theorem synStream_of_beginsId {e : Event} {id : Int} (h : beginsId e = some id) :
    ∃ f : SynStream, e = .beforeCtrlSend (.synStream f) ∧ f.streamId = id := by
  cases e with
  | beforeCtrlSend f =>
    cases f with
    | synStream f =>
      cases h
      exact ⟨f,rfl,rfl⟩
    | _ => cases h
  | _ => cases h

theorem Side.next {c c' : Conn} (h : Side c c') :
    c'.nextStreamId = c.nextStreamId ∨ ((c.nextStreamId : Int) ≤ int32Max ∧ c'.nextStreamId = c.nextStreamId+2) := by
  cases h with
  | takeId hn => exact .inr ⟨hn,rfl⟩
  | refuse frame => exact .inl (by simp [Conn.skipSeq])
  | complete item f => exact .inl (by simp)
  | _ => exact .inl rfl

theorem Move.next {c c' : Conn} (h : Move c c') :
    c'.nextStreamId = c.nextStreamId ∨ ((c.nextStreamId : Int) ≤ int32Max ∧ c'.nextStreamId = c.nextStreamId+2) := by
  cases h with
  | side h => exact h.next
  | startOwn item f bytes h1 h2 h3 h4 h5 h6 hn => exact .inr ⟨hn,rfl⟩
  | accept item => exact .inl (by simp)
  | credential syn item f origin => exact .inl (by simp)
  | _ => exact .inl rfl

/-- An id is taken only while there is one left. -/
theorem Step.next {c c' : Conn} (h : Step c c') :
    c'.nextStreamId = c.nextStreamId ∨ ((c.nextStreamId : Int) ≤ int32Max ∧ c'.nextStreamId = c.nextStreamId+2) := by
  cases h with
  | move h => exact h.next
  | chunk => exact .inl rfl

/-- The ids given so far are of this side, they grow, and the counter has not run away. -/
structure Assigned (c : Conn) : Prop where
  bound : (c.nextStreamId : Int) ≤ int32Max+2
  increasing : Guarded (fun pre e => ∀ id, beginsId e = some id → (1 ≤ id ∧ id ≤ int32Max) ∧
    ∀ x ∈ pre, ∀ k, beginsId x = some k → k < id) c.log

theorem Assigned.step_bound {c c' : Conn} (ha : Assigned c) (h : Step c c') : (c'.nextStreamId : Int) ≤ int32Max+2 := by
  rcases h.next with hn | ⟨hle,hn⟩
  · rw [hn]
    exact ha.bound
  · rw [hn]
    push_cast
    omega

theorem Assigned.step_increasing {c c' : Conn} (hr : Records c) (ha : Assigned c) (h : Step c c') :
    Guarded (fun pre e => ∀ id, beginsId e = some id → (1 ≤ id ∧ id ≤ int32Max) ∧
      ∀ x ∈ pre, ∀ k, beginsId x = some k → k < id) c'.log := by
  refine h.guarded ha.increasing ?_
  intro e es hm hahead _ id hid
  obtain ⟨f,rfl,rfl⟩ := synStream_of_beginsId hid
  obtain ⟨-,-,hnext,hnext',-,-⟩ := hm
  have hpos := hr.ids.next
  have hle : (c.nextStreamId : Int) ≤ int32Max := by
    rcases h.next with hn | ⟨hle,-⟩
    · omega
    · exact hle
  refine ⟨⟨by omega,by omega⟩,?_⟩
  intro x hx k hk
  obtain ⟨g,rfl,rfl⟩ := synStream_of_beginsId hk
  have hx' := mem_of_dull (fun y hy => dull_of_ahead rfl (hahead y hy)) hx rfl
  obtain ⟨hmine,hused⟩ := hr.begun _ hx'
  unfold Conn.Used at hused
  rw [hmine,if_pos rfl] at hused
  omega

theorem assigned_invariant : Invariant (fun c => Records c ∧ Assigned c) := by
  refine records_invariant.with ?_ ?_
  · intro P u
    refine ⟨?_,guarded_nil⟩
    unfold initialConn
    dsimp only
    split <;> decide
  · intro c c' h hr _ ha
    exact ⟨ha.step_bound h,ha.step_increasing hr h⟩

/-- Without an id left none is taken any more. -/
theorem Steps.exhausted {c c' : Conn} (h : Steps c c') (hn : int32Max < c.nextStreamId) :
    c'.nextStreamId = c.nextStreamId ∧ synStreamIds c'.log = synStreamIds c.log := by
  refine keeps_of_steps (I := fun c' => c'.nextStreamId = c.nextStreamId ∧
    synStreamIds c'.log = synStreamIds c.log) ?_ h ⟨rfl,rfl⟩
  rintro c1 c2 h12 ⟨hn1,hlog1⟩
  have hsame : c2.nextStreamId = c1.nextStreamId := by
    rcases h12.next with hsame | ⟨hle,-⟩
    · exact hsame
    · rw [hn1] at hle
      omega
  refine ⟨hsame.trans hn1,?_⟩
  obtain ⟨es,hes,hg⟩ := h12.logs
  have hnone : es.filterMap beginsId = [] := by
    refine List.filterMap_eq_nil_iff.mpr ?_
    intro e he
    refine Option.eq_none_iff_forall_ne_some.mpr ?_
    intro id hid
    obtain ⟨f,rfl,-⟩ := synStream_of_beginsId hid
    obtain ⟨pre,post,hcut⟩ := List.append_of_mem he
    obtain ⟨-,-,-,hnext,-,-⟩ := (hg pre _ post hcut).1
    omega
  unfold synStreamIds at hlog1 ⊢
  rw [hes,List.filterMap_append,hnone,List.append_nil,hlog1]

theorem prepFrame_exhausted (P : Platform) {s : Session} (hn : int32Max < s.nextStreamId) {item : OutboundItem}
    {f : SynStream} (hf : item.frame = .ctrl (.synStream f)) :
    prepFrame P s item = ⟨s,item,.error (if s.goawayFlags then .synStreamNotAllowed else .streamIdNotAvailable)⟩ := by
  have hp : s.predicateSynStreamSend f =
      some (if s.goawayFlags then .synStreamNotAllowed else .streamIdNotAvailable) := by
    unfold predicateSynStreamSend
    split
    · rfl
    · rfl
  unfold prepFrame
  rw [hf]
  dsimp only
  unfold prepSynStream
  rw [hp]

/-- In every session that can come about: the ids of the SYN_STREAMs that were begun
grow, have the parity of this side and lie in 1 .. 2^31-1; the next id is below 2^32, so
that its counter has not wrapped, it is not the id of an open stream, and no stream could
not be inserted. When the ids are used up every SYN_STREAM is refused, as not allowed
after a GOAWAY and for want of an id otherwise, and neither the counter nor the ids
change any more. -/
theorem assigned_ids (P : Platform) (u : Setup) (s : Session) (h : Reachable P u s) :
    (synStreamIds s.host.log).Pairwise (· < ·) ∧
    (∀ id ∈ synStreamIds s.host.log, s.isMyStreamId id = true ∧ 1 ≤ id ∧ id ≤ 2^31-1) ∧
    s.nextStreamId < 2^32 ∧ s.getStream s.nextStreamId = none ∧ (∀ id, Event.insertFailed id ∉ s.host.log) ∧
    (int32Max < s.nextStreamId →
      (∀ item f, item.frame = .ctrl (.synStream f) → prepFrame P s item =
        ⟨s,item,.error (if s.goawayFlags then .synStreamNotAllowed else .streamIdNotAvailable)⟩) ∧
      ∀ s', Turns P s s' → s'.nextStreamId = s.nextStreamId ∧ synStreamIds s'.host.log = synStreamIds s.host.log) := by
  obtain ⟨hr,ha⟩ := assigned_invariant.reachable h
  have hfresh : (conn s none).streams s.nextStreamId = none := by
    refine Option.eq_none_iff_forall_ne_some.mpr ?_
    intro l hl
    exact hr.ids.next_fresh (hr.ids.used _ l hl)
  have hbound : (s.nextStreamId : Int) ≤ int32Max+2 := ha.bound
  refine ⟨?_,?_,by simp only [int32Max] at hbound; omega,Option.map_eq_none_iff.mp hfresh,?_,?_⟩
  · exact ha.increasing.pairwise_filterMap (fun pre e hp id hid => (hp id hid).2)
  · intro id hid
    obtain ⟨e,he,hbe⟩ := List.mem_filterMap.mp hid
    obtain ⟨pre,post,hcut⟩ := List.append_of_mem he
    obtain ⟨f,rfl,rfl⟩ := synStream_of_beginsId hbe
    exact ⟨(hr.begun _ he).1,(ha.increasing pre _ post hcut _ rfl).1⟩
  · obtain ⟨g,hc,-⟩ := Machine.counted_invariant.reachable h
    exact hc.inserted
  · intro hn
    refine ⟨fun item f hf => prepFrame_exhausted P hn hf,?_⟩
    intro s' ht
    exact Steps.exhausted (turns_steps ht) (by exact_mod_cast hn)

/-- A client that opens two streams. -/
def twoRequests : Session :=
  ((sampleClient .int32 [.accept 1000,.accept 1000] []).start peerPlatform).run peerPlatform
    [.submitRequest 0 [] none,.submitRequest 0 [] none,.send]

theorem two_requests_have_odd_ids : synStreamIds twoRequests.host.log = [1,3] ∧
    (synStreamIds twoRequests.host.log).Pairwise (· < ·) ∧ twoRequests.getStream twoRequests.nextStreamId = none := by
  have h := assigned_ids peerPlatform _ twoRequests (run_reachable _ _ _)
  exact ⟨by decide +kernel,h.1,h.2.2.2.1⟩

/-! A run that uses up the ids. -/

/-- A client that has given `n` ids, has `k` writes to come and counts `o` streams. -/
structure Steady (s : Session) (n k o : Nat) : Prop where
  server : s.server = false
  version : s.version = .spdy3
  callbacks : s.credentialCallbacks = false
  mem : s.host.mem = []
  sends : s.host.sends = List.replicate k (.accept 1000)
  next : s.nextStreamId = 2*n+1
  counter : s.numOutgoingStreams = o
  remote : s.remoteSettings settingsMaxConcurrentStreams = initialMaxConcurrentStreams
  queue : s.obPq = pqInit
  offset : s.aob.framebufoff = 0
  framebuf : s.aob.framebufmax = initialFramebufLength
  nvbuf : s.nvbuflen = initialNvBufferLength
  blocks : s.hdDeflater = List.replicate n [0,0,0,0]
  goawaySend : s.goawaySend = false
  goawayRecv : s.goawayRecv = false
  goawayFailOnSend : s.goawayFailOnSend = false

theorem malloc_of_nil {s : Session} (h : s.host.mem = []) : s.malloc = s := by
  obtain ⟨⟩ := s
  rename_i host
  obtain ⟨⟩ := host
  cases h
  rfl

theorem mallocOk_of_nil {s : Session} (h : s.host.mem = []) : s.mallocOk = true := by
  unfold mallocOk
  rw [h]
  rfl

/-- An empty list for a stream that is shut for both sides at once. -/
def shortFrame : SynStream := ⟨⟨3,3,0⟩,0,0,0,0,[]⟩

def shortItem (s : Session) : OutboundItem := ⟨.ctrl (.synStream shortFrame),none,0,s.nextSeq⟩

/-- The session with this frame queued. -/
def withShort (s : Session) : Session := {s with
  nextSeq := s.nextSeq+1
  obSsPq := ⟨4096,[shortItem s]⟩
  host := {s.host with log := s.host.log ++ [.accepted (shortItem s)]}}

theorem Steady.submit {s : Session} {n k : Nat} (h : Steady s n k 0) (hq : s.obSsPq = pqInit) :
    s.submitSynStream peerPlatform 3 0 0 [] = (withShort s,none) := by
  have hnv : frameNvNormCopy peerPlatform.qsort [] = [] := by decide +kernel
  have hmal : mallocs 3 s = (s,true) := by
    simp [mallocs,mallocOk,malloc_of_nil h.mem,h.mem]
  have hcall : s.submitSynStream peerPlatform 3 0 0 [] = s.addFrame (.ctrl (.synStream shortFrame)) none := by
    unfold submitSynStream submitSynStreamShared
    rw [if_neg (Nat.not_lt_zero _),if_neg (by simp),if_neg (by simp [frameNvCheckNull]),hnv]
    simp only [Option.isSome_none,Bool.false_eq_true,if_false,hmal,if_true,h.server,h.version]
    rfl
  have hpush : ∀ m : Mem, pqPush m pqInit (shortItem s) = (m,some ⟨4096,[shortItem s]⟩) := fun _ => rfl
  have hitem : s.newItem (.ctrl (.synStream shortFrame)) none = shortItem s := rfl
  have hsyn : (shortItem s).isSynStream = true := rfl
  rw [hcall,addFrame,if_pos (mallocOk_of_nil h.mem),malloc_of_nil h.mem]
  dsimp only
  rw [hitem]
  unfold pushItem
  rw [if_pos hsyn]
  unfold Session.pushObSs markClosing setMem
  dsimp only
  rw [hq,hpush]
  rfl

theorem pack_empty {s : Session} {n : Nat} (h1 : s.nvbuflen = initialNvBufferLength)
    (h2 : s.aob.framebufmax = initialFramebufLength) (h3 : s.hdDeflater = List.replicate n [0,0,0,0]) :
    ∃ out : Bytes, out.length ≤ 16 ∧ s.frameAllocPackNv peerPlatform [] 18 4 =
      ({s with hdDeflater := List.replicate (n+1) [0,0,0,0]},.ok out) := by
  have hspace : frameCountNvSpace [] 4 = 4 := rfl
  have hblock : (framePackNv [] 4).take 4 = [0,0,0,0] := rfl
  have hnv : s.reserveNvbuf 4 = (s,none) := by
    unfold reserveNvbuf
    rw [h1]
    rfl
  have hbound : peerPlatform.deflateBound (List.replicate n [0,0,0,0]) 4 = 21 := rfl
  have hfb : s.reserveFramebuf 39 = (s,none) := by
    unfold reserveFramebuf
    rw [h2]
    rfl
  have hdef : ∃ out, peerPlatform.deflate (List.replicate n [0,0,0,0]) [0,0,0,0] = some out ∧ out.length ≤ 16 := by
    cases n with
    | zero => exact ⟨_,rfl,by decide⟩
    | succ n => exact ⟨[2,1,0,0,0,0,255,255],by simp [peerPlatform],by decide⟩
  obtain ⟨out,hout,hlen⟩ := hdef
  refine ⟨out,hlen,?_⟩
  unfold frameAllocPackNv
  dsimp only
  rw [hspace,hnv,h3,hbound,hblock]
  dsimp only
  rw [hfb]
  simp only [Option.isSome_none,Bool.false_eq_true,if_false,hout,← List.replicate_succ']
  rw [if_neg]
  simp only [lengthMask,headLen]
  omega


theorem isMyStreamId_odd {s : Session} (h : s.server = false) (i : Nat) : s.isMyStreamId (2*i+1 : Nat) = true := by
  have htmod : ((2*i+1 : Nat) : Int).tmod 2 = ((2*i+1) % 2 : Nat) := rfl
  have hodd : (2*i+1) % 2 = 1 := by omega
  unfold isMyStreamId
  rw [if_neg (by omega),h,htmod,hodd]
  rfl

/-- The stream of the frame is open, and the frame ready. -/
structure Prepared (p : Prep) (s : Session) (n k : Nat) : Prop where
  steady : Steady p.ses (n+1) k 1
  syn : p.ses.obSsPq = s.obSsPq
  active : p.ses.aob.item = none
  result : ∃ bytes : Bytes, p.result = .ok bytes ∧ bytes.length ≤ 1000
  item : ∃ f : SynStream, p.item.frame = .ctrl (.synStream f) ∧ f.hd.flags = 3 ∧ f.streamId = (2*n+1 : Nat)
  aux : p.item.aux = none
  opened : ∃ st, p.ses.getStream (2*n+1 : Nat) = some st

theorem open_own {s : Session} {id : Int} (hm : s.host.mem = []) (hmine : s.isMyStreamId id = true)
    (hs : s.getStream id = none) (flags pri : Nat) (state : StreamState) :
    ∃ streams st, s.openStream id flags pri state =
      ({s with streams := streams, numOutgoingStreams := s.numOutgoingStreams+1},true) ∧ streams.find id = some st := by
  obtain ⟨streams,hins,-⟩ := OrderedTable.insert_fresh (t := s.streams) (x := streamInit id flags pri state
    (s.windowArith.store (toInt32 (s.remoteSettings settingsInitialWindowSize)))) hs
  refine ⟨streams,_,?_,(OrderedTable.find_insert hins id).trans (if_pos rfl)⟩
  unfold openStream
  rw [if_pos (mallocOk_of_nil hm),malloc_of_nil hm]
  dsimp only
  rw [hins]
  dsimp only
  have hmine' : ({s with streams := streams}).isMyStreamId id = true := hmine
  rw [countOpened,if_pos hmine']

theorem Steady.prep {s : Session} {n k : Nat} (h : Steady s n k 0) (hn : n < 2^30) (ha : s.aob.item = none)
    (hs : s.getStream s.nextStreamId = none) (item : OutboundItem) (hf : item.frame = .ctrl (.synStream shortFrame))
    (haux : item.aux = none) : Prepared (prepFrame peerPlatform s item) s n k := by
  have hpred : s.predicateSynStreamSend shortFrame = none := by
    unfold predicateSynStreamSend goawayFlags
    rw [h.goawaySend,h.goawayRecv,h.goawayFailOnSend,h.next,if_neg (by simp),if_neg (by simp only [int32Max]; omega)]
    rfl
  have hprep : prepFrame peerPlatform s item = prepSynStreamPack peerPlatform s item shortFrame := by
    unfold prepFrame
    rw [hf]
    dsimp only
    unfold prepSynStream
    rw [hpred]
    dsimp only
    rw [h.callbacks]
    simp
  obtain ⟨out,hlen,hpack⟩ := pack_empty (s := {s with nextStreamId := s.nextStreamId+2}) h.nvbuf h.framebuf h.blocks
  have hwire : s.wireNv peerPlatform shortFrame.nv = [] := by
    unfold wireNv
    rw [h.version]
    rfl
  have hlen4 : frameGetLenSize shortFrame.hd.version = 4 := rfl
  have hmine : s.isMyStreamId s.nextStreamId = true := by
    rw [h.next]
    exact isMyStreamId_odd h.server n
  let s1 : Session := {s with nextStreamId := s.nextStreamId+2, hdDeflater := List.replicate (n+1) [0,0,0,0]}
  obtain ⟨streams,st,hopen,hfind⟩ := open_own (s := s1) h.mem hmine hs shortFrame.hd.flags shortFrame.pri .initial
  rw [hprep,prepSynStreamPack]
  dsimp only
  rw [hwire,hlen4,if_neg (by decide),show synStreamNvOffset = 18 from rfl,hpack]
  dsimp only
  rw [hopen,if_pos rfl]
  refine ⟨⟨h.server,h.version,h.callbacks,h.mem,h.sends,?_,?_,h.remote,h.queue,h.offset,h.framebuf,h.nvbuf,rfl,
    h.goawaySend,h.goawayRecv,h.goawayFailOnSend⟩,rfl,ha,⟨_,rfl,?_⟩,⟨_,rfl,rfl,?_⟩,haux,⟨st,?_⟩⟩
  · exact congrArg (·+2) h.next
  · exact congrArg (·+1) h.counter
  · simp [framePackSynStream,framePackCtrlHd,putUint32be,putUint16be]
    omega
  · exact congrArg Int.ofNat h.next
  · rw [← h.next]
    exact hfind

theorem closeStream_own {s : Session} {id : Int} {st : Stream} (hmine : s.isMyStreamId id = true)
    (hs : s.getStream id = some st) (statusCode : Nat) : ∃ streams log, s.closeStream id statusCode =
      ({s with
        streams := streams
        numOutgoingStreams := s.numOutgoingStreams-1
        host := {s.host with log := log}},none) := by
  have hclosed : ∀ t : Session, t.isMyStreamId id = true →
      t.countClosed id = {t with numOutgoingStreams := t.numOutgoingStreams-1} := by
    intro t ht
    rw [countClosed,if_pos ht]
  have hfree : ∀ t : Session, ∃ log, t.freeDeferred st = {t with host := {t.host with log := log}} := by
    intro t
    unfold freeDeferred
    cases st.deferredData with
    | none => exact ⟨_,rfl⟩
    | some item => exact ⟨_,rfl⟩
  have hemit : ∃ log, (if st.state ≠ .initial then s.emit (.streamClose id statusCode) else s) =
      {s with host := {s.host with log := log}} := by
    split
    · exact ⟨_,rfl⟩
    · exact ⟨_,rfl⟩
  obtain ⟨log,hemit⟩ := hemit
  unfold closeStream
  rw [hs]
  dsimp only
  have hmine' : ({s with host := {s.host with log := log}}).isMyStreamId id = true := hmine
  rw [hemit,hclosed _ hmine']
  obtain ⟨log',hlog'⟩ := hfree {s with
    streams := s.streams.remove id
    numOutgoingStreams := s.numOutgoingStreams-1
    host := {s.host with log := log}}
  exact ⟨_,log',Prod.ext hlog' rfl⟩

theorem afterSynStreamSent_short {s : Session} {item : OutboundItem} {f : SynStream} (hflags : f.hd.flags = 3)
    (hmine : s.isMyStreamId f.streamId = true) (haux : item.aux = none) {st : Stream}
    (hs : s.getStream f.streamId = some st) : ∃ streams log, s.afterSynStreamSent item f =
      ({s with
        streams := streams
        numOutgoingStreams := s.numOutgoingStreams-1
        host := {s.host with log := log}},none) := by
  have hfin : flagFin f.hd.flags = true := by
    rw [hflags]
    rfl
  have huni : flagUnidirectional f.hd.flags = true := by
    rw [hflags]
    rfl
  let t := ((s.setState f.streamId .opening).shutdownWr f.streamId).shutdownRd f.streamId
  obtain ⟨st',hst',hshut⟩ : ∃ st', t.getStream f.streamId = some st' ∧ (st'.shutRd && st'.shutWr) = true := by
    have hfind : s.streams.find f.streamId = some st := hs
    refine ⟨{st with state := .opening, shutWr := true, shutRd := true},?_,rfl⟩
    simp only [t,getStream,setState,shutdownWr,shutdownRd,modifyStream,OrderedTable.find_modify,if_true,hfind,
      Option.map_some]
  obtain ⟨streams,log,hclose⟩ := closeStream_own (s := t) hmine hst' statusOk
  refine ⟨streams,log,?_⟩
  unfold afterSynStreamSent
  rw [hs]
  dsimp only
  rw [hfin,huni,if_pos rfl,if_pos rfl,haux]
  unfold closeStreamIfShutRdwr submitBody
  dsimp only
  have hgot : (((s.setState f.streamId .opening).shutdownWr f.streamId).shutdownRd f.streamId).getStream f.streamId =
      some st' := hst'
  rw [hgot]
  dsimp only
  rw [if_pos hshut,hclose]
  rfl

theorem activeReset_eq (s : Session) (cause : Finish) : ∃ log, s.activeReset cause = {s with
    aob := {s.aob with item := none, framebuf := [], framebufoff := 0}
    host := {s.host with log := log}} := by
  unfold activeReset
  cases s.aob.item with
  | none => exact ⟨_,rfl⟩
  | some item => exact ⟨_,rfl⟩

theorem afterFrameSent_short {s : Session} {item : OutboundItem} {f : SynStream} (ha : s.aob.item = some item)
    (hf : item.frame = .ctrl (.synStream f)) (hflags : f.hd.flags = 3) (hmine : s.isMyStreamId f.streamId = true)
    (haux : item.aux = none) {st : Stream} (hs : s.getStream f.streamId = some st) :
    ∃ streams log, s.afterFrameSent = ({s with
      streams := streams
      numOutgoingStreams := s.numOutgoingStreams-1
      aob := {s.aob with item := none, framebuf := [], framebufoff := 0}
      host := {s.host with log := log}},none) := by
  obtain ⟨streams,log,hsent⟩ :=
    afterSynStreamSent_short (s := s.emit (.ctrlSend (.synStream f))) hflags hmine haux hs
  obtain ⟨log',hreset⟩ := activeReset_eq {s with
    streams := streams
    numOutgoingStreams := s.numOutgoingStreams-1
    host := {s.host with log := log}} .sent
  refine ⟨streams,log',?_⟩
  unfold afterFrameSent
  rw [ha]
  dsimp only
  rw [hf]
  dsimp only [afterCtrlSent]
  rw [hsent]
  exact Prod.ext hreset rfl

/-- The state in which a frame written at once is complete. -/
def writtenAll (s : Session) (sends : List SendAnswer) : Session := {s with
  host := {s.host with
    sends := sends
    log := s.host.log ++ [.sent ((s.aob.framebuf.drop 0).take s.aob.framebuf.length)]}
  aob := {s.aob with framebufoff := s.aob.framebuf.length}}

theorem sendWrite_whole {s t : Session} {item : OutboundItem} {f : Frame} {sends : List SendAnswer}
    (hf : item.frame = .ctrl f) (hsends : s.host.sends = .accept 1000 :: sends) (hoff : s.aob.framebufoff = 0)
    (hlen : s.aob.framebuf.length ≤ 1000) (hsent : (writtenAll s sends).afterFrameSent = (t,none)) :
    s.sendWrite item = (t,none) := by
  have hmin : min 1000 s.aob.framebuf.length = s.aob.framebuf.length := min_eq_right hlen
  unfold sendWrite
  rw [hsends]
  dsimp only [List.headD_cons,List.tail_cons]
  unfold sendAccepted
  dsimp only [emit]
  simp only [hoff,Nat.sub_zero,hmin,Nat.zero_add,debit,hf,if_true]
  unfold writtenAll at hsent
  rw [hsent]

theorem Steady.write {s : Session} {n k : Nat} {item : OutboundItem} {f : SynStream} (h : Steady s n (k+1) 1)
    (ha : s.aob.item = some item) (hf : item.frame = .ctrl (.synStream f)) (hflags : f.hd.flags = 3)
    (hmine : s.isMyStreamId f.streamId = true) (haux : item.aux = none) {st : Stream}
    (hs : s.getStream f.streamId = some st) (hlen : s.aob.framebuf.length ≤ 1000) :
    ∃ t, s.sendWrite item = (t,none) ∧ Steady t n k 0 ∧ t.obSsPq = s.obSsPq ∧ t.aob.item = none := by
  obtain ⟨streams,log,hsent⟩ := afterFrameSent_short (s := writtenAll s (List.replicate k (.accept 1000))) ha hf hflags
    hmine haux hs
  refine ⟨_,sendWrite_whole hf h.sends h.offset hlen hsent,?_,rfl,rfl⟩
  exact ⟨h.server,h.version,h.callbacks,h.mem,rfl,h.next,congrArg (·-1) h.counter,h.remote,h.queue,rfl,h.framebuf,
    h.nvbuf,h.blocks,h.goawaySend,h.goawayRecv,h.goawayFailOnSend⟩

theorem Steady.idle {s : Session} {n k o : Nat} (h : Steady s n k o) (hq : s.obSsPq = pqInit)
    (ha : s.aob.item = none) : sendIter peerPlatform s = (s,some none) := by
  have hpop : s.popNextObItem = none := by
    unfold popNextObItem
    rw [h.queue,hq]
    rfl
  unfold sendIter
  rw [ha,hpop]

theorem Steady.round {s : Session} {n k : Nat} (h : Steady s n (k+1) 0) (hn : n < 2^30) (hq : s.obSsPq = pqInit)
    (ha : s.aob.item = none) (hs : s.getStream s.nextStreamId = none) :
    let t := s.run peerPlatform [.submitSynStream 3 0 0 [],.send]
    Steady t (n+1) k 0 ∧ t.obSsPq = pqInit ∧ t.aob.item = none := by
  let w := withShort s
  have hpop : w.popNextObItem = some (shortItem s,{w with obSsPq := pqInit}) := by
    unfold popNextObItem isOutgoingConcurrentStreamsMax
    rw [show w.obPq = pqInit from h.queue,show w.numOutgoingStreams = 0 from h.counter,
      show w.remoteSettings settingsMaxConcurrentStreams = 250 from h.remote]
    rfl
  have hw : Steady {w with obSsPq := pqInit} n (k+1) 0 :=
    ⟨h.server,h.version,h.callbacks,h.mem,h.sends,h.next,h.counter,h.remote,h.queue,h.offset,h.framebuf,h.nvbuf,
      h.blocks,h.goawaySend,h.goawayRecv,h.goawayFailOnSend⟩
  have hp := hw.prep hn ha hs (shortItem s) rfl rfl
  obtain ⟨bytes,hbytes,hlen⟩ := hp.result
  obtain ⟨f,hf,hflags,hid⟩ := hp.item
  obtain ⟨st,hst⟩ := hp.opened
  generalize hprep : prepFrame peerPlatform {w with obSsPq := pqInit} (shortItem s) = p at hp hbytes hf hst
  have hsteady := hp.steady
  let a : Session := {p.ses with
    aob := {p.ses.aob with item := some p.item, framebuf := bytes}
    host := {p.ses.host with
      log := p.ses.host.log ++ [.prepared p.item.seq bytes] ++ [.beforeCtrlSend (.synStream f)]}}
  have hact : p.ses.activate p.item bytes = a := by
    unfold activate
    rw [hf]
    rfl
  have hsa : Steady a (n+1) (k+1) 1 :=
    ⟨hsteady.server,hsteady.version,hsteady.callbacks,hsteady.mem,hsteady.sends,hsteady.next,hsteady.counter,
      hsteady.remote,hsteady.queue,hsteady.offset,hsteady.framebuf,hsteady.nvbuf,hsteady.blocks,hsteady.goawaySend,
      hsteady.goawayRecv,hsteady.goawayFailOnSend⟩
  have hmine : a.isMyStreamId f.streamId = true := by
    rw [hid]
    exact isMyStreamId_odd hsa.server n
  rw [← hid] at hst
  obtain ⟨t,hwrite,ht,hqt,hat⟩ := hsa.write rfl hf hflags hmine hp.aux hst hlen
  have hq' : t.obSsPq = pqInit := hqt.trans hp.syn
  have hiter : sendIter peerPlatform w = (t,none) := by
    unfold sendIter
    rw [show w.aob.item = none from ha,hpop]
    dsimp only
    rw [hprep,hbytes]
    dsimp only
    rw [hact,hwrite]
  have hsend : w.send peerPlatform = (t,none) := by
    have hfuel : w.sendFuel = w.sendFuel-2+1+1 := by
      unfold sendFuel
      omega
    unfold send
    rw [hfuel,sendLoop,hiter]
    dsimp only
    rw [sendLoop,ht.idle hq' hat]
  have hrun : s.run peerPlatform [.submitSynStream 3 0 0 [],.send] = t := by
    unfold run
    simp only [List.foldl_cons,List.foldl_nil,step,call,h.submit hq]
    rw [hsend]
  dsimp only
  rw [hrun]
  exact ⟨ht,hq',hat⟩

/-- The client's calls for one stream after another. -/
def shortStreams (m : Nat) : List Op := (List.replicate m [Op.submitSynStream 3 0 0 [],.send]).flatten

theorem Steady.rounds {u : Setup} (m : Nat) {s : Session} {n k : Nat} (hr : Reachable peerPlatform u s)
    (h : Steady s n (k+m) 0) (hn : n+m ≤ 2^30) (hq : s.obSsPq = pqInit) (ha : s.aob.item = none) :
    let t := s.run peerPlatform (shortStreams m)
    Steady t (n+m) k 0 ∧ t.obSsPq = pqInit ∧ t.aob.item = none := by
  induction m generalizing s n with
  | zero => exact ⟨h,hq,ha⟩
  | succ m ih =>
    have hfresh := (assigned_ids peerPlatform u s hr).2.2.2.1
    obtain ⟨h1,hq1,ha1⟩ := Steady.round h (by omega) hq ha hfresh
    have hr1 := Relation.ReflTransGen.trans hr (run_turns peerPlatform s [.submitSynStream 3 0 0 [],.send])
    have hrec := ih hr1 h1 (by omega) hq1 ha1
    have hrun : s.run peerPlatform (shortStreams (m+1)) =
        (s.run peerPlatform [.submitSynStream 3 0 0 [],.send]).run peerPlatform (shortStreams m) := by
      unfold shortStreams run
      rw [List.replicate_succ,List.flatten_cons,List.foldl_append]
    rw [hrun,show n+(m+1) = n+1+m by omega]
    exact hrec

theorem Steady.goaway {s : Session} {n k : Nat} (h : Steady s n (k+1) 0) (hq : s.obSsPq = pqInit)
    (ha : s.aob.item = none) : (s.run peerPlatform [.submitGoaway 0,.send]).goawaySend = true := by
  let f : Goaway := frameGoawayInit 3 s.lastRecvStreamId 0
  let item : OutboundItem := ⟨.ctrl (.goaway f),none,7,s.nextSeq⟩
  let w : Session := {s with
    nextSeq := s.nextSeq+1
    obPq := ⟨4096,[item]⟩
    host := {s.host with log := s.host.log ++ [.accepted item]}}
  have hsub : s.submitGoaway 0 = (w,none) := by
    have hitem : s.newItem (.ctrl (.goaway f)) none = item := by
      unfold newItem itemPri getPriLowest
      rw [h.version]
      rfl
    have hpush : ∀ m : Mem, pqPush m pqInit item = (m,some ⟨4096,[item]⟩) := fun _ => rfl
    have hsyn : ¬item.isSynStream = true := by nofun
    unfold submitGoaway addGoaway addCtrl
    rw [if_pos (mallocOk_of_nil h.mem),malloc_of_nil h.mem,addFrame,if_pos (mallocOk_of_nil h.mem),
      malloc_of_nil h.mem,h.version]
    dsimp only
    rw [show s.newItem (.ctrl (.goaway (frameGoawayInit Version.spdy3.num s.lastRecvStreamId 0))) none = item from hitem]
    unfold pushItem
    rw [if_neg hsyn]
    unfold Session.pushOb markClosing setMem
    dsimp only
    rw [h.queue,hpush]
    rfl
  let w1 : Session := {w with obPq := pqInit}
  have hpop : w.popNextObItem = some (item,w1) := by
    have htop : pqTop w.obSsPq = none := congrArg pqTop hq
    unfold popNextObItem
    rw [show pqTop w.obPq = some item from rfl,htop]
    rfl
  let bytes : Bytes := framePackCtrlHd .goaway f.hd ++ putUint32be (toUint32 f.lastGoodStreamId) ++ putUint32be 0
  have hprep : prepFrame peerPlatform w1 item = ⟨w1,item,.ok bytes⟩ := by
    have hgo : prepFrame peerPlatform w1 item =
        if w1.goawaySend then ⟨w1,item,.error .goawayAlreadySent⟩ else w1.prepFixed item bytes := rfl
    have hres : w1.reserveFramebuf bytes.length = (w1,none) := by
      unfold reserveFramebuf
      rw [show w1.aob.framebufmax = initialFramebufLength from h.framebuf]
      rfl
    rw [hgo,show w1.goawaySend = false from h.goawaySend,if_neg (by decide),prepFixed,hres]
  let a := w1.activate item bytes
  let t : Session := (({writtenAll a (List.replicate k (.accept 1000)) with
    goawaySend := true}).emit (.ctrlSend (.goaway f))).activeReset .sent
  have hafter : (writtenAll a (List.replicate k (.accept 1000))).afterFrameSent = (t,none) := rfl
  have hlen : a.aob.framebuf.length = 16 := rfl
  have hwrite : a.sendWrite item = (t,none) :=
    sendWrite_whole (f := .goaway f) rfl h.sends h.offset (by omega) hafter
  have hiter : sendIter peerPlatform w = (t,none) := by
    unfold sendIter
    rw [show w.aob.item = none from ha,hpop]
    dsimp only
    rw [hprep]
    exact hwrite
  have hsend : (w.send peerPlatform).1.goawaySend = true := by
    have hfuel : w.sendFuel = w.sendFuel-1+1 := by
      unfold sendFuel
      omega
    unfold send
    rw [hfuel,sendLoop,hiter]
    exact (Steps.later (turns_steps (sendLoop_turns peerPlatform _ t))).1 rfl
  unfold run
  simp only [List.foldl_cons,List.foldl_nil,step,call,hsub]
  split
  · split
    · exact hsend
    · exact hsend
  · exact hsend

/-- A client that opens streams one after another, closed at once, and then sends a GOAWAY. -/
def busyClient (m : Nat) : Session :=
  ((sampleClient .int32 (List.replicate (1+m) (.accept 1000)) []).start peerPlatform).run peerPlatform
    (shortStreams m ++ [.submitGoaway 0,.send])

theorem busyClient_exhausted {m : Nat} (hm : m ≤ 2^30) (hn : int32Max < (2*m+1 : Nat)) :
    int32Max < (busyClient m).nextStreamId ∧ (busyClient m).goawayFlags = true := by
  let u := sampleClient .int32 (List.replicate (1+m) (.accept 1000)) []
  have h0 : Steady (u.start peerPlatform) 0 (1+m) 0 :=
    ⟨rfl,rfl,rfl,rfl,rfl,rfl,rfl,rfl,rfl,rfl,rfl,rfl,rfl,rfl,rfl,rfl⟩
  obtain ⟨h1,hq1,ha1⟩ := h0.rounds (u := u) m .refl (by omega) rfl rfl
  have hrun : busyClient m = ((u.start peerPlatform).run peerPlatform (shortStreams m)).run peerPlatform
      [.submitGoaway 0,.send] := List.foldl_append
  have hnext : int32Max < ((u.start peerPlatform).run peerPlatform (shortStreams m)).nextStreamId := by
    rw [h1.next,Nat.zero_add]
    exact hn
  have hsame := (Steps.exhausted (turns_steps (run_turns peerPlatform _ [.submitGoaway 0,.send])) hnext).1
  rw [hrun]
  refine ⟨hnext.trans_eq (congrArg Int.ofNat hsame).symm,?_⟩
  rw [goawayFlags,h1.goaway hq1 ha1]
  rfl

/-- After 2^30 streams no id is left, and a SYN_STREAM is refused for the GOAWAY. -/
theorem exhausted_client_refuses_otherwise : int32Max < (busyClient (2^30)).nextStreamId ∧
    (prepFrame peerPlatform (busyClient (2^30)) ⟨.ctrl (.synStream shortFrame),none,0,0⟩).result =
      .error .synStreamNotAllowed := by
  obtain ⟨hn,hflags⟩ := busyClient_exhausted (m := 2^30) le_rfl (by decide)
  refine ⟨hn,?_⟩
  rw [prepFrame_exhausted peerPlatform hn rfl,hflags]
  rfl

end Spdylay.Protocol
