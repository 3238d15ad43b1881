import Spdylay.Protocol.Queueing

/-! What received frames do, as moves of the protocol. -/
namespace Spdylay.Protocol
open Library Session Conn

theorem handleInvalidStream_moves (s : Session) (id : Int) (f : Frame) (statusCode : Nat) :
    Moves (conn s none) (conn (s.handleInvalidStream id f statusCode).1 none) := by
  have ha := addRstStream_moves s id statusCode none
  unfold handleInvalidStream
  dsimp only
  split
  · exact ha
  · exact ha.trans (note_moves _ _ none rfl)

/-! SYN_STREAM. -/

theorem conn_newPeerId {s : Session} {id : Int} (h : s.isNewPeerStreamId id = true) : (conn s none).NewPeerId id := by
  unfold isNewPeerStreamId at h
  unfold NewPeerId Conn.isMine conn
  dsimp only
  split_ifs at h ⊢ with h0 hs
  · have hx := of_decide_eq_true h
    exact ⟨h0,by simp; omega,hx.2⟩
  · have hx := of_decide_eq_true h
    exact ⟨h0,by simp; omega,hx.2⟩

/-- Whether or not the stream could be opened. -/
theorem acceptSynStream_moves {s : Session} {f : SynStream} (hg : s.goawayFlags = false)
    (hn : s.isNewPeerStreamId f.streamId = true) :
    Moves (conn s none) (conn (({s with lastRecvStreamId := f.streamId}).acceptSynStream f) none) := by
  have hnew := conn_newPeerId hn
  -- the reports that follow
  have hev : ∀ s1 : Session, conn (let s := s1.emit (.ctrlRecv (.synStream f))
      if flagFin f.hd.flags then
        let s := s.emit (.requestRecv f.streamId)
        if flagUnidirectional f.hd.flags then s.emit (.streamClose f.streamId statusOk) else s
      else s) none = (conn s1 none).notes (admitEvents f) := by
    intro s1
    unfold admitEvents
    dsimp only
    split
    · split
      · simp [Conn.notes,Conn.note]
      · simp [Conn.notes,Conn.note]
    · rfl
  unfold acceptSynStream
  dsimp only
  refine Eq.mpr (congrArg (Moves _) (hev _)) ?_
  unfold openReceived
  split
  · have hm := (Side.admitUnopened (conn s none) f [] hg hnew (by simp)).moves
    rw [notes_nil] at hm
    exact hm
  · rename_i hfu
    dsimp only
    rcases conn_openStream {s with lastRecvStreamId := f.streamId} f.streamId f.hd.flags f.pri .opening none with
      ⟨ho,hfree,he⟩ | ⟨ho,es,hq,he⟩
    · rw [ho]
      have hm := (Side.admitStream (conn s none) f hg hnew (conn_find_none none hfree) (Bool.eq_false_iff.mpr hfu)).moves
      have h1 := conn_shutWr_if (flagUnidirectional f.hd.flags) (conn_shutRd_if (flagFin f.hd.flags) he)
      rw [if_pos rfl,h1]
      exact hm
    · rw [ho]
      have hm := (Side.admitUnopened (conn s none) f es hg hnew hq).moves
      rw [if_neg Bool.false_ne_true,he]
      exact hm

theorem onSynStreamReceived_moves (s : Session) (f : SynStream) :
    Moves (conn s none) (conn (s.onSynStreamReceived f).1 none) := by
  unfold onSynStreamReceived
  split
  · exact .refl
  · rename_i hg
    have hg := Bool.eq_false_iff.mpr hg
    split
    · exact handleInvalidStream_moves s _ _ _
    · split
      · exact (note_moves s (.invalidCtrlRecv (.synStream f) protocolError) none rfl).trans (failSession_moves _ _ none)
      · rename_i hn
        have hn : s.isNewPeerStreamId f.streamId = true := by simpa using hn
        dsimp only
        split
        · exact acceptSynStream_moves hg hn
        · exact (Side.seePeer (conn s none) f.streamId hg (conn_newPeerId hn)).moves.trans
            (handleInvalidStream_moves {s with lastRecvStreamId := f.streamId} _ _ _)

/-! Frames of open streams. -/

theorem finReceived_moves (s : Session) (id : Int) : Moves (conn s none) (conn (s.finReceived id) none) := by
  have h1 : Moves (conn s none) (conn (s.shutdownRd id) none) := by
    rw [conn_shutdownRd]
    exact (Side.shutRd _ id).moves
  exact h1.trans (closeStreamIfShutRdwr_moves _ id none)

theorem ite_moves {s s' : Session} {h : Option OutboundItem} {p : Prop} [Decidable p]
    (hm : Moves (conn s h) (conn s' h)) : Moves (conn s h) (conn (if p then s' else s) h) := by
  split
  · exact hm
  · exact .refl

theorem onSynReplyReceived_moves (s : Session) (f : StreamHeaders) :
    Moves (conn s none) (conn (s.onSynReplyReceived f).1 none) := by
  unfold onSynReplyReceived
  dsimp only
  split
  · exact .refl
  · split
    · exact handleInvalidStream_moves s _ _ _
    · rename_i st hst
      split
      · exact handleInvalidStream_moves s _ _ _
      · rename_i hc
        have hrd : st.shutRd = false := Bool.eq_false_iff.mpr (fun h => hc (.inl h))
        have hmine : s.isMyStreamId f.streamId = true := by
          by_contra hm
          exact hc (.inr (by simpa using hm))
        split
        · rename_i hstate
          have hm := (Side.recvSynReply (conn s none) f (life st) (conn_find none hst) hmine hrd hstate).moves
          have he : conn ((s.setState f.streamId .opened).emit (.ctrlRecv (.synReply f))) none =
              ((conn s none).setStream f.streamId (some {life st with state := .opened})).note
                (.ctrlRecv (.synReply f)) := by
            rw [conn_emit,conn_setState,conn_modify_some none hst]
          rw [← he] at hm
          exact hm.trans (ite_moves (finReceived_moves _ _))
        · exact .refl
        · exact handleInvalidStream_moves s _ _ _

theorem onRstStreamReceived_moves (s : Session) (f : RstStream) :
    Moves (conn s none) (conn (s.onRstStreamReceived f).1 none) := by
  unfold onRstStreamReceived
  dsimp only
  split
  · exact .refl
  · refine (note_moves s (.ctrlRecv (.rstStream f)) none rfl).trans ?_
    refine Relation.ReflTransGen.trans ?_ (closeStream_moves _ _ _ none)
    exact ite_moves (closePushedStreams_moves _ _ _ none)

theorem onHeadersReceived_moves (s : Session) (f : StreamHeaders) :
    Moves (conn s none) (conn (s.onHeadersReceived f).1 none) := by
  unfold onHeadersReceived
  dsimp only
  split
  · exact .refl
  · split
    · exact handleInvalidStream_moves s _ _ _
    · rename_i st hst
      split
      · exact handleInvalidStream_moves s _ _ _
      · rename_i hrd
        have hm : Moves (conn s none) (conn (s.emit (.ctrlRecv (.headers f))) none) :=
          (Side.recvHeaders _ f (life st) (conn_find none hst) (Bool.eq_false_iff.mpr hrd)).moves
        split
        · split
          · exact hm.trans (ite_moves (finReceived_moves _ _))
          · exact .refl
          · exact handleInvalidStream_moves s _ _ _
        · split
          · exact .refl
          · have hreq : Moves (conn (s.emit (.ctrlRecv (.headers f))) none)
                (conn ((s.emit (.ctrlRecv (.headers f))).emit (.requestRecv f.streamId)) none) :=
              (Side.recvRequest (conn (s.emit (.ctrlRecv (.headers f))) none) f.streamId (life st) (conn_find none hst)).moves
            exact hm.trans (ite_moves (hreq.trans (finReceived_moves _ _)))

theorem onDataReceived_moves (s : Session) (flags length : Nat) (id : Int) :
    Moves (conn s none) (conn (s.onDataReceived flags length id).1 none) := by
  unfold onDataReceived
  dsimp only
  split
  · exact addRstStream_moves s _ _ none
  · rename_i st hst
    split
    · exact addRstStream_moves s _ _ none
    · rename_i hrd
      have hm : Moves (conn s none) (conn (s.emit (.dataRecv flags id length)) none) :=
        (Side.recvData _ flags id length (life st) (conn_find none hst) (Bool.eq_false_iff.mpr hrd)).moves
      split
      · split
        · exact hm.trans (ite_moves (finReceived_moves _ _))
        · exact .refl
        · exact addRstStream_moves s _ _ none
      · split
        · exact .refl
        · have hreq : Moves (conn (s.emit (.dataRecv flags id length)) none)
              (conn ((s.emit (.dataRecv flags id length)).emit (.requestRecv id)) none) :=
            (Side.recvRequest (conn (s.emit (.dataRecv flags id length)) none) id (life st) (conn_find none hst)).moves
          exact hm.trans (ite_moves (hreq.trans (finReceived_moves _ _)))

/-! Settings and windows. -/

theorem releaseDeferred_moves (s : Session) (id : Int) : Moves (conn s none) (conn (s.releaseDeferred id).1 none) := by
  unfold releaseDeferred
  split
  · exact .refl
  · rename_i st hst
    split
    · exact .refl
    · rename_i item hitem
      split
      · dsimp only
        rcases conn_pushOb s item none with ⟨hn,he⟩ | ⟨hn,he⟩
        · rw [hn]
          exact resume_moves none hst hitem he
        · rw [hn]
          dsimp only
          rw [he]
      · exact .refl

theorem updateInitialWindowSizeLoop_moves (new old : Int) (ids : List Int) (s : Session) :
    Moves (conn s none) (conn (updateInitialWindowSizeLoop new old ids s).1 none) := by
  induction ids generalizing s with
  | nil => exact .refl
  | cons id ids ih =>
    have hhid : conn (s.modifyStream id (streamUpdateInitialWindowSize s.windowArith new old)) none = conn s none := by
      refine conn_modifyStream_hidden s id _ _ ?_ none
      exact fun _ => rfl
    have hr := releaseDeferred_moves (s.modifyStream id (streamUpdateInitialWindowSize s.windowArith new old)) id
    rw [hhid] at hr
    unfold updateInitialWindowSizeLoop
    dsimp only
    split
    · exact hr.trans (ih _)
    · exact hr

theorem applySettingsEntry_moves (s : Session) (e : SettingsEntry) :
    Moves (conn s none) (conn (s.applySettingsEntry e).1 none) := by
  unfold applySettingsEntry
  dsimp only
  split
  · split
    · have hu : Moves (conn s none) (conn (s.updateInitialWindowSize e.value).1 none) :=
        updateInitialWindowSizeLoop_moves _ _ _ s
      split
      · exact hu
      · exact hu
    · exact .refl
  · split
    · cases hr : s.cliCertvec.resize s.host.mem (min e.value maxClientCertVectorLength) with
      | mk m r =>
        cases r with
        | ok v => exact (Side.resize (conn s none) _ m _ v hr).moves
        | error err => exact .refl
    · exact .refl

theorem settingsLoop_moves (iv : List SettingsEntry) (check : List Nat) (done : List SettingsEntry) (s : Session) :
    Moves (conn s none) (conn (settingsLoop iv check done s).1 none) := by
  induction iv generalizing check done s with
  | nil => exact .refl
  | cons e rest ih =>
    have ha := applySettingsEntry_moves s e
    unfold settingsLoop
    split
    · exact ih _ _ s
    · dsimp only
      split
      · exact ha.trans (ih _ _ _)
      · exact ha

theorem onSettingsReceived_moves (s : Session) (f : Settings) :
    Moves (conn s none) (conn (s.onSettingsReceived f).1 none) := by
  have hl := settingsLoop_moves f.iv [] [] s
  unfold onSettingsReceived
  dsimp only
  split
  · exact .refl
  · split
    · exact hl
    · exact hl.trans (note_moves _ _ none rfl)

theorem onWindowUpdateReceived_moves (s : Session) (f : WindowUpdate) :
    Moves (conn s none) (conn (s.onWindowUpdateReceived f).1 none) := by
  unfold onWindowUpdateReceived
  dsimp only
  split
  · exact .refl
  · split
    · exact .refl
    · split
      · exact handleInvalidStream_moves s _ _ _
      · have hhid : conn (s.modifyStream f.streamId (fun st => {st with
            windowSize := s.windowArith.store (st.windowSize+f.deltaWindowSize)})) none = conn s none := by
          refine conn_modifyStream_hidden s _ _ _ ?_ none
          exact fun _ => rfl
        have hr : Moves (conn s none) (conn (s.raiseWindow f.streamId f.deltaWindowSize) none) := by
          have hn := note_moves (s.modifyStream f.streamId (fun st => {st with
            windowSize := s.windowArith.store (st.windowSize+f.deltaWindowSize)}))
              (.windowRaised f.streamId f.deltaWindowSize) none rfl
          rwa [hhid] at hn
        have hd := hr.trans (releaseDeferred_moves _ f.streamId)
        split
        · exact hd
        · exact hd.trans (note_moves _ _ none rfl)

/-! The other control frames. -/

theorem onPingReceived_moves (s : Session) (f : Ping) :
    Moves (conn s none) (conn (s.onPingReceived f).1 none) := by
  unfold onPingReceived
  dsimp only
  split
  · exact .refl
  · rename_i hc
    split
    · rename_i hp
      exact (Side.recvPingReply (conn s none) f hp (fun h0 => hc (.inr h0))).moves
    · rename_i hp
      split
      · have hlast : (s.addPing f.uniqueId).1.lastPingUniqueId = s.lastPingUniqueId := by
          rcases conn_addCtrl s (.ping (framePingInit s.version.num f.uniqueId)) none with ⟨-,he⟩ | ⟨-,he | he⟩
          · obtain ⟨streams,q,q',ha⟩ := accept_frame (conn s none) (s.newItem (.ctrl (.ping
              (framePingInit s.version.num f.uniqueId))) none)
            exact congrArg Conn.lastPingUniqueId (he.trans ha)
          · exact congrArg Conn.lastPingUniqueId he
          · exact congrArg Conn.lastPingUniqueId he
        refine (addPing_moves s f.uniqueId none).trans ?_
        exact (Side.recvPing (conn (s.addPing f.uniqueId).1 none) f (by rw [← hlast] at hp; exact hp)).moves
      · exact .refl

theorem onGoawayReceived_moves (s : Session) (f : Goaway) :
    Moves (conn s none) (conn (s.onGoawayReceived f).1 none) := by
  unfold onGoawayReceived
  split
  · exact .refl
  · exact (Side.recvGoaway (conn s none) f).moves

theorem onCredentialReceived_moves (s : Session) (f : Credential) :
    Moves (conn s none) (conn (s.onCredentialReceived f).1 none) := by
  unfold onCredentialReceived
  split
  · exact .refl
  · exact note_moves s _ none rfl

/-! Complete frames. -/

theorem handleUnparsed_moves (s : Session) (type : Nat) (e : Err) :
    Moves (conn s none) (conn (s.handleUnparsed type e).1 none) := by
  unfold handleUnparsed
  split
  · exact (note_moves s _ none rfl).trans (failSession_moves _ _ none)
  · exact .refl

theorem handleHeadersError_moves (s : Session) (type : Nat) (id : Int) (f : Frame) (e : Err) :
    Moves (conn s none) (conn (s.handleHeadersError type id f e).1 none) := by
  unfold handleHeadersError
  split
  · exact handleInvalidStream_moves s _ _ _
  · exact handleUnparsed_moves s _ _

theorem conn_parseSynStream (P : Platform) (s : Session) : conn (s.parseSynStream P).1 none = conn s none := by
  unfold parseSynStream
  dsimp only
  split <;> rfl

theorem conn_parseStreamHeaders (P : Platform) (s : Session) (type : FrameType) :
    conn (s.parseStreamHeaders P type).1 none = conn s none := by
  unfold parseStreamHeaders
  dsimp only
  split <;> rfl

theorem processSynStream_moves (P : Platform) (s : Session) :
    Moves (conn s none) (conn (s.processSynStream P).1 none) := by
  unfold processSynStream
  dsimp only
  rw [← conn_parseSynStream P s]
  split
  · exact onSynStreamReceived_moves _ _
  · exact handleHeadersError_moves _ _ _ _ _

theorem processSynReply_moves (P : Platform) (s : Session) :
    Moves (conn s none) (conn (s.processSynReply P).1 none) := by
  unfold processSynReply
  dsimp only
  rw [← conn_parseStreamHeaders P s .synReply]
  split
  · exact onSynReplyReceived_moves _ _
  · exact handleHeadersError_moves _ _ _ _ _

theorem processHeaders_moves (P : Platform) (s : Session) :
    Moves (conn s none) (conn (s.processHeaders P).1 none) := by
  unfold processHeaders
  dsimp only
  rw [← conn_parseStreamHeaders P s .headers]
  split
  · exact onHeadersReceived_moves _ _
  · exact handleHeadersError_moves _ _ _ _ _

theorem processPlain_moves {α : Type} (s : Session) (type : FrameType)
    (onReceived : Session → α → Session × Option Err) (u : Except Err α)
    (h : ∀ f, Moves (conn s none) (conn (onReceived s f).1 none)) :
    Moves (conn s none) (conn (s.processPlain type onReceived u).1 none) := by
  cases u with
  | ok f => exact h f
  | error e => exact handleUnparsed_moves s _ _

theorem dispatchCtrlFrame_moves (P : Platform) (s : Session) :
    Moves (conn s none) (conn (s.dispatchCtrlFrame P).1 none) := by
  unfold dispatchCtrlFrame
  dsimp only
  split
  · exact processSynStream_moves P s
  · exact processSynReply_moves P s
  · exact processPlain_moves s _ _ _ (onRstStreamReceived_moves s)
  · exact processPlain_moves (s.setMem (frameUnpackSettings s.host.mem s.iframe.headbuf s.iframe.buf
      s.iframe.buflen).1) .settings _ _ (onSettingsReceived_moves _)
  · exact .refl
  · exact processPlain_moves s _ _ _ (onPingReceived_moves s)
  · exact processPlain_moves s _ _ _ (onGoawayReceived_moves s)
  · exact processHeaders_moves P s
  · exact processPlain_moves s _ _ _ (onWindowUpdateReceived_moves s)
  · exact processPlain_moves (s.setMem (frameUnpackCredential s.host.mem s.iframe.headbuf s.iframe.buf
      s.iframe.buflen).1) .credential _ _ (onCredentialReceived_moves _)
  · exact note_moves s _ none rfl

theorem processFrame_moves (P : Platform) (s : Session) :
    Moves (conn s none) (conn (if s.iframe.isCtrl then s.processCtrlFrame P else s.processDataFrame).1 none) := by
  split
  · unfold processCtrlFrame
    rw [onlyFatal_fst]
    exact dispatchCtrlFrame_moves P s
  · unfold processDataFrame
    dsimp only
    rw [onlyFatal_fst]
    exact onDataReceived_moves s _ _ _

/-! The loop. -/

theorem read_moves (s : Session) (f : InboundFrame) : Moves (conn s none) {conn s none with iframe := f} :=
  (Side.read _ f).moves

theorem endFrame_moves (P : Platform) (s : Session) : Moves (conn s none) (conn (s.endFrame P).1 none) := by
  unfold endFrame
  split
  · exact .refl
  split
  · have hp := processFrame_moves P s
    dsimp only
    split
    · refine hp.trans (.trans ?_ (note_moves _ .frameDone none rfl))
      exact read_moves _ _
    · exact hp
  · exact .refl

theorem updateRecvWindowSize_moves (s : Session) (id : Int) (deltaSize : Nat) :
    Moves (conn s none) (conn (s.updateRecvWindowSize id deltaSize).1 none) := by
  have hhid : ∀ (s1 : Session) (n : Int),
      conn (s1.modifyStream id (fun st => {st with recvWindowSize := n})) none = conn s1 none := by
    intro s1 n
    refine conn_modifyStream_hidden s1 id _ _ ?_ none
    exact fun _ => rfl
  unfold updateRecvWindowSize
  split
  · exact .refl
  · rename_i st _
    dsimp only
    generalize (if int32Max-deltaSize < st.recvWindowSize then int32Max else st.recvWindowSize+deltaSize) = size
    split
    · have hw := addWindowUpdate_moves (s.modifyStream id (fun st => {st with recvWindowSize := size})) id size none
      rw [hhid] at hw
      split
      · rw [hhid]
        exact hw
      · exact hw
    · rw [hhid]

theorem creditChunk_moves (s : Session) (readlen : Nat) :
    Moves (conn s none) (conn (s.creditChunk readlen).1 none) := by
  unfold creditChunk
  dsimp only
  split
  · exact updateRecvWindowSize_moves s _ _
  · exact .refl

theorem conn_recvPreNv (s : Session) (input : Bytes) (readlen : Nat) :
    conn (s.recvPreNv input readlen).1 none = {conn s none with iframe := (s.recvPreNv input readlen).1.iframe} := by
  unfold recvPreNv
  dsimp only
  split
  · split <;> rfl
  · rfl

theorem conn_inflateChunk (P : Platform) (s : Session) (chunk : Bytes) :
    conn (s.inflateChunk P chunk) none = {conn s none with iframe := (s.inflateChunk P chunk).iframe} := by
  unfold inflateChunk
  dsimp only
  split <;> rfl

/-- The bytes of a DATA frame that is not ignored are delivered; nothing else shows. -/
theorem conn_recvChunk (P : Platform) (s : Session) (chunk : Bytes) :
    ∃ c, (c = conn s none ∨ ∃ flags id, Delivers s.iframe id ∧ c = (conn s none).note (.dataChunkRecv flags id chunk)) ∧
      conn (s.recvChunk P chunk) none = {c with iframe := (s.recvChunk P chunk).iframe} := by
  unfold recvChunk
  dsimp only
  split
  · have h := conn_inflateChunk P s chunk
    refine ⟨_,.inl rfl,?_⟩
    generalize s.inflateChunk P chunk = s1 at h
    exact congrArg (fun c : Conn => {c with iframe := {s1.iframe with off := s1.iframe.off+chunk.length}}) h
  · rename_i hnv
    split
    · split
      · exact ⟨_,.inl rfl,rfl⟩
      · exact ⟨_,.inl rfl,rfl⟩
    · rename_i hc
      split
      · exact ⟨_,.inl rfl,rfl⟩
      · rename_i hi
        exact ⟨_,.inr ⟨_,_,⟨Bool.eq_false_iff.mpr hc,hnv,hi,rfl⟩,rfl⟩,rfl⟩

/-- What is read before the name/value block is no body. -/
theorem recvPreNv_delivers {s : Session} {input : Bytes} {readlen : Nat} {id : Int}
    (h : Delivers (s.recvPreNv input readlen).1.iframe id) : Delivers s.iframe id := by
  unfold recvPreNv at h
  dsimp only at h
  split at h
  · rename_i hpre
    split at h
    · exact absurd rfl h.2.1
    · exact ⟨h.1,h.2.1,h.2.2.1,h.2.2.2⟩
  · exact h

/-- One pass of the loop over a payload: the chunk comes first. -/
theorem recvPayload_moves (P : Platform) (s : Session) (input : Bytes) :
    ∃ f c, (c = {conn s none with iframe := f} ∨ ∃ flags id data, Delivers f id ∧ Delivers s.iframe id ∧
      c = {conn s none with iframe := f}.note (.dataChunkRecv flags id data)) ∧
      Moves c (conn (s.recvPayload P input).1 none) := by
  unfold recvPayload
  dsimp only
  split
  · exact ⟨s.iframe,_,.inl rfl,.refl⟩
  · have hp := conn_recvPreNv s input (min input.length (s.iframe.payloadlen-s.iframe.off))
    have hd' := fun id => @recvPreNv_delivers s input (min input.length (s.iframe.payloadlen-s.iframe.off)) id
    generalize s.recvPreNv input (min input.length (s.iframe.payloadlen-s.iframe.off)) = p at hp hd'
    obtain ⟨c,hc,he⟩ := conn_recvChunk P p.1 (p.2.1.take p.2.2)
    rw [hp] at hc
    refine ⟨p.1.iframe,c,?_,?_⟩
    · rcases hc with hc | ⟨flags,id,hd,hc⟩
      · exact .inl hc
      · exact .inr ⟨flags,id,_,hd,hd' id hd,hc⟩
    · have h2 : Moves c (conn (p.1.recvChunk P (p.2.1.take p.2.2)) none) := by
        rw [he]
        exact (Side.read c _).moves
      have h3 := h2.trans (creditChunk_moves (p.1.recvChunk P (p.2.1.take p.2.2)) (p.2.1.take p.2.2).length)
      split
      · exact h3
      · have h4 := h3.trans (endFrame_moves P _)
        split
        · exact h4
        · exact h4

theorem conn_startPayload (P : Platform) (s : Session) :
    conn (s.startPayload P).1 none = {conn s none with iframe := (s.startPayload P).1.iframe} := by
  unfold startPayload
  dsimp only
  split
  · unfold reserveIframeBuf
    split
    · split <;> rfl
    · rfl
  · rfl

theorem conn_recvHead (P : Platform) (s : Session) (input : Bytes) :
    conn (s.recvHead P input).1 none = {conn s none with iframe := (s.recvHead P input).1.iframe} := by
  unfold recvHead
  dsimp only
  split
  · rfl
  · split
    · have h := conn_startPayload P (s.takeHead (input.take (min (headLen-s.iframe.headbuf.length) input.length)))
      split
      · exact h
      · exact h
    · rfl

/-- Without the control bit the id is the first word. -/
theorem getStreamId_of_data {head : Bytes} (h : frameIsCtrlFrame (head.getD 0 0) = false) :
    ((getUint32 head : Nat) : Int) = getStreamId head := by
  have h0 : (head.getD 0 0).toNat < 128 := by
    unfold frameIsCtrlFrame at h
    simpa [UInt8.le_iff_toNat_le] using h
  have h1 := (head.getD 1 0).toNat_lt
  have h2 := (head.getD 2 0).toNat_lt
  have h3 := (head.getD 3 0).toNat_lt
  unfold getStreamId
  rw [Nat.mod_eq_of_lt]
  unfold getUint32 streamIdMask
  omega

/-- The body of a DATA frame is read only for a stream that is there. -/
theorem startPayload_delivers {P : Platform} {s : Session} {id : Int} (h : Delivers (s.startPayload P).1.iframe id) :
    s.getStream id ≠ none := by
  have hkeep : ∀ (s1 : Session) (n : Nat), (s1.reserveIframeBuf P n).1.iframe.headbuf = s1.iframe.headbuf := by
    intro s1 n
    unfold reserveIframeBuf
    split
    · split <;> rfl
    · rfl
  unfold startPayload at h
  dsimp only at h
  split at h
  · rename_i hctrl
    have h1 := h.1
    unfold InboundFrame.isCtrl at h1 hctrl
    rw [hkeep,hctrl] at h1
    cases h1
  · rename_i hctrl
    obtain ⟨-,-,hign,hid⟩ := h
    dsimp only at hign hid
    split at hign
    · rename_i hallow
      unfold checkDataRecvAllowed at hallow
      have hsame : ((getUint32 s.iframe.headbuf : Nat) : Int) = id := by
        rw [← hid]
        exact getStreamId_of_data (Bool.eq_false_iff.mpr hctrl)
      rw [hsame] at hallow
      intro hn
      rw [hn] at hallow
      cases hallow
    · exact absurd rfl hign

/-- In the middle of a DATA frame that is delivered, the stream of the frame is there. -/
def Ready (s : Session) : Prop := s.iframe.state ≠ .head → ∀ id, Delivers s.iframe id → s.getStream id ≠ none

theorem recvHead_delivers {P : Platform} {s : Session} {input : Bytes} (hn : (s.recvHead P input).2.2 = none) {id : Int}
    (h : Delivers (s.recvHead P input).1.iframe id) : s.getStream id ≠ none := by
  unfold recvHead at hn h
  dsimp only at hn h
  split at hn
  · cases hn
  · rename_i hin
    rw [if_neg hin] at h
    split at hn
    · rename_i hlen
      rw [if_pos hlen] at h
      split at hn
      · rename_i hr
        rw [hr] at h
        have hthere := startPayload_delivers h
        exact hthere
      · cases hn
    · cases hn

theorem recvIter_moves (P : Platform) (s : Session) (input : Bytes) :
    ∃ f c, (c = {conn s none with iframe := f} ∨ ∃ flags id data, Delivers f id ∧ (Ready s → s.getStream id ≠ none) ∧
      c = {conn s none with iframe := f}.note (.dataChunkRecv flags id data)) ∧
      Moves c (conn (s.recvIter P input).1 none) := by
  unfold recvIter
  split
  · have hh := conn_recvHead P s input
    dsimp only
    split
    · exact ⟨_,_,.inl rfl,by rw [hh]⟩
    · rename_i hnone
      obtain ⟨f,c,hc,hm⟩ := recvPayload_moves P (s.recvHead P input).1 (s.recvHead P input).2.1
      rw [hh] at hc
      refine ⟨f,c,?_,hm⟩
      rcases hc with hc | ⟨flags,id,data,hd,hd',hc⟩
      · exact .inl hc
      · exact .inr ⟨flags,id,data,hd,fun _ => recvHead_delivers hnone hd',hc⟩
  · rename_i hhead
    obtain ⟨f,c,hc,hm⟩ := recvPayload_moves P s input
    refine ⟨f,c,?_,hm⟩
    rcases hc with hc | ⟨flags,id,data,hd,hd',hc⟩
    · exact .inl hc
    · exact .inr ⟨flags,id,data,hd,fun hr => hr hhead id hd',hc⟩

end Spdylay.Protocol
