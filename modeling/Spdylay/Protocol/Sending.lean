import Spdylay.Protocol.Receiving
import Spdylay.Session.Turns

/-! Preparing, writing and completing frames as moves of the protocol. -/
namespace Spdylay.Protocol
open Library Session Conn

/-- What preparing the item in hand comes to: it is begun, or it has found another
place, or it is still in hand and will be dropped. -/
def Prepares (s : Session) (item : OutboundItem) (p : Prep) : Prop :=
  (∃ bytes, p.result = .ok bytes ∧ Moves (conn s (some item)) (conn (p.ses.activate p.item bytes) none)) ∨
  ((p.result = .error .deferred ∨ p.result = .error .credentialPending) ∧
    Moves (conn s (some item)) (conn p.ses none)) ∨
  (∃ e, e ≠ .deferred ∧ e ≠ .credentialPending ∧ p.result = .error e ∧
    Moves (conn s (some item)) (conn p.ses (some p.item)))

theorem conn_activate_ctrl {s : Session} {item : OutboundItem} {f : Frame} {bytes : Bytes} (hf : item.frame = .ctrl f) :
    conn (s.activate item bytes) none =
      (({conn s (some item) with active := some item}).notes [.prepared item.seq bytes,.beforeCtrlSend f]).hold none := by
  unfold activate
  rw [hf]
  simp [Conn.notes,conn,hold,emit,getStream]

theorem conn_activate_data {s : Session} {item : OutboundItem} {d : DataFrame} {bytes : Bytes}
    (hf : item.frame = .data d) : conn (s.activate item bytes) none =
      (({conn s (some item) with active := some item}).notes [.prepared item.seq bytes]).hold none := by
  unfold activate
  rw [hf]
  rfl

theorem retouch_moves {s : Session} {item item' : OutboundItem} (hs : item'.seq = item.seq)
    (hf : SameFrame item.frame item'.frame) : Moves (conn s (some item)) (conn s (some item')) :=
  (Move.retouch (conn s (some item)) item item' rfl hs hf).moves

theorem start_moves {s : Session} {item : OutboundItem} {f : Frame} {bytes : Bytes} (ha : s.aob.item = none)
    (hf : item.frame = .ctrl f) (hm : (conn s (some item)).MayStart (.ctrl f)) :
    Moves (conn s (some item)) (conn (s.activate item bytes) none) := by
  rw [conn_activate_ctrl hf]
  exact (Move.start (conn s (some item)) item f bytes rfl ha hf hm).moves

/-! Buffers do not show. -/

theorem conn_reserveFramebuf (s : Session) (n : Nat) (h : Option OutboundItem) :
    conn (s.reserveFramebuf n).1 h = conn s h := by
  unfold reserveFramebuf
  split
  · split <;> rfl
  · rfl

theorem reserveFramebuf_aob (s : Session) (n : Nat) : (s.reserveFramebuf n).1.aob.item = s.aob.item := by
  exact congrArg Conn.active (conn_reserveFramebuf s n none)

theorem conn_reserveNvbuf (s : Session) (n : Nat) (h : Option OutboundItem) :
    conn (s.reserveNvbuf n).1 h = conn s h := by
  unfold reserveNvbuf
  split
  · split <;> rfl
  · rfl

theorem conn_frameAllocPackNv (P : Platform) (s : Session) (nv : Nv) (nvOffset lenSize : Nat)
    (h : Option OutboundItem) : conn (s.frameAllocPackNv P nv nvOffset lenSize).1 h = conn s h := by
  have h1 := conn_reserveNvbuf s (frameCountNvSpace nv lenSize) h
  have h2 := (conn_reserveFramebuf (s.reserveNvbuf (frameCountNvSpace nv lenSize)).1
    (nvOffset+P.deflateBound s.hdDeflater (frameCountNvSpace nv lenSize)) h).trans h1
  unfold frameAllocPackNv
  dsimp only
  split
  · exact h1
  · split
    · exact h2
    · split
      · exact h2
      · split
        · exact h2
        · exact h2

/-! Frames of fixed layout. -/

theorem prepFixed_prepares {s : Session} {item : OutboundItem} {f : Frame} {bytes : Bytes} (ha : s.aob.item = none)
    (hf : item.frame = .ctrl f) (hm : (conn s (some item)).MayStart (.ctrl f)) :
    Prepares s item (s.prepFixed item bytes) := by
  have hr := conn_reserveFramebuf s bytes.length (some item)
  unfold prepFixed
  dsimp only
  cases he : (s.reserveFramebuf bytes.length).2 with
  | none =>
    refine .inl ⟨bytes,rfl,?_⟩
    rw [← hr] at hm ⊢
    exact start_moves ((reserveFramebuf_aob s _).trans ha) hf hm
  | some e =>
    have hn : e = .nomem := by
      unfold reserveFramebuf at he
      split_ifs at he
      all_goals cases he
      rfl
    subst hn
    refine .inr (.inr ⟨.nomem,nofun,nofun,rfl,?_⟩)
    rw [hr]

/-- A frame that may not be sent. -/
theorem refused_prepares {s : Session} {item : OutboundItem} {e : Err} (h1 : e ≠ .deferred)
    (h2 : e ≠ .credentialPending) : Prepares s item ⟨s,item,.error e⟩ := .inr (.inr ⟨e,h1,h2,rfl,.refl⟩)


theorem prepPacked_prepares {s : Session} {item : OutboundItem} {f : Frame} {u : Except Err Bytes}
    (ha : s.aob.item = none) (hf : item.frame = .ctrl f) (hm : (conn s (some item)).MayStart (.ctrl f))
    (hu : ∀ e, u = .error e → e = .unsupportedVersion) : Prepares s item (s.prepPacked item u) := by
  cases u with
  | ok bytes => exact prepFixed_prepares ha hf hm
  | error e =>
    obtain rfl := hu e rfl
    exact refused_prepares nofun nofun

theorem refusal_prepares {s : Session} {item : OutboundItem} {e : Err} (h : Machine.Refusal e) :
    Prepares s item ⟨s,item,.error e⟩ := refused_prepares h.deferred h.pending

/-- Moves before the preparation. -/
theorem Prepares.after {s s' : Session} {item item' : OutboundItem} {p : Prep}
    (hm : Moves (conn s (some item)) (conn s' (some item'))) (h : Prepares s' item' p) : Prepares s item p := by
  rcases h with ⟨bytes,hr,h⟩ | ⟨hr,h⟩ | ⟨e,h1,h2,hr,h⟩
  · exact .inl ⟨bytes,hr,hm.trans h⟩
  · exact .inr (.inl ⟨hr,hm.trans h⟩)
  · exact .inr (.inr ⟨e,h1,h2,hr,hm.trans h⟩)

/-- A preparation that fails with the item in hand. -/
theorem failed_prepares {s s' : Session} {item item' : OutboundItem} {e : Err} (h1 : e ≠ .deferred)
    (h2 : e ≠ .credentialPending) (hm : Moves (conn s (some item)) (conn s' (some item'))) :
    Prepares s item ⟨s',item',.error e⟩ := .after hm (refused_prepares h1 h2)

theorem packed_error {s : Session} {P : Platform} {nv : Nv} {nvOffset lenSize : Nat} {e : Err}
    (h : (s.frameAllocPackNv P nv nvOffset lenSize).2 = .error e) : e ≠ .deferred ∧ e ≠ .credentialPending := by
  rcases Machine.frameAllocPackNv_error P _ _ _ _ e h with rfl | rfl | rfl <;> exact ⟨nofun,nofun⟩

/-! SYN_REPLY and HEADERS. -/

theorem synReply_mayStart {s : Session} {f : StreamHeaders} (h : Option OutboundItem)
    (hp : s.predicateSynReplySend f.streamId = none) : (conn s h).MayStart (.ctrl (.synReply f)) := by
  unfold predicateSynReplySend at hp
  cases hst : s.getStream f.streamId with
  | none =>
    rw [hst] at hp
    cases hp
  | some st =>
    rw [hst] at hp
    dsimp only at hp
    split_ifs at hp with h1 h2
    refine ⟨life st,conn_find h hst,Bool.eq_false_iff.mpr h1,Bool.eq_false_iff.mpr h2,?_⟩
    change st.state = .opening
    by_contra hs
    split at hp <;> simp_all

theorem predicateState_writable {s : Session} {id : Int} {st : Stream} (h : Option OutboundItem)
    (hst : s.getStream id = some st) (hw : st.shutWr = false) (hp : s.predicateState id st = none) :
    (conn s h).Writable id (life st) := by
  refine ⟨conn_find h hst,hw,?_⟩
  unfold predicateState at hp
  change if s.isMyStreamId id then st.state ≠ .closing else st.state = .opened
  split_ifs at hp ⊢ with h1 h2
  · exact h2
  · by_contra hs
    split at hp <;> simp_all

theorem headers_mayStart {s : Session} {f : StreamHeaders} (h : Option OutboundItem)
    (hp : s.predicateHeadersSend f.streamId = none) : (conn s h).MayStart (.ctrl (.headers f)) := by
  unfold predicateHeadersSend at hp
  cases hst : s.getStream f.streamId with
  | none =>
    rw [hst] at hp
    cases hp
  | some st =>
    rw [hst] at hp
    dsimp only at hp
    split_ifs at hp with h1
    exact ⟨life st,predicateState_writable h hst (Bool.eq_false_iff.mpr h1) hp⟩

theorem windowUpdate_mayStart {s : Session} {f : WindowUpdate} (h : Option OutboundItem)
    (hp : s.predicateWindowUpdateSend f.streamId = none) : (conn s h).MayStart (.ctrl (.windowUpdate f)) := by
  unfold predicateWindowUpdateSend at hp
  cases hst : s.getStream f.streamId with
  | none =>
    rw [hst] at hp
    cases hp
  | some st =>
    rw [hst] at hp
    dsimp only at hp
    split_ifs at hp with h1
    exact ⟨life st,conn_find h hst,h1⟩

theorem data_mayStart {s : Session} {id : Int} (h : Option OutboundItem) (hp : s.predicateDataSend id = none) :
    ∃ st, s.getStream id = some st ∧ (conn s h).Writable id (life st) ∧ st.deferredData = none := by
  unfold predicateDataSend at hp
  cases hst : s.getStream id with
  | none =>
    rw [hst] at hp
    cases hp
  | some st =>
    rw [hst] at hp
    dsimp only at hp
    split_ifs at hp with h1 h2
    exact ⟨st,rfl,predicateState_writable h hst (Bool.eq_false_iff.mpr h1) hp,by simpa using h2⟩

theorem prepStreamHeaders_prepares (P : Platform) {s : Session} {item : OutboundItem} (type : FrameType)
    (wrap : StreamHeaders → Frame) (f : StreamHeaders) (ha : s.aob.item = none)
    (hsame : ∀ f', f'.streamId = f.streamId → SameFrame item.frame (.ctrl (wrap f')))
    (hm : ∀ f' h, f'.streamId = f.streamId → (conn s h).MayStart (.ctrl (wrap f'))) :
    Prepares s item (prepStreamHeaders P s item type wrap f) := by
  have hret : ∀ f' : StreamHeaders, f'.streamId = f.streamId →
      Moves (conn s (some item)) (conn s (some {item with frame := .ctrl (wrap f')})) :=
    fun f' hf' => retouch_moves rfl (hsame f' hf')
  unfold prepStreamHeaders
  dsimp only
  split
  · refine failed_prepares nofun nofun ?_
    apply hret
    rfl
  · cases frameNvOffset type f.hd.version with
    | none =>
      refine failed_prepares nofun nofun ?_
      apply hret
      rfl
    | some nvOffset =>
      dsimp only
      generalize hr : s.frameAllocPackNv P (s.wireNv P f.nv) nvOffset (frameGetLenSize f.hd.version) = r
      have hc : ∀ h, conn r.1 h = conn s h := by
        intro h
        rw [← hr]
        exact conn_frameAllocPackNv P s _ _ _ h
      cases he : r.2 with
      | error e =>
        obtain ⟨h1,h2⟩ := packed_error (hr ▸ he)
        refine failed_prepares h1 h2 ?_
        rw [hc]
        apply hret
        rfl
      | ok block =>
        refine .inl ⟨_,rfl,?_⟩
        refine (hret {f with nv := s.appNv P (s.wireNv P f.nv), hd := {f.hd with
          length := nvOffset-headLen+block.length}} rfl).trans ?_
        rw [← hc]
        refine start_moves ((congrArg Conn.active (hc none)).trans ha) rfl ?_
        rw [hc]
        exact hm _ _ rfl

/-! SYN_STREAM. -/

/-- With memory for the certificates the CREDENTIAL is queued. -/
theorem addCredential_moves {s : Session} {item : OutboundItem} {f : SynStream} {origin : Origin} {slot : Nat}
    (version : Nat) (answer : CredentialAnswer) (hf : item.frame = .ctrl (.synStream f))
    (ho : s.cliCertvec.find origin = 0) (hslot : slot = (s.cliCertvec.put origin).2) {s2 : Session}
    (h2 : conn s2 (some item) = {conn s (some item) with cliCertvec := (s.cliCertvec.put origin).1}) :
    Moves (conn s (some item)) (conn (s2.addFrame (.ctrl (.credential
      (frameCredentialInit version slot answer.proof answer.certs))) none).1 (some item)) := by
  have hlose := (Side.loseCredential (conn s (some item)) item f origin rfl hf).moves
  have hseq : s2.nextSeq = s.nextSeq := congrArg Conn.nextSeq h2
  rcases conn_addFrame s2 (.ctrl (.credential (frameCredentialInit version slot answer.proof answer.certs))) none
    (some item) with ⟨-,he⟩ | ⟨-,he | he⟩
  · rw [he,h2]
    exact (Move.credential (conn s (some item)) item (s2.newItem (.ctrl (.credential
      (frameCredentialInit version slot answer.proof answer.certs))) none) _ origin rfl ho hseq rfl rfl hslot).moves
  · rw [he,h2]
    exact hlose.trans (Side.refuse _ _).moves
  · rw [he,h2]
    exact hlose

theorem queueCredential_moves {s : Session} {item : OutboundItem} {f : SynStream} {origin : Origin}
    (answer : CredentialAnswer) (hf : item.frame = .ctrl (.synStream f)) (ho : s.cliCertvec.find origin = 0) :
    Moves (conn s (some item)) (conn (s.queueCredential origin answer).1 (some item)) := by
  have hlose := (Side.loseCredential (conn s (some item)) item f origin rfl hf).moves
  unfold queueCredential
  split
  · exact .refl
  · dsimp only
    split
    · exact .refl
    · have h2 := conn_mallocs (answer.certs.length+2) ({s.malloc.malloc with
        cliCertvec := (s.malloc.cliCertvec.put origin).1}) (some item)
      split
      · have ha := addCredential_moves s.version.num answer hf ho rfl h2
        split
        · exact ha
        · exact ha
      · rw [h2]
        exact hlose

theorem prepCredential_moves {s : Session} {item : OutboundItem} {f : SynStream}
    (hf : item.frame = .ctrl (.synStream f)) :
    Moves (conn s (some item)) (conn (s.prepCredential f).1 (some item)) := by
  unfold prepCredential
  split
  · exact .refl
  · split
    · exact .refl
    · dsimp only
      split
      · exact .refl
      · rename_i origin _ hslot
        split
        · exact .refl
        · rename_i answer rest _
          split
          · exact .refl
          · exact queueCredential_moves (s := {s with host := {s.host with credentials := rest}}) answer hf
              (not_not.mp hslot)

/-- What queueing leaves alone of the conditions of a SYN_STREAM. -/
theorem addFrame_kept (s : Session) (frame : OutFrame) (aux : Option DataProvider) :
    (s.addFrame frame aux).1.goawayFlags = s.goawayFlags ∧ (s.addFrame frame aux).1.nextStreamId = s.nextStreamId := by
  have hkept : ∀ c : Conn, conn (s.addFrame frame aux).1 none = c → c.shutDown = (conn s none).shutDown ∧
      c.nextStreamId = (conn s none).nextStreamId →
      (s.addFrame frame aux).1.goawayFlags = s.goawayFlags ∧ (s.addFrame frame aux).1.nextStreamId = s.nextStreamId := by
    rintro c rfl hc
    exact hc
  rcases conn_addFrame s frame aux none with ⟨-,he⟩ | ⟨-,he | he⟩
  · obtain ⟨streams,q,q',ha⟩ := accept_frame (conn s none) (s.newItem frame aux)
    exact hkept _ (he.trans ha) ⟨rfl,rfl⟩
  · obtain ⟨streams,hm⟩ := mark_frame (conn s none).skipSeq frame
    exact hkept _ (he.trans hm) ⟨rfl,rfl⟩
  · exact hkept _ he ⟨rfl,rfl⟩

theorem queueCredential_kept (s : Session) (origin : Origin) (answer : CredentialAnswer) :
    (s.queueCredential origin answer).1.goawayFlags = s.goawayFlags ∧
      (s.queueCredential origin answer).1.nextStreamId = s.nextStreamId := by
  have hm : ∀ n s1, (mallocs n s1).1.goawayFlags = s1.goawayFlags ∧ (mallocs n s1).1.nextStreamId = s1.nextStreamId :=
    fun n s1 => ⟨congrArg Conn.shutDown (conn_mallocs n s1 none),congrArg Conn.nextStreamId (conn_mallocs n s1 none)⟩
  have hadd : ∀ n s1 frame, s1.goawayFlags = s.goawayFlags → s1.nextStreamId = s.nextStreamId →
      ((mallocs n s1).1.addFrame frame none).1.goawayFlags = s.goawayFlags ∧
        ((mallocs n s1).1.addFrame frame none).1.nextStreamId = s.nextStreamId := by
    intro n s1 frame h1 h2
    obtain ⟨h3,h4⟩ := addFrame_kept (mallocs n s1).1 frame none
    exact ⟨h3.trans ((hm n s1).1.trans h1),h4.trans ((hm n s1).2.trans h2)⟩
  unfold queueCredential
  dsimp only
  split
  · exact ⟨rfl,rfl⟩
  · split
    · exact ⟨rfl,rfl⟩
    · split
      · split
        · exact hadd _ _ _ rfl rfl
        · exact hadd _ _ _ rfl rfl
      · exact hm _ _

theorem prepCredential_kept (s : Session) (f : SynStream) :
    (s.prepCredential f).1.goawayFlags = s.goawayFlags ∧ (s.prepCredential f).1.nextStreamId = s.nextStreamId := by
  unfold prepCredential
  dsimp only
  split
  · exact ⟨rfl,rfl⟩
  · split
    · exact ⟨rfl,rfl⟩
    · split
      · exact ⟨rfl,rfl⟩
      · split
        · exact ⟨rfl,rfl⟩
        · split
          · exact ⟨rfl,rfl⟩
          · exact queueCredential_kept _ _ _

theorem prepCredential_active (s : Session) (f : SynStream) : (s.prepCredential f).1.aob.item = s.aob.item :=
  congrArg Prod.fst (Machine.prepCredential_steps s f Machine.cleanGhost).aob_eq

/-- The id is taken, whatever happens to the stream. -/
theorem takeId_moves {s : Session} (h : Option OutboundItem) (hn : (s.nextStreamId : Int) ≤ int32Max) :
    Moves (conn s h) (conn {s with nextStreamId := s.nextStreamId+2} h) := (Side.takeId (conn s h) hn).moves

theorem prepSynStreamPack_prepares (P : Platform) {s : Session} {item : OutboundItem} {f0 : SynStream} (f : SynStream)
    (ha : s.aob.item = none) (hf : item.frame = .ctrl (.synStream f0)) (hg : s.goawayFlags = false)
    (hn : (s.nextStreamId : Int) ≤ int32Max) : Prepares s item (prepSynStreamPack P s item f) := by
  have hret : ∀ (s' : Session) (f' : SynStream),
      Moves (conn s' (some item)) (conn s' (some {item with frame := .ctrl (.synStream f')})) := by
    intro s' f'
    refine retouch_moves rfl ?_
    rw [hf]
    trivial
  unfold prepSynStreamPack
  dsimp only
  split
  · exact failed_prepares nofun nofun ((takeId_moves _ hn).trans (hret _ _))
  · generalize hr : ({s with nextStreamId := s.nextStreamId+2} : Session).frameAllocPackNv P (s.wireNv P f.nv)
      synStreamNvOffset (frameGetLenSize f.hd.version) = r
    have hc : ∀ h, conn r.1 h = conn {s with nextStreamId := s.nextStreamId+2} h := by
      intro h
      rw [← hr]
      exact conn_frameAllocPackNv P _ _ _ _ h
    cases he : r.2 with
    | error e =>
      obtain ⟨h1,h2⟩ := packed_error (hr ▸ he)
      refine failed_prepares h1 h2 ?_
      rw [hc]
      exact (takeId_moves _ hn).trans (hret _ _)
    | ok block =>
      dsimp only
      generalize hf2 : ({f with streamId := s.nextStreamId, nv := s.appNv P (s.wireNv P f.nv), hd := {f.hd with
        length := synStreamNvOffset-headLen+block.length}} : SynStream) = f2
      have hid : f2.streamId = s.nextStreamId := by rw [← hf2]
      have hfl : f2.hd.flags = f.hd.flags := by rw [← hf2]
      have hret2 := hret s f2
      generalize hi2 : ({item with frame := .ctrl (.synStream f2)} : OutboundItem) = item2 at hret2
      have hfr : item2.frame = .ctrl (.synStream f2) := by rw [← hi2]
      rcases conn_openStream r.1 s.nextStreamId f.hd.flags f.pri .initial (some item2) with
        ⟨ho,hfree,hco⟩ | ⟨ho,es,hq,hco⟩
      · rw [if_pos ho]
        have hnone : (conn s (some item2)).streams f2.streamId = none := by
          have hn := conn_find_none (some item2) hfree
          rw [hc] at hn
          rw [hid]
          exact hn
        have heq : conn (r.1.openStream s.nextStreamId f.hd.flags f.pri .initial).1 (some item2) =
            {conn s (some item2) with nextStreamId := s.nextStreamId+2}.setStream f2.streamId
              (some ⟨.initial,f2.hd.flags,false,false,none⟩) := by
          rw [hco,hc,hid,hfl]
          rfl
        refine .inl ⟨_,rfl,hret2.trans ?_⟩
        rw [conn_activate_ctrl hfr,heq]
        exact (Move.startOwn (conn s (some item2)) item2 f2 _ rfl ha hfr hid hnone hg hn).moves
      · rw [if_neg (by rw [ho]; nofun)]
        refine failed_prepares nofun nofun (hret2.trans ((takeId_moves _ hn).trans ?_))
        rw [hco,← hc]
        exact notes_moves _ _ hq

theorem prepSynStream_prepares (P : Platform) {s : Session} {item : OutboundItem} {f : SynStream}
    (ha : s.aob.item = none) (hf : item.frame = .ctrl (.synStream f)) : Prepares s item (prepSynStream P s item f) := by
  unfold prepSynStream
  cases hp : s.predicateSynStreamSend f with
  | some e => exact refusal_prepares (Machine.predicateSynStreamSend_refusal hp)
  | none =>
    obtain ⟨hg,hn⟩ : s.goawayFlags = false ∧ (s.nextStreamId : Int) ≤ int32Max := by
      unfold predicateSynStreamSend at hp
      split_ifs at hp with h1 h2
      exact ⟨Bool.eq_false_iff.mpr h1,not_lt.mp h2⟩
    dsimp only
    split
    · have hm := prepCredential_moves (s := s) hf
      have hpack : ∀ f' : SynStream, Prepares s item (prepSynStreamPack P (s.prepCredential f).1 item f') :=
        fun f' => .after hm (prepSynStreamPack_prepares P f' ((prepCredential_active s f).trans ha) hf
          ((prepCredential_kept s f).1.trans hg) (by rw [(prepCredential_kept s f).2]; exact hn))
      split
      · have hret : Moves (conn s (some item)) (conn (s.prepCredential f).1 (some {item with
            pri := obPriAfterCredential})) := by
          refine hm.trans (retouch_moves rfl ?_)
          rw [hf]
          trivial
        rcases conn_pushObSs (s.prepCredential f).1 {item with pri := obPriAfterCredential} none with
          ⟨hn,he⟩ | ⟨hn,he⟩
        · rw [hn]
          refine .inr (.inl ⟨.inr rfl,hret.trans ?_⟩)
          have hq := (Move.requeue (conn (s.prepCredential f).1 (some {item with pri := obPriAfterCredential}))
            {item with pri := obPriAfterCredential} rfl (by simp [OutboundItem.isSynStream,hf]) rfl).moves
          dsimp only
          rw [he]
          exact hq
        · rw [hn]
          refine failed_prepares (by rintro ⟨⟩) (by rintro ⟨⟩) ?_
          have hsame := congrArg (fun c : Conn => c.hold (some {item with pri := obPriAfterCredential})) he
          exact (show conn ((s.prepCredential f).1.pushObSs {item with pri := obPriAfterCredential}).1 (some
            {item with pri := obPriAfterCredential}) = conn (s.prepCredential f).1 (some {item with
            pri := obPriAfterCredential}) from hsame) ▸ hret
      · exact hpack _
      · exact hpack _
    · exact prepSynStreamPack_prepares P f ha hf hg hn

/-! DATA. -/

/-- The outcomes of packing. -/
theorem conn_packData (s : Session) (seq : Nat) (d : DataFrame) (datamax : Nat) :
    (∃ bytes frame, (s.packData seq d datamax).2.2 = .ok frame ∧ (s.packData seq d datamax).2.1.streamId = d.streamId ∧
      ∀ h, conn (s.packData seq d datamax).1 h = (conn s h).note (.read seq d.streamId bytes)) ∨
    (∃ e, (s.packData seq d datamax).2.2 = .error e ∧ (s.packData seq d datamax).2.1 = d ∧
      (∀ h, conn (s.packData seq d datamax).1 h = conn s h) ∧
      (e = .nomem ∨ e = .deferred ∨ e = .temporalCallbackFailure ∨ e = .callbackFailure)) := by
  have hconn := conn_reserveFramebuf s (datamax+8)
  unfold packData
  dsimp only
  split
  · rename_i e he
    exact .inr ⟨e,rfl,rfl,hconn,.inl (Machine.reserveFramebuf_error s _ e he)⟩
  · split
    · exact .inr ⟨_,rfl,rfl,hconn,.inr (.inl rfl)⟩
    · exact .inr ⟨_,rfl,rfl,hconn,.inr (.inr (.inl rfl))⟩
    · exact .inr ⟨_,rfl,rfl,hconn,.inr (.inr (.inr rfl))⟩
    · rename_i bytes eof _
      split
      · exact .inr ⟨_,rfl,rfl,hconn,.inr (.inr (.inr rfl))⟩
      · refine .inl ⟨bytes,_,rfl,rfl,fun h => ?_⟩
        exact congrArg (fun c : Conn => c.note (.read seq d.streamId bytes)) (hconn h)

theorem conn_deferData {s : Session} {id : Int} {st : Stream} (h : Option OutboundItem)
    (hst : s.getStream id = some st) (hfree : st.deferredData = none) (item : OutboundItem) (fc : Bool) :
    conn (s.deferData st item fc).1 h = (conn s h).setStream id (some {life st with deferred := some item}) := by
  rw [Machine.deferData_free hfree,OrderedTable.find_key hst]
  refine (conn_modifyStream s id _ _ (fun l => {l with deferred := some item}) (fun _ => rfl) h).trans ?_
  exact conn_modify_some h hst _

theorem defer_moves {s : Session} {item : OutboundItem} {d : DataFrame} {st : Stream} (fc : Bool)
    (hf : item.frame = .data d) (hst : s.getStream d.streamId = some st) (hfree : st.deferredData = none) :
    Moves (conn s (some item)) (conn (s.deferData st item fc).1 none) := by
  rw [conn_deferData none hst hfree]
  exact (Move.defer (conn s (some item)) item d (life st) rfl hf (conn_find _ hst) hfree).moves

theorem deferData_error {s : Session} {st : Stream} {item : OutboundItem} {fc : Bool} (hfree : st.deferredData = none) :
    (s.deferData st item fc).2.getD .deferred = .deferred := by
  rw [Machine.deferData_free hfree]
  rfl

theorem sameFrame_data {item : OutboundItem} {d d' : DataFrame} (hf : item.frame = .data d)
    (hid : d'.streamId = d.streamId) : SameFrame item.frame (.data d') := by
  rw [hf]
  exact hid

theorem prepData_prepares {s : Session} {item : OutboundItem} {d : DataFrame} (ha : s.aob.item = none)
    (hf : item.frame = .data d) : Prepares s item (s.prepData item d) := by
  unfold prepData
  cases hp : s.predicateDataSend d.streamId with
  | some e => exact refusal_prepares (Machine.predicateDataSend_refusal hp)
  | none =>
    obtain ⟨st,hst,hw,hfree⟩ := data_mayStart none hp
    rw [hst]
    dsimp only
    split
    · rw [deferData_error hfree]
      exact .inr (.inl ⟨.inl rfl,defer_moves true hf hst hfree⟩)
    · rcases conn_packData s item.seq d (s.nextDataRead st) with ⟨bytes,frame,hr,hid,hc⟩ | ⟨e,hr,hd,hc,he⟩
      · rw [hr]
        refine .inl ⟨frame,rfl,?_⟩
        generalize hitem : ({item with frame := .data (s.packData item.seq d (s.nextDataRead st)).2.1} : OutboundItem) = item'
        have hfr : item'.frame = .data (s.packData item.seq d (s.nextDataRead st)).2.1 := by rw [← hitem]
        have hseq : item'.seq = item.seq := by rw [← hitem]
        refine (retouch_moves hseq (by rw [hfr]; exact sameFrame_data hf hid)).trans ?_
        have hm : (conn s (some item')).MayStart (.data (s.packData item.seq d (s.nextDataRead st)).2.1) := by
          refine ⟨life st,?_,hfree⟩
          rw [hid]
          exact hw
        have hs := (Move.startData (conn s (some item')) item' _ bytes frame rfl ha hfr hm).moves
        rw [hid,hseq] at hs
        rw [conn_activate_data hfr,hc,hseq]
        refine Eq.mp (congrArg (Moves _) ?_) hs
        simp [Conn.note,Conn.notes,hold]
      · have hret : Moves (conn s (some item)) (conn (s.packData item.seq d (s.nextDataRead st)).1 (some
            {item with frame := .data (s.packData item.seq d (s.nextDataRead st)).2.1})) := by
          rw [hc]
          exact retouch_moves rfl (sameFrame_data hf (by rw [hd]))
        have hst' : (s.packData item.seq d (s.nextDataRead st)).1.getStream d.streamId = some st := by
          have hcore := Machine.packData_cases s item.seq d (s.nextDataRead st)
          rcases hcore with ⟨b,fin,hr',-⟩ | ⟨e',hr',hd',hcore,-⟩
          · rw [hr] at hr'
            cases hr'
          · exact (congrArg (fun c : Machine.Core => c.streams.find d.streamId) (hcore Machine.cleanGhost)).trans hst
        rw [hr]
        rcases he with rfl | rfl | rfl | rfl
        · exact failed_prepares (by rintro ⟨⟩) (by rintro ⟨⟩) hret
        · dsimp only
          rw [deferData_error hfree]
          exact .inr (.inl ⟨.inl rfl,hret.trans (defer_moves false (by rw [hd]) hst' hfree)⟩)
        · have hrst := hret.trans (addRstStream_moves (s.packData item.seq d (s.nextDataRead st)).1 d.streamId
            internalError (some {item with frame := .data (s.packData item.seq d (s.nextDataRead st)).2.1}))
          dsimp only
          cases hq : ((s.packData item.seq d (s.nextDataRead st)).1.addRstStream d.streamId internalError).2 with
          | none => exact failed_prepares (by rintro ⟨⟩) (by rintro ⟨⟩) hrst
          | some e' =>
            cases Machine.addCtrl_error _ _ _ hq
            exact failed_prepares (by rintro ⟨⟩) (by rintro ⟨⟩) hrst
        · exact failed_prepares (by rintro ⟨⟩) (by rintro ⟨⟩) hret

theorem prepFrame_prepares (P : Platform) {s : Session} {item : OutboundItem} (ha : s.aob.item = none) :
    Prepares s item (prepFrame P s item) := by
  unfold prepFrame
  split
  · rename_i f hf
    exact prepSynStream_prepares P ha hf
  · rename_i f hf
    cases hp : s.predicateSynReplySend f.streamId with
    | some e => exact refusal_prepares (Machine.predicateSynReplySend_refusal hp)
    | none =>
      refine prepStreamHeaders_prepares P .synReply .synReply f ha ?_ ?_
      · intro f' hid
        rw [hf]
        exact hid
      · intro f' h hid
        exact synReply_mayStart h (hid ▸ hp)
  · rename_i f hf
    exact prepFixed_prepares ha hf trivial
  · rename_i f hf
    refine prepPacked_prepares ha hf trivial ?_
    intro e he
    unfold framePackSettings at he
    split at he <;> cases he
    rfl
  · rename_i f hf
    exact prepFixed_prepares ha hf trivial
  · rename_i f hf
    cases hp : s.predicateHeadersSend f.streamId with
    | some e => exact refusal_prepares (Machine.predicateHeadersSend_refusal hp)
    | none =>
      refine prepStreamHeaders_prepares P .headers .headers f ha ?_ ?_
      · intro f' hid
        rw [hf]
        exact hid
      · intro f' h hid
        exact headers_mayStart h (hid ▸ hp)
  · rename_i f hf
    cases hp : s.predicateWindowUpdateSend f.streamId with
    | some e => exact refusal_prepares (Machine.predicateWindowUpdateSend_refusal hp)
    | none => exact prepFixed_prepares ha hf (windowUpdate_mayStart _ hp)
  · rename_i f hf
    split
    · exact refused_prepares nofun nofun
    · rename_i hg
      refine prepPacked_prepares ha hf (Bool.eq_false_iff.mpr hg) ?_
      intro e he
      unfold framePackGoaway at he
      split_ifs at he
      cases he
      rfl
  · rename_i f hf
    exact prepFixed_prepares ha hf trivial
  · rename_i d hf
    exact prepData_prepares ha hf

/-! A frame is complete. -/

theorem conn_activeReset {s : Session} {item : OutboundItem} (ha : s.aob.item = some item) (cause : Finish)
    (h : Option OutboundItem) : conn (s.activeReset cause) h = ((conn s h).note (.finished item.seq cause)).take := by
  unfold activeReset
  rw [ha]
  rfl

theorem conn_activeTake (s : Session) (h : Option OutboundItem) : conn s.activeTake h = (conn s h).take := rfl

theorem activeReset_moves {s : Session} {item : OutboundItem} (cause : Finish) (ha : s.aob.item = some item)
    (hc : ∀ f, item.frame = .ctrl f → .ctrlSend f ∈ s.host.log)
    (hr : ∀ f, item.frame = .ctrl (.rstStream f) → (conn s none).streams f.streamId = none) :
    Moves (conn s none) (conn (s.activeReset cause) none) := by
  rw [conn_activeReset ha]
  exact (Move.finish _ item cause ha hc hr).moves

/-- A DATA item may be freed at any time. -/
theorem activeReset_data_moves {s : Session} {item : OutboundItem} {d : DataFrame} (cause : Finish)
    (ha : s.aob.item = some item) (hf : item.frame = .data d) : Moves (conn s none) (conn (s.activeReset cause) none) := by
  refine activeReset_moves cause ha ?_ ?_
  · intro f h
    rw [hf] at h
    cases h
  · intro f h
    rw [hf] at h
    cases h

theorem submitBody_moves (s : Session) (id : Int) (prd : Option DataProvider) :
    Moves (conn s none) (conn (s.submitBody id prd).1 none) := by
  cases prd with
  | none => exact .refl
  | some prd =>
    have h := submitData_moves s id 1 prd none
    unfold submitBody
    dsimp only
    split
    · exact h
    · exact h

theorem sent_modify_none {c : Conn} {id : Int} (g : Life → Life) (h : c.streams id = none) : c.modify id g = c := by
  have hs := setStream_self c id
  unfold Conn.modify
  rw [h] at hs ⊢
  exact hs

theorem complete_moves {s : Session} {item : OutboundItem} {f : Frame} (ha : s.aob.item = some item)
    (hf : item.frame = .ctrl f) : Moves (conn s none) ((conn s none).sent f) :=
  (Side.complete (conn s none) item f ha hf).moves

theorem moves_of_eq {c c' : Conn} (h : c = c') : Moves c c' := h ▸ .refl

theorem afterSynStreamSent_moves (s : Session) (item : OutboundItem) (f : SynStream) :
    Moves ((conn s none).sent (.synStream f)) (conn ((s.emit (.ctrlSend (.synStream f))).afterSynStreamSent item f).1 none) := by
  unfold afterSynStreamSent sent
  dsimp only
  rw [← conn_emit]
  generalize s.emit (.ctrlSend (.synStream f)) = s1
  cases hst : s1.getStream f.streamId with
  | none => exact moves_of_eq (sent_modify_none _ (conn_find_none none hst))
  | some st =>
    have h1 := conn_setState s1 f.streamId .opening none
    rw [conn_modify_some none hst] at h1
    have h2 := conn_shutRd_if (flagUnidirectional f.hd.flags) (conn_shutWr_if (flagFin f.hd.flags) h1)
    refine (moves_of_eq ?_).trans ((closeStreamIfShutRdwr_moves _ f.streamId none).trans
      (submitBody_moves _ f.streamId item.aux))
    rw [h2,conn_modify_some none hst]

theorem afterSynReplySent_moves (s : Session) (item : OutboundItem) (f : StreamHeaders) :
    Moves ((conn s none).sent (.synReply f)) (conn ((s.emit (.ctrlSend (.synReply f))).afterSynReplySent item f).1 none) := by
  unfold afterSynReplySent sent
  dsimp only
  rw [← conn_emit]
  generalize s.emit (.ctrlSend (.synReply f)) = s1
  cases hst : s1.getStream f.streamId with
  | none => exact moves_of_eq (sent_modify_none _ (conn_find_none none hst))
  | some st =>
    have h1 := conn_setState s1 f.streamId .opened none
    rw [conn_modify_some none hst] at h1
    have h2 := conn_shutWr_if (flagFin f.hd.flags) h1
    refine (moves_of_eq ?_).trans ((closeStreamIfShutRdwr_moves _ f.streamId none).trans
      (submitBody_moves _ f.streamId item.aux))
    rw [h2,conn_modify_some none hst]

theorem afterHeadersSent_moves (s : Session) (f : StreamHeaders) :
    Moves ((conn s none).sent (.headers f)) (conn ((s.emit (.ctrlSend (.headers f))).afterHeadersSent f) none) := by
  unfold afterHeadersSent sent
  dsimp only
  rw [← conn_emit]
  generalize s.emit (.ctrlSend (.headers f)) = s1
  cases hst : s1.getStream f.streamId with
  | none => exact moves_of_eq (sent_modify_none _ (conn_find_none none hst))
  | some st =>
    have h1 : conn s1 none = (conn s1 none).setStream f.streamId (some (life st)) := by
      rw [← conn_find none hst,setStream_self]
    have h2 := conn_shutWr_if (flagFin f.hd.flags) h1
    refine (moves_of_eq ?_).trans (closeStreamIfShutRdwr_moves _ f.streamId none)
    rw [h2,conn_modify_some none hst]

theorem afterRstStreamSent_moves (s : Session) (f : RstStream) :
    Moves ((conn s none).sent (.rstStream f)) (conn ((s.emit (.ctrlSend (.rstStream f))).afterRstStreamSent f) none) := by
  unfold afterRstStreamSent
  exact (ite_moves (closePushedStreams_moves (s.emit (.ctrlSend (.rstStream f))) f.streamId f.statusCode none)).trans
    (closeStream_moves _ _ _ none)

/-- What follows the completion of a control frame. -/
theorem afterCtrlSent_sent (s : Session) (item : OutboundItem) (f : Frame) :
    Moves ((conn s none).sent f) (conn ((s.emit (.ctrlSend f)).afterCtrlSent item f).1 none) := by
  cases f with
  | synStream f => exact afterSynStreamSent_moves s item f
  | synReply f => exact afterSynReplySent_moves s item f
  | rstStream f => exact afterRstStreamSent_moves s f
  | headers f => exact afterHeadersSent_moves s f
  | settings f => exact .refl
  | ping f => exact .refl
  | goaway f => exact .refl
  | windowUpdate f => exact .refl
  | credential f => exact .refl

/-- The stream of a complete RST_STREAM is gone. -/
theorem afterCtrlSent_gone (s : Session) (item : OutboundItem) (f : RstStream) :
    (conn (s.afterCtrlSent item (.rstStream f)).1 none).streams f.streamId = none := closeStream_gone _ _ _ none

theorem afterCtrlSent_active (s : Session) (item : OutboundItem) (f : Frame) :
    (s.afterCtrlSent item f).1.aob.item = s.aob.item :=
  congrArg Prod.fst (Machine.afterCtrlSent_steps s item f Machine.cleanGhost).aob_eq

/-! DATA is complete. -/

theorem afterDataFin_moves {s : Session} {item : OutboundItem} {d : DataFrame} (length : Nat)
    (ha : s.aob.item = some item) (hf : item.frame = .data d) :
    Moves (conn s none) (conn ((s.emit (.dataSend (if d.eof then d.flags else 0) d.streamId length)).afterDataFin d)
      none) := by
  have hm := (Side.completeData (conn s none) item d length ha hf).moves
  unfold sentData at hm
  rw [← conn_emit] at hm
  generalize s.emit (.dataSend (if d.eof then d.flags else 0) d.streamId length) = s1 at hm
  unfold afterDataFin
  cases hst : s1.getStream d.streamId with
  | none =>
    rw [sent_modify_none _ (conn_find_none none hst)] at hm
    split <;> exact hm
  | some st =>
    have h1 : conn s1 none = (conn s1 none).setStream d.streamId (some (life st)) := by
      rw [← conn_find none hst,setStream_self]
    have h2 := conn_shutWr_if (d.eof && flagFin d.flags) h1
    rw [conn_modify_some none hst] at hm
    split
    · rename_i hc
      rw [if_pos (by simpa using hc)] at h2
      refine Relation.ReflTransGen.trans ?_ (closeStreamIfShutRdwr_moves _ d.streamId none)
      rw [h2]
      exact hm
    · rename_i hc
      rw [if_neg (by simpa using hc)] at h2
      rw [h2]
      exact hm

theorem parkActive_moves {s : Session} {item : OutboundItem} {d : DataFrame} {st : Stream} (item' : OutboundItem) (fc : Bool)
    (ha : s.aob.item = some item) (hseq : item'.seq = item.seq) (hsame : SameFrame item.frame item'.frame)
    (hf : item'.frame = .data d) (hst : s.getStream d.streamId = some st) (hfree : st.deferredData = none) :
    Moves (conn s none) (conn (s.deferData st item' fc).1.activeTake none) := by
  rw [conn_activeTake,conn_deferData none hst hfree]
  exact (Move.parkActive (conn s none) item item' d (life st) ha hseq hsame hf (conn_find none hst) hfree).moves

theorem continueData_moves {s : Session} {item : OutboundItem} {d : DataFrame} {st : Stream}
    (ha : s.aob.item = some item) (hf : item.frame = .data d) (hst : s.getStream d.streamId = some st)
    (hw : (conn s none).Writable d.streamId (life st)) (hfree : st.deferredData = none) :
    Moves (conn s none) (conn (s.continueData item d st).1 none) := by
  have hnone : ∀ (s1 : Session) item' fc, (s1.deferData st item' fc).2 = none := by
    intro s1 item' fc
    rw [Machine.deferData_free hfree]
  unfold continueData
  dsimp only
  split
  · rw [hnone]
    refine parkActive_moves _ true ha rfl ?_ hf hst hfree
    have hs : SameFrame item.frame (.data d) := sameFrame_data hf rfl
    rwa [← hf] at hs
  · generalize hp : s.packData item.seq d (s.nextDataRead st) = p
    have hcases := conn_packData s item.seq d (s.nextDataRead st)
    rw [hp] at hcases
    rcases hcases with ⟨bytes,frame,hr,hid,hc⟩ | ⟨e,hr,hd,hc,he⟩
    · rw [hr]
      have hm : (conn s none).MayStart (.data p.2.1) := by
        refine ⟨life st,?_,hfree⟩
        rw [hid]
        exact hw
      have hx := (Move.continue (conn s none) item {item with frame := .data p.2.1} p.2.1 bytes frame ha rfl
        (sameFrame_data hf hid) rfl hm).moves
      rw [hid] at hx
      refine Eq.mp (congrArg (Moves _) ?_) hx
      have hn := congrArg (fun c : Conn => ({c with active := some {item with frame := .data p.2.1}} : Conn).note
        (.prepared item.seq frame)) (hc none)
      refine Eq.trans ?_ hn.symm
      simp [Conn.note,Conn.notes]
    · have ha' : p.1.aob.item = some item := (congrArg Conn.active (hc none)).trans ha
      have hst' : p.1.getStream d.streamId = some st := by
        have hcore := Machine.packData_cases s item.seq d (s.nextDataRead st)
        rw [hp] at hcore
        rcases hcore with ⟨b,fin,hr',-⟩ | ⟨e',hr',hd',hcore,-⟩
        · rw [hr] at hr'
          cases hr'
        · exact (congrArg (fun c : Machine.Core => c.streams.find d.streamId) (hcore Machine.cleanGhost)).trans hst
      have hreset : ∀ cause, Moves _ (conn (p.1.activeReset cause) none) := fun cause => activeReset_data_moves cause ha' hf
      rw [hc] at hreset
      rw [hr]
      rcases he with rfl | rfl | rfl | rfl
      · exact hreset _
      · dsimp only
        rw [hnone]
        have hpk := parkActive_moves {item with frame := .data p.2.1} false ha' rfl
          (sameFrame_data hf (by rw [hd])) (by rw [hd]) hst' hfree
        rw [hc] at hpk
        exact hpk
      · have hrst := addRstStream_moves p.1 d.streamId internalError none
        rw [hc] at hrst
        refine hrst.trans (activeReset_data_moves _ ?_ hf)
        exact (congrArg Prod.fst (Machine.addCtrl_steps p.1 _ Machine.cleanGhost).aob_eq).trans ha'
      · exact hreset _

theorem afterDataSent_moves {s : Session} {item : OutboundItem} {d : DataFrame} (ha : s.aob.item = some item)
    (hf : item.frame = .data d) : Moves (conn s none) (conn (s.afterDataSent item d).1 none) := by
  have h1 := afterDataFin_moves (s.aob.framebuf.length-headLen) ha hf
  have ha1 : ((s.emit (.dataSend (if d.eof then d.flags else 0) d.streamId
      (s.aob.framebuf.length-headLen))).afterDataFin d).aob.item = some item :=
    (congrArg Prod.fst (Machine.afterDataFin_steps _ d Machine.cleanGhost).aob_eq).trans ha
  unfold afterDataSent
  dsimp only
  generalize ((s.emit (.dataSend (if d.eof then d.flags else 0) d.streamId
    (s.aob.framebuf.length-headLen))).afterDataFin d) = s1 at h1 ha1 ⊢
  refine h1.trans ?_
  have hreset : ∀ (s2 : Session) (cause : Finish), s2.aob.item = some item →
      Moves (conn s2 none) (conn (s2.activeReset cause) none) :=
    fun s2 cause h2 => activeReset_data_moves cause h2 hf
  split
  · exact hreset s1 _ ha1
  · rename_i hp
    have hp : s1.predicateDataSend d.streamId = none := by simpa using fun h => hp (.inr h)
    obtain ⟨st,hst,hw,hfree⟩ := data_mayStart none hp
    split
    · rw [hst]
      exact continueData_moves ha1 hf hst hw hfree
    · rcases conn_pushOb s1 item none with ⟨hn,he⟩ | ⟨hn,he⟩
      · rw [hn]
        dsimp only
        rw [conn_activeTake,he]
        exact (Move.requeueActive (conn s1 none) item d ha1 hf).moves
      · rw [hn]
        have hr := hreset (s1.pushOb item).1 (.failed .nomem) ((congrArg Conn.active he).trans ha1)
        rw [he] at hr
        exact hr

/-- A control frame is complete, and all that follows from it. -/
theorem afterFrameSent_sent {s : Session} {item : OutboundItem} {f : Frame} (ha : s.aob.item = some item)
    (hf : item.frame = .ctrl f) : Moves ((conn s none).sent f) (conn s.afterFrameSent.1 none) := by
  have h1 := afterCtrlSent_sent s item f
  unfold afterFrameSent
  rw [ha]
  dsimp only
  rw [hf]
  dsimp only
  split
  · refine h1.trans (activeReset_moves .sent ((afterCtrlSent_active _ item f).trans ha) ?_ ?_)
    · intro g hg
      rw [hf] at hg
      cases hg
      have hlog := (Machine.afterCtrlSent_steps (s.emit (.ctrlSend f)) item f Machine.cleanGhost).outSteps.log_prefix
      exact hlog.subset (List.mem_append_right _ (.head _))
    · intro g hg
      rw [hf] at hg
      cases hg
      exact afterCtrlSent_gone _ item g
  · exact h1

theorem afterFrameSent_moves {s : Session} {item : OutboundItem} (ha : s.aob.item = some item) :
    Moves (conn s none) (conn s.afterFrameSent.1 none) := by
  cases hf : item.frame with
  | ctrl f => exact (complete_moves ha hf).trans (afterFrameSent_sent ha hf)
  | data d =>
    unfold afterFrameSent
    rw [ha]
    dsimp only
    rw [hf]
    exact afterDataSent_moves ha hf

/-! The loop. -/

theorem conn_debit (s : Session) (item : OutboundItem) (h : Option OutboundItem) :
    conn (s.debit item) h = conn s h := by
  unfold Session.debit
  split
  · split
    · refine conn_modifyStream_hidden s _ _ _ ?_ h
      exact fun _ => rfl
    · rfl
  · rfl

/-- The state in which the written bytes have been counted. -/
theorem sendAccepted_cases {s : Session} {item : OutboundItem} (n : Nat) (ha : s.aob.item = some item) :
    ∃ (bytes : Bytes) (s1 : Session), conn s1 none = (conn s none).note (.sent bytes) ∧ s1.aob.item = some item ∧
      ((s.sendAccepted item n).1 = s1 ∨ (s.sendAccepted item n).1 = s1.afterFrameSent.1) := by
  unfold sendAccepted
  dsimp only
  generalize hs1 : Session.debit _ item = s1
  have hc : conn s1 none = (conn s none).note (.sent ((s.aob.framebuf.drop s.aob.framebufoff).take
      (min n (s.aob.framebuf.length-s.aob.framebufoff)))) := by
    rw [← hs1,conn_debit]
    rfl
  refine ⟨_,s1,hc,(congrArg Conn.active hc).trans ha,?_⟩
  split
  · right
    split <;> rfl
  · exact .inl rfl

theorem sendAccepted_moves {s : Session} {item : OutboundItem} (n : Nat) (ha : s.aob.item = some item) :
    Moves (conn s none) (conn (s.sendAccepted item n).1 none) := by
  obtain ⟨bytes,s1,hc,ha1,h⟩ := sendAccepted_cases n ha
  have hm : Moves (conn s none) (conn s1 none) := by
    rw [hc]
    exact (Side.note _ _ rfl).moves
  rcases h with h | h
  · rw [h]
    exact hm
  · rw [h]
    exact hm.trans (afterFrameSent_moves ha1)

theorem sendWrite_moves {s : Session} {item : OutboundItem} (ha : s.aob.item = some item) :
    Moves (conn s none) (conn (s.sendWrite item).1 none) := by
  unfold sendWrite
  dsimp only
  split
  · exact .refl
  · exact .refl
  · exact sendAccepted_moves (s := {s with host := {s.host with sends := s.host.sends.tail}}) _ ha

/-- A write leaves the streams alone, or completes the control frame first. -/
theorem sendWrite_ctrl {s : Session} {item : OutboundItem} {f : Frame} (ha : s.aob.item = some item)
    (hf : item.frame = .ctrl f) : (conn (s.sendWrite item).1 none).streams = (conn s none).streams ∨
      ∃ bytes, Moves (((conn s none).note (.sent bytes)).sent f) (conn (s.sendWrite item).1 none) := by
  unfold sendWrite
  dsimp only
  split
  · exact .inl rfl
  · exact .inl rfl
  · rename_i n _
    obtain ⟨bytes,s1,hc,ha1,h⟩ :=
      sendAccepted_cases (s := {s with host := {s.host with sends := s.host.sends.tail}}) n ha
    rcases h with h | h
    · rw [h,hc]
      exact .inl rfl
    · have hm := afterFrameSent_sent ha1 hf
      rw [hc] at hm
      rw [h]
      exact .inr ⟨bytes,hm⟩

theorem popNextObItem_moves {s s' : Session} {item : OutboundItem} (ha : s.aob.item = none)
    (h : s.popNextObItem = some (item,s')) :
    Moves (conn s none) (conn s' (some item)) ∧ s'.aob = s.aob := by
  unfold popNextObItem at h
  split at h
  · cases h
  · rename_i syn _ ht
    split at h <;> cases h
    exact ⟨(Move.popSyn (conn s none) _ ha rfl ht).moves,rfl⟩
  · rename_i it ht hs
    cases h
    have hnil : s.obSsPq.q = [] := by
      unfold pqTop BinaryHeap.top at hs
      simpa using hs
    exact ⟨(Move.pop (conn s none) _ ha rfl ht hnil).moves,rfl⟩
  · rename_i ht
    cases h
    exact ⟨(Move.popSyn (conn s none) _ ha rfl ht).moves,rfl⟩

theorem dropItem_moves (s : Session) (item : OutboundItem) (e : Err) :
    Moves (conn s (some item)) (conn (s.dropItem item e) none) := by
  have hdrop : ∀ s' : Session, Moves (conn s' (some item)) (conn (s'.emit (.finished item.seq (.dropped e))) none) :=
    fun s' => (Move.drop (conn s' (some item)) item e rfl).moves
  unfold dropItem
  dsimp only
  split
  · exact hdrop s
  · rename_i f _ _
    exact (ite_moves (note_moves s (.ctrlNotSend f e) (some item) rfl)).trans (hdrop _)
  · exact hdrop s

theorem prepareNext_moves (P : Platform) {s : Session} (ha : s.aob.item = none) :
    Moves (conn s none) (conn (s.prepareNext P) none) := by
  unfold prepareNext
  cases hpop : s.popNextObItem with
  | none => exact .refl
  | some r =>
    obtain ⟨item,s1⟩ := r
    obtain ⟨hm,haob⟩ := popNextObItem_moves ha hpop
    have hp : Prepares s1 item (prepFrame P s1 item) := prepFrame_prepares P (by rw [haob,ha])
    dsimp only
    rcases hp with ⟨bytes,hr,hp⟩ | ⟨hr,hp⟩ | ⟨e,hnd,hnc,hr,hp⟩
    · rw [hr]
      exact hm.trans hp
    · rcases hr with hr | hr
      · rw [hr]
        exact hm.trans hp
      · rw [hr]
        exact hm.trans hp
    · have hfin := (hm.trans hp).trans (dropItem_moves _ (s1.prepFrame P item).item e)
      rw [hr]
      cases e with
      | deferred => exact absurd rfl hnd
      | credentialPending => exact absurd rfl hnc
      | _ => exact hfin

end Spdylay.Protocol
