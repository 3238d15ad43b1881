import Spdylay.Session.Turns
import Spdylay.Machine.Queueing

/-! The send loop as moves of the machine. -/
namespace Spdylay.Machine
open Library Session

def Ghost.holding (g : Ghost) (item : Option OutboundItem) : Ghost := {g with hand := item}

/-- What preparing the item in hand does: the item is activated, or it has found
another place, or it is still in hand and will be dropped. -/
def Prepares (s : Session) (g : Ghost) (p : Prep) : Prop :=
  match p.result with
  | .ok bytes => OutSteps (core s g) (core (p.ses.activate p.item bytes) (g.holding none))
  | .error .deferred => OutSteps (core s g) (core p.ses (g.holding none))
  | .error .credentialPending => OutSteps (core s g) (core p.ses (g.holding none))
  | .error _ => OutSteps (core s g) (core p.ses (g.holding (some p.item)))

theorem Prepares.outcomes {s : Session} {g : Ghost} {p : Prep} (h : Prepares s g p) :
    (∃ bytes, p.result = .ok bytes ∧ OutSteps (core s g) (core (p.ses.activate p.item bytes) (g.holding none))) ∨
    ((p.result = .error .deferred ∨ p.result = .error .credentialPending) ∧
      OutSteps (core s g) (core p.ses (g.holding none))) ∨
    (∃ e, e ≠ .deferred ∧ e ≠ .credentialPending ∧ p.result = .error e ∧
      OutSteps (core s g) (core p.ses (g.holding (some p.item)))) := by
  unfold Prepares at h
  split at h
  · rename_i bytes hr
    exact .inl ⟨bytes,hr,h⟩
  · rename_i hr
    exact .inr (.inl ⟨.inl hr,h⟩)
  · rename_i hr
    exact .inr (.inl ⟨.inr hr,h⟩)
  · rename_i e hnd hnc hr
    exact .inr (.inr ⟨e,hnd,hnc,hr,h⟩)

theorem SameItem.rfl' (item : OutboundItem) : SameItem item item :=
  ⟨rfl,rfl,fun d h => ⟨d,h,rfl⟩,fun f h => ⟨f,h⟩⟩

theorem SameItem.ofCtrl {item item' : OutboundItem} {f f' : Frame} (h : item.frame = .ctrl f)
    (h' : item'.frame = .ctrl f') (hs : item'.seq = item.seq) (hy : item'.isSynStream = item.isSynStream) :
    SameItem item item' := by
  refine ⟨hs,hy,?_,fun _ _ => ⟨f',h'⟩⟩
  intro d hd
  rw [h] at hd
  cases hd

theorem holding_self {s : Session} {g : Ghost} {item : OutboundItem} (hg : g.hand = some item) :
    core s (g.holding (some item)) = core s g := by
  unfold Ghost.holding
  rw [← hg]

/-- The item in hand may be replaced by another version of itself. -/
theorem retouch_steps {s : Session} {g : Ghost} {item item' : OutboundItem} (hg : g.hand = some item)
    (h : SameItem item item') : OutSteps (core s g) (core s (g.holding (some item'))) :=
  (Outb.retouch (core s g) item item' hg h).steps

/-- Activating a control item that is in hand. -/
theorem activate_steps {s : Session} {g : Ghost} {item : OutboundItem} {f : Frame} {bytes : Bytes}
    (ha : s.aob.item = none) (hf : item.frame = .ctrl f) (hb : bytes ≠ []) :
    OutSteps (core s (g.holding (some item))) (core (s.activate item bytes) (g.holding none)) := by
  have h := (Outb.activate (core s (g.holding (some item))) item f bytes rfl ha hf hb).steps
  refine h.tail (.inl ?_)
  have hx := Act.note (((core s (g.holding (some item))).begin item bytes).setHand none) (.beforeCtrlSend f) rfl
  unfold Session.activate
  rw [hf]
  exact hx

/-- A failed preparation that leaves the item in hand. -/
theorem Prepares.failed {s s' : Session} {g : Ghost} {item : OutboundItem} {e : Err}
    (h : OutSteps (core s g) (core s' (g.holding (some item)))) (hd : e ≠ .deferred) (hc : e ≠ .credentialPending) :
    Prepares s g ⟨s',item,.error e⟩ := by
  unfold Prepares
  dsimp only
  split
  · rename_i hr
    cases hr
  · rename_i hr
    cases hr
    exact absurd rfl hd
  · rename_i hr
    cases hr
    exact absurd rfl hc
  · exact h

theorem Prepares.activated {s s' : Session} {g : Ghost} {item : OutboundItem} {f : Frame} {bytes : Bytes}
    (h : OutSteps (core s g) (core s' (g.holding (some item)))) (ha : s'.aob.item = none)
    (hf : item.frame = .ctrl f) (hb : bytes ≠ []) : Prepares s g ⟨s',item,.ok bytes⟩ :=
  h.trans (activate_steps ha hf hb)

theorem Prepares.unchanged {s : Session} {g : Ghost} {item : OutboundItem} {e : Err} (hg : g.hand = some item)
    (hd : e ≠ .deferred) (hc : e ≠ .credentialPending) : Prepares s g ⟨s,item,.error e⟩ :=
  .failed (by rw [holding_self hg]) hd hc

/-! Frames that may not be sent. -/

/-- An error for which an item is dropped and the loop goes on. -/
structure Refusal (e : Err) : Prop where
  deferred : e ≠ .deferred
  pending : e ≠ .credentialPending
  nonFatal : isFatal e = false

theorem Prepares.refused {s : Session} {g : Ghost} {item : OutboundItem} {e : Err} (hg : g.hand = some item)
    (h : Refusal e) : Prepares s g ⟨s,item,.error e⟩ := .unchanged hg h.deferred h.pending

theorem predicateSynStreamSend_refusal {s : Session} {f : SynStream} {e : Err}
    (h : s.predicateSynStreamSend f = some e) : Refusal e := by
  unfold predicateSynStreamSend at h
  split_ifs at h <;> cases h <;> exact ⟨nofun,nofun,rfl⟩

theorem predicateSynReplySend_refusal {s : Session} {streamId : Int} {e : Err}
    (h : s.predicateSynReplySend streamId = some e) : Refusal e := by
  unfold predicateSynReplySend at h
  split at h
  · cases h
    exact ⟨nofun,nofun,rfl⟩
  · split at h
    · cases h
      exact ⟨nofun,nofun,rfl⟩
    · split at h
      · cases h
        exact ⟨nofun,nofun,rfl⟩
      · split at h <;> cases h <;> exact ⟨nofun,nofun,rfl⟩

theorem predicateState_refusal {s : Session} {streamId : Int} {st : Stream} {e : Err}
    (h : s.predicateState streamId st = some e) : Refusal e := by
  unfold predicateState at h
  split at h
  · split at h <;> cases h
    exact ⟨nofun,nofun,rfl⟩
  · split at h <;> cases h <;> exact ⟨nofun,nofun,rfl⟩

theorem predicateHeadersSend_refusal {s : Session} {streamId : Int} {e : Err}
    (h : s.predicateHeadersSend streamId = some e) : Refusal e := by
  unfold predicateHeadersSend at h
  split at h
  · cases h
    exact ⟨nofun,nofun,rfl⟩
  · split at h
    · cases h
      exact ⟨nofun,nofun,rfl⟩
    · exact predicateState_refusal h

theorem predicateWindowUpdateSend_refusal {s : Session} {streamId : Int} {e : Err}
    (h : s.predicateWindowUpdateSend streamId = some e) : Refusal e := by
  unfold predicateWindowUpdateSend at h
  split at h
  · cases h
    exact ⟨nofun,nofun,rfl⟩
  · split at h <;> cases h
    exact ⟨nofun,nofun,rfl⟩

theorem predicateDataSend_refusal {s : Session} {streamId : Int} {e : Err}
    (h : s.predicateDataSend streamId = some e) : Refusal e := by
  unfold predicateDataSend at h
  split at h
  · cases h
    exact ⟨nofun,nofun,rfl⟩
  · split at h
    · cases h
      exact ⟨nofun,nofun,rfl⟩
    · split at h
      · cases h
        exact ⟨nofun,nofun,rfl⟩
      · exact predicateState_refusal h

/-! Memory. -/

theorem core_reserveFramebuf (s : Session) (n : Nat) (g : Ghost) : core (s.reserveFramebuf n).1 g = core s g := by
  unfold reserveFramebuf
  split_ifs <;> rfl

theorem core_reserveNvbuf (s : Session) (n : Nat) (g : Ghost) : core (s.reserveNvbuf n).1 g = core s g := by
  unfold reserveNvbuf
  split_ifs <;> rfl

theorem reserveFramebuf_error (s : Session) (n : Nat) (e : Err) (h : (s.reserveFramebuf n).2 = some e) :
    e = .nomem := by
  unfold reserveFramebuf at h
  split_ifs at h
  cases h
  rfl

theorem core_frameAllocPackNv (P : Platform) (s : Session) (nv : Nv) (nvOffset lenSize : Nat) (g : Ghost) :
    core (s.frameAllocPackNv P nv nvOffset lenSize).1 g = core s g := by
  have hr := core_reserveNvbuf s (frameCountNvSpace nv lenSize) g
  have hf := core_reserveFramebuf (s.reserveNvbuf (frameCountNvSpace nv lenSize)).1
    (nvOffset+P.deflateBound s.hdDeflater (frameCountNvSpace nv lenSize)) g
  unfold frameAllocPackNv
  dsimp only
  split
  · exact hr
  · split
    · exact hf.trans hr
    · split
      · exact hf.trans hr
      · split <;> exact hf.trans hr

theorem frameAllocPackNv_error (P : Platform) (s : Session) (nv : Nv) (nvOffset lenSize : Nat) (e : Err)
    (h : (s.frameAllocPackNv P nv nvOffset lenSize).2 = .error e) : e = .nomem ∨ e = .zlib ∨ e = .frameTooLarge := by
  unfold frameAllocPackNv at h
  dsimp only at h
  split at h
  · cases h
    exact .inl rfl
  · split at h
    · cases h
      exact .inl rfl
    · split at h
      · cases h
        exact .inr (.inl rfl)
      · split at h <;> cases h
        exact .inr (.inr rfl)

/-! Control frames. -/

theorem prepFixed_prepares {s : Session} {g : Ghost} {item : OutboundItem} {f : Frame} {bytes : Bytes}
    (hg : g.hand = some item) (ha : s.aob.item = none) (hf : item.frame = .ctrl f) (hb : bytes ≠ []) :
    Prepares s g (s.prepFixed item bytes) := by
  have hcore := core_reserveFramebuf s bytes.length
  unfold prepFixed
  dsimp only
  split
  · refine .activated ?_ ((congrArg Core.active (hcore g)).trans ha) hf hb
    rw [hcore,holding_self hg]
  · rename_i e he
    have := reserveFramebuf_error s _ e he
    subst this
    refine .failed ?_ nofun nofun
    rw [hcore,holding_self hg]

theorem prepPacked_prepares {s : Session} {g : Ghost} {item : OutboundItem} {f : Frame} {r : Except Err Bytes}
    (hg : g.hand = some item) (ha : s.aob.item = none) (hf : item.frame = .ctrl f)
    (hb : ∀ bytes, r = .ok bytes → bytes ≠ []) (he : ∀ e, r = .error e → e = .unsupportedVersion) :
    Prepares s g (s.prepPacked item r) := by
  cases r with
  | ok bytes => exact prepFixed_prepares hg ha hf (hb bytes rfl)
  | error e =>
    cases he e rfl
    exact .unchanged hg nofun nofun

theorem prepStreamHeaders_prepares (P : Platform) {s : Session} {g : Ghost} {item : OutboundItem} {f0 : Frame}
    (type : FrameType) (wrap : StreamHeaders → Frame) (f : StreamHeaders) (hg : g.hand = some item)
    (ha : s.aob.item = none) (hf : item.frame = .ctrl f0)
    (hsyn : ∀ h, ({item with frame := .ctrl (wrap h)} : OutboundItem).isSynStream = item.isSynStream) :
    Prepares s g (s.prepStreamHeaders P item type wrap f) := by
  have hsame : ∀ h, SameItem item {item with frame := .ctrl (wrap h)} := fun h =>
    .ofCtrl hf rfl rfl (hsyn h)
  unfold prepStreamHeaders
  dsimp only
  split
  · exact .failed (retouch_steps hg (hsame _)) nofun nofun
  · split
    · exact .failed (retouch_steps hg (hsame _)) nofun nofun
    · rename_i nvOffset _
      have hcore := core_frameAllocPackNv P s (s.wireNv P f.nv) nvOffset (frameGetLenSize f.hd.version)
      split
      · rename_i e he
        have hret : OutSteps (core s g) (core (s.frameAllocPackNv P (s.wireNv P f.nv) nvOffset
            (frameGetLenSize f.hd.version)).1 (g.holding (some {item with frame := .ctrl (wrap {f with
              nv := s.appNv P (s.wireNv P f.nv)})}))) := by
          rw [hcore]
          exact retouch_steps hg (hsame _)
        rcases frameAllocPackNv_error P s _ _ _ e he with rfl | rfl | rfl
        · exact .failed hret nofun nofun
        · exact .failed hret nofun nofun
        · exact .failed hret nofun nofun
      · rename_i block _
        refine .activated ?_ ((congrArg Core.active (hcore g)).trans ha) rfl ?_
        · rw [hcore]
          exact retouch_steps hg (hsame _)
        · simp [framePackStreamHeaders,framePackCtrlHd]

/-! SYN_STREAM. -/

theorem queueCredential_steps (s : Session) (origin : Origin) (answer : CredentialAnswer) (g : Ghost) :
    Steps (core s g) (core (s.queueCredential origin answer).1 g) := by
  unfold queueCredential
  split
  · exact .refl
  · dsimp only
    split
    · exact .refl
    · split
      · have h := mallocs_addFrame_steps (answer.certs.length+2)
          ({s.malloc.malloc with cliCertvec := (s.malloc.cliCertvec.put origin).1})
          (.ctrl (.credential (frameCredentialInit s.version.num (s.cliCertvec.put origin).2 answer.proof
            answer.certs))) none g
        split
        · exact h
        · exact h
      · exact mallocs_steps (answer.certs.length+2)
          ({s.malloc.malloc with cliCertvec := (s.malloc.cliCertvec.put origin).1}) g

theorem prepCredential_steps (s : Session) (f : SynStream) (g : Ghost) :
    Steps (core s g) (core (s.prepCredential f).1 g) := by
  unfold prepCredential
  split
  · exact .refl
  · split
    · exact .refl
    · dsimp only
      split
      · exact .refl
      · split
        · exact .refl
        · rename_i origin _ _ _ answer rest _
          split
          · exact .refl
          · exact queueCredential_steps ({s with host := {s.host with credentials := rest}}) origin answer g

/-- Opening a stream for a SYN_STREAM whose id has just been taken. -/
theorem openStream_own_steps {s : Session} {n : Nat} (flags pri : Nat) (g : Ghost) (hn : s.nextStreamId = n+2) :
    OutSteps {core s g with nextStreamId := n} (core (s.openStream (n : Int) flags pri .initial).1 g) := by
  have hid : core s g = {core s g with nextStreamId := n+2} := by rw [← hn]; rfl
  unfold openStream
  split
  · dsimp only
    split
    · rename_i streams hi
      have hx := Outb.openOwn {core s g with nextStreamId := n} (streamInit n flags pri .initial _) streams
        rfl rfl rfl rfl hi
      convert hx.steps using 1
      have hc : core ({s.malloc with streams := streams}) g =
          {core s g with nextStreamId := n+2, streams := streams} :=
        congrArg (fun c : Core => {c with streams := streams}) hid
      unfold Core.countOpened
      change core (if s.isMyStreamId n then _ else _) g = if s.isMyStreamId n then _ else _
      cases s.isMyStreamId n with
      | true => exact congrArg (fun c : Core => {c with numOutgoing := c.numOutgoing+1}) hc
      | false => exact congrArg (fun c : Core => {c with numIncoming := c.numIncoming+1}) hc
    · rename_i hi
      have hx := Outb.openOwnFailed {core s g with nextStreamId := n} (streamInit n flags pri .initial _) rfl hi
      convert hx.steps using 1
      have hc : core (s.malloc.emit (.insertFailed n)) g =
          ({core s g with nextStreamId := n+2} : Core).note (.insertFailed n) :=
        congrArg (fun c : Core => c.note (.insertFailed n)) hid
      unfold Core.countOpened
      change core (if s.isMyStreamId n then _ else _) g = if s.isMyStreamId n then _ else _
      cases s.isMyStreamId n with
      | true => exact congrArg (fun c : Core => {c with numOutgoing := c.numOutgoing+1}) hc
      | false => exact congrArg (fun c : Core => {c with numIncoming := c.numIncoming+1}) hc
  · have hx := (Outb.takeId {core s g with nextStreamId := n}).steps
    change OutSteps _ (core s g)
    rw [hid]
    exact hx

theorem openStream_aob (s : Session) (streamId : Int) (flags pri : Nat) (state : StreamState) :
    (s.openStream streamId flags pri state).1.aob = s.aob := by
  unfold openStream Session.countOpened
  split
  · dsimp only
    split
    · split <;> rfl
    · split <;> rfl
  · rfl

theorem prepSynStreamPack_prepares (P : Platform) {s : Session} {g : Ghost} {item : OutboundItem} {f0 f : SynStream}
    (hg : g.hand = some item) (ha : s.aob.item = none) (hf : item.frame = .ctrl (.synStream f0)) :
    Prepares s g (s.prepSynStreamPack P item f) := by
  have hsame : ∀ f', SameItem item {item with frame := .ctrl (.synStream f')} := fun f' =>
    .ofCtrl hf rfl rfl (by simp [OutboundItem.isSynStream,hf])
  have htake : ∀ item', SameItem item item' →
      OutSteps (core s g) (core ({s with nextStreamId := s.nextStreamId+2}) (g.holding (some item'))) :=
    fun item' h => (Outb.takeId (core s g)).steps.trans (retouch_steps (s := {s with
      nextStreamId := s.nextStreamId+2}) hg h)
  unfold prepSynStreamPack
  dsimp only
  split
  · exact .failed (htake _ (hsame _)) nofun nofun
  · have hcore := core_frameAllocPackNv P ({s with nextStreamId := s.nextStreamId+2}) (s.wireNv P f.nv)
      synStreamNvOffset (frameGetLenSize f.hd.version)
    split
    · rename_i e he
      have hret := htake _ (hsame {f with streamId := s.nextStreamId, nv := s.appNv P (s.wireNv P f.nv)})
      rw [← hcore] at hret
      rcases frameAllocPackNv_error P _ _ _ _ e he with rfl | rfl | rfl
      · exact .failed hret nofun nofun
      · exact .failed hret nofun nofun
      · exact .failed hret nofun nofun
    · rename_i block _
      generalize frameAllocPackNv P ({s with nextStreamId := s.nextStreamId+2}) (s.wireNv P f.nv)
        synStreamNvOffset (frameGetLenSize f.hd.version) = r at hcore
      have hopen : ∀ item', SameItem item item' → OutSteps (core s g) (core (r.1.openStream (s.nextStreamId : Int)
          f.hd.flags f.pri .initial).1 (g.holding (some item'))) := by
        intro item' h
        have hn : r.1.nextStreamId = s.nextStreamId+2 := congrArg Core.nextStreamId (hcore g)
        have ho := openStream_own_steps f.hd.flags f.pri (g.holding (some item')) hn
        rw [hcore] at ho
        exact (retouch_steps hg h).trans ho
      split
      · refine .activated (hopen _ (hsame _)) ?_ rfl ?_
        · rw [openStream_aob]
          exact (congrArg Core.active (hcore g)).trans ha
        · simp [framePackSynStream,framePackCtrlHd]
      · exact .failed (hopen _ (hsame _)) nofun nofun

theorem prepSynStream_prepares (P : Platform) {s : Session} {g : Ghost} {item : OutboundItem} {f : SynStream}
    (hg : g.hand = some item) (ha : s.aob.item = none) (hf : item.frame = .ctrl (.synStream f)) :
    Prepares s g (s.prepSynStream P item f) := by
  unfold prepSynStream
  split
  · exact .refused hg (predicateSynStreamSend_refusal ‹_›)
  · split
    · have hc := prepCredential_steps s f g
      have hca : (s.prepCredential f).1.aob.item = none := (congrArg Prod.fst hc.aob_eq).trans ha
      -- packing after the certificate has been looked up
      have hpack : ∀ f' : SynStream, Prepares s g ((s.prepCredential f).1.prepSynStreamPack P item f') := by
        intro f'
        have h := prepSynStreamPack_prepares P (f := f') hg hca hf
        unfold Prepares at h ⊢
        split at h
        all_goals exact hc.outSteps.trans h
      dsimp only
      split
      · have hsame : SameItem item {item with pri := obPriAfterCredential} :=
          ⟨rfl,rfl,fun d h => ⟨d,h,rfl⟩,fun f h => ⟨f,h⟩⟩
        have hret := hc.outSteps.trans (retouch_steps hg hsame)
        rcases pushObSs_cases (s.prepCredential f).1 {item with pri := obPriAfterCredential} with ⟨hn,he⟩ | ⟨hn,he⟩
        · rw [hn]
          refine hret.trans ?_
          have hx := (Outb.requeue (core (s.prepCredential f).1 (g.holding (some {item with
            pri := obPriAfterCredential}))) {item with pri := obPriAfterCredential} rfl
            (by simp [OutboundItem.isSynStream,hf])).steps
          dsimp only
          rw [he]
          exact hx
        · rw [hn]
          refine .failed ?_ nofun nofun
          rw [he]
          exact hret
      · exact hpack _
      · exact hpack _
    · exact prepSynStreamPack_prepares P hg ha hf

/-! DATA. -/

/-- The outcomes of packing: a chunk within the limit, or nothing but an error. -/
theorem packData_cases (s : Session) (seq : Nat) (d : DataFrame) (datamax : Nat) :
    (∃ bytes fin, (s.packData seq d datamax).2.2 = .ok (dataHead d.streamId bytes.length fin ++ bytes) ∧
      bytes.length ≤ datamax ∧ (s.packData seq d datamax).2.1.streamId = d.streamId ∧
      ∀ g, core (s.packData seq d datamax).1 g = (core s g).note (.read seq d.streamId bytes)) ∨
    (∃ e, (s.packData seq d datamax).2.2 = .error e ∧ (s.packData seq d datamax).2.1 = d ∧
      (∀ g, core (s.packData seq d datamax).1 g = core s g) ∧
      (e = .nomem ∨ e = .deferred ∨ e = .temporalCallbackFailure ∨ e = .callbackFailure)) := by
  have hcore := core_reserveFramebuf s (datamax+8)
  unfold packData
  dsimp only
  split
  · rename_i e he
    exact .inr ⟨e,rfl,rfl,hcore,.inl (reserveFramebuf_error s _ e he)⟩
  · split
    · exact .inr ⟨_,rfl,rfl,hcore,.inr (.inl rfl)⟩
    · exact .inr ⟨_,rfl,rfl,hcore,.inr (.inr (.inl rfl))⟩
    · exact .inr ⟨_,rfl,rfl,hcore,.inr (.inr (.inr rfl))⟩
    · rename_i bytes eof _
      split
      · exact .inr ⟨_,rfl,rfl,hcore,.inr (.inr (.inr rfl))⟩
      · rename_i hlen
        refine .inl ⟨bytes,_,rfl,not_lt.mp hlen,rfl,fun g => ?_⟩
        exact congrArg (fun c : Core => c.note (.read seq d.streamId bytes)) (hcore g)

/-- A stream that passes the check has no deferred item. -/
theorem predicateDataSend_none {s : Session} {streamId : Int} (h : s.predicateDataSend streamId = none) :
    ∃ st, s.getStream streamId = some st ∧ st.deferredData = none := by
  unfold predicateDataSend at h
  split at h
  · cases h
  · rename_i st hst
    refine ⟨st,hst,?_⟩
    split_ifs at h with h1 h2
    simpa using h2

theorem deferData_free {s : Session} {st : Stream} (h : st.deferredData = none) (item : OutboundItem) (fc : Bool) :
    s.deferData st item fc = (s.modifyStream st.streamId
      (fun st => {st with deferredData := some item, deferredFlowControl := fc}),none) := by
  unfold deferData
  rw [h]
  rfl

/-- Nothing may be read only from an exhausted window. -/
theorem nextDataRead_zero {s : Session} {st : Stream} (h : s.nextDataRead st = 0) : st.windowSize ≤ 0 := by
  unfold nextDataRead dataPayloadLength at h
  split_ifs at h with h1 h2
  · omega
  · exact not_lt.mp h2

theorem SameItem.ofData {item : OutboundItem} {d d' : DataFrame} (h : item.frame = .data d)
    (hd : d'.streamId = d.streamId) : SameItem item {item with frame := .data d'} := by
  refine ⟨rfl,by simp [OutboundItem.isSynStream,h],?_,?_⟩
  · intro d0 h0
    rw [h] at h0
    cases h0
    exact ⟨d',rfl,hd⟩
  · intro f hf
    rw [h] at hf
    cases hf

/-- Deferring the item in hand. -/
theorem defer_steps {s : Session} {g : Ghost} {item : OutboundItem} {d : DataFrame} {st : Stream} (fc : Bool)
    (ha : s.aob.item = none) (hf : item.frame = .data d) (hst : s.getStream d.streamId = some st)
    (hd : st.deferredData = none) (hw : fc = true → st.windowSize ≤ 0) :
    OutSteps (core s (g.holding (some item))) (core (s.deferData st item fc).1 (g.holding none)) := by
  rw [deferData_free hd,OrderedTable.find_key hst]
  exact (Outb.defer (core s (g.holding (some item))) item d st fc rfl ha hf ⟨hst,hd,hw⟩).steps

theorem prepData_prepares {s : Session} {g : Ghost} {item : OutboundItem} {d : DataFrame} (hg : g.hand = some item)
    (ha : s.aob.item = none) (hf : item.frame = .data d) : Prepares s g (s.prepData item d) := by
  unfold prepData
  split
  · exact .refused hg (predicateDataSend_refusal ‹_›)
  · rename_i hp
    obtain ⟨st,hst,hfree⟩ := predicateDataSend_none hp
    rw [hst]
    dsimp only
    split
    · rename_i hz
      have hdef := defer_steps (g := g) true ha hf hst hfree (fun _ => nextDataRead_zero hz)
      rw [holding_self hg] at hdef
      rw [deferData_free hfree] at hdef ⊢
      exact hdef
    · rename_i hz
      rcases packData_cases s item.seq d (s.nextDataRead st) with ⟨bytes,fin,hr,hlen,hid,hcore⟩ | ⟨e,hr,hd,hcore,he⟩
      · have hret := retouch_steps (s := s) hg (SameItem.ofData hf hid)
        rw [hr]
        refine hret.trans ?_
        have hx := Outb.activateData (core s (g.holding (some {item with
          frame := .data (s.packData item.seq d (s.nextDataRead st)).2.1}))) {item with
          frame := .data (s.packData item.seq d (s.nextDataRead st)).2.1} _ st bytes _ rfl ha rfl
          ⟨by rw [hid]; exact hst,hfree,Nat.pos_of_ne_zero hz,hlen,fin,by rw [hid]⟩
        have ht := hx.steps
        have hact : ∀ s' : Session, ∀ item' bytes', item'.frame = .data
            (s.packData item.seq d (s.nextDataRead st)).2.1 → core (s'.activate item' bytes') (g.holding none) =
            ((core s' (g.holding (some item'))).begin item' bytes').setHand none := by
          intro s' item' bytes' hfr
          unfold Session.activate
          rw [hfr]
          rfl
        dsimp only
        rw [hact _ _ _ rfl,hcore]
        rw [hid] at ht
        exact ht
      · have hsame : SameItem item {item with frame := .data (s.packData item.seq d (s.nextDataRead st)).2.1} :=
          SameItem.ofData hf (by rw [hd])
        have hret : OutSteps (core s g) (core (s.packData item.seq d (s.nextDataRead st)).1 (g.holding (some
            {item with frame := .data (s.packData item.seq d (s.nextDataRead st)).2.1}))) := by
          rw [hcore]
          exact retouch_steps hg hsame
        have haob : (s.packData item.seq d (s.nextDataRead st)).1.aob.item = none :=
          (congrArg Core.active (hcore g)).trans ha
        have hst' : (s.packData item.seq d (s.nextDataRead st)).1.getStream d.streamId = some st :=
          (congrArg (fun c : Core => c.streams.find d.streamId) (hcore g)).trans hst
        rw [hr]
        rcases he with rfl | rfl | rfl | rfl
        · exact .failed hret nofun nofun
        · dsimp only
          have hdef := hret.trans (defer_steps false haob (by rw [hd]) hst' hfree nofun)
          rw [deferData_free hfree] at hdef ⊢
          exact hdef
        · have hrst := hret.trans (addCtrl_steps _ (.rstStream (frameRstStreamInit
            (s.packData item.seq d (s.nextDataRead st)).1.version.num d.streamId internalError)) _).outSteps
          dsimp only
          cases hq : ((s.packData item.seq d (s.nextDataRead st)).1.addRstStream d.streamId internalError).2 with
          | none => exact .failed hrst nofun nofun
          | some e' =>
            cases addCtrl_error _ _ _ hq
            exact .failed hrst nofun nofun
        · exact .failed hret nofun nofun

theorem prepFrame_prepares (P : Platform) {s : Session} {g : Ghost} {item : OutboundItem} (hg : g.hand = some item)
    (ha : s.aob.item = none) : Prepares s g (s.prepFrame P item) := by
  unfold prepFrame
  split
  · rename_i f hf
    exact prepSynStream_prepares P hg ha hf
  · rename_i f hf
    split
    · exact .refused hg (predicateSynReplySend_refusal ‹_›)
    · exact prepStreamHeaders_prepares P _ _ f hg ha hf (fun _ => by simp [OutboundItem.isSynStream,hf])
  · rename_i f hf
    exact prepFixed_prepares hg ha hf (by simp [framePackRstStream,framePackCtrlHd])
  · rename_i f hf
    refine prepPacked_prepares hg ha hf ?_ ?_
    · intro bytes hb
      unfold framePackSettings at hb
      split at hb <;> cases hb
      simp [framePackCtrlHd]
    · intro e he
      unfold framePackSettings at he
      split at he <;> cases he
      rfl
  · rename_i f hf
    exact prepFixed_prepares hg ha hf (by simp [framePackPing,framePackCtrlHd])
  · rename_i f hf
    split
    · exact .refused hg (predicateHeadersSend_refusal ‹_›)
    · exact prepStreamHeaders_prepares P _ _ f hg ha hf (fun _ => by simp [OutboundItem.isSynStream,hf])
  · rename_i f hf
    split
    · exact .refused hg (predicateWindowUpdateSend_refusal ‹_›)
    · exact prepFixed_prepares hg ha hf (by simp [framePackWindowUpdate,framePackCtrlHd])
  · rename_i f hf
    split
    · exact .unchanged hg nofun nofun
    · refine prepPacked_prepares hg ha hf ?_ ?_
      · intro bytes hb
        unfold framePackGoaway at hb
        split_ifs at hb <;> cases hb
        · simp [framePackCtrlHd]
        · simp [framePackCtrlHd]
      · intro e he
        unfold framePackGoaway at he
        split_ifs at he
        cases he
        rfl
  · rename_i f hf
    exact prepFixed_prepares hg ha hf (by simp [framePackCredential,framePackCtrlHd])
  · rename_i d hf
    exact prepData_prepares hg ha hf

/-! After the last byte of a frame. -/

/-- The active item has been written completely. -/
structure Written (s : Session) (item : OutboundItem) : Prop where
  active : s.aob.item = some item
  done : s.aob.framebufoff = s.aob.framebuf.length

theorem Written.steps {s s' : Session} {item : OutboundItem} {g : Ghost} (h : Written s item)
    (hs : Steps (core s g) (core s' g)) : Written s' item := by
  have ha := hs.aob_eq
  simp only [Core.aob,core,Prod.mk.injEq] at ha
  exact ⟨ha.1.trans h.active,by rw [ha.2.2,ha.2.1,h.done]⟩

theorem activeReset_steps {s : Session} {item : OutboundItem} {cause : Finish} (g : Ghost) (h : Written s item)
    (hcause : cause.afterWriting = true) : OutSteps (core s g) (core (s.activeReset cause) g) := by
  have hx := (Outb.finish (core s g) item cause h.active h.done hcause).steps
  unfold activeReset
  rw [h.active]
  exact hx

theorem submitBody_steps (s : Session) (streamId : Int) (prd : Option DataProvider) (g : Ghost) :
    Steps (core s g) (core (s.submitBody streamId prd).1 g) := by
  cases prd with
  | none => exact .refl
  | some prd =>
    have h := submitData_steps s streamId 1 prd g
    unfold submitBody
    dsimp only
    split
    · exact h
    · exact h

theorem afterCtrlSent_steps (s : Session) (item : OutboundItem) (f : Frame) (g : Ghost) :
    Steps (core s g) (core (s.afterCtrlSent item f).1 g) := by
  cases f with
  | synStream f =>
    unfold afterCtrlSent afterSynStreamSent
    dsimp only
    split
    · exact .refl
    · exact (((setState_steps s f.streamId .opening g).trans (ite_steps (shutdownWr_steps _ _ g))).trans
        (ite_steps (shutdownRd_steps _ _ g))).trans ((closeStreamIfShutRdwr_steps _ _ g).trans
        (submitBody_steps _ _ _ g))
  | synReply f =>
    unfold afterCtrlSent afterSynReplySent
    dsimp only
    split
    · exact .refl
    · exact ((setState_steps s f.streamId .opened g).trans (ite_steps (shutdownWr_steps _ _ g))).trans
        ((closeStreamIfShutRdwr_steps _ _ g).trans (submitBody_steps _ _ _ g))
  | rstStream f => exact (ite_steps (closePushedStreams_steps s _ _ g)).trans (closeStream_steps _ _ _ g)
  | settings f => exact .refl
  | ping f => exact .refl
  | goaway f => exact .refl
  | headers f =>
    unfold afterCtrlSent afterHeadersSent
    dsimp only
    split
    · exact .refl
    · exact (ite_steps (shutdownWr_steps s _ g)).trans (closeStreamIfShutRdwr_steps _ _ g)
  | windowUpdate f => exact .refl
  | credential f => exact .refl

theorem afterDataFin_steps (s : Session) (d : DataFrame) (g : Ghost) :
    Steps (core s g) (core (s.afterDataFin d) g) := by
  unfold afterDataFin
  split
  · split
    · exact (shutdownWr_steps s _ g).trans (closeStreamIfShutRdwr_steps _ _ g)
    · exact .refl
  · exact .refl

/-- Deferring the active item. -/
theorem parkActive_steps {s : Session} {g : Ghost} {item item' : OutboundItem} {d : DataFrame} {st : Stream} (fc : Bool)
    (hw : Written s item) (hi : SameItem item item') (hf : item'.frame = .data d)
    (hst : s.getStream d.streamId = some st) (hd : st.deferredData = none)
    (hwin : fc = true → st.windowSize ≤ 0) :
    OutSteps (core s g) (core (s.deferData st item' fc).1.activeTake g) := by
  rw [deferData_free hd,OrderedTable.find_key hst]
  exact (Outb.parkActive (core s g) item item' d st fc hw.active hw.done hi hf ⟨hst,hd,hwin⟩).steps

theorem continueData_steps {s : Session} {g : Ghost} {item : OutboundItem} {d : DataFrame} {st : Stream}
    (hw : Written s item) (hf : item.frame = .data d) (hst : s.getStream d.streamId = some st)
    (hfree : st.deferredData = none) : OutSteps (core s g) (core (s.continueData item d st).1 g) := by
  unfold continueData
  dsimp only
  split
  · rename_i hz
    have hdef := parkActive_steps (g := g) true hw (SameItem.rfl' item) hf hst hfree
      (fun _ => nextDataRead_zero hz)
    rw [deferData_free hfree] at hdef ⊢
    exact hdef
  · rename_i hz
    rcases packData_cases s item.seq d (s.nextDataRead st) with ⟨bytes,fin,hr,hlen,hid,hcore⟩ | ⟨e,hr,hd,hcore,he⟩
    · have hx := (Outb.continue (core s g) item {item with
        frame := .data (s.packData item.seq d (s.nextDataRead st)).2.1} _ st bytes _ hw.active hw.done
        (SameItem.ofData hf hid) rfl ⟨by rw [hid]; exact hst,hfree,Nat.pos_of_ne_zero hz,hlen,fin,rfl⟩).steps
      rw [hid] at hx
      rw [hr]
      dsimp only
      convert hx using 1
      exact congrArg (fun c : Core => {c.begin {item with frame := .data (s.packData item.seq d
        (s.nextDataRead st)).2.1} (dataHead d.streamId bytes.length fin ++ bytes) with framebufoff := 0}) (hcore g)
    · have hw' : Written (s.packData item.seq d (s.nextDataRead st)).1 item :=
        hw.steps (g := g) (by rw [hcore])
      have hst' : (s.packData item.seq d (s.nextDataRead st)).1.getStream d.streamId = some st :=
        (congrArg (fun c : Core => c.streams.find d.streamId) (hcore g)).trans hst
      rw [← hcore,hr]
      rcases he with rfl | rfl | rfl | rfl
      · exact activeReset_steps g hw' rfl
      · dsimp only
        have hdef := parkActive_steps (g := g) false hw' (SameItem.ofData hf (show (s.packData item.seq d
          (s.nextDataRead st)).2.1.streamId = d.streamId by rw [hd])) (by rw [hd]) hst' hfree nofun
        rw [deferData_free hfree] at hdef ⊢
        exact hdef
      · have ha : Steps (core (s.packData item.seq d (s.nextDataRead st)).1 g) (core ((s.packData item.seq d
            (s.nextDataRead st)).1.addRstStream d.streamId internalError).1 g) := addCtrl_steps _ _ g
        exact ha.outSteps.trans (activeReset_steps g (hw'.steps ha) rfl)
      · exact activeReset_steps g hw' rfl

theorem afterDataSent_steps {s : Session} {g : Ghost} {item : OutboundItem} {d : DataFrame} (hw : Written s item)
    (hf : item.frame = .data d) : OutSteps (core s g) (core (s.afterDataSent item d).1 g) := by
  have hnote := emit_steps s (.dataSend (if d.eof then d.flags else 0) d.streamId (s.aob.framebuf.length-headLen)) g rfl
  unfold afterDataSent
  dsimp only
  have h1 := hnote.trans (afterDataFin_steps _ d g)
  generalize ((s.emit (.dataSend (if d.eof then d.flags else 0) d.streamId
    (s.aob.framebuf.length-headLen))).afterDataFin d) = s1 at h1 ⊢
  have hw1 : Written s1 item := hw.steps h1
  refine (Steps.outSteps h1).trans ?_
  split
  · exact activeReset_steps g hw1 (by split <;> rfl)
  · rename_i hp
    obtain ⟨st,hst,hfree⟩ := predicateDataSend_none (show s1.predicateDataSend d.streamId = none by
      simpa using fun h => hp (.inr h))
    split
    · rw [hst]
      exact continueData_steps hw1 hf hst hfree
    · rcases pushOb_cases s1 item with ⟨hn,he⟩ | ⟨hn,he⟩
      · rw [hn]
        have hx := (Outb.requeueActive (core s1 g) item hw1.active hw1.done
          (by simp [OutboundItem.isSynStream,hf])).steps
        convert hx using 1
        exact congrArg Core.take (he g)
      · rw [hn]
        rw [← he]
        exact activeReset_steps g (hw1.steps (g := g) (by rw [he])) rfl

theorem afterFrameSent_steps {s : Session} {g : Ghost} {item : OutboundItem} (hw : Written s item) :
    OutSteps (core s g) (core s.afterFrameSent.1 g) := by
  unfold afterFrameSent
  rw [hw.active]
  dsimp only
  split
  · rename_i f hf
    have h1 := (emit_steps s (.ctrlSend f) g rfl).trans (afterCtrlSent_steps _ item f g)
    split
    · exact (Steps.outSteps h1).trans (activeReset_steps g (hw.steps h1) rfl)
    · exact Steps.outSteps h1
  · rename_i d hf
    exact afterDataSent_steps hw hf

/-! The loop. -/

theorem core_debit (s : Session) (item : OutboundItem) (g : Ghost) :
    core (s.debit item) g = (core s g).debit item := by
  unfold Session.debit Core.debit
  cases item.frame with
  | ctrl f => rfl
  | data d =>
    change core (if s.flowControl then _ else _) g = if s.flowControl then _ else _
    cases s.flowControl <;> rfl

theorem sendAccepted_steps {s : Session} {g : Ghost} {item : OutboundItem} (n : Nat) (ha : s.aob.item = some item) :
    OutSteps (core s g) (core (s.sendAccepted item n).1 g) := by
  unfold sendAccepted
  dsimp only
  have hw := (Outb.write (core s g) item (min n (s.aob.framebuf.length-s.aob.framebufoff)) ha
    (Nat.min_le_right _ _)).steps
  generalize hs1 : Session.debit _ item = s1
  have hcore : core s1 g = ((core s g).write (min n (s.aob.framebuf.length-s.aob.framebufoff))).debit item := by
    rw [← hs1,core_debit]
    rfl
  rw [← hcore] at hw
  have ha1 : s1.aob.item = some item := by
    rw [← ha]
    refine (congrArg Core.active hcore).trans ?_
    unfold Core.debit
    split
    · split <;> rfl
    · rfl
  split
  · rename_i hdone
    have hs := hw.trans (afterFrameSent_steps (g := g) (⟨ha1,hdone⟩ : Written s1 item))
    split
    · exact hs
    · exact hs
  · exact hw

theorem sendWrite_steps {s : Session} {g : Ghost} {item : OutboundItem} (ha : s.aob.item = some item) :
    OutSteps (core s g) (core (s.sendWrite item).1 g) := by
  unfold sendWrite
  dsimp only
  split
  · exact .refl
  · exact .refl
  · exact sendAccepted_steps (s := {s with host := {s.host with sends := s.host.sends.tail}}) _ ha

theorem pqTop_core {pq : Pq} {item : OutboundItem} (h : pqTop pq = some item) :
    (pq.q : Multiset OutboundItem) = item ::ₘ ((pqPop pq).q : Multiset OutboundItem) :=
  Multiset.coe_eq_coe.mpr (BinaryHeap.pop_perm outboundItemCompar h)

theorem popNextObItem_steps {s s' : Session} {g : Ghost} {item : OutboundItem} (ha : s.aob.item = none)
    (hg : g.hand = none) (h : s.popNextObItem = some (item,s')) :
    OutSteps (core s g) (core s' (g.holding (some item))) ∧ s'.aob = s.aob := by
  have hpop : ∀ it, pqTop s.obPq = some it →
      OutSteps (core s g) (core ({s with obPq := pqPop s.obPq}) (g.holding (some it))) :=
    fun it ht => (Outb.pop (core s g) it _ ha hg (pqTop_core ht)).steps
  have hsyn : ∀ it, pqTop s.obSsPq = some it →
      OutSteps (core s g) (core ({s with obSsPq := pqPop s.obSsPq}) (g.holding (some it))) :=
    fun it ht => (Outb.popSyn (core s g) it _ ha hg (pqTop_core ht)).steps
  unfold popNextObItem at h
  split at h
  · cases h
  · rename_i syn _ ht
    split at h <;> cases h
    exact ⟨hsyn _ ht,rfl⟩
  · rename_i it ht _
    cases h
    exact ⟨hpop _ ht,rfl⟩
  · rename_i ht
    cases h
    exact ⟨hsyn _ ht,rfl⟩

theorem dropItem_steps (s : Session) (g : Ghost) (item : OutboundItem) {e : Err} (hd : e ≠ .deferred)
    (hc : e ≠ .credentialPending) :
    OutSteps (core s (g.holding (some item))) (core (s.dropItem item e) (g.holding none)) := by
  have hdrop : ∀ s' : Session, OutSteps (core s' (g.holding (some item)))
      (core (s'.emit (.finished item.seq (.dropped e))) (g.holding none)) :=
    fun s' => (Outb.drop (core s' (g.holding (some item))) item e rfl hd hc).steps
  unfold dropItem
  dsimp only
  split
  · exact hdrop s
  · exact (ite_steps (emit_steps s _ _ rfl)).outSteps.trans (hdrop _)
  · exact hdrop s

theorem prepareNext_steps (P : Platform) {s : Session} {g : Ghost} (hg : g.hand = none) (ha : s.aob.item = none) :
    OutSteps (core s g) (core (s.prepareNext P) g) := by
  have hnone : g.holding none = g := by
    unfold Ghost.holding
    rw [← hg]
  unfold prepareNext
  split
  · exact .refl
  · rename_i item s1 hpop
    obtain ⟨hs,haob⟩ := popNextObItem_steps ha hg hpop
    have hp := prepFrame_prepares P (s := s1) (show (g.holding (some item)).hand = some item from rfl) (by rw [haob,ha])
    have hbare : (g.holding (some item)).holding none = g := hnone
    dsimp only
    rcases hp.outcomes with ⟨bytes,hr,hp⟩ | ⟨hr,hp⟩ | ⟨e,hnd,hnc,hr,hp⟩
    · rw [hbare] at hp
      rw [hr]
      exact hs.trans hp
    · rw [hbare] at hp
      rcases hr with hr | hr
      · rw [hr]
        exact hs.trans hp
      · rw [hr]
        exact hs.trans hp
    · have hfin := (hs.trans hp).trans (dropItem_steps _ g (s1.prepFrame P item).item hnd hnc)
      rw [hnone] at hfin
      rw [hr]
      split
      · rename_i heq
        cases heq
      · rename_i heq
        cases heq
        exact absurd rfl hnd
      · rename_i heq
        cases heq
        exact absurd rfl hnc
      · rename_i heq
        cases heq
        exact hfin

theorem sendIter_steps (P : Platform) {s : Session} {g : Ghost} (hg : g.hand = none) :
    OutSteps (core s g) (core (s.sendIter P).1 g) :=
  sendIter_related (R := fun s s' => OutSteps (core s g) (core s' g)) (fun _ => .refl) (fun _ _ _ => .trans)
    (fun _ ha => prepareNext_steps P hg ha) (fun _ _ ha => sendWrite_steps ha) s

theorem sendLoop_steps (P : Platform) (fuel : Nat) (s : Session) {g : Ghost} (hg : g.hand = none) :
    OutSteps (core s g) (core (sendLoop P fuel s).1 g) :=
  sendLoop_related (R := fun s s' => OutSteps (core s g) (core s' g)) (fun _ => .refl) (fun _ _ _ => .trans)
    (fun _ ha => prepareNext_steps P hg ha) (fun _ _ ha => sendWrite_steps ha) fuel s

end Spdylay.Machine
