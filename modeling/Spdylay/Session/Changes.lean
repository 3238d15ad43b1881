import Spdylay.Library.StableSort
import Spdylay.Session.Turns

/-! What receiving and submitting do to a session, as a sequence of elementary changes:
a report, a queued frame, a stream touched or removed, and fields that no relation
between sessions looks at. Opening a stream and crediting received bytes are no such
changes. A relation that holds of each of them holds of every function below. -/
namespace Spdylay
open Library

/-- Events of the send loop alone. -/
def ofSending : Event → Bool
  | .beforeCtrlSend _ | .ctrlSend _ | .dataSend _ _ _ | .read _ _ _ | .sent _ | .prepared _ _ => true
  | _ => false

/-- Events of neither the send loop nor the queues. -/
def aside : Event → Bool
  | .accepted _ => false
  | e => !ofSending e

def OutFrame.isWindowUpdate : OutFrame → Bool
  | .ctrl (.windowUpdate _) => true
  | _ => false

/-- Events that count for the credit of the peer: bytes received and windows given back. -/
def ofCredit : Event → Bool
  | .accepted item => item.frame.isWindowUpdate
  | .dataChunkRecv _ _ _ => true
  | _ => false

/-- Frames as they are queued; the lengths of those with a name/value block are not
known yet. -/
def Formed (P : Platform) (v : Version) : OutFrame → Prop
  | .ctrl (.synStream f) => f.hd.version = v.num
  | .ctrl (.synReply f) => f.hd.version = v.num
  | .ctrl (.rstStream f) => ∃ id statusCode, f = frameRstStreamInit v.num id statusCode
  | .ctrl (.settings f) => ∃ flags iv, Session.settingsUnique iv = true ∧
      f = frameSettingsInit v.num flags (Session.frameIvSort P iv)
  | .ctrl (.ping f) => ∃ uniqueId, f = framePingInit v.num uniqueId
  | .ctrl (.goaway f) => ∃ id statusCode, f = frameGoawayInit v.num id statusCode
  | .ctrl (.headers f) => f.hd.version = v.num
  | .ctrl (.windowUpdate f) => ∃ id delta, f = frameWindowUpdateInit v.num id delta
  | .ctrl (.credential f) => ∃ slot proof certs, f = frameCredentialInit v.num slot proof certs
  | .data _ => True

/-- Changes of a stream that leave its receive window alone and do not open it for
reading again. -/
structure KeepsCredit (f : Stream → Stream) : Prop where
  recvWindowSize : ∀ st, (f st).recvWindowSize = st.recvWindowSize
  shutRd : ∀ st, (f st).shutRd = false → st.shutRd = false

/-- What elementary changes touch in one way only. -/
structure Watched where
  version : Version
  aob : ActiveOutboundItem
  hdDeflater : List Bytes
  streams : OrderedTable Stream Stream.streamId
  flowControl : Bool
  localSettings : Nat → Nat
  noAutoWindowUpdate : Bool
  log : List Event

namespace Session

def watched (s : Session) : Watched where
  version := s.version
  aob := s.aob
  hdDeflater := s.hdDeflater
  streams := s.streams
  flowControl := s.flowControl
  localSettings := s.localSettings
  noAutoWindowUpdate := s.noAutoWindowUpdate
  log := s.host.log

/-- Allocations take outcomes off the front of the script. -/
inductive Change (P : Platform) : Session → Session → Prop
  | same {s s' : Session} : s'.watched = s.watched → s'.host.mem <:+ s.host.mem → Change P s s'
  | note (s : Session) (e : Event) : aside e = true → ofCredit e = false → Change P s (s.emit e)
  | accept (s : Session) (item : OutboundItem) : Formed P s.version item.frame →
      item.frame.isWindowUpdate = false → Change P s (s.emit (.accepted item))
  | restate (s : Session) (id : Int) (f : Stream → Stream) (hf) : KeepsCredit f → Change P s (s.modifyStream id f hf)
  | remove (s : Session) (id : Int) : Change P s {s with streams := s.streams.remove id}

abbrev Changes (P : Platform) : Session → Session → Prop := Relation.ReflTransGen (Change P)

variable {P : Platform}

theorem Change.version {s s' : Session} (h : Change P s s') : s'.version = s.version := by
  cases h with
  | same h _ => exact congrArg Watched.version h
  | note => rfl
  | accept => rfl
  | restate => rfl
  | remove => rfl

theorem Changes.version {s s' : Session} (h : Changes P s s') : s'.version = s.version := by
  induction h with
  | refl => rfl
  | tail _ h ih => exact h.version.trans ih

/-- The rule by which a relation is carried over all that follows. -/
theorem Changes.rule {R : Session → Session → Prop} (hr : ∀ s, R s s) (ht : ∀ {a b c}, R a b → R b c → R a c)
    (hc : ∀ {a b}, Change P a b → R a b) {s s' : Session} (h : Changes P s s') : R s s' := by
  induction h with
  | refl => exact hr s
  | tail _ h ih => exact ht ih (hc h)

theorem Changes.same {s s' : Session} (h : s'.watched = s.watched) (hm : s'.host.mem = s.host.mem) : Changes P s s' :=
  .single (.same h (hm ▸ List.suffix_rfl))

theorem Changes.mem {s s' : Session} (h : s'.watched = s.watched) (hm : s'.host.mem <:+ s.host.mem) : Changes P s s' :=
  .single (.same h hm)

/-! The script of allocations. -/

theorem mallocEach_suffix (n : Nat) (m : Mem) : (mallocEach n m).1 <:+ m := by
  induction n generalizing m with
  | zero => exact List.suffix_rfl
  | succ n ih =>
    rw [mallocEach]
    split
    · exact (ih m.tail).trans (List.tail_suffix m)
    · exact List.tail_suffix m

theorem frameUnpackNv_suffix (qsort : Qsort) (m : Mem) (input : Bytes) (lenSize : Nat) :
    (frameUnpackNv qsort m input lenSize).1 <:+ m := by
  rw [frameUnpackNv]
  split
  · exact List.suffix_rfl
  · dsimp only
    split_ifs <;> exact List.tail_suffix m

theorem frameUnpackSynStream_suffix (qsort : Qsort) (m : Mem) (head payload : Bytes) (n : Nat) (inflated : Bytes) :
    (frameUnpackSynStream qsort m head payload n inflated).1 <:+ m := by
  rw [frameUnpackSynStream]
  dsimp only
  split
  · exact List.suffix_rfl
  · split
    · exact List.suffix_rfl
    · exact frameUnpackNv_suffix qsort m inflated _

theorem unpackStreamHeaders_suffix (type : FrameType) (qsort : Qsort) (m : Mem) (head payload : Bytes) (n : Nat)
    (inflated : Bytes) : (unpackStreamHeaders type qsort m head payload n inflated).1 <:+ m := by
  rw [unpackStreamHeaders]
  dsimp only
  split
  · exact List.suffix_rfl
  · split
    · exact List.suffix_rfl
    · exact frameUnpackNv_suffix qsort m inflated _

theorem frameUnpackSettings_suffix (m : Mem) (head payload : Bytes) (n : Nat) :
    (frameUnpackSettings m head payload n).1 <:+ m := by
  rw [frameUnpackSettings]
  dsimp only
  split_ifs <;> first | exact List.suffix_rfl | exact List.tail_suffix m

theorem frameUnpackCredential_suffix (m : Mem) (head payload : Bytes) (n : Nat) :
    (frameUnpackCredential m head payload n).1 <:+ m := by
  rw [frameUnpackCredential]
  dsimp only
  split
  · exact List.suffix_rfl
  · split
    · exact List.suffix_rfl
    · split
      · split
        · exact List.tail_suffix m
        · split <;> exact (mallocEach_suffix _ m.tail).trans (List.tail_suffix m)
      · exact List.tail_suffix m

theorem inflateRoom_suffix (m : Mem) (b : Buffer) : (inflateRoom m b).1 <:+ m := by
  rw [inflateRoom,bufferAlloc]
  split_ifs
  · exact (List.tail_suffix _).trans (List.tail_suffix m)
  · exact (List.tail_suffix _).trans (List.tail_suffix m)
  · exact List.tail_suffix m
  · exact List.suffix_rfl
  · exact List.suffix_rfl

theorem inflateHdLoop_suffix (z : Zlib) (version : Version) (fuel : Nat) (m : Mem) (b : Buffer)
    (hist held input : Bytes) : (inflateHdLoop z version fuel m b hist held input).mem <:+ m := by
  induction fuel generalizing m b hist held input with
  | zero => exact List.suffix_rfl
  | succ fuel ih =>
    have hroom := inflateRoom_suffix m b
    rw [inflateHdLoop]
    generalize inflateRoom m b = r at hroom
    obtain ⟨m',e | b'⟩ := r
    · exact hroom
    · dsimp only
      split
      · exact hroom
      · exact hroom
      · split
        · exact (ih _ _ _ _ _).trans hroom
        · exact hroom
      · split
        · exact hroom
        · split
          · exact hroom
          · exact (ih _ _ _ _ _).trans hroom

theorem inflateHd_suffix (z : Zlib) (version : Version) (m : Mem) (inflater : Inflater) (b : Buffer) (input : Bytes) :
    (inflateHd z version m inflater b input).mem <:+ m := by
  have hroom := inflateRoom_suffix m b
  rw [inflateHd]
  split
  · generalize inflateRoom m b = r at hroom
    obtain ⟨m',e | b'⟩ := r <;> exact hroom
  · split
    · generalize inflateRoom m b = r at hroom
      obtain ⟨m',e | b'⟩ := r <;> exact hroom
    · exact inflateHdLoop_suffix z version _ m b _ _ input

theorem resize_suffix (m : Mem) (v : ClientCertVector) (size : Nat) : (v.resize m size).1 <:+ m := by
  rw [ClientCertVector.resize]
  split_ifs
  · exact List.tail_suffix m
  · exact List.tail_suffix m
  · exact List.suffix_rfl

theorem pqPush_suffix (m : Mem) (pq : Pq) (item : OutboundItem) : (pqPush m pq item).1 <:+ m := by
  rw [pqPush]
  split_ifs
  · exact List.tail_suffix m
  · exact List.tail_suffix m
  · exact List.suffix_rfl

/-! Queueing. -/

variable (P) (s : Session)

theorem malloc_changes : Changes P s s.malloc := .mem rfl (List.tail_suffix _)

theorem markClosing_changes (frame : OutFrame) : Changes P s (s.markClosing frame) := by
  unfold markClosing
  split
  · exact .single (.restate s _ _ _ ⟨fun _ => rfl,fun _ h => h⟩)
  · exact .refl

theorem pushOb_changes (item : OutboundItem) : Changes P s (s.pushOb item).1 := by
  have hm := pqPush_suffix s.host.mem s.obPq item
  rw [pushOb]
  split <;> rename_i heq <;> rw [heq] at hm <;> exact .mem rfl hm

theorem pushObSs_changes (item : OutboundItem) : Changes P s (s.pushObSs item).1 := by
  have hm := pqPush_suffix s.host.mem s.obSsPq item
  rw [pushObSs]
  split <;> rename_i heq <;> rw [heq] at hm <;> exact .mem rfl hm

theorem pushItem_changes (item : OutboundItem) : Changes P s (s.pushItem item).1 := by
  rw [pushItem]
  split
  · exact pushObSs_changes P s item
  · exact pushOb_changes P s item

/-- Up to the report, adding a frame is the same for every frame. -/
theorem addFrame_reported (frame : OutFrame) (aux : Option DataProvider) :
    ∃ s1, Changes P s s1 ∧ ((s.addFrame frame aux = (s1.emit (.accepted (s.newItem frame aux)),none)) ∨
      ∃ e, s.addFrame frame aux = (s1,some e)) := by
  have h1 : Changes P s {s.malloc with nextSeq := s.nextSeq+1} := .mem rfl (List.tail_suffix _)
  have hpush := (h1.trans (markClosing_changes P _ frame)).trans (pushItem_changes P _ (s.newItem frame aux))
  rw [addFrame]
  split
  · refine ⟨_,hpush,?_⟩
    dsimp only
    split
    · exact .inl rfl
    · rename_i e he
      exact .inr ⟨e,rfl⟩
  · exact ⟨_,malloc_changes P s,.inr ⟨_,rfl⟩⟩

theorem addFrame_changes (frame : OutFrame) (aux : Option DataProvider) (hf : Formed P s.version frame)
    (hw : frame.isWindowUpdate = false) : Changes P s (s.addFrame frame aux).1 := by
  obtain ⟨s1,h,heq | ⟨e,heq⟩⟩ := addFrame_reported P s frame aux
  · rw [heq]
    exact h.tail (.accept s1 (s.newItem frame aux) (h.version ▸ hf) hw)
  · rw [heq]
    exact h

theorem addCtrl_changes (f : Frame) (hf : Formed P s.version (.ctrl f))
    (hw : (OutFrame.ctrl f).isWindowUpdate = false) : Changes P s (s.addCtrl f).1 := by
  have h := malloc_changes P s
  rw [addCtrl]
  split
  · exact h.trans (addFrame_changes P s.malloc _ _ hf hw)
  · exact h

theorem addRstStream_changes (id : Int) (statusCode : Nat) : Changes P s (s.addRstStream id statusCode).1 :=
  addCtrl_changes P s _ ⟨id,statusCode,rfl⟩ rfl

theorem addPing_changes (uniqueId : Nat) : Changes P s (s.addPing uniqueId).1 :=
  addCtrl_changes P s _ ⟨uniqueId,rfl⟩ rfl

theorem mallocs_changes (n : Nat) : Changes P s (mallocs n s).1 := by
  induction n generalizing s with
  | zero => exact .refl
  | succ n ih =>
    rw [mallocs]
    split
    · exact (malloc_changes P s).trans (ih s.malloc)
    · exact malloc_changes P s

theorem mallocs_addFrame_changes (n : Nat) (frame : OutFrame) (aux : Option DataProvider)
    (hf : Formed P s.version frame) (hw : frame.isWindowUpdate = false) :
    Changes P s ((mallocs n s).1.addFrame frame aux).1 := by
  have hm := mallocs_changes P s n
  exact hm.trans (addFrame_changes P _ frame aux (hm.version ▸ hf) hw)

/-! Closing streams. -/

theorem closeStream_changes (id : Int) (statusCode : Nat) : Changes P s (s.closeStream id statusCode).1 := by
  have hcount : ∀ s : Session, Changes P s (s.countClosed id) := by
    intro s
    rw [countClosed]
    split <;> exact .same rfl rfl
  have hfree : ∀ (s : Session) (st : Stream), Changes P s (s.freeDeferred st) := by
    intro s st
    rw [freeDeferred]
    split
    · exact .single (.note s _ rfl rfl)
    · exact .refl
  rw [closeStream]
  split
  · rename_i st _
    dsimp only
    have hnote : Changes P s (if st.state ≠ .initial then s.emit (.streamClose id statusCode) else s) := by
      split
      · exact .single (.note s _ rfl rfl)
      · exact .refl
    generalize (if st.state ≠ .initial then s.emit (.streamClose id statusCode) else s) = s1 at hnote
    exact ((hnote.trans (hcount s1)).tail (.remove _ id)).trans (hfree _ st)
  · exact .refl

theorem closeStreamIfShutRdwr_changes (id : Int) : Changes P s (s.closeStreamIfShutRdwr id) := by
  rw [closeStreamIfShutRdwr]
  split
  · split
    · exact closeStream_changes P s id _
    · exact .refl
  · exact .refl

theorem closePushedStreams_changes (id : Int) (statusCode : Nat) : Changes P s (s.closePushedStreams id statusCode) := by
  have hfold : ∀ (ids : List Int) (s : Session),
      Changes P s (ids.foldl (fun s id => (s.closeStream id statusCode).1) s) := by
    intro ids
    induction ids with
    | nil => exact fun _ => .refl
    | cons id ids ih => exact fun s => (closeStream_changes P s id _).trans (ih _)
  rw [closePushedStreams]
  split
  · exact hfold _ s
  · exact .refl

theorem shutdownRd_changes (id : Int) : Changes P s (s.shutdownRd id) :=
  .single (.restate s id _ _ ⟨fun _ => rfl,fun _ h => Bool.noConfusion h⟩)

theorem shutdownWr_changes (id : Int) : Changes P s (s.shutdownWr id) :=
  .single (.restate s id _ _ ⟨fun _ => rfl,fun _ h => h⟩)

theorem setState_changes (id : Int) (state : StreamState) : Changes P s (s.setState id state) :=
  .single (.restate s id _ _ ⟨fun _ => rfl,fun _ h => h⟩)

theorem detachDeferredData_changes (id : Int) : Changes P s (s.detachDeferredData id) :=
  .single (.restate s id _ _ ⟨fun _ => rfl,fun _ h => h⟩)

/-! Submissions. -/

theorem submitGoaway_changes (statusCode : Nat) : Changes P s (s.submitGoaway statusCode).1 :=
  addCtrl_changes P s _ ⟨s.lastRecvStreamId,statusCode,rfl⟩ rfl

theorem failSession_changes (statusCode : Nat) : Changes P s (s.failSession statusCode).1 :=
  (Changes.same rfl rfl : Changes P s {s with goawayFailOnSend := true}).trans (submitGoaway_changes P _ statusCode)

theorem submitData_changes (id : Int) (flags : Nat) (prd : DataProvider) :
    Changes P s (s.submitData id flags prd).1 := by
  have h := malloc_changes P s
  rw [submitData]
  split
  · exact h.trans (addFrame_changes P s.malloc _ _ trivial rfl)
  · exact h

theorem submitSynStreamShared_changes (flags : Nat) (assoc : Int) (pri : Nat) (nv : List Bytes)
    (prd : Option DataProvider) : Changes P s (submitSynStreamShared P s flags assoc pri nv prd).1 := by
  rw [submitSynStreamShared]
  split
  · exact .refl
  · split
    · exact .refl
    · split
      · exact .refl
      · dsimp only
        generalize (if prd.isSome = true then 4 else 3) = n
        split
        · exact mallocs_addFrame_changes P s _ _ _ rfl rfl
        · exact mallocs_changes P s _

theorem resumeData_changes (id : Int) : Changes P s (s.resumeData id).1 := by
  rw [resumeData]
  split
  · split
    · split
      · exact .refl
      · rename_i item _ _
        have h := pushOb_changes P s item
        dsimp only
        split
        · exact h.trans (detachDeferredData_changes P _ id)
        · exact h
    · exact .refl
  · exact .refl

theorem frameIvSort_perm {P : Platform} (hq : StableSort.Sorts P.qsort) (iv : List SettingsEntry) :
    (frameIvSort P iv).Perm iv := by
  refine hq.perm SettingsEntry (fun l r => (l.settingsId : Int)-r.settingsId) iv ⟨?_,?_⟩
  all_goals intros
  all_goals omega

/-- Up to the change of the settings. -/
theorem submitSettings_changes (flags : Nat) (iv : List SettingsEntry) :
    ∃ s1, Changes P s s1 ∧ (submitSettings P s flags iv = (s1.updateLocalSettings (frameIvSort P iv),none) ∧
      settingsUnique iv = true ∨ ∃ e, submitSettings P s flags iv = (s1,some e)) := by
  rw [submitSettings]
  split
  · exact ⟨s,.refl,.inr ⟨_,rfl⟩⟩
  · rename_i hiv
    have hunique : settingsUnique iv = true := by
      rw [Bool.not_eq_true'] at hiv
      exact (Bool.not_eq_false _).mp hiv
    have hadd := mallocs_addFrame_changes P s 2 (.ctrl (.settings (frameSettingsInit s.version.num flags
      (frameIvSort P iv)))) none ⟨flags,iv,hunique,rfl⟩ rfl
    dsimp only
    split
    · refine ⟨_,hadd,?_⟩
      split
      · exact .inl ⟨rfl,hunique⟩
      · exact .inr ⟨_,rfl⟩
    · exact ⟨_,mallocs_changes P s 2,.inr ⟨_,rfl⟩⟩

/-- The calls that change neither the settings nor a receive window. -/
def Op.isPlain : Op → Bool
  | .submitSettings _ _ | .submitWindowUpdate _ _ | .setNoAutoWindowUpdate _ | .send | .memRecv _ => false
  | _ => true

theorem plain_changes (op : Op) (h : Op.isPlain op = true) : Changes P s (s.call P op).1 := by
  have hblock : ∀ (nv : List Bytes) (n : Nat) (frame : OutFrame) (aux : Option DataProvider),
      Formed P s.version frame → frame.isWindowUpdate = false →
      Changes P s (if !frameNvCheckNull nv then (s,some Err.invalidArgument)
      else if (mallocs n s).2 then (mallocs n s).1.addFrame frame aux else ((mallocs n s).1,some Err.nomem)).1 := by
    intro nv n frame aux hf hw
    split
    · exact .refl
    · split
      · exact mallocs_addFrame_changes P s _ _ _ hf hw
      · exact mallocs_changes P s _
  cases op with
  | submitSynStream flags assoc pri nv => exact submitSynStreamShared_changes P s _ _ _ _ _
  | submitServerPush assoc nv prd => exact submitSynStreamShared_changes P s _ _ _ _ _
  | submitRequest pri nv prd => exact submitSynStreamShared_changes P s _ _ _ _ _
  | submitSynReply flags id nv => exact hblock nv _ _ _ rfl rfl
  | submitHeaders flags id nv => exact hblock nv _ _ _ rfl rfl
  | submitResponse id nv prd => exact hblock nv _ _ _ rfl rfl
  | submitData id flags prd => exact submitData_changes P s id flags prd
  | submitPing =>
    have hid : Changes P s s.getNextUniqueId.1 := .same rfl rfl
    exact hid.trans (addPing_changes P _ _)
  | submitRstStream id statusCode => exact addRstStream_changes P s id statusCode
  | submitGoaway statusCode => exact submitGoaway_changes P s statusCode
  | resumeData id => exact resumeData_changes P s id
  | setMaxRecvCtrlFrameBuffer n =>
    rw [call,setMaxRecvCtrlFrameBuffer]
    split <;> exact .same rfl rfl
  | setInitialClientCertOrigin scheme host port =>
    rw [call,setInitialClientCertOrigin]
    split_ifs
    · exact .refl
    · exact .refl
    · exact .mem rfl (List.tail_suffix _)
    · exact malloc_changes P s
  | submitSettings => cases h
  | submitWindowUpdate => cases h
  | setNoAutoWindowUpdate => cases h
  | send => cases h
  | memRecv => cases h

/-! Received frames. -/

theorem handleInvalidStream_changes (id : Int) (f : Frame) (statusCode : Nat) :
    Changes P s (s.handleInvalidStream id f statusCode).1 := by
  have h := addRstStream_changes P s id statusCode
  rw [handleInvalidStream]
  split
  · exact h
  · exact h.tail (.note _ _ rfl rfl)

theorem finReceived_changes (id : Int) : Changes P s (s.finReceived id) :=
  (shutdownRd_changes P s id).trans (closeStreamIfShutRdwr_changes P _ id)

theorem onSynReplyReceived_changes (f : StreamHeaders) : Changes P s (s.onSynReplyReceived f).1 := by
  have hi := handleInvalidStream_changes P s f.streamId (.synReply f)
  rw [onSynReplyReceived]
  split
  · exact .refl
  · split
    · exact hi _
    · split
      · exact hi _
      · split
        · have he := (setState_changes P s f.streamId .opened).tail (.note _ (.ctrlRecv (.synReply f)) rfl rfl)
          dsimp only
          split
          · exact he.trans (finReceived_changes P _ _)
          · exact he
        · exact .refl
        · exact hi _

theorem onRstStreamReceived_changes (f : RstStream) : Changes P s (s.onRstStreamReceived f).1 := by
  rw [onRstStreamReceived]
  split
  · exact .refl
  · have he : Changes P s (s.emit (.ctrlRecv (.rstStream f))) := .single (.note s _ rfl rfl)
    dsimp only
    refine Relation.ReflTransGen.trans ?_ (closeStream_changes P _ _ _)
    split
    · exact he.trans (closePushedStreams_changes P _ _ _)
    · exact he

theorem releaseDeferred_changes (id : Int) : Changes P s (s.releaseDeferred id).1 := by
  rw [releaseDeferred]
  split
  · exact .refl
  · split
    · exact .refl
    · rename_i item _
      have h := pushOb_changes P s item
      split
      · dsimp only
        split
        · exact h.trans (detachDeferredData_changes P _ id)
        · exact h
      · exact .refl

theorem updateInitialWindowSizeLoop_changes (new old : Int) (ids : List Int) :
    Changes P s (updateInitialWindowSizeLoop new old ids s).1 := by
  induction ids generalizing s with
  | nil => exact .refl
  | cons id ids ih =>
    have hw : Changes P s (s.modifyStream id (streamUpdateInitialWindowSize s.windowArith new old)) :=
      .single (.restate s id _ _ ⟨fun _ => rfl,fun _ h => h⟩)
    have h := hw.trans (releaseDeferred_changes P _ id)
    unfold updateInitialWindowSizeLoop
    dsimp only
    split
    · exact h.trans (ih _)
    · exact h

theorem applySettingsEntry_changes (e : SettingsEntry) : Changes P s (s.applySettingsEntry e).1 := by
  have hput : ∀ (s : Session) (v : Nat),
      Changes P s {s with remoteSettings := Function.update s.remoteSettings e.settingsId v} := fun _ _ => .same rfl rfl
  rw [applySettingsEntry]
  dsimp only
  split
  · split
    · have h := updateInitialWindowSizeLoop_changes P s e.value (toInt32 (s.remoteSettings settingsInitialWindowSize))
        (s.streams.entries.map Stream.streamId)
      rw [updateInitialWindowSize]
      split
      · exact h.trans (hput _ _)
      · exact h
    · exact hput s _
  · split
    · have hm := resize_suffix s.host.mem s.cliCertvec (min e.value maxClientCertVectorLength)
      split <;> rename_i heq <;> rw [heq] at hm
      · exact .mem rfl hm
      · exact .mem rfl hm
    · exact hput s _

theorem settingsLoop_changes (iv : List SettingsEntry) (check : List Nat) (done : List SettingsEntry) :
    Changes P s (settingsLoop iv check done s).1 := by
  induction iv generalizing check done s with
  | nil => exact .refl
  | cons e iv ih =>
    rw [settingsLoop]
    split
    · exact ih s _ _
    · have h := applySettingsEntry_changes P s e
      dsimp only
      split
      · exact h.trans (ih _ _ _)
      · exact h

theorem onSettingsReceived_changes (f : Settings) : Changes P s (s.onSettingsReceived f).1 := by
  have h := settingsLoop_changes P s f.iv [] []
  rw [onSettingsReceived]
  split
  · exact .refl
  · dsimp only
    split
    · exact h
    · exact h.tail (.note _ _ rfl rfl)

theorem onWindowUpdateReceived_changes (f : WindowUpdate) : Changes P s (s.onWindowUpdateReceived f).1 := by
  rw [onWindowUpdateReceived]
  split
  · exact .refl
  · split
    · exact .refl
    · split
      · exact handleInvalidStream_changes P s _ _ _
      · have hraise : Changes P s (s.raiseWindow f.streamId f.deltaWindowSize) := by
          refine Relation.ReflTransGen.tail (.single (.restate s f.streamId _ _ ?_)) (.note _ _ rfl rfl)
          exact ⟨fun _ => rfl,fun _ h => h⟩
        have h := hraise.trans (releaseDeferred_changes P _ f.streamId)
        dsimp only
        split
        · exact h
        · exact h.tail (.note _ _ rfl rfl)

theorem onPingReceived_changes (f : Ping) : Changes P s (s.onPingReceived f).1 := by
  rw [onPingReceived]
  split
  · exact .refl
  · split
    · exact .tail (.same rfl rfl : Changes P s {s with lastPingUniqueId := 0}) (.note _ _ rfl rfl)
    · split
      · exact (addPing_changes P s _).tail (.note _ _ rfl rfl)
      · exact .refl

theorem onGoawayReceived_changes (f : Goaway) : Changes P s (s.onGoawayReceived f).1 := by
  rw [onGoawayReceived]
  split
  · exact .refl
  · exact .tail (.same rfl rfl : Changes P s {s with lastGoodStreamId := f.lastGoodStreamId, goawayRecv := true})
      (.note _ _ rfl rfl)

theorem onCredentialReceived_changes (f : Credential) : Changes P s (s.onCredentialReceived f).1 := by
  rw [onCredentialReceived]
  split
  · exact .refl
  · exact .single (.note s _ rfl rfl)

theorem onHeadersReceived_changes (f : StreamHeaders) : Changes P s (s.onHeadersReceived f).1 := by
  have hi := handleInvalidStream_changes P s f.streamId (.headers f) protocolError
  have he : Changes P s (s.emit (.ctrlRecv (.headers f))) := .single (.note s _ rfl rfl)
  rw [onHeadersReceived]
  dsimp only
  split
  · exact .refl
  · split
    · exact hi
    · split
      · exact hi
      · split
        · split
          · split
            · exact he.trans (finReceived_changes P _ _)
            · exact he
          · exact .refl
          · exact hi
        · split
          · exact .refl
          · split
            · exact (he.tail (.note _ _ rfl rfl)).trans (finReceived_changes P _ _)
            · exact he

theorem onDataReceived_changes (flags length : Nat) (id : Int) : Changes P s (s.onDataReceived flags length id).1 := by
  have hi : ∀ statusCode, Changes P s (s.addRstStream id statusCode).1 := fun _ => addRstStream_changes P s id _
  have he : Changes P s (s.emit (.dataRecv flags id length)) := .single (.note s _ rfl rfl)
  rw [onDataReceived]
  dsimp only
  split
  · exact hi _
  · split
    · exact hi _
    · split
      · split
        · split
          · exact he.trans (finReceived_changes P _ _)
          · exact he
        · exact .refl
        · exact hi _
      · split
        · exact .refl
        · split
          · exact (he.tail (.note _ _ rfl rfl)).trans (finReceived_changes P _ _)
          · exact he

/-! A complete frame. A SYN_STREAM that is accepted opens a stream, which the rules here
do not cover. -/

theorem handleUnparsed_changes (type : Nat) (e : Err) : Changes P s (s.handleUnparsed type e).1 := by
  rw [handleUnparsed]
  split
  · exact Relation.ReflTransGen.trans (.single (.note s _ rfl rfl)) (failSession_changes P _ _)
  · exact .refl

theorem handleHeadersError_changes (type : Nat) (id : Int) (f : Frame) (e : Err) :
    Changes P s (s.handleHeadersError type id f e).1 := by
  rw [handleHeadersError]
  split
  · exact handleInvalidStream_changes P s _ _ _
  · exact handleUnparsed_changes P s _ _

theorem parseSynStream_same : (s.parseSynStream P).1.watched = s.watched ∧
    (s.parseSynStream P).1.host.mem <:+ s.host.mem := by
  unfold parseSynStream
  dsimp only
  split
  · exact ⟨rfl,frameUnpackSynStream_suffix _ _ _ _ _ _⟩
  · exact ⟨rfl,List.suffix_rfl⟩
  · exact ⟨rfl,List.suffix_rfl⟩

theorem parseStreamHeaders_changes (type : FrameType) : Changes P s (s.parseStreamHeaders P type).1 := by
  unfold parseStreamHeaders
  dsimp only
  split
  · exact .mem rfl (unpackStreamHeaders_suffix _ _ _ _ _ _ _)
  · exact .refl
  · exact .refl

theorem processPlain_changes {α : Type} (type : FrameType) (onReceived : Session → α → Session × Option Err)
    (u : Except Err α) (h : ∀ f, Changes P s (onReceived s f).1) :
    Changes P s (s.processPlain type onReceived u).1 := by
  cases u with
  | ok f => exact h f
  | error e => exact handleUnparsed_changes P s _ _

/-- A complete control frame other than a SYN_STREAM. -/
theorem dispatchCtrlFrame_changes
    (h : FrameType.ofNum (getUint16 (s.iframe.headbuf.drop 2)) ≠ some .synStream) :
    Changes P s (s.dispatchCtrlFrame P).1 := by
  unfold dispatchCtrlFrame
  dsimp only
  split
  · exact absurd ‹_› h
  · have hp := parseStreamHeaders_changes P s .synReply
    rw [processSynReply]
    dsimp only
    split
    · exact hp.trans (onSynReplyReceived_changes P _ _)
    · exact hp.trans (handleHeadersError_changes P _ _ _ _ _)
  · exact processPlain_changes P s _ _ _ (onRstStreamReceived_changes P s)
  · have hm : Changes P s (s.setMem (frameUnpackSettings s.host.mem s.iframe.headbuf s.iframe.buf s.iframe.buflen).1) :=
      .mem rfl (frameUnpackSettings_suffix _ _ _ _)
    exact hm.trans (processPlain_changes P _ _ _ _ (onSettingsReceived_changes P _))
  · exact .refl
  · exact processPlain_changes P s _ _ _ (onPingReceived_changes P s)
  · exact processPlain_changes P s _ _ _ (onGoawayReceived_changes P s)
  · have hp := parseStreamHeaders_changes P s .headers
    rw [processHeaders]
    dsimp only
    split
    · exact hp.trans (onHeadersReceived_changes P _ _)
    · exact hp.trans (handleHeadersError_changes P _ _ _ _ _)
  · exact processPlain_changes P s _ _ _ (onWindowUpdateReceived_changes P s)
  · have hm : Changes P s (s.setMem (frameUnpackCredential s.host.mem s.iframe.headbuf s.iframe.buf s.iframe.buflen).1) :=
      .mem rfl (frameUnpackCredential_suffix _ _ _ _)
    exact hm.trans (processPlain_changes P _ _ _ _ (onCredentialReceived_changes P _))
  · exact .single (.note s _ rfl rfl)

theorem processDataFrame_changes : Changes P s s.processDataFrame.1 := by
  rw [processDataFrame,onlyFatal_fst]
  exact onDataReceived_changes P s _ _ _

/-! Reading bytes. -/

theorem inflateChunk_same (chunk : Bytes) : (s.inflateChunk P chunk).watched = s.watched ∧
    (s.inflateChunk P chunk).host.mem <:+ s.host.mem := by
  unfold inflateChunk
  dsimp only
  split
  · exact ⟨rfl,inflateHd_suffix _ _ _ _ _ _⟩
  · exact ⟨rfl,List.suffix_rfl⟩

theorem recvPreNv_same (input : Bytes) (n : Nat) : (s.recvPreNv input n).1.watched = s.watched ∧
    (s.recvPreNv input n).1.host.mem = s.host.mem := by
  unfold recvPreNv
  dsimp only
  split <;> exact ⟨rfl,rfl⟩

theorem startPayload_same : (s.startPayload P).1.watched = s.watched ∧
    (s.startPayload P).1.host.mem <:+ s.host.mem := by
  unfold startPayload reserveIframeBuf
  dsimp only
  split_ifs
  · exact ⟨rfl,List.tail_suffix _⟩
  · exact ⟨rfl,List.tail_suffix _⟩
  · exact ⟨rfl,List.suffix_rfl⟩
  · exact ⟨rfl,List.suffix_rfl⟩
  · exact ⟨rfl,List.suffix_rfl⟩

theorem recvHead_same (input : Bytes) : (s.recvHead P input).1.watched = s.watched ∧
    (s.recvHead P input).1.host.mem <:+ s.host.mem := by
  unfold recvHead
  split
  · exact ⟨rfl,List.suffix_rfl⟩
  · have h := startPayload_same P (s.takeHead (input.take (min (headLen-s.iframe.headbuf.length) input.length)))
    dsimp only
    split
    · split <;> exact h
    · exact ⟨rfl,List.suffix_rfl⟩

/-! What the send loop does off the wire. -/

theorem deferData_changes (st : Stream) (item : OutboundItem) (flowControl : Bool) :
    Changes P s (s.deferData st item flowControl).1 := by
  rw [deferData]
  split
  · exact .refl
  · exact .single (.restate s _ _ _ ⟨fun _ => rfl,fun _ h => h⟩)

theorem queueCredential_changes (origin : Origin) (answer : CredentialAnswer) :
    Changes P s (s.queueCredential origin answer).1 := by
  have h1 := malloc_changes P s
  have h2 := h1.trans (malloc_changes P s.malloc)
  rw [queueCredential]
  split
  · exact h1
  · dsimp only
    split
    · exact h2
    · have hput : Changes P s {s.malloc.malloc with cliCertvec := (s.malloc.cliCertvec.put origin).1} :=
        h2.trans (Changes.same rfl rfl)
      split
      · have ha := hput.trans (mallocs_addFrame_changes P _ (answer.certs.length+2) (.ctrl (.credential
          (frameCredentialInit s.version.num (s.malloc.cliCertvec.put origin).2 answer.proof answer.certs))) none
          ⟨_,_,_,rfl⟩ rfl)
        split <;> exact ha
      · exact hput.trans (mallocs_changes P _ _)

theorem prepCredential_changes (f : SynStream) : Changes P s (s.prepCredential f).1 := by
  rw [prepCredential]
  split
  · exact .refl
  · split
    · exact .refl
    · dsimp only
      split
      · exact .refl
      · split
        · exact .refl
        · rename_i answer rest _
          have h : Changes P s {s with host := {s.host with credentials := rest}} := .same rfl rfl
          split
          · exact h
          · exact h.trans (queueCredential_changes P _ _ _)

theorem submitBody_changes (id : Int) (prd : Option DataProvider) : Changes P s (s.submitBody id prd).1 := by
  cases prd with
  | none => exact .refl
  | some prd =>
    have h := submitData_changes P s id 1 prd
    rw [submitBody]
    split <;> exact h

/-- With FIN the stream is shut in one direction. -/
theorem shutWrIf_changes (b : Prop) [Decidable b] (id : Int) : Changes P s (if b then s.shutdownWr id else s) := by
  split
  · exact shutdownWr_changes P s id
  · exact .refl

theorem shutRdIf_changes (b : Prop) [Decidable b] (id : Int) : Changes P s (if b then s.shutdownRd id else s) := by
  split
  · exact shutdownRd_changes P s id
  · exact .refl

theorem afterCtrlSent_changes (item : OutboundItem) (f : Frame) : Changes P s (s.afterCtrlSent item f).1 := by
  cases f with
  | synStream f =>
    rw [afterCtrlSent,afterSynStreamSent]
    split
    · exact .refl
    · have h := (((setState_changes P s f.streamId .opening).trans (shutWrIf_changes P _ (flagFin f.hd.flags = true) f.streamId)).trans
        (shutRdIf_changes P _ (flagUnidirectional f.hd.flags = true) f.streamId)).trans
        (closeStreamIfShutRdwr_changes P _ f.streamId)
      exact h.trans (submitBody_changes P _ f.streamId item.aux)
  | synReply f =>
    rw [afterCtrlSent,afterSynReplySent]
    split
    · exact .refl
    · have h := ((setState_changes P s f.streamId .opened).trans (shutWrIf_changes P _ (flagFin f.hd.flags = true) f.streamId)).trans
        (closeStreamIfShutRdwr_changes P _ f.streamId)
      exact h.trans (submitBody_changes P _ f.streamId item.aux)
  | rstStream f =>
    rw [afterCtrlSent,afterRstStreamSent]
    refine Relation.ReflTransGen.trans ?_ (closeStream_changes P _ _ _)
    split
    · exact closePushedStreams_changes P s _ _
    · exact .refl
  | headers f =>
    rw [afterCtrlSent,afterHeadersSent]
    split
    · exact .refl
    · exact (shutWrIf_changes P s (flagFin f.hd.flags = true) f.streamId).trans (closeStreamIfShutRdwr_changes P _ f.streamId)
  | settings => exact .refl
  | windowUpdate => exact .refl
  | credential => exact .refl
  | ping => exact .same rfl rfl
  | goaway => exact .same rfl rfl

theorem afterDataFin_changes (d : DataFrame) : Changes P s (s.afterDataFin d) := by
  rw [afterDataFin]
  split
  · split
    · exact (shutdownWr_changes P s _).trans (closeStreamIfShutRdwr_changes P _ _)
    · exact .refl
  · exact .refl

theorem debit_changes (item : OutboundItem) : Changes P s (s.debit item) := by
  unfold debit
  split
  · split
    · exact .single (.restate s _ _ _ ⟨fun _ => rfl,fun _ h => h⟩)
    · exact .refl
  · exact .refl

theorem dropItem_changes (item : OutboundItem) (e : Err) : Changes P s (s.dropItem item e) := by
  unfold dropItem
  refine Relation.ReflTransGen.tail ?_ (.note _ _ rfl rfl)
  split
  · exact .refl
  · split
    · exact .single (.note s _ rfl rfl)
    · exact .refl
  · exact .refl

end Session
end Spdylay
