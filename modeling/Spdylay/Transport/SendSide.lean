import Spdylay.Session.Changes

/-! The sending side of a session: the frame being written, the blocks given to the
compressor and what is logged of writing. Only the send loop changes it: receiving and
submitting leave it alone, and put frames into the queues that the functions of frame.c
have made. -/
namespace Spdylay
open Library

structure SendSide where
  version : Version
  aob : ActiveOutboundItem
  hdDeflater : List Bytes
  writes : List Event

namespace Session

def sendSide (s : Session) : SendSide where
  version := s.version
  aob := s.aob
  hdDeflater := s.hdDeflater
  writes := s.host.log.filter ofSending

/-- Whatever has been queued on the way from `s` to `s'` is well formed. -/
def Feeds (P : Platform) (s' s : Session) : Prop :=
  ∀ x, .accepted x ∈ s'.host.log → .accepted x ∈ s.host.log ∨ Formed P s.version x.frame

/-- `s'` comes from `s` without the send loop. -/
def Beside (P : Platform) (s' s : Session) : Prop := s'.sendSide = s.sendSide ∧ Feeds P s' s

variable {P : Platform}

theorem Feeds.same {s' s : Session} (h : s'.host.log = s.host.log) : Feeds P s' s := fun _ hx => .inl (h ▸ hx)

theorem Feeds.trans {s2 s1 s : Session} (h' : Feeds P s2 s1) (h : Feeds P s1 s) (hv : s1.version = s.version) :
    Feeds P s2 s := by
  intro x hx
  rcases h' x hx with hx | hx
  · exact h x hx
  · rw [hv] at hx
    exact .inr hx

theorem Beside.same {s' s : Session} (h : s'.sendSide = s.sendSide) (hl : s'.host.log = s.host.log) : Beside P s' s :=
  ⟨h,.same hl⟩

theorem Beside.refl (s : Session) : Beside P s s := .same rfl rfl

theorem Beside.version {s' s : Session} (h : Beside P s' s) : s'.version = s.version :=
  congrArg SendSide.version h.1

theorem Beside.trans {s2 s1 s : Session} (h' : Beside P s2 s1) (h : Beside P s1 s) : Beside P s2 s :=
  ⟨h'.1.trans h.1,h'.2.trans h.2 h.version⟩

variable (P) (s : Session)

theorem sendSide_emit (e : Event) (h : ofSending e = false) : (s.emit e).sendSide = s.sendSide := by
  have hlog : (s.host.log ++ [e]).filter ofSending = s.host.log.filter ofSending := by
    rw [List.filter_append,List.filter_singleton,h]
    exact List.append_nil _
  exact congrArg (fun w => {s.sendSide with writes := w}) hlog

theorem feeds_emit (e : Event) (h : ∀ x, e ≠ .accepted x) : Feeds P (s.emit e) s := by
  intro x hx
  rcases List.mem_append.mp hx with hx | hx
  · exact .inl hx
  · exact absurd (List.mem_singleton.mp hx).symm (h x)

theorem beside_emit (e : Event) (h : aside e = true) : Beside P (s.emit e) s := by
  refine ⟨sendSide_emit s e ?_,feeds_emit P s e ?_⟩
  · cases e <;> first | rfl | cases h
  · rintro x rfl
    cases h

theorem beside_accepted (item : OutboundItem) (hf : Formed P s.version item.frame) :
    Beside P (s.emit (.accepted item)) s := by
  refine ⟨sendSide_emit s _ rfl,?_⟩
  intro x hx
  rcases List.mem_append.mp hx with hx | hx
  · exact .inl hx
  · cases List.mem_singleton.mp hx
    exact .inr hf

variable {P} {s}

theorem Change.beside {s' : Session} (h : Change P s s') : Beside P s' s := by
  cases h with
  | same h _ =>
    exact .same (congrArg (fun w : Watched => SendSide.mk w.version w.aob w.hdDeflater (w.log.filter ofSending)) h)
      (congrArg Watched.log h)
  | note e h => exact beside_emit P s e h
  | accept item hf _ => exact beside_accepted P s item hf
  | restate => exact .same rfl rfl
  | remove => exact .same rfl rfl

theorem Changes.beside {s' : Session} (h : Changes P s s') : Beside P s' s :=
  h.rule (R := fun a b => Beside P b a) .refl (fun h h' => h'.trans h) Change.beside

variable (P) (s)

/-! Opening streams and crediting bytes. -/

theorem beside_addWindowUpdate (id delta : Int) : Beside P (s.addWindowUpdate id delta).1 s := by
  have hm := (malloc_changes P s).beside
  rw [addWindowUpdate,addCtrl]
  split
  · obtain ⟨s1,h,heq | ⟨e,heq⟩⟩ := addFrame_reported P s.malloc
      (.ctrl (.windowUpdate (frameWindowUpdateInit s.version.num id delta))) none
    · rw [heq]
      refine (beside_accepted P s1 _ ?_).trans (h.beside.trans hm)
      rw [h.version]
      exact ⟨id,delta,rfl⟩
    · rw [heq]
      exact h.beside.trans hm
  · exact hm

theorem beside_openStream (id : Int) (flags pri : Nat) (state : StreamState) :
    Beside P (s.openStream id flags pri state).1 s := by
  have hcount : ∀ s : Session, Beside P (s.countOpened id) s := by
    intro s
    unfold countOpened
    split <;> exact .same rfl rfl
  unfold openStream
  split
  · dsimp only
    split
    · exact hcount _
    · exact (hcount _).trans (beside_emit P s.malloc _ rfl)
  · exact .same rfl rfl

theorem beside_submission (op : Op) (hs : op ≠ .send) (hr : ∀ input, op ≠ .memRecv input) :
    Beside P (s.call P op).1 s := by
  by_cases hp : Op.isPlain op = true
  · exact (plain_changes P s op hp).beside
  · cases op with
    | submitSettings flags iv =>
      obtain ⟨s1,h,⟨heq,-⟩ | ⟨e,heq⟩⟩ := submitSettings_changes P s flags iv
      · rw [call,heq]
        exact Beside.trans (.same rfl rfl) h.beside
      · rw [call,heq]
        exact h.beside
    | submitWindowUpdate id delta =>
      rw [call,submitWindowUpdate]
      split
      · exact .refl s
      · split
        · exact beside_addWindowUpdate P (s.modifyStream id _) id delta
        · exact .refl s
    | setNoAutoWindowUpdate on => exact .same rfl rfl
    | send => exact absurd rfl hs
    | memRecv input => exact absurd rfl (hr input)
    | _ => exact absurd rfl hp

/-! Received frames. -/

theorem beside_acceptSynStream (f : SynStream) : Beside P (s.acceptSynStream f) s := by
  have hopen : Beside P (s.openReceived f) s := by
    have h := beside_openStream P s f.streamId f.hd.flags f.pri .opening
    unfold openReceived
    split
    · exact .same rfl rfl
    · generalize s.openStream f.streamId f.hd.flags f.pri .opening = o at h
      dsimp only
      split_ifs <;> exact h
  unfold acceptSynStream
  generalize s.openReceived f = s1 at hopen
  have h1 := (beside_emit P s1 (.ctrlRecv (.synStream f)) rfl).trans hopen
  dsimp only
  split
  · have h2 := (beside_emit P (s1.emit (.ctrlRecv (.synStream f))) (.requestRecv f.streamId) rfl).trans h1
    split
    · exact (beside_emit P _ _ rfl).trans h2
    · exact h2
  · exact h1

theorem beside_onSynStreamReceived (f : SynStream) : Beside P (s.onSynStreamReceived f).1 s := by
  rw [onSynStreamReceived]
  split
  · exact .refl s
  · split
    · exact (handleInvalidStream_changes P s _ _ _).beside
    · split
      · exact (failSession_changes P _ _).beside.trans (beside_emit P s _ rfl)
      · dsimp only
        split
        · exact beside_acceptSynStream P {s with lastRecvStreamId := f.streamId} f
        · exact (handleInvalidStream_changes P {s with lastRecvStreamId := f.streamId} _ _ _).beside

theorem beside_dispatchCtrlFrame : Beside P (s.dispatchCtrlFrame P).1 s := by
  by_cases h : FrameType.ofNum (getUint16 (s.iframe.headbuf.drop 2)) = some .synStream
  · obtain ⟨hp,hm⟩ := parseSynStream_same P s
    have hb := (Changes.mem (P := P) hp hm).beside
    rw [dispatchCtrlFrame,h]
    dsimp only
    rw [processSynStream]
    dsimp only
    split
    · exact (beside_onSynStreamReceived P _ _).trans hb
    · exact (handleHeadersError_changes P _ _ _ _ _).beside.trans hb
  · exact (dispatchCtrlFrame_changes P s h).beside

/-! The receive loop. -/

theorem beside_endFrame : Beside P (s.endFrame P).1 s := by
  have hframe : Beside P (if s.iframe.isCtrl then s.processCtrlFrame P else s.processDataFrame).1 s := by
    split
    · rw [processCtrlFrame,onlyFatal_fst]
      exact beside_dispatchCtrlFrame P s
    · exact (processDataFrame_changes P s).beside
  rw [endFrame]
  split
  · exact .refl s
  split
  · dsimp only
    split
    · exact (beside_emit P _ _ rfl).trans hframe
    · exact hframe
  · exact .refl s

theorem beside_creditChunk (readlen : Nat) : Beside P (s.creditChunk readlen).1 s := by
  unfold creditChunk
  dsimp only
  split
  · unfold updateRecvWindowSize
    split
    · exact .same rfl rfl
    · rename_i st _
      dsimp only
      generalize (if int32Max-readlen < st.recvWindowSize then int32Max else st.recvWindowSize+readlen) = size
      have h := beside_addWindowUpdate P (s.modifyStream (getStreamId s.iframe.headbuf) (fun st =>
        {st with recvWindowSize := size})) (getStreamId s.iframe.headbuf) size
      split
      · split <;> exact h
      · exact .same rfl rfl
  · exact .refl s

theorem beside_recvChunk (chunk : Bytes) : Beside P (s.recvChunk P chunk) s := by
  obtain ⟨hi,hm⟩ := inflateChunk_same P s chunk
  rw [recvChunk]
  dsimp only
  split
  · exact (Changes.mem (P := P) hi hm).beside
  · split
    · split <;> exact .same rfl rfl
    · split
      · exact .same rfl rfl
      · exact beside_emit P s _ rfl

theorem beside_recvPayload (input : Bytes) : Beside P (s.recvPayload P input).1 s := by
  rw [recvPayload]
  dsimp only
  split
  · exact .refl s
  · obtain ⟨hp,hm⟩ := recvPreNv_same s input (min input.length (s.iframe.payloadlen-s.iframe.off))
    have hb := (Changes.same (P := P) hp hm).beside
    generalize s.recvPreNv input (min input.length (s.iframe.payloadlen-s.iframe.off)) = p at hb
    have hc := (beside_creditChunk P (p.1.recvChunk P (p.2.1.take p.2.2)) (p.2.1.take p.2.2).length).trans
      ((beside_recvChunk P p.1 (p.2.1.take p.2.2)).trans hb)
    split
    · exact hc
    · have he := (beside_endFrame P _).trans hc
      split <;> exact he

theorem beside_recvIter (input : Bytes) : Beside P (s.recvIter P input).1 s := by
  obtain ⟨hp,hm⟩ := recvHead_same P s input
  have hh := (Changes.mem (P := P) hp hm).beside
  rw [recvIter]
  split
  · dsimp only
    split
    · exact hh
    · exact (beside_recvPayload P _ _).trans hh
  · exact beside_recvPayload P s input

end Session
end Spdylay
