import Spdylay.Session.Turns

/-! What a submission that returns an error leaves behind. -/
namespace Spdylay
open Library
namespace Session

/-- Equal but for the sequence number, the unique id and the memory. -/
def Unchanged (s s' : Session) : Prop :=
  ∃ m nextSeq nextUniqueId, s' = {s.setMem m with nextSeq := nextSeq, nextUniqueId := nextUniqueId}

theorem Unchanged.refl (s : Session) : Unchanged s s := ⟨s.host.mem,s.nextSeq,s.nextUniqueId,rfl⟩

theorem Unchanged.trans {s1 s2 s3 : Session} (h : Unchanged s1 s2) (h' : Unchanged s2 s3) : Unchanged s1 s3 := by
  obtain ⟨_,_,_,rfl⟩ := h
  obtain ⟨m,seq,id,rfl⟩ := h'
  exact ⟨m,seq,id,rfl⟩

theorem Unchanged.streams {s s' : Session} (h : Unchanged s s') : s'.streams = s.streams := by
  obtain ⟨_,_,_,rfl⟩ := h
  rfl

theorem setMem_unchanged (s : Session) (m : Mem) : Unchanged s (s.setMem m) := ⟨m,s.nextSeq,s.nextUniqueId,rfl⟩

theorem malloc_unchanged (s : Session) : Unchanged s s.malloc := setMem_unchanged s _

theorem mallocs_unchanged (n : Nat) (s : Session) : Unchanged s (mallocs n s).1 := by
  induction n generalizing s with
  | zero => exact .refl s
  | succ n ih =>
    rw [mallocs]
    split
    · exact (malloc_unchanged s).trans (ih _)
    · exact malloc_unchanged s

/-! A frame that cannot be queued. -/

theorem pushOb_error {s : Session} {item : OutboundItem} {e : Err} (h : (s.pushOb item).2 = some e) :
    Unchanged s (s.pushOb item).1 := by
  rw [pushOb] at h ⊢
  cases hp : pqPush s.host.mem s.obPq item with
  | mk m r =>
    rw [hp] at h
    cases r with
    | none => exact setMem_unchanged s m
    | some pq => cases h

theorem pushObSs_error {s : Session} {item : OutboundItem} {e : Err} (h : (s.pushObSs item).2 = some e) :
    Unchanged s (s.pushObSs item).1 := by
  rw [pushObSs] at h ⊢
  cases hp : pqPush s.host.mem s.obSsPq item with
  | mk m r =>
    rw [hp] at h
    cases r with
    | none => exact setMem_unchanged s m
    | some pq => cases h

theorem pushItem_error {s : Session} {item : OutboundItem} {e : Err} (h : (s.pushItem item).2 = some e) :
    Unchanged s (s.pushItem item).1 := by
  rw [pushItem] at h ⊢
  split
  · rename_i hsyn
    rw [if_pos hsyn] at h
    exact pushObSs_error h
  · rename_i hsyn
    rw [if_neg hsyn] at h
    exact pushOb_error h

/-- The item comes to the queue with its stream marked. -/
theorem addFrame_error {s : Session} {frame : OutFrame} {aux : Option DataProvider} {e : Err}
    (h : (s.addFrame frame aux).2 = some e) :
    Unchanged (if s.mallocOk then s.markClosing frame else s) (s.addFrame frame aux).1 := by
  rw [addFrame] at h ⊢
  split
  · rename_i hm
    rw [if_pos hm] at h
    dsimp only at h ⊢
    generalize hs : ({s.malloc with nextSeq := s.nextSeq+1} : Session).markClosing frame = s1 at h ⊢
    have hmark : Unchanged (s.markClosing frame) s1 := by
      rw [← hs]
      refine ⟨s.host.mem.tail,s.nextSeq+1,s.nextUniqueId,?_⟩
      unfold markClosing
      split <;> rfl
    cases hp : (s1.pushItem (s.newItem frame aux)).2 with
    | none =>
      rw [hp] at h
      cases h
    | some e' => exact hmark.trans (pushItem_error hp)
  · exact malloc_unchanged s

/-- Frames that mark nothing. -/
theorem addFrame_unchanged {s : Session} {frame : OutFrame} {aux : Option DataProvider} {e : Err}
    (hmark : s.markClosing frame = s) (h : (s.addFrame frame aux).2 = some e) : Unchanged s (s.addFrame frame aux).1 := by
  have hx := addFrame_error h
  rwa [hmark,ite_self] at hx

theorem addCtrl_unchanged {s : Session} {f : Frame} {e : Err} (hmark : s.malloc.markClosing (.ctrl f) = s.malloc)
    (h : (s.addCtrl f).2 = some e) : Unchanged s (s.addCtrl f).1 := by
  rw [addCtrl] at h ⊢
  split
  · rename_i hm
    rw [if_pos hm] at h
    exact (malloc_unchanged s).trans (addFrame_unchanged hmark h)
  · exact malloc_unchanged s

/-- Allocations in a row and then a frame. -/
theorem mallocs_addFrame_unchanged {s : Session} {n : Nat} {frame : OutFrame} {aux : Option DataProvider} {e : Err}
    (hmark : ∀ s : Session, s.markClosing frame = s)
    (h : (if (mallocs n s).2 then (mallocs n s).1.addFrame frame aux else ((mallocs n s).1,some .nomem)).2 = some e) :
    Unchanged s (if (mallocs n s).2 then (mallocs n s).1.addFrame frame aux else ((mallocs n s).1,some .nomem)).1 := by
  split
  · rename_i hm
    rw [if_pos hm] at h
    exact (mallocs_unchanged n s).trans (addFrame_unchanged (hmark _) h)
  · exact mallocs_unchanged n s

/-! The submissions that change nothing before the frame is queued. -/

theorem submitSynStreamShared_unchanged {P : Platform} {s : Session} {flags : Nat} {assoc : Int} {pri : Nat}
    {nv : List Bytes} {dataPrd : Option DataProvider} {e : Err}
    (h : (s.submitSynStreamShared P flags assoc pri nv dataPrd).2 = some e) :
    Unchanged s (s.submitSynStreamShared P flags assoc pri nv dataPrd).1 := by
  rw [submitSynStreamShared] at h ⊢
  split
  · exact .refl s
  · split
    · exact .refl s
    · split
      · exact .refl s
      · rename_i h1 h2 h3
        rw [if_neg h1,if_neg h2,if_neg h3] at h
        exact mallocs_addFrame_unchanged (fun _ => rfl) h

theorem submitSynReply_unchanged {P : Platform} {s : Session} {flags : Nat} {streamId : Int} {nv : List Bytes} {e : Err}
    (h : (s.submitSynReply P flags streamId nv).2 = some e) : Unchanged s (s.submitSynReply P flags streamId nv).1 := by
  rw [submitSynReply] at h ⊢
  split
  · exact .refl s
  · rename_i hn
    rw [if_neg hn] at h
    exact mallocs_addFrame_unchanged (fun _ => rfl) h

theorem submitHeaders_unchanged {P : Platform} {s : Session} {flags : Nat} {streamId : Int} {nv : List Bytes} {e : Err}
    (h : (s.submitHeaders P flags streamId nv).2 = some e) : Unchanged s (s.submitHeaders P flags streamId nv).1 := by
  rw [submitHeaders] at h ⊢
  split
  · exact .refl s
  · rename_i hn
    rw [if_neg hn] at h
    exact mallocs_addFrame_unchanged (fun _ => rfl) h

theorem submitResponse_unchanged {P : Platform} {s : Session} {streamId : Int} {nv : List Bytes}
    {dataPrd : Option DataProvider} {e : Err} (h : (s.submitResponse P streamId nv dataPrd).2 = some e) :
    Unchanged s (s.submitResponse P streamId nv dataPrd).1 := by
  rw [submitResponse] at h ⊢
  split
  · exact .refl s
  · rename_i hn
    rw [if_neg hn] at h
    exact mallocs_addFrame_unchanged (fun _ => rfl) h

theorem submitData_unchanged {s : Session} {streamId : Int} {flags : Nat} {dataPrd : DataProvider} {e : Err}
    (h : (s.submitData streamId flags dataPrd).2 = some e) : Unchanged s (s.submitData streamId flags dataPrd).1 := by
  rw [submitData] at h ⊢
  split
  · rename_i hm
    rw [if_pos hm] at h
    exact (malloc_unchanged s).trans (addFrame_unchanged rfl h)
  · exact malloc_unchanged s

theorem submitPing_unchanged {s : Session} {e : Err} (h : s.submitPing.2 = some e) : Unchanged s s.submitPing.1 := by
  rw [submitPing,addPing] at h ⊢
  have hid : Unchanged s s.getNextUniqueId.1 := ⟨s.host.mem,s.nextSeq,_,rfl⟩
  exact hid.trans (addCtrl_unchanged rfl h)

theorem submitGoaway_unchanged {s : Session} {statusCode : Nat} {e : Err} (h : (s.submitGoaway statusCode).2 = some e) :
    Unchanged s (s.submitGoaway statusCode).1 := by
  rw [submitGoaway,addGoaway] at h ⊢
  exact addCtrl_unchanged rfl h

/-- The local settings are updated after the frame is queued. -/
theorem submitSettings_unchanged {P : Platform} {s : Session} {flags : Nat} {iv : List SettingsEntry} {e : Err}
    (h : (s.submitSettings P flags iv).2 = some e) : Unchanged s (s.submitSettings P flags iv).1 := by
  rw [submitSettings] at h ⊢
  split
  · exact .refl s
  · rename_i hn
    rw [if_neg hn] at h
    dsimp only at h ⊢
    split
    · rename_i hm
      rw [if_pos hm] at h
      generalize hf : (mallocs 2 s).1.addFrame (.ctrl (.settings (frameSettingsInit s.version.num flags
        (frameIvSort P iv)))) none = r at h ⊢
      cases hr : r.2 with
      | none =>
        rw [hr] at h
        cases h
      | some e' =>
        rw [← hf] at hr
        have hx := (mallocs_unchanged 2 s).trans (addFrame_unchanged rfl hr)
        rwa [hf] at hx
    · exact mallocs_unchanged 2 s

/-! The two that change a stream first. -/

theorem modifyStream_same {s : Session} {id : Int} (f : Stream → Stream) (hf : ∀ st, (f st).streamId = st.streamId)
    (h : ∀ st, s.getStream id = some st → f st = st) : s.modifyStream id f hf = s := by
  have hentries : s.streams.entries.map (fun x => if x.streamId = id then f x else x) = s.streams.entries := by
    conv_rhs => rw [← List.map_id s.streams.entries]
    apply List.map_congr_left
    intro x hx
    split
    · rename_i hid
      exact h x (OrderedTable.find_eq_some.mpr ⟨hx,hid⟩)
    · rfl
  have hstreams : s.streams.modify id f hf = s.streams := by
    rw [OrderedTable.modify]
    congr
  rw [modifyStream,hstreams]

theorem of_modifyStream_same {s : Session} {id : Int} (f : Stream → Stream) (hf : ∀ st, (f st).streamId = st.streamId)
    (h : (s.modifyStream id f hf).streams = s.streams) {st : Stream} (hst : s.getStream id = some st) : f st = st := by
  have hfind := OrderedTable.find_modify s.streams id id f hf
  rw [if_pos rfl] at hfind
  have hx : (s.streams.modify id f hf).find id = s.streams.find id := congrArg (fun t => OrderedTable.find t id) h
  rw [hfind,show s.streams.find id = some st from hst] at hx
  exact Option.some.inj hx

/-- The condition under which a failed submission changes nothing. -/
def FailsClean (s : Session) : Op → Prop
  | .submitRstStream streamId _ =>
    ¬∃ st, s.getStream streamId = some st ∧ st.state ≠ .closing ∧ s.mallocOk = true ∧ s.malloc.mallocOk = true
  | .submitWindowUpdate streamId deltaWindowSize =>
    ¬∃ st, s.getStream streamId = some st ∧ st.recvWindowSize ≠ 0 ∧ 0 < deltaWindowSize
  | _ => True

theorem submitRstStream_unchanged_iff {s : Session} {streamId : Int} {statusCode : Nat} {e : Err}
    (h : (s.submitRstStream streamId statusCode).2 = some e) :
    Unchanged s (s.submitRstStream streamId statusCode).1 ↔ s.FailsClean (.submitRstStream streamId statusCode) := by
  rw [submitRstStream,addRstStream,addCtrl] at h ⊢
  by_cases h1 : s.mallocOk = true
  · rw [if_pos h1] at h ⊢
    have hx := addFrame_error h
    by_cases h2 : s.malloc.mallocOk = true
    · rw [if_pos h2] at hx
      constructor
      · rintro hu ⟨st,hst,hstate,-⟩
        have hstreams := hx.streams.symm.trans hu.streams
        have hsame := of_modifyStream_same (s := s.malloc) (fun st => {st with state := .closing}) (fun _ => rfl) hstreams hst
        exact hstate (congrArg Stream.state hsame).symm
      · intro hclean
        have hmark : s.malloc.markClosing (.ctrl (.rstStream (frameRstStreamInit s.version.num streamId statusCode))) =
            s.malloc := by
          apply modifyStream_same
          intro st hst
          have hstate : st.state = .closing := by
            by_contra hne
            exact hclean ⟨st,hst,hne,h1,h2⟩
          rw [← hstate]
        rw [hmark] at hx
        exact (malloc_unchanged s).trans hx
    · rw [if_neg h2] at hx
      exact ⟨fun _ ⟨st,_,_,_,hm⟩ => h2 hm,fun _ => (malloc_unchanged s).trans hx⟩
  · rw [if_neg h1]
    exact ⟨fun _ ⟨st,_,_,hm,_⟩ => h1 hm,fun _ => malloc_unchanged s⟩

theorem submitWindowUpdate_unchanged_iff {s : Session} {streamId delta : Int} {e : Err}
    (h : (s.submitWindowUpdate streamId delta).2 = some e) :
    Unchanged s (s.submitWindowUpdate streamId delta).1 ↔ s.FailsClean (.submitWindowUpdate streamId delta) := by
  rw [submitWindowUpdate] at h ⊢
  by_cases hd : delta ≤ 0
  · rw [if_pos hd]
    exact ⟨fun _ ⟨st,_,_,hpos⟩ => absurd hpos (not_lt.mpr hd),fun _ => .refl s⟩
  · rw [if_neg hd] at h ⊢
    cases hst : s.getStream streamId with
    | none =>
      refine ⟨?_,fun _ => .refl s⟩
      rintro - ⟨st,hst',-⟩
      rw [hst] at hst'
      cases hst'
    | some st =>
      rw [hst] at h
      dsimp only at h ⊢
      rw [addWindowUpdate] at h ⊢
      have hx := addCtrl_unchanged rfl h
      constructor
      · rintro hu ⟨st',hst',hne,hpos⟩
        have hstreams := hx.streams.symm.trans hu.streams
        have hsame := of_modifyStream_same (fun st => {st with
          recvWindowSize := st.recvWindowSize-min delta st.recvWindowSize}) (fun _ => rfl) hstreams hst'
        have hw := congrArg Stream.recvWindowSize hsame
        dsimp only at hw
        omega
      · intro hclean
        have hself : s.modifyStream streamId (fun st => {st with
            recvWindowSize := st.recvWindowSize-min delta st.recvWindowSize}) = s := by
          apply modifyStream_same
          intro st' hst'
          have hzero : st'.recvWindowSize = 0 := by
            by_contra hne
            exact hclean ⟨st',hst',hne,by omega⟩
          have hmin : st'.recvWindowSize-min delta st'.recvWindowSize = st'.recvWindowSize := by omega
          rw [hmin]
        rwa [hself] at hx ⊢

end Session

/-- The calls that submit a frame. -/
def Op.submits : Op → Bool
  | .resumeData _ => false
  | .setNoAutoWindowUpdate _ => false
  | .setMaxRecvCtrlFrameBuffer _ => false
  | .setInitialClientCertOrigin _ _ _ => false
  | .send => false
  | .memRecv _ => false
  | _ => true

open Session

theorem failed_submission_unchanged_iff (P : Platform) (s : Session) (op : Op) (hop : op.submits = true) (e : Err)
    (h : (s.call P op).2 = some e) : Unchanged s (s.call P op).1 ↔ s.FailsClean op := by
  cases op with
  | submitSynStream flags assocStreamId pri nv => exact iff_true_intro (submitSynStreamShared_unchanged h)
  | submitServerPush assocStreamId nv dataPrd => exact iff_true_intro (submitSynStreamShared_unchanged h)
  | submitRequest pri nv dataPrd => exact iff_true_intro (submitSynStreamShared_unchanged h)
  | submitSynReply flags streamId nv => exact iff_true_intro (submitSynReply_unchanged h)
  | submitHeaders flags streamId nv => exact iff_true_intro (submitHeaders_unchanged h)
  | submitResponse streamId nv dataPrd => exact iff_true_intro (submitResponse_unchanged h)
  | submitData streamId flags dataPrd => exact iff_true_intro (submitData_unchanged h)
  | submitPing => exact iff_true_intro (submitPing_unchanged h)
  | submitRstStream streamId statusCode => exact submitRstStream_unchanged_iff h
  | submitGoaway statusCode => exact iff_true_intro (submitGoaway_unchanged h)
  | submitSettings flags iv => exact iff_true_intro (submitSettings_unchanged h)
  | submitWindowUpdate streamId deltaWindowSize => exact submitWindowUpdate_unchanged_iff h
  | resumeData streamId => cases hop
  | setNoAutoWindowUpdate on => cases hop
  | setMaxRecvCtrlFrameBuffer n => cases hop
  | setInitialClientCertOrigin scheme host port => cases hop
  | send => cases hop
  | memRecv input => cases hop

/-- A server that has received three bytes of an upload; then there is no memory. -/
def uploadWithoutMemory : Session :=
  ((⟨true,.spdy3,.int32,false,⟨[true,true,true,true,false],[],[],[],[]⟩⟩ : Setup).start peerPlatform).run peerPlatform
    [.memRecv (firstRequest 0 1 ++ [0,0,0,1,0,0,0,3,7,8,9])]

/-- The WINDOW_UPDATE is refused, and the three bytes are no longer counted. -/
theorem refused_window_update_changes_stream :
    (uploadWithoutMemory.call peerPlatform (.submitWindowUpdate 1 3)).2 = some .nomem ∧
    (uploadWithoutMemory.getStream 1).map Stream.recvWindowSize = some 3 ∧
    ((uploadWithoutMemory.call peerPlatform (.submitWindowUpdate 1 3)).1.getStream 1).map Stream.recvWindowSize = some 0 ∧
    ¬Unchanged uploadWithoutMemory (uploadWithoutMemory.call peerPlatform (.submitWindowUpdate 1 3)).1 := by
  have h1 : (uploadWithoutMemory.getStream 1).map Stream.recvWindowSize = some 3 := by decide +kernel
  have h2 : ((uploadWithoutMemory.call peerPlatform (.submitWindowUpdate 1 3)).1.getStream 1).map Stream.recvWindowSize =
      some 0 := by decide +kernel
  refine ⟨by decide +kernel,h1,h2,?_⟩
  intro hu
  rw [getStream,hu.streams] at h2
  exact absurd (h1.symm.trans h2) (by decide)

/-- A refused PING changes nothing. -/
theorem refused_ping_unchanged : Unchanged uploadWithoutMemory (uploadWithoutMemory.call peerPlatform .submitPing).1 :=
  (failed_submission_unchanged_iff peerPlatform uploadWithoutMemory .submitPing rfl .nomem (by decide +kernel)).mpr trivial

end Spdylay
