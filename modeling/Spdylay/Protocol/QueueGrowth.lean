import Spdylay.Protocol.Inversion

/-! The queue of the frames other than SYN_STREAMs. No item leaves it but for the item
that the send loop takes, and what is accepted enters it. -/
namespace Spdylay.Machine
open Library Session

structure Core.Grows (c c' : Core) : Prop where
  queue : c.obPq ≤ c'.obPq
  accepts : ∀ x, .accepted x ∈ c'.log → x.isSynStream = false → .accepted x ∈ c.log ∨ x ∈ c'.obPq

namespace Core.Grows

theorem logged {c c' : Core} {l : List Event} (hq : c.obPq ≤ c'.obPq) (hl : c'.log = c.log ++ l)
    (hes : ∀ x, Event.accepted x ∉ l) : c.Grows c' := by
  refine ⟨hq,?_⟩
  intro x hx _
  rw [hl] at hx
  exact .inl ((List.mem_append.mp hx).resolve_right (hes x))

theorem silent {c c' : Core} (hq : c.obPq ≤ c'.obPq) (hl : c'.log = c.log) : c.Grows c' :=
  logged hq (hl.trans (List.append_nil _).symm) (fun _ => List.not_mem_nil)

theorem refl (c : Core) : c.Grows c := silent le_rfl rfl

theorem trans {c c1 c2 : Core} (h : c.Grows c1) (h' : c1.Grows c2) : c.Grows c2 := by
  refine ⟨h.queue.trans h'.queue,?_⟩
  intro x hx hsyn
  rcases h'.accepts x hx hsyn with hx | hx
  · exact (h.accepts x hx hsyn).imp_right (Multiset.mem_of_le h'.queue)
  · exact .inr hx

end Core.Grows

theorem Act.grows {c c' : Core} (h : Act c c') : c.Grows c' := by
  cases h with
  | note e hp =>
    refine .logged (l := [e]) le_rfl rfl ?_
    intro x hx
    rw [← List.mem_singleton.mp hx] at hp
    cases hp
  | accept item hs =>
    unfold Core.enqueue Core.note
    split
    · rename_i hsyn
      refine ⟨le_rfl,?_⟩
      intro x hx hx'
      rcases List.mem_append.mp hx with hx | hx
      · exact .inl hx
      · cases List.mem_singleton.mp hx
        rw [hsyn] at hx'
        cases hx'
    · refine ⟨Multiset.le_cons_self _ _,?_⟩
      intro x hx _
      rcases List.mem_append.mp hx with hx | hx
      · exact .inl hx
      · cases List.mem_singleton.mp hx
        exact .inr (Multiset.mem_cons_self _ _)
  | close streamId st hst =>
    unfold Core.close Core.freeDeferred Core.countClosed
    cases st.deferredData with
    | none => cases Core.isMine c.server st.streamId <;> exact .silent le_rfl rfl
    | some item =>
      cases Core.isMine c.server st.streamId <;> exact .logged (l := [.finished item.seq (.streamClosed st.streamId)]) le_rfl rfl (by simp)
  | resume streamId st item hst hi => exact .silent (Multiset.le_cons_self _ _) rfl
  | _ => exact .silent le_rfl rfl

theorem Core.rewindow_queue_le (c : Core) (streamId : Int) (f : Int → Int) : c.obPq ≤ (c.rewindow streamId f).obPq := by
  unfold Core.rewindow Core.release
  split
  · exact Multiset.le_cons_self _ _
  · exact le_refl _

theorem Core.rebase_queue_le (c : Core) (value : Nat) : c.obPq ≤ (c.rebase value).obPq := by
  have hfold : ∀ (f : Int → Int) (ids : List Int) (c : Core),
      c.obPq ≤ (ids.foldl (fun c' id => c'.rewindow id f) c).obPq := by
    intro f ids
    induction ids with
    | nil => exact fun c => le_refl _
    | cons id ids ih => exact fun c => (c.rewindow_queue_le id f).trans (ih _)
  exact hfold _ _ c

theorem Inb.grows {c c' : Core} (h : Inb c c') : c.Grows c' := by
  cases h with
  | openPeer st streams hn hw hd hp hi =>
    unfold Core.countOpened
    split <;> exact .silent le_rfl rfl
  | openPeerFailed st hn hi =>
    unfold Core.countOpened
    split <;> exact .logged (l := [.insertFailed st.streamId]) le_rfl rfl (by simp)
  | raise streamId delta st hst =>
    obtain ⟨streams,obPq,he⟩ := c.rewindow_frame streamId (fun w => c.arith.store (w+delta))
    refine .logged (l := [.windowRaised streamId delta]) (c.rewindow_queue_le _ _) ?_ (by simp)
    rw [he]
    rfl
  | raiseStuck streamId delta st hst =>
    exact .logged (l := [.windowRaised streamId delta]) le_rfl rfl (by simp)
  | rebase value hf hv =>
    obtain ⟨streams,obPq,he⟩ := c.rebase_frame value
    refine .silent (c.rebase_queue_le value) ?_
    rw [he]
    rfl
  | _ => exact .silent le_rfl rfl

theorem ReadSteps.grows {c c' : Core} (h : ReadSteps c c') : c.Grows c' := by
  induction h with
  | refl => exact .refl _
  | tail _ hm ih =>
    rcases hm with hm | hm | hm
    · exact ih.trans hm.grows
    · exact ih.trans hm.grows
    · cases hm with
      | read f z => exact ih.trans (.silent le_rfl rfl)

theorem Steps.grows {c c' : Core} (h : Steps c c') : c.Grows c' := h.inSteps.readSteps.grows

end Spdylay.Machine

namespace Spdylay.Protocol
open Library Session Machine

abbrev Grows (s s' : Session) : Prop := (core s cleanGhost).Grows (core s' cleanGhost)

theorem Grows.subset {s s' : Session} (h : Grows s s') : s.obPq.q ⊆ s'.obPq.q :=
  fun _ hi => Multiset.mem_coe.mp (Multiset.mem_of_le h.queue (Multiset.mem_coe.mpr hi))

theorem Grows.accepted {s s' : Session} (h : Grows s s') {x : OutboundItem} (hx : .accepted x ∈ s'.host.log)
    (hs : x.isSynStream = false) : .accepted x ∈ s.host.log ∨ x ∈ s'.obPq.q :=
  (h.accepts x hx hs).imp_right Multiset.mem_coe.mp

/-- The other fields do not matter. -/
theorem Grows.same {s s' : Session} (hq : s'.obPq.q = s.obPq.q) (hl : s'.host.log = s.host.log) : Grows s s' :=
  .silent (le_of_eq (congrArg (fun q : List OutboundItem => (q : Multiset OutboundItem)) hq.symm)) hl

theorem Grows.emit (s : Session) (e : Event) (he : ∀ x, e ≠ .accepted x) : Grows s (s.emit e) := by
  refine .logged (l := [e]) le_rfl rfl ?_
  intro x hx
  exact he x (List.mem_singleton.mp hx).symm

theorem Grows.of_core {s s' : Session} (h : core s' cleanGhost = core s cleanGhost) : Grows s s' := by
  unfold Grows
  rw [h]
  exact .refl _

/-! Writing. -/

theorem debit_grows (s : Session) (item : OutboundItem) : Grows s (s.debit item) := by
  unfold Session.debit
  split
  · split <;> exact .same rfl rfl
  · exact .same rfl rfl

theorem activeReset_grows (s : Session) (cause : Finish) : Grows s (s.activeReset cause) := by
  unfold activeReset
  split
  · exact (Grows.emit s (.finished _ _) nofun).trans (Grows.same rfl rfl)
  · exact .same rfl rfl

theorem deferData_grows (s : Session) (st : Stream) (item : OutboundItem) (fc : Bool) :
    Grows s (s.deferData st item fc).1 := by
  unfold deferData
  split <;> exact .same rfl rfl

theorem packData_grows (s : Session) (seq : Nat) (d : DataFrame) (datamax : Nat) :
    Grows s (s.packData seq d datamax).1 := by
  rcases packData_cases s seq d datamax with ⟨bytes,fin,-,-,-,hc⟩ | ⟨e,-,-,hc,-⟩
  · unfold Grows
    rw [hc]
    exact Grows.emit s (.read seq d.streamId bytes) nofun
  · exact .of_core (hc cleanGhost)

theorem addRstStream_grows (s : Session) (id : Int) (statusCode : Nat) : Grows s (s.addRstStream id statusCode).1 :=
  (addCtrl_steps s _ cleanGhost).grows

theorem continueData_grows (s : Session) (item : OutboundItem) (d : DataFrame) (st : Stream) :
    Grows s (s.continueData item d st).1 := by
  unfold continueData
  dsimp only
  have hp := packData_grows s item.seq d (s.nextDataRead st)
  split
  · have hd := deferData_grows s st item true
    split
    · exact hd.trans (Grows.same rfl rfl)
    · exact hd
  · generalize s.packData item.seq d (s.nextDataRead st) = p at hp
    split
    · exact (hp.trans (Grows.emit p.1 (.prepared _ _) nofun)).trans (Grows.same rfl rfl)
    · have hd := hp.trans (deferData_grows p.1 st {item with frame := .data p.2.1} false)
      split
      · exact hd.trans (Grows.same rfl rfl)
      · exact hd
    · exact (hp.trans (addRstStream_grows p.1 _ _)).trans (activeReset_grows _ _)
    · exact hp.trans (activeReset_grows _ _)

theorem pushOb_grows (s : Session) (item : OutboundItem) : Grows s (s.pushOb item).1 := by
  have hpush : ((s.obPq.q : Multiset OutboundItem)) ≤ (BinaryHeap.push outboundItemCompar s.obPq.q item : List _) := by
    rw [Multiset.coe_eq_coe.mpr (BinaryHeap.push_perm outboundItemCompar s.obPq.q item)]
    exact Multiset.le_cons_self _ _
  unfold pushOb pqPush
  split_ifs
  · exact .silent hpush rfl
  · exact .silent le_rfl rfl
  · exact .silent hpush rfl

theorem afterDataSent_grows (s : Session) (item : OutboundItem) (d : DataFrame) :
    Grows s (s.afterDataSent item d).1 := by
  unfold afterDataSent
  dsimp only
  have h1 : Grows s _ := Machine.Steps.grows ((emit_steps s (.dataSend (if d.eof then d.flags else 0) d.streamId
    (s.aob.framebuf.length-headLen)) cleanGhost rfl).trans (afterDataFin_steps _ d cleanGhost))
  generalize (s.emit _).afterDataFin d = s1 at h1
  split
  · exact h1.trans (activeReset_grows s1 _)
  · split
    · split
      · exact h1
      · exact h1.trans (continueData_grows _ _ _ _)
    · have h2 := h1.trans (pushOb_grows s1 item)
      split
      · exact h2.trans (Grows.same rfl rfl)
      · exact h2.trans (activeReset_grows _ _)

theorem afterFrameSent_grows (s : Session) : Grows s s.afterFrameSent.1 := by
  unfold afterFrameSent
  split
  · exact .refl _
  · rename_i item _
    split
    · rename_i f _
      have h1 : Grows s _ := Machine.Steps.grows ((emit_steps s (.ctrlSend f) cleanGhost rfl).trans
        (afterCtrlSent_steps _ item f cleanGhost))
      dsimp only
      split
      · exact h1.trans (activeReset_grows _ _)
      · exact h1
    · exact afterDataSent_grows s item _

theorem sendWrite_grows (s : Session) (item : OutboundItem) : Grows s (s.sendWrite item).1 := by
  unfold sendWrite
  dsimp only
  split
  · exact .same rfl rfl
  · exact .same rfl rfl
  · rename_i n _
    have hsent := Grows.emit s (.sent ((s.aob.framebuf.drop s.aob.framebufoff).take
      (min n (s.aob.framebuf.length-s.aob.framebufoff)))) nofun
    unfold sendAccepted
    dsimp only
    generalize hs1 : Session.debit _ item = s1
    have h1 : Grows s s1 := by
      rw [← hs1]
      refine hsent.trans (Core.Grows.trans ?_ (debit_grows _ item))
      exact Grows.same rfl rfl
    split
    · have h2 := h1.trans (afterFrameSent_grows s1)
      split <;> exact h2
    · exact h1

/-! Preparing. -/

/-- The preparation of a frame other than a SYN_STREAM. -/
structure Plain (s : Session) (p : Prep) : Prop where
  grows : Grows s p.ses
  vector : p.ses.cliCertvec = s.cliCertvec
  active : p.ses.aob.item = s.aob.item
  frame : ∀ f, p.item.frame ≠ .ctrl (.synStream f)

theorem Plain.of_conn {s s' : Session} {item : OutboundItem} {r : Except Err Bytes} (h : conn s' none = conn s none)
    (hf : ∀ f, item.frame ≠ .ctrl (.synStream f)) : Plain s ⟨s',item,r⟩ :=
  ⟨.same (congrArg Conn.obPq h) (congrArg Conn.log h),congrArg Conn.cliCertvec h,congrArg Conn.active h,hf⟩

theorem prepFixed_plain {s : Session} {item : OutboundItem} (bytes : Bytes)
    (hf : ∀ f, item.frame ≠ .ctrl (.synStream f)) : Plain s (s.prepFixed item bytes) := by
  have hc := conn_reserveFramebuf s bytes.length none
  unfold prepFixed
  dsimp only
  split
  · exact .of_conn hc hf
  · exact .of_conn hc hf

theorem prepStreamHeaders_plain (P : Platform) (s : Session) (item : OutboundItem) (type : FrameType)
    {wrap : StreamHeaders → Frame} (f : StreamHeaders) (hw : ∀ f f', wrap f ≠ .synStream f') :
    Plain s (prepStreamHeaders P s item type wrap f) := by
  have hne : ∀ f f', OutFrame.ctrl (wrap f) ≠ .ctrl (.synStream f') := fun f f' h => hw f f' (OutFrame.ctrl.inj h)
  unfold prepStreamHeaders
  dsimp only
  split
  · exact .of_conn rfl (hne _)
  · split
    · exact .of_conn rfl (hne _)
    · have hc := fun off => conn_frameAllocPackNv P s (s.wireNv P f.nv) off (frameGetLenSize f.hd.version) none
      split
      · exact .of_conn (hc _) (hne _)
      · exact .of_conn (hc _) (hne _)

theorem addRstStream_same (s : Session) (id : Int) (statusCode : Nat) :
    (s.addRstStream id statusCode).1.cliCertvec = s.cliCertvec ∧
      (s.addRstStream id statusCode).1.aob.item = s.aob.item := by
  rcases conn_addCtrl s (.rstStream (frameRstStreamInit s.version.num id statusCode)) none with ⟨-,hc⟩ | ⟨-,hc | hc⟩
  · obtain ⟨streams,q,q',he⟩ := accept_frame (conn s none) (s.newItem (.ctrl (.rstStream
      (frameRstStreamInit s.version.num id statusCode))) none)
    exact ⟨congrArg Conn.cliCertvec (hc.trans he),congrArg Conn.active (hc.trans he)⟩
  · exact ⟨congrArg Conn.cliCertvec hc,congrArg Conn.active hc⟩
  · exact ⟨congrArg Conn.cliCertvec hc,congrArg Conn.active hc⟩

theorem prepData_plain {s : Session} {item : OutboundItem} {d : DataFrame} (hf : item.frame = .data d) :
    Plain s (s.prepData item d) := by
  have hne : ∀ f, item.frame ≠ .ctrl (.synStream f) := by
    rw [hf]
    rintro f ⟨⟩
  unfold prepData
  split
  · exact .of_conn rfl hne
  · split
    · exact .of_conn rfl hne
    · rename_i st _
      have hdef : ∀ (s : Session) item fc, (s.deferData st item fc).1.cliCertvec = s.cliCertvec ∧
          (s.deferData st item fc).1.aob = s.aob := by
        intro s item fc
        unfold deferData
        split <;> exact ⟨rfl,rfl⟩
      dsimp only
      split
      · have hd := hdef s item true
        exact ⟨deferData_grows s st item true,hd.1,congrArg _ hd.2,hne⟩
      · have hq := packData_grows s item.seq d (s.nextDataRead st)
        have hv : (s.packData item.seq d (s.nextDataRead st)).1.cliCertvec = s.cliCertvec ∧
            (s.packData item.seq d (s.nextDataRead st)).1.aob.item = s.aob.item := by
          rcases conn_packData s item.seq d (s.nextDataRead st) with ⟨_,_,-,-,hc⟩ | ⟨_,-,-,hc,-⟩
          · exact ⟨congrArg Conn.cliCertvec (hc none),congrArg Conn.active (hc none)⟩
          · exact ⟨congrArg Conn.cliCertvec (hc none),congrArg Conn.active (hc none)⟩
        generalize s.packData item.seq d (s.nextDataRead st) = p at hq hv
        split
        · exact ⟨hq,hv.1,hv.2,by rintro f ⟨⟩⟩
        · have hd := hdef p.1 {item with frame := .data p.2.1} false
          exact ⟨hq.trans (deferData_grows p.1 st _ false),hd.1.trans hv.1,
            (congrArg _ hd.2).trans hv.2,by rintro f ⟨⟩⟩
        · have hr := addRstStream_same p.1 d.streamId internalError
          exact ⟨hq.trans (addRstStream_grows _ _ _),hr.1.trans hv.1,hr.2.trans hv.2,by rintro f ⟨⟩⟩
        · exact ⟨hq,hv.1,hv.2,by rintro f ⟨⟩⟩

theorem prepFrame_plain (P : Platform) (s : Session) {item : OutboundItem}
    (h : ∀ f, item.frame ≠ .ctrl (.synStream f)) : Plain s (prepFrame P s item) := by
  unfold prepFrame
  split
  · rename_i f hf
    exact absurd hf (h f)
  · split
    · exact .of_conn rfl h
    · exact prepStreamHeaders_plain P s item .synReply _ nofun
  · exact prepFixed_plain _ h
  · unfold prepPacked
    split
    · exact prepFixed_plain _ h
    · exact .of_conn rfl h
  · exact prepFixed_plain _ h
  · split
    · exact .of_conn rfl h
    · exact prepStreamHeaders_plain P s item .headers _ nofun
  · split
    · exact .of_conn rfl h
    · exact prepFixed_plain _ h
  · split
    · exact .of_conn rfl h
    · unfold prepPacked
      split
      · exact prepFixed_plain _ h
      · exact .of_conn rfl h
  · exact prepFixed_plain _ h
  · rename_i d hf
    exact prepData_plain hf

theorem prepCredential_grows (s : Session) (f : SynStream) : Grows s (s.prepCredential f).1 :=
  Machine.Steps.grows (prepCredential_steps s f cleanGhost)

theorem openStream_same (s : Session) (id : Int) (flags pri : Nat) (state : StreamState) :
    Grows s (s.openStream id flags pri state).1 ∧
      (s.openStream id flags pri state).1.cliCertvec = s.cliCertvec ∧
      (s.openStream id flags pri state).1.aob.item = s.aob.item := by
  rcases conn_openStream s id flags pri state none with ⟨-,-,hc⟩ | ⟨-,es,hq,hc⟩
  · exact ⟨.same (congrArg Conn.obPq hc) (congrArg Conn.log hc),congrArg Conn.cliCertvec hc,congrArg Conn.active hc⟩
  · have hobPq : (s.openStream id flags pri state).1.obPq.q = s.obPq.q := congrArg Conn.obPq hc
    refine ⟨.logged (l := es) ?_ (congrArg Conn.log hc) ?_,congrArg Conn.cliCertvec hc,congrArg Conn.active hc⟩
    · exact le_of_eq (congrArg (fun q : List OutboundItem => (q : Multiset OutboundItem)) hobPq.symm)
    · intro x hx
      cases hq _ hx

/-- Packing a SYN_STREAM leaves the slots and the active item alone. -/
structure Packed (s : Session) (slot : Nat) (p : Prep) : Prop where
  grows : Grows s p.ses
  vector : p.ses.cliCertvec = s.cliCertvec
  active : p.ses.aob.item = s.aob.item
  frame : ∃ f, p.item.frame = .ctrl (.synStream f) ∧ f.slot = slot

theorem prepSynStreamPack_packed (P : Platform) (s : Session) (item : OutboundItem) (f : SynStream) :
    Packed s f.slot (prepSynStreamPack P s item f) := by
  unfold prepSynStreamPack
  dsimp only
  split
  · exact ⟨.same rfl rfl,rfl,rfl,_,rfl,rfl⟩
  · have hc := conn_frameAllocPackNv P {s with nextStreamId := s.nextStreamId+2} (s.wireNv P f.nv) synStreamNvOffset
      (frameGetLenSize f.hd.version) none
    generalize Session.frameAllocPackNv P _ _ synStreamNvOffset (frameGetLenSize f.hd.version) = r at hc
    have hq : Grows s r.1 := .same (congrArg Conn.obPq hc) (congrArg Conn.log hc)
    have hv : r.1.cliCertvec = s.cliCertvec := congrArg Conn.cliCertvec hc
    have ha : r.1.aob.item = s.aob.item := congrArg Conn.active hc
    split
    · exact ⟨hq,hv,ha,_,rfl,rfl⟩
    · obtain ⟨h1,h2,h3⟩ := openStream_same r.1 s.nextStreamId f.hd.flags f.pri .initial
      split
      · exact ⟨hq.trans h1,h2.trans hv,h3.trans ha,_,rfl,rfl⟩
      · exact ⟨hq.trans h1,h2.trans hv,h3.trans ha,_,rfl,rfl⟩

theorem pushObSs_same (s : Session) (item : OutboundItem) :
    Grows s (s.pushObSs item).1 ∧ (s.pushObSs item).1.aob = s.aob := by
  unfold pushObSs
  split <;> exact ⟨.same rfl rfl,rfl⟩

theorem prepSynStream_grows (P : Platform) (s : Session) (item : OutboundItem) (f : SynStream) :
    Grows s (prepSynStream P s item f).ses := by
  have hpack := fun (s : Session) f => (prepSynStreamPack_packed P s item f).grows
  have hcred := prepCredential_grows s f
  unfold prepSynStream
  split
  · exact .refl _
  · split
    · dsimp only
      split
      · have hp := hcred.trans (pushObSs_same (s.prepCredential f).1 {item with pri := obPriAfterCredential}).1
        split <;> exact hp
      · exact hcred.trans (hpack _ _)
      · exact hcred.trans (hpack _ _)
    · exact hpack _ _

theorem prepSynStream_active (P : Platform) (s : Session) (item : OutboundItem) (f : SynStream) :
    (prepSynStream P s item f).ses.aob.item = s.aob.item := by
  have hpack := fun (s : Session) f => (prepSynStreamPack_packed P s item f).active
  have hcred := prepCredential_active s f
  unfold prepSynStream
  split
  · rfl
  · split
    · dsimp only
      split
      · have hp := (pushObSs_same (s.prepCredential f).1 {item with pri := obPriAfterCredential}).2
        split <;> exact (congrArg _ hp).trans hcred
      · exact (hpack _ _).trans hcred
      · exact (hpack _ _).trans hcred
    · exact hpack _ _

/-! One preparation. -/

theorem popNextObItem_same {s s1 : Session} {item : OutboundItem} (h : s.popNextObItem = some (item,s1)) :
    (∀ x ∈ s.obPq.q, x = item ∨ x ∈ s1.obPq.q) ∧ ∃ pq pq', s1 = {s with obPq := pq, obSsPq := pq'} := by
  unfold popNextObItem at h
  split at h
  · cases h
  · split at h
    · cases h
    · cases h
      exact ⟨fun _ hx => .inr hx,_,_,rfl⟩
  · rename_i x htop _
    cases h
    exact ⟨fun _ hx => List.mem_cons.mp ((pqPop_perm htop).mem_iff.mp hx),_,_,rfl⟩
  · cases h
    exact ⟨fun _ hx => .inr hx,_,_,rfl⟩

theorem activate_same (s : Session) (item : OutboundItem) (bytes : Bytes) :
    Grows s (s.activate item bytes) ∧ (s.activate item bytes).cliCertvec = s.cliCertvec := by
  unfold Session.activate
  dsimp only
  have hbegin : Grows s {s.emit (.prepared item.seq bytes) with aob := {s.aob with item := some item, framebuf := bytes}} :=
    (Grows.emit s (.prepared _ _) nofun).trans (Grows.same rfl rfl)
  split
  · exact ⟨hbegin.trans (Grows.emit _ (.beforeCtrlSend _) nofun),rfl⟩
  · exact ⟨hbegin,rfl⟩

theorem dropItem_same (s : Session) (item : OutboundItem) (e : Err) :
    Grows s (s.dropItem item e) ∧ (s.dropItem item e).cliCertvec = s.cliCertvec := by
  unfold Session.dropItem
  split
  · exact ⟨Grows.emit s (.finished _ _) nofun,rfl⟩
  · split
    · exact ⟨(Grows.emit s (.ctrlNotSend _ _) nofun).trans (Grows.emit _ (.finished _ _) nofun),rfl⟩
    · exact ⟨Grows.emit s (.finished _ _) nofun,rfl⟩
  · exact ⟨Grows.emit s (.finished _ _) nofun,rfl⟩

/-- What the preparation of the next item leaves in the queue and in the slots. -/
theorem prepareNext_same (P : Platform) {s s1 : Session} {item : OutboundItem} (h : s.popNextObItem = some (item,s1)) :
    Grows (prepFrame P s1 item).ses (s.prepareNext P) ∧
      (s.prepareNext P).cliCertvec = (prepFrame P s1 item).ses.cliCertvec := by
  unfold Session.prepareNext
  rw [h]
  dsimp only
  split
  · exact activate_same _ _ _
  · exact ⟨.refl _,rfl⟩
  · exact ⟨.refl _,rfl⟩
  · exact dropItem_same _ _ _

theorem prepareNext_none (P : Platform) {s : Session} (h : s.popNextObItem = none) : s.prepareNext P = s := by
  unfold Session.prepareNext
  rw [h]

theorem prepFrame_grows (P : Platform) (s : Session) (item : OutboundItem) : Grows s (prepFrame P s item).ses := by
  by_cases hsyn : ∃ f, item.frame = .ctrl (.synStream f)
  · obtain ⟨f,hf⟩ := hsyn
    unfold prepFrame
    rw [hf]
    exact prepSynStream_grows P s item f
  · exact (prepFrame_plain P s (not_exists.mp hsyn)).grows

theorem prepFrame_active (P : Platform) (s : Session) (item : OutboundItem) :
    (prepFrame P s item).ses.aob.item = s.aob.item := by
  by_cases hsyn : ∃ f, item.frame = .ctrl (.synStream f)
  · obtain ⟨f,hf⟩ := hsyn
    unfold prepFrame
    rw [hf]
    exact prepSynStream_active P s item f
  · exact (prepFrame_plain P s (not_exists.mp hsyn)).active

end Spdylay.Protocol
