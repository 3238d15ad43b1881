import Spdylay.Protocol.Machine

/-! Queueing, submitting and closing as moves of the protocol. -/
namespace Spdylay.Protocol
open Library Session Conn

/-! Changes of the stream table. -/

theorem conn_modifyStream (s : Session) (id : Int) (f : Stream → Stream) (hf) (g : Life → Life)
    (hg : ∀ st, life (f st) = g (life st)) (h : Option OutboundItem) :
    conn (s.modifyStream id f hf) h = (conn s h).modify id g := by
  have hs : (fun k => ((s.modifyStream id f hf).getStream k).map life) =
      Function.update (fun k => (s.getStream k).map life) id (((s.getStream id).map life).map g) := by
    funext k
    change ((s.streams.modify id f hf).find k).map life = _
    rw [OrderedTable.find_modify,Function.update_apply]
    by_cases hk : id = k
    · subst hk
      rw [if_pos rfl,if_pos rfl,Option.map_map,Option.map_map]
      exact congrArg (fun q => Option.map q (s.getStream id)) (funext hg)
    · rw [if_neg hk,if_neg (Ne.symm hk)]
      rfl
  exact congrArg (fun q => {conn s h with streams := q}) hs

theorem setStream_self (c : Conn) (id : Int) : c.setStream id (c.streams id) = c := by
  unfold setStream
  rw [Function.update_eq_self]

theorem modify_setStream (c : Conn) (id : Int) (l : Life) (g : Life → Life) :
    (c.setStream id (some l)).modify id g = c.setStream id (some (g l)) := by
  unfold Conn.modify setStream
  dsimp only
  rw [Function.update_self,Function.update_idem]
  rfl

theorem notes_nil (c : Conn) : c.notes [] = c := by simp [Conn.notes]

/-- A change that the protocol does not see. -/
theorem conn_modifyStream_hidden (s : Session) (id : Int) (f : Stream → Stream) (hf)
    (hg : ∀ st, life (f st) = life st) (h : Option OutboundItem) : conn (s.modifyStream id f hf) h = conn s h := by
  rw [conn_modifyStream s id f hf (fun l => l) hg h]
  unfold Conn.modify
  rw [Option.map_id_fun']
  exact setStream_self (conn s h) id

theorem conn_find {s : Session} {id : Int} {st : Stream} (h : Option OutboundItem) (hs : s.getStream id = some st) :
    (conn s h).streams id = some (life st) := by
  change (s.getStream id).map life = _
  rw [hs]
  rfl

theorem conn_find_none {s : Session} {id : Int} (h : Option OutboundItem) (hs : s.getStream id = none) :
    (conn s h).streams id = none := by
  change (s.getStream id).map life = _
  rw [hs]
  rfl

theorem conn_modify_some {s : Session} {id : Int} {st : Stream} (h : Option OutboundItem)
    (hs : s.getStream id = some st) (g : Life → Life) :
    (conn s h).modify id g = (conn s h).setStream id (some (g (life st))) := by
  unfold Conn.modify
  rw [conn_find h hs]
  rfl

theorem conn_setState (s : Session) (id : Int) (state : StreamState) (h : Option OutboundItem) :
    conn (s.setState id state) h = (conn s h).modify id (fun l => {l with state := state}) :=
  conn_modifyStream s id _ _ _ (fun _ => rfl) h

theorem conn_shutdownRd (s : Session) (id : Int) (h : Option OutboundItem) :
    conn (s.shutdownRd id) h = (conn s h).modify id (fun l => {l with shutRd := true}) :=
  conn_modifyStream s id _ _ _ (fun _ => rfl) h

theorem conn_shutdownWr (s : Session) (id : Int) (h : Option OutboundItem) :
    conn (s.shutdownWr id) h = (conn s h).modify id (fun l => {l with shutWr := true}) :=
  conn_modifyStream s id _ _ _ (fun _ => rfl) h

/-- Flags set under a condition. -/
theorem conn_shutRd_if {s : Session} {c : Conn} {id : Int} {l : Life} {h : Option OutboundItem} (p : Bool)
    (he : conn s h = c.setStream id (some l)) :
    conn (if p then s.shutdownRd id else s) h = c.setStream id (some {l with shutRd := l.shutRd || p}) := by
  cases p with
  | true =>
    rw [if_pos rfl,conn_shutdownRd,he,modify_setStream,Bool.or_true]
  | false =>
    rw [if_neg nofun,he,Bool.or_false]

theorem conn_shutWr_if {s : Session} {c : Conn} {id : Int} {l : Life} {h : Option OutboundItem} (p : Bool)
    (he : conn s h = c.setStream id (some l)) :
    conn (if p then s.shutdownWr id else s) h = c.setStream id (some {l with shutWr := l.shutWr || p}) := by
  cases p with
  | true =>
    rw [if_pos rfl,conn_shutdownWr,he,modify_setStream,Bool.or_true]
  | false =>
    rw [if_neg nofun,he,Bool.or_false]

theorem conn_detachDeferredData (s : Session) (id : Int) (h : Option OutboundItem) :
    conn (s.detachDeferredData id) h = (conn s h).modify id (fun l => {l with deferred := none}) :=
  conn_modifyStream s id _ _ _ (fun _ => rfl) h

theorem conn_markClosing (s : Session) (frame : OutFrame) (h : Option OutboundItem) :
    conn (s.markClosing frame) h = (conn s h).mark frame := by
  cases frame with
  | data d => rfl
  | ctrl f =>
    cases f with
    | rstStream f => exact conn_modifyStream s _ _ _ _ (fun _ => rfl) h
    | _ => rfl

@[simp] theorem conn_emit (s : Session) (e : Event) (h : Option OutboundItem) : conn (s.emit e) h = (conn s h).note e := rfl

/-! Queueing. -/

theorem conn_pushOb (s : Session) (item : OutboundItem) (h : Option OutboundItem) :
    ((s.pushOb item).2 = none ∧ conn (s.pushOb item).1 h = (conn s h).pushOb item) ∨
    ((s.pushOb item).2 = some .nomem ∧ conn (s.pushOb item).1 h = conn s h) := by
  unfold Session.pushOb pqPush
  split_ifs
  · exact .inl ⟨rfl,rfl⟩
  · exact .inr ⟨rfl,rfl⟩
  · exact .inl ⟨rfl,rfl⟩

theorem conn_pushObSs (s : Session) (item : OutboundItem) (h : Option OutboundItem) :
    ((s.pushObSs item).2 = none ∧ conn (s.pushObSs item).1 h = (conn s h).pushObSs item) ∨
    ((s.pushObSs item).2 = some .nomem ∧ conn (s.pushObSs item).1 h = conn s h) := by
  unfold Session.pushObSs pqPush
  split_ifs
  · exact .inl ⟨rfl,rfl⟩
  · exact .inr ⟨rfl,rfl⟩
  · exact .inl ⟨rfl,rfl⟩

theorem conn_pushItem (s : Session) (item : OutboundItem) (h : Option OutboundItem) :
    ((s.pushItem item).2 = none ∧ conn (s.pushItem item).1 h = (conn s h).push item) ∨
    ((s.pushItem item).2 = some .nomem ∧ conn (s.pushItem item).1 h = conn s h) := by
  unfold pushItem Conn.push
  split_ifs
  · exact conn_pushObSs s item h
  · exact conn_pushOb s item h

/-- A frame is queued, or refused with its stream marked, or nothing happens. -/
theorem conn_addFrame (s : Session) (frame : OutFrame) (aux : Option DataProvider) (h : Option OutboundItem) :
    ((s.addFrame frame aux).2 = none ∧
      conn (s.addFrame frame aux).1 h = (conn s h).accept (s.newItem frame aux)) ∨
    ((s.addFrame frame aux).2 = some .nomem ∧
      (conn (s.addFrame frame aux).1 h = (conn s h).skipSeq.mark frame ∨ conn (s.addFrame frame aux).1 h = conn s h)) := by
  unfold addFrame
  split_ifs
  · dsimp only
    have hm : conn (({s.malloc with nextSeq := s.nextSeq+1}).markClosing frame) h = (conn s h).skipSeq.mark frame :=
      conn_markClosing _ frame h
    rcases conn_pushItem (({s.malloc with nextSeq := s.nextSeq+1}).markClosing frame) (s.newItem frame aux) h with
      ⟨hn,he⟩ | ⟨hn,he⟩
    · rw [hn]
      refine .inl ⟨rfl,?_⟩
      refine (congrArg (fun c : Conn => c.note (.accepted (s.newItem frame aux))) (he.trans ?_))
      exact congrArg (fun c : Conn => c.push (s.newItem frame aux)) hm
    · rw [hn]
      exact .inr ⟨rfl,.inl (he.trans hm)⟩
  · exact .inr ⟨rfl,.inr rfl⟩

theorem conn_addCtrl (s : Session) (f : Frame) (h : Option OutboundItem) :
    ((s.addCtrl f).2 = none ∧ conn (s.addCtrl f).1 h = (conn s h).accept (s.newItem (.ctrl f) none)) ∨
    ((s.addCtrl f).2 = some .nomem ∧
      (conn (s.addCtrl f).1 h = (conn s h).skipSeq.mark (.ctrl f) ∨ conn (s.addCtrl f).1 h = conn s h)) := by
  unfold addCtrl
  split
  · exact conn_addFrame s.malloc (.ctrl f) none h
  · exact .inr ⟨rfl,.inr rfl⟩

theorem mark_frame (c : Conn) (frame : OutFrame) : ∃ streams, c.mark frame = {c with streams := streams} := by
  cases frame with
  | data d => exact ⟨c.streams,rfl⟩
  | ctrl f =>
    cases f with
    | rstStream f => exact ⟨_,rfl⟩
    | _ => exact ⟨c.streams,rfl⟩

/-- Queueing touches the streams, the queues and the log. -/
theorem accept_frame (c : Conn) (item : OutboundItem) : ∃ streams q q', c.accept item =
    {c with nextSeq := c.nextSeq+1, streams := streams, obPq := q, obSsPq := q', log := c.log ++ [.accepted item]} := by
  obtain ⟨streams,hm⟩ := mark_frame c.skipSeq item.frame
  unfold accept
  rw [hm]
  unfold push
  split
  · exact ⟨_,_,_,rfl⟩
  · exact ⟨_,_,_,rfl⟩

theorem addFrame_moves (s : Session) (frame : OutFrame) (aux : Option DataProvider) (h : Option OutboundItem)
    (ha : (conn s h).Admits (s.newItem frame aux)) : Moves (conn s h) (conn (s.addFrame frame aux).1 h) := by
  rcases conn_addFrame s frame aux h with ⟨-,he⟩ | ⟨-,he | he⟩
  · rw [he]
    exact (Move.accept _ _ ha).moves
  · rw [he]
    exact (Side.refuse _ frame).moves
  · rw [he]

/-- Control frames that the library queues on its own. -/
theorem addCtrl_moves (s : Session) (f : Frame) (h : Option OutboundItem)
    (ha : (conn s h).Admits (s.newItem (.ctrl f) none)) : Moves (conn s h) (conn (s.addCtrl f).1 h) := by
  unfold addCtrl
  split
  · exact addFrame_moves s.malloc (.ctrl f) none h ha
  · exact .refl

theorem addRstStream_moves (s : Session) (id : Int) (statusCode : Nat) (h : Option OutboundItem) :
    Moves (conn s h) (conn (s.addRstStream id statusCode).1 h) := addCtrl_moves s _ h ⟨rfl,trivial⟩

theorem addPing_moves (s : Session) (uniqueId : Nat) (h : Option OutboundItem) :
    Moves (conn s h) (conn (s.addPing uniqueId).1 h) := addCtrl_moves s _ h ⟨rfl,trivial⟩

theorem addWindowUpdate_moves (s : Session) (id delta : Int) (h : Option OutboundItem) :
    Moves (conn s h) (conn (s.addWindowUpdate id delta).1 h) := addCtrl_moves s _ h ⟨rfl,trivial⟩

theorem submitGoaway_moves (s : Session) (statusCode : Nat) (h : Option OutboundItem) :
    Moves (conn s h) (conn (s.submitGoaway statusCode).1 h) := by
  refine addCtrl_moves s _ h ⟨rfl,?_⟩
  change (frameGoawayInit s.version.num s.lastRecvStreamId statusCode).lastGoodStreamId = s.lastRecvStreamId
  unfold frameGoawayInit
  split_ifs <;> rfl

theorem failSession_moves (s : Session) (statusCode : Nat) (h : Option OutboundItem) :
    Moves (conn s h) (conn (s.failSession statusCode).1 h) :=
  (Side.fail (conn s h)).moves.trans (submitGoaway_moves {s with goawayFailOnSend := true} statusCode h)

theorem note_moves (s : Session) (e : Event) (h : Option OutboundItem) (he : quiet e = true) :
    Moves (conn s h) (conn (s.emit e) h) := (Side.note _ e he).moves

theorem notes_moves (c : Conn) (es : List Event) (h : ∀ e ∈ es, quiet e = true) : Moves c (c.notes es) := by
  induction es generalizing c with
  | nil =>
    rw [notes_nil]
  | cons e es ih =>
    have ht := ih (c.note e) (fun x hx => h x (.tail _ hx))
    have he : (c.note e).notes es = c.notes (e :: es) := by simp [Conn.note,Conn.notes]
    rw [he] at ht
    exact (Side.note c e (h e (.head _))).moves.trans ht

/-! Closing. -/

theorem conn_closeStream {s : Session} {id : Int} {st : Stream} (h : Option OutboundItem)
    (hs : s.getStream id = some st) (statusCode : Nat) :
    conn (s.closeStream id statusCode).1 h = (conn s h).close id (life st) statusCode := by
  have hstreams : (fun k => ((s.streams.remove id).find k).map life) =
      Function.update (fun k => (s.getStream k).map life) id none := by
    funext k
    rw [OrderedTable.find_remove,Function.update_apply]
    by_cases hk : id = k
    · rw [if_pos hk,if_pos hk.symm]
      rfl
    · rw [if_neg hk,if_neg (Ne.symm hk)]
      rfl
  have hremove : ∀ s1 : Session, s1.streams = s.streams → ∀ s2, s2 = s1.countClosed id →
      conn {s2 with streams := s2.streams.remove id} h =
        {conn s1 h with streams := Function.update (fun k => (s.getStream k).map life) id none} := by
    rintro s1 h1 s2 rfl
    unfold countClosed
    split
    · change {conn s1 h with streams := fun k => ((s1.streams.remove id).find k).map life} = _
      rw [h1,hstreams]
    · change {conn s1 h with streams := fun k => ((s1.streams.remove id).find k).map life} = _
      rw [h1,hstreams]
  have hfree : ∀ s1 : Session, conn (s1.freeDeferred st) h =
      (conn s1 h).notes (st.deferredData.map (fun item => Event.finished item.seq (.streamClosed id))).toList := by
    intro s1
    obtain rfl := OrderedTable.find_key hs
    unfold freeDeferred notes
    cases st.deferredData with
    | some item => rfl
    | none => simp
  unfold closeStream
  rw [hs]
  dsimp only
  rw [hfree]
  unfold Conn.close closeEvents
  split
  · rename_i hst
    rw [hremove (s.emit (.streamClose id statusCode)) rfl _ rfl]
    simp [life,hst,notes,setStream,conn,emit]
  · rename_i hst
    rw [hremove s rfl _ rfl]
    simp [life,hst,notes,setStream,conn]

theorem closeStream_moves (s : Session) (id : Int) (statusCode : Nat) (h : Option OutboundItem) :
    Moves (conn s h) (conn (s.closeStream id statusCode).1 h) := by
  cases hs : s.getStream id with
  | none =>
    unfold closeStream
    rw [hs]
  | some st =>
    rw [conn_closeStream h hs]
    exact (Side.close _ id _ statusCode (conn_find h hs)).moves

/-- After a close the stream is gone. -/
theorem closeStream_gone (s : Session) (id : Int) (statusCode : Nat) (h : Option OutboundItem) :
    (conn (s.closeStream id statusCode).1 h).streams id = none := by
  cases hs : s.getStream id with
  | none =>
    unfold closeStream
    rw [hs]
    exact conn_find_none h hs
  | some st =>
    rw [conn_closeStream h hs]
    exact Function.update_self _ _ _

theorem closeStreamIfShutRdwr_moves (s : Session) (id : Int) (h : Option OutboundItem) :
    Moves (conn s h) (conn (s.closeStreamIfShutRdwr id) h) := by
  unfold closeStreamIfShutRdwr
  split
  · split
    · exact closeStream_moves s id statusOk h
    · exact .refl
  · exact .refl

theorem closePushedStreams_moves (s : Session) (id : Int) (statusCode : Nat) (h : Option OutboundItem) :
    Moves (conn s h) (conn (s.closePushedStreams id statusCode) h) := by
  unfold closePushedStreams
  split
  · rename_i st hst
    clear hst
    induction st.pushedStreams generalizing s with
    | nil => exact .refl
    | cons x xs ih => exact (closeStream_moves s x statusCode h).trans (ih _)
  · exact .refl

/-! Opening. -/

theorem conn_openStream (s : Session) (id : Int) (flags pri : Nat) (state : StreamState) (h : Option OutboundItem) :
    ((s.openStream id flags pri state).2 = true ∧ s.getStream id = none ∧
      conn (s.openStream id flags pri state).1 h = (conn s h).setStream id (some ⟨state,flags,false,false,none⟩)) ∨
    ((s.openStream id flags pri state).2 = false ∧ ∃ es, (∀ e ∈ es, quiet e = true) ∧
      conn (s.openStream id flags pri state).1 h = (conn s h).notes es) := by
  unfold openStream
  split
  · dsimp only
    cases hi : s.streams.insert (streamInit id flags pri state
        (s.windowArith.store (toInt32 (s.remoteSettings settingsInitialWindowSize)))) with
    | some streams =>
      refine .inl ⟨rfl,OrderedTable.find_of_insert hi,?_⟩
      have hs : (fun k => (streams.find k).map life) =
          Function.update (fun k => (s.getStream k).map life) id (some ⟨state,flags,false,false,none⟩) := by
        funext k
        rw [OrderedTable.find_insert hi,Function.update_apply]
        by_cases hk : id = k
        · rw [if_pos (show (streamInit id flags pri state _).streamId = k from hk),if_pos hk.symm]
          rfl
        · rw [if_neg (show ¬(streamInit id flags pri state _).streamId = k from hk),if_neg (Ne.symm hk)]
          rfl
      dsimp only
      unfold countOpened
      split
      · exact congrArg (fun q => {conn s h with streams := q}) hs
      · exact congrArg (fun q => {conn s h with streams := q}) hs
    | none =>
      refine .inr ⟨rfl,[.insertFailed id],by simp [quiet],?_⟩
      dsimp only
      unfold countOpened
      split <;> rfl
  · exact .inr ⟨rfl,[],by simp,(notes_nil (conn s h)).symm⟩

/-! Submissions. -/

theorem conn_mallocs (n : Nat) (s : Session) (h : Option OutboundItem) : conn (mallocs n s).1 h = conn s h := by
  induction n generalizing s with
  | zero => rfl
  | succ n ih =>
    unfold mallocs
    split
    · exact ih s.malloc
    · rfl

theorem mallocs_addFrame_moves (n : Nat) (s : Session) (frame : OutFrame) (aux : Option DataProvider)
    (h : Option OutboundItem) (ha : (conn s h).Admits (((mallocs n s).1).newItem frame aux)) :
    Moves (conn s h) (conn ((mallocs n s).1.addFrame frame aux).1 h) := by
  have hm := addFrame_moves (mallocs n s).1 frame aux h (by rwa [conn_mallocs])
  rwa [conn_mallocs] at hm

theorem submitSynStreamShared_moves (P : Platform) (s : Session) (flags : Nat) (assocStreamId : Int) (pri : Nat)
    (nv : List Bytes) (dataPrd : Option DataProvider) :
    Moves (conn s none) (conn (s.submitSynStreamShared P flags assocStreamId pri nv dataPrd).1 none) := by
  unfold submitSynStreamShared
  dsimp only
  split_ifs
  all_goals first
    | exact .refl
    | exact mallocs_addFrame_moves _ s _ dataPrd none ⟨by rw [← conn_mallocs]; rfl,rfl,rfl⟩
    | rw [conn_mallocs]

/-- SYN_REPLY and HEADERS. -/
theorem submitHeaderBlock_moves (nv : List Bytes) (n : Nat) (s : Session) (f : Frame) (aux : Option DataProvider)
    (hf : (∃ g, f = .synReply g) ∨ ∃ g, f = .headers g) :
    Moves (conn s none) (conn (if !frameNvCheckNull nv then (s,some Err.invalidArgument)
      else if (mallocs n s).2 then (mallocs n s).1.addFrame (.ctrl f) aux
      else ((mallocs n s).1,some .nomem)).1 none) := by
  have hseq : ((mallocs n s).1.newItem (.ctrl f) aux).seq = (conn s none).nextSeq :=
    congrArg Conn.nextSeq (conn_mallocs n s none)
  split_ifs
  · exact .refl
  · refine mallocs_addFrame_moves n s _ aux none ⟨hseq,?_⟩
    rcases hf with ⟨g,rfl⟩ | ⟨g,rfl⟩ <;> trivial
  · rw [conn_mallocs]

theorem submitData_moves (s : Session) (id : Int) (flags : Nat) (prd : DataProvider) (h : Option OutboundItem) :
    Moves (conn s h) (conn (s.submitData id flags prd).1 h) := by
  unfold submitData
  split
  · exact addFrame_moves s.malloc _ none h ⟨rfl,trivial⟩
  · exact .refl

theorem submitSettings_moves (P : Platform) (s : Session) (flags : Nat) (iv : List SettingsEntry) :
    Moves (conn s none) (conn (s.submitSettings P flags iv).1 none) := by
  have hseq : ∀ f, ((mallocs 2 s).1.newItem f none).seq = (conn s none).nextSeq :=
    fun f => congrArg Conn.nextSeq (conn_mallocs 2 s none)
  unfold submitSettings
  dsimp only
  split_ifs
  · exact .refl
  · have hm := mallocs_addFrame_moves 2 s (.ctrl (.settings (frameSettingsInit s.version.num flags (frameIvSort P iv))))
      none none ⟨hseq _,trivial⟩
    split
    · exact hm
    · exact hm
  · rw [conn_mallocs]

theorem submitWindowUpdate_moves (s : Session) (id delta : Int) :
    Moves (conn s none) (conn (s.submitWindowUpdate id delta).1 none) := by
  unfold submitWindowUpdate
  split
  · exact .refl
  · split
    · have he := conn_modifyStream_hidden s id (fun st => {st with
        recvWindowSize := st.recvWindowSize-min delta st.recvWindowSize}) (fun _ => rfl) (fun _ => rfl) none
      have hm := addWindowUpdate_moves (s.modifyStream id (fun st => {st with
        recvWindowSize := st.recvWindowSize-min delta st.recvWindowSize})) id delta none
      rwa [he] at hm
    · exact .refl

/-- A deferred item goes back to its queue. -/
theorem resume_moves {s : Session} {id : Int} {st : Stream} {item : OutboundItem} (h : Option OutboundItem)
    (hst : s.getStream id = some st) (hitem : st.deferredData = some item)
    (hp : conn (s.pushOb item).1 h = (conn s h).pushOb item) :
    Moves (conn s h) (conn ((s.pushOb item).1.detachDeferredData id) h) := by
  have hm := (Side.resume (conn s h) id (life st) item (conn_find h hst) hitem).moves
  have hs : ((conn s h).pushOb item).streams id = some (life st) := conn_find h hst
  rw [conn_detachDeferredData,hp]
  unfold Conn.modify
  rw [hs]
  exact hm

theorem resumeData_moves (s : Session) (id : Int) (h : Option OutboundItem) :
    Moves (conn s h) (conn (s.resumeData id).1 h) := by
  unfold resumeData
  split
  · rename_i st hst
    split
    · rename_i item hitem
      split
      · exact .refl
      · dsimp only
        rcases conn_pushOb s item h with ⟨hn,he⟩ | ⟨hn,he⟩
        · rw [hn]
          exact resume_moves h hst hitem he
        · rw [hn]
          dsimp only
          rw [he]
    · exact .refl
  · exact .refl

/-- The calls that neither send nor receive. -/
theorem submission_moves (P : Platform) (s : Session) (op : Op) (hs : op ≠ .send) (hr : ∀ input, op ≠ .memRecv input) :
    Moves (conn s none) (conn (s.call P op).1 none) := by
  cases op with
  | submitSynStream flags assocStreamId pri nv => exact submitSynStreamShared_moves P s _ _ _ _ _
  | submitServerPush assocStreamId nv dataPrd => exact submitSynStreamShared_moves P s _ _ _ _ _
  | submitRequest pri nv dataPrd => exact submitSynStreamShared_moves P s _ _ _ _ _
  | submitSynReply flags id nv => exact submitHeaderBlock_moves nv 2 s _ none (.inl ⟨_,rfl⟩)
  | submitHeaders flags id nv => exact submitHeaderBlock_moves nv 2 s _ none (.inr ⟨_,rfl⟩)
  | submitResponse id nv dataPrd =>
    exact submitHeaderBlock_moves nv (if dataPrd.isSome then 3 else 2) s _ dataPrd (.inl ⟨_,rfl⟩)
  | submitData id flags dataPrd => exact submitData_moves s id flags dataPrd none
  | submitPing => exact addPing_moves s.getNextUniqueId.1 _ none
  | submitRstStream id statusCode => exact addRstStream_moves s id statusCode none
  | submitGoaway statusCode => exact submitGoaway_moves s statusCode none
  | submitSettings flags iv => exact submitSettings_moves P s flags iv
  | submitWindowUpdate id delta => exact submitWindowUpdate_moves s id delta
  | resumeData id => exact resumeData_moves s id none
  | setNoAutoWindowUpdate on => exact .refl
  | setMaxRecvCtrlFrameBuffer n =>
    simp only [call,setMaxRecvCtrlFrameBuffer]
    split <;> exact .refl
  | setInitialClientCertOrigin scheme host port =>
    simp only [call,setInitialClientCertOrigin]
    split_ifs with h1 h2 h3
    · exact .refl
    · exact .refl
    · refine (Side.setOrigin (conn s none) ⟨cstr scheme,cstr host,port⟩ ?_).moves
      by_contra hne
      exact h2 (.inr (.inr hne))
    · exact .refl
  | send => exact absurd rfl hs
  | memRecv input => exact absurd rfl (hr input)

end Spdylay.Protocol
