import Spdylay.Protocol.CloseOnce

/-! What the application is told about a stream that was closed. -/
namespace Spdylay.Protocol
open Library Session Conn

/-- The application is told what has arrived on the stream. -/
def DeliversTo (id : Int) : Event → Bool
  | .dataChunkRecv _ k _ => k = id
  | .dataRecv _ k _ => k = id
  | .requestRecv k => k = id
  | .ctrlRecv (.synReply f) => f.streamId = id
  | .ctrlRecv (.headers f) => f.streamId = id
  | _ => false

def NotAfterClose (pre : List Event) (e : Event) : Prop :=
  ∀ id, DeliversTo id e = true → ∀ x ∈ pre, ClosesStream id x = false

/-! The moves of the protocol look the stream up. -/

theorem Move.chunkless {c c' : Conn} (h : Move c c') :
    ∃ es, c'.log = c.log ++ es ∧ ∀ e ∈ es, ∀ flags id data, e ≠ .dataChunkRecv flags id data := by
  have hnone : ∀ {c c' : Conn}, c'.log = c.log → ∃ es, c'.log = c.log ++ es ∧
      ∀ e ∈ es, ∀ flags id data, e ≠ .dataChunkRecv flags id data :=
    fun h => ⟨[],h.trans (List.append_nil _).symm,List.forall_mem_nil _⟩
  cases h with
  | side h =>
    obtain ⟨es,hl,hes⟩ := h.aside.log
    refine ⟨es,hl,?_⟩
    rintro e he flags id data rfl
    cases hes _ he
  | accept item ha => exact ⟨[.accepted item],by simp,by simp⟩
  | credential syn item => exact ⟨[.accepted item],by simp,by simp⟩
  | drop item e => exact ⟨[.finished item.seq (.dropped e)],rfl,by simp⟩
  | start item f bytes => exact ⟨[.prepared item.seq bytes,.beforeCtrlSend f],rfl,by simp⟩
  | startOwn item f bytes => exact ⟨[.prepared item.seq bytes,.beforeCtrlSend (.synStream f)],rfl,by simp⟩
  | startData item d bytes frame => exact ⟨[.read item.seq d.streamId bytes,.prepared item.seq frame],rfl,by simp⟩
  | finish item cause => exact ⟨[.finished item.seq cause],rfl,by simp⟩
  | «continue» item item' d bytes frame =>
    exact ⟨[.read item.seq d.streamId bytes,.prepared item.seq frame],rfl,by simp⟩
  | pop | popSyn | retouch | requeue | defer | parkActive | requeueActive => exact hnone rfl

/-- A stream that is there, or whose id is new, was not closed. -/
theorem Closed.not_closed {c : Conn} (hc : Closed c) {id : Int} (h : c.streams id ≠ none ∨ c.NewPeerId id) :
    ∀ x ∈ c.log, ClosesStream id x = false := by
  intro x hx
  refine Bool.eq_false_iff.mpr ?_
  intro hk
  obtain ⟨hu,hn⟩ := hc.closed id x hx hk
  rcases h with h | h
  · exact h hn
  · exact newPeerId_fresh h hu

theorem Meets.delivers_open {c c' : Conn} {id : Int} {e : Event} (hd : DeliversTo id e = true) (hm : Meets c c' e)
    (hch : ∀ flags k data, e ≠ .dataChunkRecv flags k data) :
    (c.streams id ≠ none ∨ c.NewPeerId id) ∧ ∀ x, Ahead e x → ClosesStream id x = false := by
  cases e with
  | dataChunkRecv flags k data => exact absurd rfl (hch flags k data)
  | dataRecv flags k n =>
    obtain rfl := of_decide_eq_true hd
    refine ⟨.inl hm,?_⟩
    intro x hx
    cases x with
    | streamClose j m => cases hx
    | _ => rfl
  | requestRecv k =>
    obtain rfl := of_decide_eq_true hd
    refine ⟨hm.imp_right And.left,?_⟩
    intro x hx
    cases x with
    | streamClose j m => cases hx
    | _ => rfl
  | ctrlRecv f =>
    have hahead : ∀ x, Ahead (.ctrlRecv f) x → ClosesStream id x = false := by
      intro x hx
      cases x with
      | streamClose j m => cases hx
      | _ => rfl
    cases f with
    | synReply f =>
      obtain rfl := of_decide_eq_true hd
      exact ⟨.inl hm,hahead⟩
    | headers f =>
      obtain rfl := of_decide_eq_true hd
      exact ⟨.inl hm,hahead⟩
    | _ => cases hd
  | _ => cases hd

/-- What every state keeps as long as no chunk arrives for a closed stream. -/
def InTime (c : Conn) : Prop := (Records c ∧ Closed c) ∧ Guarded NotAfterClose c.log

theorem InTime.move {c c' : Conn} (h : Move c c') (hi : InTime c) : InTime c' := by
  refine ⟨closed_invariant.step c c' (.move h) hi.1,?_⟩
  obtain ⟨es,hlog,hes⟩ := (Step.move h).logs
  obtain ⟨es',hlog',hch⟩ := h.chunkless
  obtain rfl : es = es' := List.append_cancel_left (hlog.symm.trans hlog')
  rw [hlog]
  intro pre e post hcut
  rcases append_eq_append_cons hcut with ⟨post',-,hcut'⟩ | ⟨pre',rfl,hcut'⟩
  · exact hi.2 pre e post' hcut'
  · obtain ⟨hm,hahead,-⟩ := hes pre' e post hcut'
    intro id hd x hx
    obtain ⟨hopen,hquiet⟩ := hm.delivers_open hd (hch e (hcut' ▸ List.mem_append_right _ (.head _)))
    rcases List.mem_append.mp hx with hx | hx
    · exact hi.1.2.not_closed hopen x hx
    · exact hquiet x (hahead x hx)

theorem InTime.moves {c c' : Conn} (h : Moves c c') (hi : InTime c) : InTime c' :=
  keeps_of_steps (I := InTime) (fun _ _ => InTime.move) h hi

theorem InTime.chunk {c : Conn} (hi : InTime c) (flags : Nat) {id : Int} (data : Bytes) (hd : Delivers c.iframe id)
    (hs : c.streams id ≠ none) : InTime (c.note (.dataChunkRecv flags id data)) := by
  refine ⟨closed_invariant.step _ _ (.chunk c flags id data hd) hi.1,guarded_concat.mpr ⟨hi.2,?_⟩⟩
  intro k hk
  obtain rfl := of_decide_eq_true hk
  exact hi.1.2.not_closed (.inl hs)

/-! The calls. -/

theorem sendLoop_moves (P : Platform) (fuel : Nat) (s : Session) :
    Moves (conn s none) (conn (sendLoop P fuel s).1 none) :=
  sendLoop_related (R := fun s s' => Moves (conn s none) (conn s' none)) (fun _ => .refl) (fun _ _ _ => .trans)
    (fun _ ha => prepareNext_moves P ha) (fun _ _ ha => sendWrite_moves ha) fuel s

/-! A stream stays there while its frame is read. -/

theorem addCtrl_present {s : Session} {id : Int} (f : Frame) (h : s.getStream id ≠ none) :
    (s.addCtrl f).1.getStream id ≠ none := by
  have hmark : ∀ frame, marked (conn s none).streams frame id ≠ none := by
    intro frame
    unfold marked
    split
    · rw [Function.update_apply]
      split
      · rename_i hid
        subst hid
        simpa [conn] using h
      · simpa [conn] using h
    · simpa [conn] using h
  intro hn
  have hn' := conn_find_none none hn
  rcases conn_addCtrl s f none with ⟨-,he⟩ | ⟨-,he | he⟩
  · rw [he,(accept_fields _ _).2.2.2.2.1] at hn'
    exact hmark _ hn'
  · rw [he,mark_streams] at hn'
    exact hmark _ hn'
  · rw [he] at hn'
    exact h (Option.map_eq_none_iff.mp hn')

theorem modifyStream_present {s : Session} {id k : Int} {g : Stream → Stream} {hg} (h : s.getStream id ≠ none) :
    (s.modifyStream k g hg).getStream id ≠ none := by
  intro hn
  unfold modifyStream getStream at hn
  rw [OrderedTable.find_modify] at hn
  split at hn
  · exact h (Option.map_eq_none_iff.mp hn)
  · exact h hn

theorem creditChunk_present {s : Session} {id : Int} (n : Nat) (h : s.getStream id ≠ none) :
    (s.creditChunk n).1.getStream id ≠ none := by
  unfold creditChunk updateRecvWindowSize
  dsimp only
  split
  · split
    · exact h
    · rename_i st _
      generalize (if int32Max-(n : Int) < st.recvWindowSize then int32Max else st.recvWindowSize+n) = size
      have hmod : (s.modifyStream (getStreamId s.iframe.headbuf) (fun st => {st with
        recvWindowSize := size})).getStream id ≠ none := modifyStream_present h
      split
      · have hadd := addCtrl_present (.windowUpdate (frameWindowUpdateInit s.version.num (getStreamId s.iframe.headbuf)
          size)) hmod
        split
        · exact modifyStream_present hadd
        · exact hadd
      · exact hmod
  · exact h

theorem onDataReceived_present {s : Session} {flags length : Nat} {id k : Int} {e : Err}
    (he : (s.onDataReceived flags length id).2 = some e) (h : s.getStream k ≠ none) :
    (s.onDataReceived flags length id).1.getStream k ≠ none := by
  have hrst := fun statusCode => addCtrl_present (.rstStream (frameRstStreamInit s.version.num id statusCode)) h
  unfold onDataReceived at he ⊢
  dsimp only at he ⊢
  split
  · exact hrst _
  · rename_i st hst
    rw [hst] at he
    dsimp only at he
    split
    · exact hrst _
    · rename_i hrd
      rw [if_neg hrd] at he
      split
      · rename_i hmine
        rw [if_pos hmine] at he
        split
        · rename_i hs
          rw [hs] at he
          cases he
        · exact h
        · exact hrst _
      · rename_i hmine
        rw [if_neg hmine] at he
        split
        · exact h
        · rename_i hcl
          rw [if_neg hcl] at he
          cases he

/-- Like `Ready`, wherever the frame is. -/
def Open (s : Session) : Prop := ∀ id, Delivers s.iframe id → s.getStream id ≠ none

theorem recvChunk_delivers {P : Platform} {s : Session} {chunk : Bytes} {id : Int}
    (h : Delivers (s.recvChunk P chunk).iframe id) : Delivers s.iframe id := by
  unfold recvChunk at h
  dsimp only at h
  split at h
  · rename_i hnv
    unfold inflateChunk at h
    dsimp only at h
    split at h
    · exact absurd hnv h.2.1
    · exact absurd hnv h.2.1
  · split at h
    · split at h
      · exact h
      · exact h
    · split at h
      · exact h
      · exact h

/-- Reading a chunk and granting window for it. -/
theorem Open.read {s : Session} (P : Platform) (input : Bytes) (n k : Nat) (chunk : Bytes) (h : Open s) :
    Open (((s.recvPreNv input n).1.recvChunk P chunk).creditChunk k).1 := by
  intro id hd
  rw [Machine.creditChunk_iframe] at hd
  have hthere := h id (recvPreNv_delivers (recvChunk_delivers hd))
  refine creditChunk_present k ?_
  intro hn
  have hn' := conn_find_none none hn
  obtain ⟨c,hc,he⟩ := conn_recvChunk P (s.recvPreNv input n).1 chunk
  rw [he] at hn'
  have hsame : c.streams = (conn s none).streams := by
    rcases hc with rfl | ⟨flags,k,-,rfl⟩
    · rw [conn_recvPreNv]
    · change (conn (s.recvPreNv input n).1 none).streams = _
      rw [conn_recvPreNv]
  have hs : (conn s none).streams id = none := hsame ▸ hn'
  exact hthere (Option.map_eq_none_iff.mp hs)

theorem onlyFatal_error {r : Session × Option Err} {e : Err} (h : (onlyFatal r).2 = some e) : r.2 = some e := by
  unfold onlyFatal at h
  split at h
  · rename_i e' he
    dsimp only at h
    split at h
    · exact he.trans h
    · cases h
  · cases h

theorem Open.endFrame {s : Session} (P : Platform) (h : Open s) : Ready (s.endFrame P).1 := by
  unfold Session.endFrame
  split
  · exact fun _ => h
  split
  · have hframe := Machine.processFrame_iframe P s
    dsimp only
    split
    · exact fun hs => absurd rfl hs
    · rename_i e he
      intro _ id hd
      rw [hframe] at hd
      have hctrl := hd.1
      rw [if_neg (by rw [hctrl]; nofun)] at he ⊢
      unfold processDataFrame at he ⊢
      dsimp only at he ⊢
      rw [onlyFatal_fst]
      exact onDataReceived_present (onlyFatal_error he) (h id hd)
  · exact fun _ => h

theorem Open.recvPayload {s : Session} (P : Platform) (input : Bytes) (h : Open s) : Ready (s.recvPayload P input).1 := by
  unfold Session.recvPayload
  dsimp only
  split
  · exact fun _ => h
  · have hread := h.read P input (min input.length (s.iframe.payloadlen-s.iframe.off))
    split
    · exact fun _ => hread _ _
    · have hend := (hread ((s.recvPreNv input (min input.length (s.iframe.payloadlen-s.iframe.off))).2.1.take
        (s.recvPreNv input (min input.length (s.iframe.payloadlen-s.iframe.off))).2.2).length
        ((s.recvPreNv input (min input.length (s.iframe.payloadlen-s.iframe.off))).2.1.take
        (s.recvPreNv input (min input.length (s.iframe.payloadlen-s.iframe.off))).2.2)).endFrame P
      split
      · exact hend
      · exact hend

theorem startPayload_error_isCtrl {P : Platform} {s : Session} {e : Err} (h : (s.startPayload P).2 = some e) :
    (s.startPayload P).1.iframe.isCtrl = true := by
  unfold startPayload at h ⊢
  dsimp only at h ⊢
  split
  · rename_i hctrl
    unfold reserveIframeBuf
    split
    · split
      · exact hctrl
      · exact hctrl
    · exact hctrl
  · rename_i hctrl
    rw [if_neg hctrl] at h
    cases h

/-- A pass that ends within the header. -/
theorem recvHead_ready {P : Platform} {s : Session} {input : Bytes} (hs : s.iframe.state = .head) {r : Option Err}
    (hr : (s.recvHead P input).2.2 = some r) : Ready (s.recvHead P input).1 := by
  unfold recvHead at hr ⊢
  dsimp only at hr ⊢
  split
  · exact fun h => absurd hs h
  · rename_i hin
    rw [if_neg hin] at hr
    split
    · rename_i hlen
      rw [if_pos hlen] at hr
      split
      · rename_i hn
        rw [hn] at hr
        cases hr
      · rename_i e he
        intro _ id hd
        have hctrl := startPayload_error_isCtrl he
        rw [hd.1] at hctrl
        cases hctrl
    · exact fun h => absurd hs h

theorem recvIter_ready (P : Platform) {s : Session} (input : Bytes) (h : Ready s) : Ready (s.recvIter P input).1 := by
  unfold recvIter
  split
  · rename_i hs
    dsimp only
    split
    · rename_i r hr
      exact recvHead_ready hs hr
    · rename_i hn
      refine Open.recvPayload P _ ?_
      intro id hd hnone
      have hstreams := conn_find_none none hnone
      rw [conn_recvHead] at hstreams
      exact recvHead_delivers hn hd (Option.map_eq_none_iff.mp hstreams)
  · rename_i hs
    exact Open.recvPayload P input (h hs)

theorem InTime.recvIter {P : Platform} {s : Session} (input : Bytes) (hi : InTime (conn s none)) (h : Ready s) :
    InTime (conn (s.recvIter P input).1 none) := by
  obtain ⟨f,c,hc,hm⟩ := recvIter_moves P s input
  have hread : InTime {conn s none with iframe := f} := hi.moves (Side.read (conn s none) f).moves
  refine InTime.moves hm ?_
  rcases hc with rfl | ⟨flags,id,data,hd,hs,rfl⟩
  · exact hread
  · refine hread.chunk flags data hd ?_
    intro hn
    exact hs h (Option.map_eq_none_iff.mp hn)

theorem InTime.recvLoop {P : Platform} (fuel : Nat) {s : Session} (input : Bytes) (hi : InTime (conn s none))
    (h : Ready s) : InTime (conn (s.recvLoop P fuel input).1 none) := by
  induction fuel generalizing s input with
  | zero => exact hi
  | succ fuel ih =>
    unfold Session.recvLoop
    dsimp only
    split
    · exact hi.recvIter input h
    · exact ih _ (hi.recvIter input h) (recvIter_ready P input h)

theorem InTime.step {P : Platform} {s : Session} (op : Op) (hi : InTime (conn s none))
    (h : ∀ input, op = .memRecv input → Ready s) : InTime (conn (s.step P op) none) := by
  have hcall : InTime (conn (s.call P op).1 none) := by
    by_cases hs : op = .send
    · subst hs
      exact hi.moves (sendLoop_moves P _ s)
    · by_cases hr : ∃ input, op = .memRecv input
      · obtain ⟨input,rfl⟩ := hr
        exact hi.recvLoop _ input (h input rfl)
      · exact hi.moves (submission_moves P s op hs (not_exists.mp hr))
  unfold Session.step
  dsimp only
  split
  · split
    · exact hcall.moves (note_moves _ _ none rfl)
    · exact hcall
  · exact hcall

/-- In every run in which the stream is open whenever spdylay_session_mem_recv is
called in the middle of a DATA frame that is being delivered, nothing is delivered
for a stream after its close was reported. -/
theorem no_delivery_after_close (P : Platform) (u : Setup) (ops : List Op)
    (h : ∀ a input b, ops = a ++ .memRecv input :: b → Ready ((u.start P).run P a)) :
    Guarded NotAfterClose ((u.start P).run P ops).host.log := by
  have hrun : InTime (conn ((u.start P).run P ops) none) := by
    induction ops using List.reverseRecOn with
    | nil =>
      refine ⟨closed_invariant.reachable (Relation.ReflTransGen.refl : Reachable P u _),?_⟩
      have hlog : (conn (u.start P) none).log = [] := by
        rw [conn_start]
        rfl
      change Guarded NotAfterClose (conn (u.start P) none).log
      rw [hlog]
      exact guarded_nil
    | append_singleton ops op ih =>
      have hops := ih (fun a input b hab => h a input (b ++ [op]) (by rw [hab]; simp))
      unfold run at hops ⊢
      rw [List.foldl_append]
      exact hops.step op (fun input hop => h ops input [] (by rw [hop]))
  exact hrun.2

/-- A server that receives a request, half of a DATA frame and the other half. -/
def halvedUpload : List Op :=
  [.memRecv (firstRequest 0 1),.memRecv [0,0,0,1,0,0,0,4,1,2],.memRecv [3,4]]

theorem halved_upload_in_time : (((sampleServer [] []).start peerPlatform).run peerPlatform halvedUpload).host.log.any
      (DeliversTo 1) = true ∧
    Guarded NotAfterClose (((sampleServer [] []).start peerPlatform).run peerPlatform halvedUpload).host.log := by
  refine ⟨by decide +kernel,no_delivery_after_close peerPlatform (sampleServer [] []) halvedUpload ?_⟩
  intro a input b hcut
  match a with
  | [] => exact fun h => absurd (by decide +kernel) h
  | [x] =>
    obtain ⟨rfl,-⟩ := List.cons.inj hcut
    exact fun h => absurd (by decide +kernel) h
  | [x,y] =>
    obtain ⟨rfl,hrest⟩ := List.cons.inj hcut
    obtain ⟨rfl,-⟩ := List.cons.inj hrest
    -- half of the frame has been read
    intro _ id hd
    obtain rfl : 1 = id := by
      rw [← hd.2.2.2]
      decide +kernel
    decide +kernel
  | x :: y :: z :: a =>
    have hlen := congrArg List.length hcut
    simp [halvedUpload] at hlen

/-- The stream is reset between the halves. -/
def resetUpload : Session :=
  ((sampleServer [.accept 1000] []).start peerPlatform).run peerPlatform
    [.memRecv (firstRequest 0 1),.memRecv [0,0,0,1,0,0,0,4,1,2],.submitRstStream 1 5,.send,.memRecv [3,4]]

/-- The second half is delivered after the close. -/
theorem reset_upload_delivered_late : ¬Guarded NotAfterClose resetUpload.host.log := by
  intro h
  have hlate := h (resetUpload.host.log.take 10) (.dataChunkRecv 0 1 [3,4]) (resetUpload.host.log.drop 11)
    (by decide +kernel) 1 rfl (.streamClose 1 5) (by decide +kernel)
  cases hlate

end Spdylay.Protocol
