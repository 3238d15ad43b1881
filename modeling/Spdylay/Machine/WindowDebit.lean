import Spdylay.Machine.Runs

/-! What writing a DATA frame takes from its stream's window: the second word of the
frame, flags included, once for each write. -/
namespace Spdylay.Machine
open Library Session

/-! Windows after the last byte. -/

/-- Streams that are open after have the window they had before. -/
def SameWindows (s s' : Session) : Prop :=
  ∀ id st', s'.getStream id = some st' → ∃ st, s.getStream id = some st ∧ st'.windowSize = st.windowSize

theorem SameWindows.of_streams {s s' : Session} (h : s'.streams = s.streams) : SameWindows s s' := by
  intro id st' hst
  unfold getStream at hst
  rw [h] at hst
  exact ⟨st',hst,rfl⟩

theorem SameWindows.trans {s1 s2 s3 : Session} (h : SameWindows s1 s2) (h' : SameWindows s2 s3) :
    SameWindows s1 s3 := by
  intro id st' hst
  obtain ⟨st,hst,hw⟩ := h' id st' hst
  obtain ⟨st0,hst0,hw0⟩ := h id st hst
  exact ⟨st0,hst0,hw.trans hw0⟩

theorem SameWindows.modify (s : Session) (streamId : Int) (f : Stream → Stream) (hf)
    (hw : ∀ st, (f st).windowSize = st.windowSize) : SameWindows s (s.modifyStream streamId f hf) := by
  intro id st' hst
  simp only [getStream,modifyStream,OrderedTable.find_modify] at hst
  split at hst
  · obtain ⟨st,hst',rfl⟩ := Option.map_eq_some_iff.mp hst
    exact ⟨st,hst',hw st⟩
  · exact ⟨st',hst,rfl⟩

theorem Act.window_eq {c c' : Core} (h : Act c c') (id : Int) (st' : Stream) (hst : c'.streams.find id = some st') :
    ∃ st, c.streams.find id = some st ∧ st'.windowSize = st.windowSize := by
  cases h with
  | note e he => exact ⟨st',hst,rfl⟩
  | accept item hs =>
    refine ⟨st',?_,rfl⟩
    rw [← hst]
    unfold Core.enqueue
    split <;> rfl
  | skipSeq => exact ⟨st',hst,rfl⟩
  | restate streamId f hf =>
    rw [Core.find_modifyStream] at hst
    split at hst
    · obtain ⟨st,hst',rfl⟩ := Option.map_eq_some_iff.mp hst
      exact ⟨st,hst',hf.windowSize st⟩
    · exact ⟨st',hst,rfl⟩
  | close streamId st hfind =>
    have hr : (c.close st).streams = c.streams.remove st.streamId := by
      unfold Core.close Core.freeDeferred
      split <;> rfl
    rw [hr,OrderedTable.find_remove] at hst
    split at hst
    · cases hst
    · exact ⟨st',hst,rfl⟩
  | resume streamId st item hfind hi =>
    dsimp only at hst
    rw [Core.detach,Core.find_modifyStream] at hst
    split at hst
    · obtain ⟨st,hst',rfl⟩ := Option.map_eq_some_iff.mp hst
      exact ⟨st,hst',rfl⟩
    · exact ⟨st',hst,rfl⟩

theorem Steps.sameWindows {s s' : Session} {g : Ghost} (h : Steps (core s g) (core s' g)) : SameWindows s s' := by
  have hcore : ∀ c, Steps (core s g) c → ∀ id st', c.streams.find id = some st' →
      ∃ st, s.getStream id = some st ∧ st'.windowSize = st.windowSize := by
    intro c hc
    induction hc with
    | refl => exact fun id st' hst => ⟨st',hst,rfl⟩
    | tail _ hm ih =>
      intro id st' hst
      obtain ⟨st,hst,hw⟩ := hm.window_eq id st' hst
      obtain ⟨st0,hst0,hw0⟩ := ih id st hst
      exact ⟨st0,hst0,hw.trans hw0⟩
  exact hcore _ h

theorem activeReset_streams (s : Session) (cause : Finish) : (s.activeReset cause).streams = s.streams := by
  unfold activeReset
  cases s.aob.item <;> rfl

theorem continueData_sameWindows {s : Session} {item : OutboundItem} {d : DataFrame} {st : Stream}
    (hfree : st.deferredData = none) : SameWindows s (s.continueData item d st).1 := by
  have hdefer : ∀ (s : Session) item fc, SameWindows s (s.modifyStream st.streamId
      (fun st => {st with deferredData := some item, deferredFlowControl := fc})).activeTake := by
    intro s item fc
    have hm := SameWindows.modify s st.streamId
      (fun st => {st with deferredData := some item, deferredFlowControl := fc}) (fun _ => rfl) (fun _ => rfl)
    exact hm.trans (.of_streams rfl)
  unfold continueData
  dsimp only
  rw [deferData_free hfree]
  split
  · exact hdefer s item true
  · rcases packData_cases s item.seq d (s.nextDataRead st) with ⟨bytes,fin,hr,hlen,hid,hcore⟩ | ⟨e,hr,hd,hcore,he⟩
    · have hs : (s.packData item.seq d (s.nextDataRead st)).1.streams = s.streams :=
        congrArg Core.streams (hcore cleanGhost)
      rw [hr]
      exact .of_streams hs
    · have hs : (s.packData item.seq d (s.nextDataRead st)).1.streams = s.streams :=
        congrArg Core.streams (hcore cleanGhost)
      rw [hr]
      have hpack : SameWindows s (s.packData item.seq d (s.nextDataRead st)).1 := .of_streams hs
      rcases he with rfl | rfl | rfl | rfl
      · exact .of_streams ((activeReset_streams _ _).trans hs)
      · dsimp only
        rw [deferData_free hfree]
        exact hpack.trans (hdefer _ _ false)
      · exact hpack.trans ((Steps.sameWindows (addCtrl_steps _ _ cleanGhost)).trans
          (.of_streams (activeReset_streams _ _)))
      · exact .of_streams ((activeReset_streams _ _).trans hs)

theorem afterDataSent_sameWindows {s : Session} {item : OutboundItem} {d : DataFrame} :
    SameWindows s (s.afterDataSent item d).1 := by
  unfold afterDataSent
  dsimp only
  have h1 : SameWindows s ((s.emit (.dataSend (if d.eof then d.flags else 0) d.streamId
      (s.aob.framebuf.length-headLen))).afterDataFin d) :=
    Steps.sameWindows ((emit_steps s _ cleanGhost rfl).trans (afterDataFin_steps _ d cleanGhost))
  generalize ((s.emit (.dataSend (if d.eof then d.flags else 0) d.streamId
    (s.aob.framebuf.length-headLen))).afterDataFin d) = s1 at h1 ⊢
  refine h1.trans ?_
  split
  · exact .of_streams (activeReset_streams s1 _)
  · rename_i hp
    obtain ⟨st,hst,hfree⟩ := predicateDataSend_none (show s1.predicateDataSend d.streamId = none by
      simpa using fun h => hp (.inr h))
    split
    · rw [hst]
      exact continueData_sameWindows hfree
    · rcases pushOb_cases s1 item with ⟨hn,he⟩ | ⟨hn,he⟩
      · have hs : (s1.pushOb item).1.streams = s1.streams := congrArg Core.streams (he cleanGhost)
        rw [hn]
        exact .of_streams hs
      · have hs : (s1.pushOb item).1.streams = s1.streams := congrArg Core.streams (he cleanGhost)
        rw [hn]
        exact .of_streams ((activeReset_streams _ _).trans hs)

/-! Writing a frame. -/

/-- Whether the answers of send_callback complete a frame with `len` bytes left, the
last of them and no earlier one. -/
def completes : Nat → List SendAnswer → Bool
  | _, [] => false
  | len, .accept n :: rest => if len ≤ n then rest.isEmpty else completes (len-n) rest
  | len, .wouldblock :: rest => completes len rest
  | _, .failure :: _ => false

/-- The answers that accept bytes, none at all included. -/
def writes (answers : List SendAnswer) : Nat := answers.countP (fun | .accept _ => true | _ => false)

/-- So many iterations of the send loop; where one call of send ends the next begins. -/
def sendTurns (P : Platform) : Nat → Session → Session
  | 0, s => s
  | k+1, s => sendTurns P k (s.sendIter P).1

/-- A DATA frame is being written on an open stream with window `w`. -/
structure Writing (s : Session) (item : OutboundItem) (d : DataFrame) (word : Nat) (w : Int) : Prop where
  flowControl : s.flowControl = true
  arith : s.windowArith = .int32
  active : s.aob.item = some item
  data : item.frame = .data d
  word : getUint32 (s.aob.framebuf.drop 4) = word
  room : s.aob.framebufoff < s.aob.framebuf.length
  window : ∃ st, s.getStream d.streamId = some st ∧ st.windowSize = w

theorem debit_data {s : Session} {item : OutboundItem} {d : DataFrame} (hd : item.frame = .data d)
    (hf : s.flowControl = true) (ha : s.windowArith = .int32) :
    s.debit item = s.modifyStream d.streamId (fun st => {st with
      windowSize := toInt32 (st.windowSize-getUint32 (s.aob.framebuf.drop 4))}) := by
  unfold debit
  rw [hd]
  dsimp only
  rw [if_pos hf,ha]
  rfl

theorem getStream_debited {s : Session} {d : DataFrame} {word : Nat} {st : Stream}
    (hst : s.getStream d.streamId = some st) :
    (s.modifyStream d.streamId (fun st => {st with windowSize := toInt32 (st.windowSize-word)})).getStream d.streamId =
      some {st with windowSize := toInt32 (st.windowSize-word)} := by
  unfold getStream modifyStream at *
  dsimp only
  rw [OrderedTable.find_modify,if_pos rfl,hst]
  rfl

/-- The session when send_callback has accepted `n` bytes, before it is seen whether
the frame is complete. -/
def written (s : Session) (item : OutboundItem) (n : Nat) (rest : List SendAnswer) : Session :=
  ({s with
    aob := {s.aob with framebufoff := s.aob.framebufoff+n}
    host := {s.host with
      sends := rest
      log := s.host.log ++ [Event.sent ((s.aob.framebuf.drop s.aob.framebufoff).take n)]}}).debit item

theorem sendIter_accept (P : Platform) {s : Session} {item : OutboundItem} {n : Nat} {rest : List SendAnswer}
    (ha : s.aob.item = some item) (hs : s.host.sends = .accept n :: rest) :
    s.sendIter P =
      let s1 := written s item (min n (s.aob.framebuf.length-s.aob.framebufoff)) rest
      if s1.aob.framebufoff = s1.aob.framebuf.length then
        match s1.afterFrameSent.2 with
        | none => (s1.afterFrameSent.1,none)
        | some e => (s1.afterFrameSent.1,some (some (assertFatal e)))
      else (s1,none) := by
  unfold sendIter
  rw [ha]
  unfold sendWrite
  rw [hs]
  rfl

theorem written_data {s : Session} {item : OutboundItem} {d : DataFrame} {word : Nat} {w : Int}
    (h : Writing s item d word w) (n : Nat) (rest : List SendAnswer) :
    (written s item n rest).flowControl = true ∧ (written s item n rest).windowArith = .int32 ∧
      (written s item n rest).aob = {s.aob with framebufoff := s.aob.framebufoff+n} ∧
      (written s item n rest).host.sends = rest ∧
      ∃ st, (written s item n rest).getStream d.streamId = some st ∧ st.windowSize = toInt32 (w-word) := by
  obtain ⟨st,hst,hw⟩ := h.window
  unfold written
  rw [debit_data h.data]
  · refine ⟨h.flowControl,h.arith,rfl,rfl,_,getStream_debited hst,?_⟩
    dsimp only
    rw [hw,h.word]
  · exact h.flowControl
  · exact h.arith

/-- A write that leaves some of the frame. -/
theorem Writing.partly (P : Platform) {s : Session} {item : OutboundItem} {d : DataFrame} {word : Nat} {w : Int}
    {n : Nat} {rest : List SendAnswer} (h : Writing s item d word w) (hs : s.host.sends = .accept n :: rest)
    (hn : n < s.aob.framebuf.length-s.aob.framebufoff) :
    Writing (s.sendIter P).1 item d word (toInt32 (w-word)) ∧ (s.sendIter P).1.host.sends = rest ∧
      (s.sendIter P).1.aob.framebuf.length-(s.sendIter P).1.aob.framebufoff =
        s.aob.framebuf.length-s.aob.framebufoff-n := by
  obtain ⟨hf,ha,haob,hsends,hwin⟩ := written_data h n rest
  have hiter : s.sendIter P = (written s item n rest,none) := by
    rw [sendIter_accept P h.active hs,Nat.min_eq_left hn.le]
    dsimp only
    rw [haob,if_neg (by dsimp only; omega)]
  rw [hiter]
  refine ⟨⟨hf,ha,?_,h.data,?_,?_,hwin⟩,hsends,?_⟩
  · rw [haob]
    exact h.active
  · rw [haob]
    exact h.word
  · rw [haob]
    dsimp only
    omega
  · rw [haob]
    dsimp only
    omega

/-- The write that completes the frame. -/
theorem Writing.finish (P : Platform) {s : Session} {item : OutboundItem} {d : DataFrame} {word : Nat} {w : Int}
    {n : Nat} {rest : List SendAnswer} {st' : Stream} (h : Writing s item d word w)
    (hs : s.host.sends = .accept n :: rest) (hn : s.aob.framebuf.length-s.aob.framebufoff ≤ n)
    (hst' : (s.sendIter P).1.getStream d.streamId = some st') : st'.windowSize = toInt32 (w-word) := by
  have hroom := h.room
  obtain ⟨-,-,haob,-,st,hst,hw⟩ := written_data h (s.aob.framebuf.length-s.aob.framebufoff) rest
  have hiter : (s.sendIter P).1 =
      (written s item (s.aob.framebuf.length-s.aob.framebufoff) rest).afterFrameSent.1 := by
    rw [sendIter_accept P h.active hs,Nat.min_eq_right hn]
    dsimp only
    rw [haob,if_pos (by dsimp only; omega)]
    split <;> rfl
  rw [hiter] at hst'
  generalize written s item (s.aob.framebuf.length-s.aob.framebufoff) rest = s1 at *
  unfold afterFrameSent at hst'
  rw [haob] at hst'
  dsimp only at hst'
  rw [h.active] at hst'
  dsimp only at hst'
  rw [h.data] at hst'
  obtain ⟨st1,hst1,hw1⟩ := afterDataSent_sameWindows d.streamId st' hst'
  rw [hst] at hst1
  cases hst1
  exact hw1.trans hw

theorem Writing.blocked (P : Platform) {s : Session} {item : OutboundItem} {d : DataFrame} {word : Nat} {w : Int}
    {rest : List SendAnswer} (h : Writing s item d word w) (hs : s.host.sends = .wouldblock :: rest) :
    Writing (s.sendIter P).1 item d word w ∧ (s.sendIter P).1.host.sends = rest ∧
      (s.sendIter P).1.aob = s.aob := by
  have hiter : s.sendIter P = ({s with host := {s.host with sends := rest}},some none) := by
    unfold sendIter
    rw [h.active]
    unfold sendWrite
    rw [hs]
    rfl
  rw [hiter]
  exact ⟨⟨h.flowControl,h.arith,h.active,h.data,h.word,h.room,h.window⟩,rfl,rfl⟩

theorem toInt32_sub (a b : Int) : toInt32 (toInt32 a-b) = toInt32 (a-b) := by
  unfold toInt32
  omega

/-- The window when the frame is complete: each write has taken the word. -/
theorem Writing.turns (P : Platform) {item : OutboundItem} {d : DataFrame} {word : Nat} (answers : List SendAnswer)
    {s : Session} {w : Int} {rest : List SendAnswer} {st' : Stream} (h : Writing s item d word w)
    (hs : s.host.sends = answers ++ rest)
    (hc : completes (s.aob.framebuf.length-s.aob.framebufoff) answers = true)
    (hst' : (sendTurns P answers.length s).getStream d.streamId = some st') :
    st'.windowSize = toInt32 (w-(writes answers*word : Nat)) ∧ 0 < writes answers := by
  induction answers generalizing s w with
  | nil => cases hc
  | cons a answers ih =>
    cases a with
    | accept n =>
      have hcount : writes (.accept n :: answers) = writes answers+1 := by simp [writes]
      rw [completes] at hc
      split at hc
      · rename_i hn
        have hnil : answers = [] := List.isEmpty_iff.mp hc
        subst hnil
        have hf := h.finish P hs hn hst'
        refine ⟨?_,by rw [hcount]; exact Nat.succ_pos _⟩
        rw [hf,hcount]
        simp [writes]
      · rename_i hn
        obtain ⟨hw,hsends,hleft⟩ := h.partly P hs (not_le.mp hn)
        rw [← hleft] at hc
        obtain ⟨hwin,-⟩ := ih hw hsends hc hst'
        refine ⟨?_,by rw [hcount]; exact Nat.succ_pos _⟩
        rw [hwin,toInt32_sub,hcount]
        congr 1
        push_cast
        ring
    | wouldblock =>
      have hcount : writes (.wouldblock :: answers) = writes answers := by simp [writes]
      obtain ⟨hw,hsends,haob⟩ := h.blocked P hs
      rw [completes] at hc
      rw [hcount]
      exact ih hw hsends (by rw [haob]; exact hc) hst'
    | failure => cases hc

/-- The second word of a DATA frame. -/
theorem dataHead_word (streamId : Int) (bytes : Bytes) (fin : Bool) (h : bytes.length < 16777216) :
    getUint32 ((dataHead streamId bytes.length fin ++ bytes).drop 4) =
      (if fin then 16777216 else 0)+bytes.length := by
  unfold dataHead putUint32be getUint32
  cases fin <;> simp <;> omega

theorem toInt32_eq_iff (x y : Int) :
    toInt32 x = y ↔ -2147483648 ≤ y ∧ y ≤ 2147483647 ∧ (4294967296 : Int) ∣ y-x := by
  unfold toInt32
  omega

end Spdylay.Machine

namespace Spdylay
open Machine Session

/-- A DATA frame that pack_data has just put into the frame buffer. -/
structure PackedData (s : Session) (d : DataFrame) (bytes : Bytes) (fin : Bool) (st : Stream) : Prop where
  flowControl : s.flowControl = true
  arith : s.windowArith = .int32
  active : ∃ item, s.aob.item = some item ∧ item.frame = .data d
  framebuf : s.aob.framebuf = dataHead d.streamId bytes.length fin ++ bytes
  off : s.aob.framebufoff = 0
  length : bytes.length ≤ dataPayloadLength
  stream : s.getStream d.streamId = some st

/-- When the whole frame has been accepted, in as many writes as it took and with any
number of calls that would block, the window of its stream is lowered by the payload
length if and only if that fits and 2^32 divides what the further writes and the FIN
flags take too much. -/
theorem data_debit_exact_iff (P : Platform) (s : Session) (d : DataFrame) (bytes : Bytes) (fin : Bool)
    (st st' : Stream) (answers rest : List SendAnswer) (h : PackedData s d bytes fin st)
    (hs : s.host.sends = answers ++ rest) (hc : completes s.aob.framebuf.length answers = true)
    (ho : (sendTurns P answers.length s).getStream d.streamId = some st') :
    st'.windowSize = st.windowSize-bytes.length ↔
      -2147483648 ≤ st.windowSize-bytes.length ∧ st.windowSize-bytes.length ≤ 2147483647 ∧
        4294967296 ∣ (writes answers-1)*bytes.length+writes answers*(if fin then 16777216 else 0) := by
  have hlen := h.length
  obtain ⟨item,ha,hd⟩ := h.active
  have hw : Writing s item d ((if fin then 16777216 else 0)+bytes.length) st.windowSize := by
    refine ⟨h.flowControl,h.arith,ha,hd,?_,?_,st,h.stream,rfl⟩
    · rw [h.framebuf,dataHead_word _ _ _ (by unfold dataPayloadLength at hlen; omega)]
    · rw [h.framebuf,h.off]
      simp [dataHead,putUint32be]
  obtain ⟨hwin,hpos⟩ := hw.turns P answers hs (by rw [h.off]; exact hc) ho
  rw [hwin,toInt32_eq_iff]
  refine and_congr_right (fun _ => and_congr_right (fun _ => ?_))
  have heq : st.windowSize-bytes.length-(st.windowSize-(writes answers*((if fin then 16777216 else 0)+bytes.length) : Nat)) =
      (((writes answers-1)*bytes.length+writes answers*(if fin then 16777216 else 0) : Nat) : Int) := by
    obtain ⟨k,hk⟩ : ∃ k, writes answers = k+1 := ⟨writes answers-1,by omega⟩
    rw [hk,Nat.add_sub_cancel]
    push_cast
    ring
  rw [heq]
  exact Int.natCast_dvd_natCast (m := 4294967296)

/-- A request whose body's first chunk, of five bytes, is packed and blocked. -/
def blockedUpload (sends : List SendAnswer) : Session :=
  ((sampleClient .int32 (.accept 1000 :: .wouldblock :: sends) [.data [1,2,3,4,5] false]).start samplePlatform).run
    samplePlatform [.submitRequest 0 [] (some 0),.send]

theorem blockedUpload_packed (sends : List SendAnswer) (h : sends = [.accept 13] ∨ sends = [.accept 6,.accept 7]) :
    PackedData (blockedUpload sends) ⟨1,1,false,0⟩ [1,2,3,4,5] false ⟨1,.opening,0,0,false,false,[],none,false,1048576,0⟩ := by
  rcases h with rfl | rfl
  · exact ⟨by decide +kernel,by decide +kernel,⟨⟨.data ⟨1,1,false,0⟩,none,0,1⟩,by decide +kernel,rfl⟩,
      by decide +kernel,by decide +kernel,by decide +kernel,by decide +kernel⟩
  · exact ⟨by decide +kernel,by decide +kernel,⟨⟨.data ⟨1,1,false,0⟩,none,0,1⟩,by decide +kernel,rfl⟩,
      by decide +kernel,by decide +kernel,by decide +kernel,by decide +kernel⟩

theorem blockedUpload_sent :
    ((sendTurns samplePlatform 1 (blockedUpload [.accept 13])).getStream 1 =
        some ⟨1,.opening,0,0,false,false,[],some ⟨.data ⟨1,1,false,0⟩,none,0,1⟩,false,1048571,0⟩ ∧
      (blockedUpload [.accept 13]).host.sends = [.accept 13] ++ [] ∧
      completes (blockedUpload [.accept 13]).aob.framebuf.length [.accept 13] = true) ∧
    (sendTurns samplePlatform 2 (blockedUpload [.accept 6,.accept 7])).getStream 1 =
        some ⟨1,.opening,0,0,false,false,[],some ⟨.data ⟨1,1,false,0⟩,none,0,1⟩,false,1048566,0⟩ ∧
      (blockedUpload [.accept 6,.accept 7]).host.sends = [.accept 6,.accept 7] ++ [] ∧
      completes (blockedUpload [.accept 6,.accept 7]).aob.framebuf.length [.accept 6,.accept 7] = true := by
  decide +kernel

/-- One write of the frame takes its five bytes. -/
theorem one_write_debits_payload :
    (sendTurns samplePlatform 1 (blockedUpload [.accept 13])).getStream 1 =
      some ⟨1,.opening,0,0,false,false,[],some ⟨.data ⟨1,1,false,0⟩,none,0,1⟩,false,1048571,0⟩ ∧
      (1048571 : Int) = 1048576-5 := by
  obtain ⟨⟨ho,hsends,hcompletes⟩,-⟩ := blockedUpload_sent
  exact ⟨ho,(data_debit_exact_iff samplePlatform (blockedUpload [.accept 13]) ⟨1,1,false,0⟩ [1,2,3,4,5] false _ _
    [.accept 13] [] (blockedUpload_packed _ (.inl rfl)) hsends hcompletes ho).mpr
    ⟨by decide,by decide,by decide⟩⟩

/-- Two writes of the same frame take ten bytes. -/
theorem two_writes_debit_twice :
    ¬∀ (P : Platform) (s : Session) (d : DataFrame) (bytes : Bytes) (fin : Bool) (st st' : Stream)
      (answers rest : List SendAnswer), PackedData s d bytes fin st → s.host.sends = answers ++ rest →
      completes s.aob.framebuf.length answers = true →
      (sendTurns P answers.length s).getStream d.streamId = some st' →
      st'.windowSize = st.windowSize-bytes.length := by
  intro h
  obtain ⟨-,ho,hsends,hcompletes⟩ := blockedUpload_sent
  have hw := h samplePlatform (blockedUpload [.accept 6,.accept 7]) ⟨1,1,false,0⟩ [1,2,3,4,5] false _
    ⟨1,.opening,0,0,false,false,[],some ⟨.data ⟨1,1,false,0⟩,none,0,1⟩,false,1048566,0⟩
    [.accept 6,.accept 7] [] (blockedUpload_packed _ (.inr rfl)) hsends hcompletes ho
  revert hw
  decide

end Spdylay
