import Spdylay.Machine.StreamCounters
import Spdylay.Machine.WindowDebit

/-! The ledger of a stream's send window: what the peer has granted less what has been
begun. The window never exceeds it, but for a frame that is packed and not yet written. -/
namespace Spdylay.Machine
open Library

def raisedBy (streamId : Int) : Event → Int
  | .windowRaised id delta => if id = streamId then delta else 0
  | _ => 0

def begunBy (streamId : Int) : Event → Int
  | .read _ id bytes => if id = streamId then bytes.length else 0
  | _ => 0

/-- The WINDOW_UPDATE deltas accepted for a stream. -/
def raised (streamId : Int) (log : List Event) : Int := (log.map (raisedBy streamId)).sum

/-- The payload lengths of the DATA frames begun on a stream. -/
def begun (streamId : Int) (log : List Event) : Int := (log.map (begunBy streamId)).sum

@[simp] theorem raised_append (id : Int) (l l' : List Event) : raised id (l ++ l') = raised id l+raised id l' := by
  simp [raised]

@[simp] theorem begun_append (id : Int) (l l' : List Event) : begun id (l ++ l') = begun id l+begun id l' := by
  simp [begun]

@[simp] theorem raised_singleton (id : Int) (e : Event) : raised id [e] = raisedBy id e := by simp [raised]

@[simp] theorem begun_singleton (id : Int) (e : Event) : begun id [e] = begunBy id e := by simp [begun]

/-- What the peer has granted to a stream and no frame has begun to use. -/
def Core.granted (c : Core) (id : Int) : Int :=
  c.remoteSettings settingsInitialWindowSize+raised id c.log-begun id c.log

/-- The payload of the active frame while no byte of it has been written. -/
def Core.pending (c : Core) (id : Int) : Nat :=
  match c.active with
  | some item =>
    match item.frame with
    | .data d => if d.streamId = id ∧ c.framebufoff = 0 then c.framebuf.length-headLen else 0
    | .ctrl _ => 0
  | none => 0

/-- An id that a stream has been opened with. -/
def Core.Used (c : Core) (id : Int) : Prop :=
  if Core.isMine c.server id then id < c.nextStreamId else id ≤ c.lastRecvStreamId

/-- The runs the ledger is kept for. -/
structure Core.Sound (c : Core) : Prop where
  arith : c.arith = .unbounded
  flowControl : c.flowControl = true
  stuck : c.ghost.stuck = false
  oversize : c.ghost.oversize = false

structure Ledger (c : Core) : Prop where
  counted : Counted c
  idle : c.active = none → c.framebufoff = 0
  word : ∀ item d, c.active = some item → item.frame = .data d →
    c.framebuf.length ≤ headLen+getUint32 (c.framebuf.drop 4)
  fresh : ∀ id, ¬c.Used id → raised id c.log = 0 ∧ begun id c.log = 0
  remote : c.flowControl = true → c.ghost.oversize = false → c.remoteSettings settingsInitialWindowSize < 2147483648
  window : c.Sound → ∀ id st, c.streams.find id = some st → st.windowSize ≤ c.granted id+c.pending id

theorem Counted.used {c : Core} (h : Counted c) {id : Int} {st : Stream} (hst : c.streams.find id = some st) :
    c.Used id := by
  have hid : id ∈ c.ids := by
    obtain ⟨hm,hk⟩ := OrderedTable.find_eq_some.mp hst
    exact List.mem_map.mpr ⟨st,hm,hk⟩
  unfold Core.Used
  split
  · exact h.own id hid ‹_›
  · exact h.peer id hid (Bool.eq_false_iff.mpr ‹_›)

theorem Core.pending_congr {c c' : Core} (h : c'.aob = c.aob) (id : Int) : c'.pending id = c.pending id := by
  simp only [Core.aob,Prod.mk.injEq] at h
  unfold Core.pending
  rw [h.1,h.2.1,h.2.2]

/-- Moves that leave the active slot and the sums of the log alone and raise no window. -/
theorem Ledger.quiet {c c' : Core} (h : Ledger c) (hc : Counted c') (haob : c'.aob = c.aob)
    (hused : ∀ id, c.Used id → c'.Used id) (hr : ∀ id, raised id c'.log = raised id c.log)
    (hb : ∀ id, begun id c'.log = begun id c.log) (hf : c'.flowControl = c.flowControl) (ha : c'.arith = c.arith)
    (hg : c'.ghost.stuck = c.ghost.stuck ∧ c'.ghost.oversize = c.ghost.oversize)
    (hrem : c.flowControl = true →
      c'.remoteSettings settingsInitialWindowSize = c.remoteSettings settingsInitialWindowSize)
    (hw : ∀ id st', c'.streams.find id = some st' →
      ∃ st, c.streams.find id = some st ∧ st'.windowSize = st.windowSize) : Ledger c' := by
  have haob' := haob
  simp only [Core.aob,Prod.mk.injEq] at haob'
  obtain ⟨h1,h2,h3⟩ := haob'
  refine ⟨hc,?_,?_,?_,?_,?_⟩
  · rw [h1,h3]
    exact h.idle
  · rw [h1,h2]
    exact h.word
  · intro id hn
    rw [hr,hb]
    exact h.fresh id (fun hu => hn (hused id hu))
  · rw [hf,hg.2]
    intro hfl ho
    rw [hrem hfl]
    exact h.remote hfl ho
  · intro hs id st' hst'
    obtain ⟨st,hst,hwin⟩ := hw id st' hst'
    have hs' : c.Sound := ⟨ha ▸ hs.arith,hf ▸ hs.flowControl,hg.1 ▸ hs.stuck,hg.2 ▸ hs.oversize⟩
    rw [hwin,Core.pending_congr haob,Core.granted,hr,hb,hrem hs'.flowControl]
    exact h.window hs' id st hst

theorem raisedBy_plain {e : Event} (h : plain e = true) (id : Int) : raisedBy id e = 0 := by
  cases e <;> first | rfl | cases h

theorem begunBy_plain {e : Event} (h : plain e = true) (id : Int) : begunBy id e = 0 := by
  cases e <;> first | rfl | cases h

theorem Ledger.act {c c' : Core} (hm : Act c c') (h : Ledger c) : Ledger c' := by
  have hc := h.counted.act hm
  have haob := hm.aob_eq
  have hw := hm.window_eq
  cases hm with
  | note e he =>
    exact h.quiet hc haob (fun _ => id) (fun id => by simp [Core.note,raisedBy_plain he])
      (fun id => by simp [Core.note,begunBy_plain he]) rfl rfl ⟨rfl,rfl⟩ (fun _ => rfl) hw
  | accept item hs =>
    refine h.quiet hc haob ?_ (fun id => by simp [Core.note,raisedBy]) (fun id => by simp [Core.note,begunBy]) ?_ ?_ ?_
      ?_ hw
    all_goals
      unfold Core.enqueue
      split
    all_goals first | exact fun _ hu => hu | exact fun _ => rfl | exact ⟨rfl,rfl⟩ | rfl
  | skipSeq =>
    exact h.quiet hc haob (fun _ => id) (fun _ => rfl) (fun _ => rfl) rfl rfl ⟨rfl,rfl⟩ (fun _ => rfl) hw
  | restate streamId f hf =>
    exact h.quiet hc haob (fun _ => id) (fun _ => rfl) (fun _ => rfl) rfl rfl ⟨rfl,rfl⟩ (fun _ => rfl) hw
  | close streamId st hst =>
    refine h.quiet hc haob ?_ ?_ ?_ ?_ ?_ ?_ ?_ hw
    · unfold Core.close Core.freeDeferred Core.countClosed
      cases st.deferredData <;> cases Core.isMine c.server st.streamId <;> exact fun _ hu => hu
    · unfold Core.close Core.freeDeferred
      cases st.deferredData <;> simp [Core.note,raisedBy]
    · unfold Core.close Core.freeDeferred
      cases st.deferredData <;> simp [Core.note,begunBy]
    all_goals
      unfold Core.close Core.freeDeferred Core.countClosed
      cases st.deferredData <;> cases Core.isMine c.server st.streamId
    all_goals first | exact fun _ => rfl | exact ⟨rfl,rfl⟩ | rfl
  | resume streamId st item hst hi =>
    exact h.quiet hc haob (fun _ => id) (fun _ => rfl) (fun _ => rfl) rfl rfl ⟨rfl,rfl⟩ (fun _ => rfl) hw

/-! Receiving. -/

/-- A new stream starts with what the peer grants to every stream. -/
theorem Ledger.opened {c : Core} (h : Ledger c) (c1 : Core) {st : Stream} {streams} (hc : Counted (c1.countOpened st.streamId))
    (hi : c.streams.insert st = some streams) (hwin : st.windowSize = c.initialWindow) (hs : c1.streams = streams)
    (hnew : ¬c.Used st.streamId) (hused : ∀ id, c.Used id → c1.Used id) (haob : c1.aob = c.aob) (hl : c1.log = c.log)
    (hf : c1.flowControl = c.flowControl) (ha : c1.arith = c.arith) (hg : c1.ghost = c.ghost)
    (hrem : c1.remoteSettings = c.remoteSettings) : Ledger (c1.countOpened st.streamId) := by
  have hcount : ∃ o i, c1.countOpened st.streamId = {c1 with numOutgoing := o, numIncoming := i} := by
    unfold Core.countOpened
    split
    · exact ⟨_,c1.numIncoming,rfl⟩
    · exact ⟨c1.numOutgoing,_,rfl⟩
  obtain ⟨o,i,he⟩ := hcount
  rw [he] at hc ⊢
  have haob' := haob
  simp only [Core.aob,Prod.mk.injEq] at haob'
  obtain ⟨h1,h2,h3⟩ := haob'
  have hpend : ∀ id, Core.pending {c1 with numOutgoing := o, numIncoming := i} id = c.pending id :=
    Core.pending_congr haob
  refine ⟨hc,?_,?_,?_,?_,?_⟩
  · intro hx
    exact h3.trans (h.idle (h1.symm.trans hx))
  · intro item d hx hd
    change c1.framebuf.length ≤ headLen+getUint32 (c1.framebuf.drop 4)
    rw [h2]
    exact h.word item d (h1.symm.trans hx) hd
  · intro id hn
    change raised id c1.log = 0 ∧ begun id c1.log = 0
    rw [hl]
    exact h.fresh id (fun hu => hn (hused id hu))
  · intro hfl ho
    change c1.remoteSettings _ < _
    rw [hrem]
    exact h.remote (hf ▸ hfl) (hg ▸ ho)
  · intro hsound id st' hst'
    have hs' : c.Sound := ⟨ha ▸ hsound.arith,hf ▸ hsound.flowControl,hg ▸ hsound.stuck,hg ▸ hsound.oversize⟩
    rw [hpend,Core.granted]
    change _ ≤ (c1.remoteSettings settingsInitialWindowSize : Int)+raised id c1.log-begun id c1.log+_
    rw [hrem,hl]
    change c1.streams.find id = some st' at hst'
    rw [hs,OrderedTable.find_insert hi] at hst'
    split at hst'
    · rename_i hid
      cases hst'
      have hfresh := h.fresh id (hid ▸ hnew)
      have hlt := h.remote hs'.flowControl hs'.oversize
      have hself : toInt32 (c.remoteSettings settingsInitialWindowSize) = c.remoteSettings settingsInitialWindowSize :=
        toInt32_eq_self.mpr (by omega)
      rw [hwin,Core.initialWindow,hs'.arith,hfresh.1,hfresh.2,hself]
      simp only [WindowArith.store]
      omega
    · exact h.window hs' id st' hst'

/-- A window and its ledger rise together. -/
theorem Ledger.raise {c : Core} (h : Ledger c) {streamId delta : Int} {st : Stream}
    (hst : c.streams.find streamId = some st)
    (hc : Counted ((c.rewindow streamId (fun w => c.arith.store (w+delta))).note (.windowRaised streamId delta))) :
    Ledger ((c.rewindow streamId (fun w => c.arith.store (w+delta))).note (.windowRaised streamId delta)) := by
  have hfind := c.find_rewindow streamId (fun w => c.arith.store (w+delta))
  obtain ⟨streams,obPq,he⟩ := c.rewindow_frame streamId (fun w => c.arith.store (w+delta))
  rw [he] at hfind hc ⊢
  refine ⟨hc,h.idle,h.word,?_,h.remote,?_⟩
  · intro id hn
    have hne : streamId ≠ id := by
      rintro rfl
      exact hn (h.counted.used hst)
    simpa [Core.note,raisedBy,begunBy,hne] using h.fresh id hn
  · intro hs id st' hst'
    have hs' : c.Sound := ⟨hs.arith,hs.flowControl,hs.stuck,hs.oversize⟩
    have hpend : Core.pending (Core.note {c with streams := streams, obPq := obPq} (.windowRaised streamId delta)) id =
        c.pending id := Core.pending_congr rfl id
    rw [hpend]
    have hold := hfind id
    change streams.find id = some st' at hst'
    change streams.find id = _ at hold
    rw [hst'] at hold
    simp only [Core.granted,Core.note,raised_append,begun_append,raised_singleton,begun_singleton,raisedBy,begunBy]
    split at hold
    · rename_i hid
      obtain ⟨st0,hst0,hx⟩ := Option.map_eq_some_iff.mp hold.symm
      have hwin := h.window hs' id st0 hst0
      rw [Core.granted] at hwin
      rw [← hx,settled_windowSize,hs'.arith,if_pos hid]
      simp only [WindowArith.store]
      omega
    · rename_i hid
      have hwin := h.window hs' id st' hold.symm
      rw [Core.granted] at hwin
      rw [if_neg hid]
      omega

/-- A new initial window changes every window and every ledger by the same amount. -/
theorem Ledger.rebase {c : Core} (h : Ledger c) {value : Nat} (hv : value < 2147483648)
    (hc : Counted (c.rebase value)) : Ledger (c.rebase value) := by
  have hfind := c.find_rebase value
  obtain ⟨streams,obPq,he⟩ := c.rebase_frame value
  rw [he] at hfind hc ⊢
  have hvalue : Core.remoteSettings {c.setRemote settingsInitialWindowSize value with
      streams := streams, obPq := obPq} settingsInitialWindowSize = value := by
    change Function.update c.remoteSettings settingsInitialWindowSize value settingsInitialWindowSize = value
    exact Function.update_self ..
  refine ⟨hc,h.idle,h.word,h.fresh,?_,?_⟩
  · intro _ _
    rw [hvalue]
    exact hv
  · intro hs id st' hst'
    have hs' : c.Sound := ⟨hs.arith,hs.flowControl,hs.stuck,hs.oversize⟩
    have hpend : Core.pending {c.setRemote settingsInitialWindowSize value with
        streams := streams, obPq := obPq} id = c.pending id := Core.pending_congr rfl id
    have hold := hfind id
    rw [hst'] at hold
    obtain ⟨st0,hst0,hx⟩ := Option.map_eq_some_iff.mp hold.symm
    have hwin := h.window hs' id st0 hst0
    have hlt := h.remote hs'.flowControl hs'.oversize
    have hself : toInt32 (c.remoteSettings settingsInitialWindowSize) = c.remoteSettings settingsInitialWindowSize :=
      toInt32_eq_self.mpr (by omega)
    rw [hpend,Core.granted,hvalue,← hx,settled_windowSize,Core.rebased,hs'.arith,hself]
    rw [Core.granted] at hwin
    simp only [WindowArith.store]
    change _ ≤ (value : Int)+raised id c.log-begun id c.log+_
    omega

/-- What is left half done is marked, and the ledger is kept no longer. -/
theorem Ledger.unsound {c c' : Core} (h : Ledger c) (hc : Counted c') (haob : c'.aob = c.aob)
    (hused : ∀ id, c.Used id → c'.Used id)
    (hl : ∀ id, ¬c.Used id → raised id c'.log = raised id c.log ∧ begun id c'.log = begun id c.log)
    (hrem : c'.flowControl = true → c'.ghost.oversize = false →
      c'.remoteSettings settingsInitialWindowSize < 2147483648)
    (hn : ¬c'.Sound) : Ledger c' := by
  simp only [Core.aob,Prod.mk.injEq] at haob
  refine ⟨hc,?_,?_,?_,hrem,fun hs => absurd hs hn⟩
  · rw [haob.1,haob.2.2]
    exact h.idle
  · rw [haob.1,haob.2.1]
    exact h.word
  · intro id hid
    have hold : ¬c.Used id := fun hu => hid (hused id hu)
    rw [(hl id hold).1,(hl id hold).2]
    exact h.fresh id hold

theorem Ledger.inb {c c' : Core} (hm : Inb c c') (h : Ledger c) : Ledger c' := by
  have hc := h.counted.inb hm
  have hsame : ∀ id st', c.streams.find id = some st' →
      ∃ st, c.streams.find id = some st ∧ st'.windowSize = st.windowSize := fun id st' hst => ⟨st',hst,rfl⟩
  -- a greater id of the peer
  have hpeer : ∀ (c1 : Core) (streamId : Int), NewPeerId c streamId → c1.server = c.server →
      c1.nextStreamId = c.nextStreamId → c1.lastRecvStreamId = streamId → ∀ id, c.Used id → c1.Used id := by
    intro c1 streamId hn h1 h2 h3 id hu
    unfold Core.Used at hu ⊢
    rw [h1,h2,h3]
    split at hu
    · rwa [if_pos ‹_›]
    · rw [if_neg ‹_›]
      exact hu.trans hn.2.2.le
  cases hm with
  | seePeer streamId hn =>
    exact h.quiet hc rfl (hpeer _ streamId hn rfl rfl rfl) (fun _ => rfl) (fun _ => rfl) rfl rfl ⟨rfl,rfl⟩
      (fun _ => rfl) hsame
  | openPeer st streams hn hw hd hp hi =>
    refine h.opened {c with lastRecvStreamId := st.streamId, streams := streams} hc hi hw rfl ?_
      (hpeer _ st.streamId hn rfl rfl rfl) rfl rfl rfl rfl rfl rfl
    unfold Core.Used
    rw [hn.2.1]
    exact not_le.mpr hn.2.2
  | openPeerFailed st hn hi =>
    have hf := OrderedTable.find_eq_none.mpr (fun x hx he =>
      h.counted.peer_fresh hn (List.mem_map.mpr ⟨x,hx,he⟩))
    obtain ⟨t,ht,-⟩ := OrderedTable.insert_fresh (x := st) hf
    rw [ht] at hi
    cases hi
  | raise streamId delta st hst => exact h.raise hst hc
  | raiseStuck streamId delta st hst =>
    refine h.unsound hc rfl (fun _ hu => hu) ?_ h.remote (fun hs => by cases hs.stuck)
    intro id hid
    have hne : streamId ≠ id := by
      rintro rfl
      exact hid (h.counted.used hst)
    simp [Core.note,raisedBy,begunBy,hne,Core.setWindow,Core.modifyStream]
  | rebase value hf hv => exact h.rebase hv hc
  | rebaseStuck streamId f =>
    exact h.unsound hc rfl (fun _ hu => hu) (fun _ _ => ⟨rfl,rfl⟩) h.remote (fun hs => by cases hs.stuck)
  | setRemote id value hid =>
    refine h.quiet hc rfl (fun _ hu => hu) (fun _ => rfl) (fun _ => rfl) rfl rfl ⟨rfl,rfl⟩ ?_ hsame
    intro hfl
    have hne : id ≠ settingsInitialWindowSize := hid.resolve_right (by rw [hfl]; rintro ⟨⟩)
    exact Function.update_of_ne hne.symm ..
  | setOversize value hv =>
    exact h.unsound hc rfl (fun _ hu => hu) (fun _ _ => ⟨rfl,rfl⟩) (fun _ ho => by cases ho)
      (fun hs => by cases hs.oversize)

/-! Sending. -/

/-- A frame that fills its buffer to the offset owes nothing. -/
theorem Core.pending_done {c : Core} (h : c.framebufoff = c.framebuf.length) (id : Int) : c.pending id = 0 := by
  unfold Core.pending
  split
  · split
    · split
      · rename_i hx
        rw [← h,hx.2,Nat.zero_sub]
      · rfl
    · rfl
  · rfl

theorem Core.pending_none {c : Core} (h : c.active = none) (id : Int) : c.pending id = 0 := by
  unfold Core.pending
  rw [h]

/-- The slot is emptied after the last byte. -/
theorem Ledger.emptied {c c' : Core} (h : Ledger c) (hc : Counted c') (hd : c.framebufoff = c.framebuf.length)
    (ha : c'.active = none) (ho : c'.framebufoff = 0) (hused : ∀ id, c.Used id → c'.Used id)
    (hr : ∀ id, raised id c'.log = raised id c.log) (hb : ∀ id, begun id c'.log = begun id c.log)
    (hf : c'.flowControl = c.flowControl) (har : c'.arith = c.arith) (hg : c'.ghost = c.ghost)
    (hrem : c'.remoteSettings = c.remoteSettings)
    (hw : ∀ id st', c'.streams.find id = some st' →
      ∃ st, c.streams.find id = some st ∧ st'.windowSize = st.windowSize) : Ledger c' := by
  refine ⟨hc,fun _ => ho,?_,?_,?_,?_⟩
  · intro item d hx
    rw [ha] at hx
    cases hx
  · intro id hn
    rw [hr,hb]
    exact h.fresh id (fun hu => hn (hused id hu))
  · rw [hf,hg,hrem]
    exact h.remote
  · intro hs id st' hst'
    obtain ⟨st,hst,hwin⟩ := hw id st' hst'
    have hs' : c.Sound := ⟨har ▸ hs.arith,hf ▸ hs.flowControl,hg ▸ hs.stuck,hg ▸ hs.oversize⟩
    have hold := h.window hs' id st hst
    rw [Core.pending_done hd] at hold
    rw [hwin,Core.pending_none ha,Core.granted,hr,hb,hrem]
    exact hold

/-- The shape of a packed DATA frame. -/
theorem Packs.frame_word {c : Core} {d : DataFrame} {st : Stream} {bytes frame : Bytes} (h : Packs c d st bytes frame) :
    frame.length = headLen+bytes.length ∧ bytes.length ≤ getUint32 (frame.drop 4) := by
  obtain ⟨fin,hf⟩ := h.frame
  have hlen : bytes.length < 16777216 := by
    have hr := h.room
    unfold Core.nextDataRead dataPayloadLength at hr
    split_ifs at hr <;> omega
  rw [hf,dataHead_word _ _ _ hlen]
  refine ⟨?_,by omega⟩
  simp [Session.dataHead,putUint32be,headLen]
  omega

/-- A DATA frame is begun: what it takes from the ledger is pending. -/
theorem Ledger.begun {c c' : Core} (h : Ledger c) (item : OutboundItem) (seq : Nat) {d : DataFrame} {st : Stream}
    {bytes frame : Bytes} (hc : Counted c') (hp : Packs c d st bytes frame) (hd : item.frame = .data d)
    (hpend : ∀ id, c.pending id = 0) (ha : c'.active = some item) (hfb : c'.framebuf = frame)
    (ho : c'.framebufoff = 0) (hused : ∀ id, c.Used id → c'.Used id)
    (hl : c'.log = c.log ++ [.read seq d.streamId bytes] ++ [.prepared item.seq frame])
    (hf : c'.flowControl = c.flowControl) (har : c'.arith = c.arith)
    (hg : c'.ghost.stuck = c.ghost.stuck ∧ c'.ghost.oversize = c.ghost.oversize)
    (hrem : c'.remoteSettings = c.remoteSettings) (hs : c'.streams = c.streams) : Ledger c' := by
  obtain ⟨hlen,hword⟩ := hp.frame_word
  have hpend' : ∀ id, c'.pending id = if d.streamId = id then bytes.length else 0 := by
    intro id
    unfold Core.pending
    rw [ha]
    dsimp only
    rw [hd]
    dsimp only
    rw [ho,hfb,hlen]
    simp
  refine ⟨hc,?_,?_,?_,?_,?_⟩
  · intro hx
    rw [ha] at hx
    cases hx
  · intro item' d' hx hd'
    rw [hfb]
    omega
  · intro id hn
    have hold : ¬c.Used id := fun hu => hn (hused id hu)
    have hne : d.streamId ≠ id := by
      rintro rfl
      exact hold (h.counted.used hp.find)
    rw [hl]
    simp only [raised_append,begun_append,raised_singleton,begun_singleton,raisedBy,begunBy,if_neg hne,add_zero]
    exact h.fresh id hold
  · rw [hf,hg.2,hrem]
    exact h.remote
  · intro hs' id st' hst'
    have hsound : c.Sound := ⟨har ▸ hs'.arith,hf ▸ hs'.flowControl,hg.1 ▸ hs'.stuck,hg.2 ▸ hs'.oversize⟩
    rw [hs] at hst'
    have hold := h.window hsound id st' hst'
    rw [hpend,Core.granted] at hold
    rw [hpend',Core.granted,hrem,hl]
    simp only [raised_append,begun_append,raised_singleton,begun_singleton,raisedBy,begunBy]
    split <;> push_cast <;> omega

/-- A write takes from the window at least what the frame had pending. -/
theorem Ledger.written {c : Core} (h : Ledger c) {item : OutboundItem} {n : Nat} (ha : c.active = some item)
    (hc : Counted ((c.write n).debit item)) : Ledger ((c.write n).debit item) := by
  have hx : ∃ streams, (c.write n).debit item = {c.write n with streams := streams} := by
    unfold Core.debit
    split
    · split
      · exact ⟨_,rfl⟩
      · exact ⟨c.streams,rfl⟩
    · exact ⟨c.streams,rfl⟩
  obtain ⟨streams,he⟩ := hx
  have hr : ∀ id, raised id (c.write n).log = raised id c.log := fun id => by simp [Core.write,Core.note,raisedBy]
  have hb : ∀ id, Machine.begun id (c.write n).log = Machine.begun id c.log :=
    fun id => by simp [Core.write,Core.note,begunBy]
  have hwin : c.Sound → ∀ id st', ((c.write n).debit item).streams.find id = some st' →
      st'.windowSize ≤ c.granted id := by
    intro hs id st' hst'
    unfold Core.debit at hst'
    split at hst'
    · rename_i d hd
      have hfl : (c.write n).flowControl = true := hs.flowControl
      have har : (c.write n).arith = .unbounded := hs.arith
      rw [if_pos hfl,Core.setWindow,Core.find_modifyStream] at hst'
      split at hst'
      · rename_i hid
        obtain ⟨st,hst,rfl⟩ := Option.map_eq_some_iff.mp hst'
        have hold := h.window hs id st hst
        have hword := h.word item d ha hd
        have hpend : c.pending id ≤ getUint32 (c.framebuf.drop 4) := by
          unfold Core.pending
          rw [ha]
          dsimp only
          rw [hd]
          dsimp only
          split <;> omega
        rw [har]
        change st.windowSize-getUint32 (c.framebuf.drop 4) ≤ _
        omega
      · rename_i hid
        have hold := h.window hs id st' hst'
        have hpend : c.pending id = 0 := by
          unfold Core.pending
          rw [ha]
          dsimp only
          rw [hd]
          dsimp only
          rw [if_neg (fun hx => hid hx.1)]
        omega
    · rename_i f hf
      have hold := h.window hs id st' hst'
      have hpend : c.pending id = 0 := by
        unfold Core.pending
        rw [ha]
        dsimp only
        rw [hf]
      omega
  rw [he] at hc hwin ⊢
  refine ⟨hc,?_,h.word,?_,h.remote,?_⟩
  · intro hx
    have hx' : c.active = none := hx
    rw [ha] at hx'
    cases hx'
  · intro id hn
    change raised id (c.write n).log = 0 ∧ Machine.begun id (c.write n).log = 0
    rw [hr,hb]
    exact h.fresh id hn
  · intro hs id st' hst'
    have hw := hwin ⟨hs.arith,hs.flowControl,hs.stuck,hs.oversize⟩ id st' hst'
    rw [Core.granted] at hw ⊢
    change _ ≤ (c.remoteSettings settingsInitialWindowSize : Int)+raised id (c.write n).log-
      Machine.begun id (c.write n).log+_
    rw [hr,hb]
    omega

theorem Ledger.outb {c c' : Core} (hm : Outb c c') (h : Ledger c) : Ledger c' := by
  have hc := h.counted.outb hm
  have hsame : ∀ id st', c.streams.find id = some st' →
      ∃ st, c.streams.find id = some st ∧ st'.windowSize = st.windowSize := fun id st' hst => ⟨st',hst,rfl⟩
  have hpark : ∀ streamId item fc id st', (c.park streamId item fc).streams.find id = some st' →
      ∃ st, c.streams.find id = some st ∧ st'.windowSize = st.windowSize := by
    intro streamId item fc id st' hst'
    rw [Core.park,Core.find_modifyStream] at hst'
    split at hst'
    · obtain ⟨st,hst,rfl⟩ := Option.map_eq_some_iff.mp hst'
      exact ⟨st,hst,rfl⟩
    · exact ⟨st',hst',rfl⟩
  -- a local id at least as great
  have hown : ∀ c1 : Core, c1.server = c.server → c.nextStreamId ≤ c1.nextStreamId →
      c1.lastRecvStreamId = c.lastRecvStreamId → ∀ id, c.Used id → c1.Used id := by
    intro c1 h1 h2 h3 id hu
    unfold Core.Used at hu ⊢
    rw [h1,h3]
    split at hu
    · rw [if_pos ‹_›]
      omega
    · rwa [if_neg ‹_›]
  cases hm with
  | takeId =>
    exact h.quiet hc rfl (hown _ rfl (Nat.le_add_right _ 2) rfl) (fun _ => rfl) (fun _ => rfl) rfl rfl ⟨rfl,rfl⟩ (fun _ => rfl) hsame
  | openOwn st streams hid hw hd hp hi =>
    refine h.opened {c with nextStreamId := c.nextStreamId+2, streams := streams} hc hi hw rfl ?_
      (hown _ rfl (Nat.le_add_right _ 2) rfl) rfl rfl rfl rfl rfl rfl
    unfold Core.Used
    rw [hid,h.counted.next,if_pos rfl]
    exact lt_irrefl _
  | openOwnFailed st hid hi =>
    have hf : c.streams.find st.streamId = none := OrderedTable.find_eq_none.mpr (fun x hx he =>
      h.counted.own_fresh (List.mem_map.mpr ⟨x,hx,he.trans hid⟩))
    obtain ⟨t,ht,-⟩ := OrderedTable.insert_fresh hf
    rw [ht] at hi
    cases hi
  | pop item rest ha hh hq =>
    exact h.quiet hc rfl (fun _ hu => hu) (fun _ => rfl) (fun _ => rfl) rfl rfl ⟨rfl,rfl⟩ (fun _ => rfl) hsame
  | popSyn item rest ha hh hq =>
    exact h.quiet hc rfl (fun _ hu => hu) (fun _ => rfl) (fun _ => rfl) rfl rfl ⟨rfl,rfl⟩ (fun _ => rfl) hsame
  | retouch item item' hh hs =>
    exact h.quiet hc rfl (fun _ hu => hu) (fun _ => rfl) (fun _ => rfl) rfl rfl ⟨rfl,rfl⟩ (fun _ => rfl) hsame
  | drop item e hh hd hc =>
    exact h.quiet hc rfl (fun _ hu => hu) (fun id => by simp [Core.note,Core.setHand,raisedBy])
      (fun id => by simp [Core.note,Core.setHand,begunBy]) rfl rfl ⟨rfl,rfl⟩ (fun _ => rfl) hsame
  | requeue item hh hs =>
    exact h.quiet hc rfl (fun _ hu => hu) (fun _ => rfl) (fun _ => rfl) rfl rfl ⟨rfl,rfl⟩ (fun _ => rfl) hsame
  | defer item d st fc hh ha hf hp =>
    exact h.quiet hc rfl (fun _ hu => hu) (fun _ => rfl) (fun _ => rfl) rfl rfl ⟨rfl,rfl⟩ (fun _ => rfl)
      (hpark d.streamId item fc)
  | activate item f frame hh ha hf hne =>
    have hpend : ∀ id, Core.pending ((c.begin item frame).setHand none) id = c.pending id := by
      intro id
      rw [Core.pending_none ha]
      unfold Core.pending Core.setHand Core.begin
      dsimp only
      rw [hf]
    refine ⟨hc,(by rintro ⟨⟩),?_,?_,h.remote,?_⟩
    · intro item' d hx hd
      cases hx
      rw [hf] at hd
      cases hd
    · intro id hn
      simpa [Core.setHand,Core.begin,Core.note,raisedBy,begunBy] using h.fresh id hn
    · intro hs id st' hst'
      have hold := h.window ⟨hs.arith,hs.flowControl,hs.stuck,hs.oversize⟩ id st' hst'
      rw [hpend]
      simpa [Core.granted,Core.setHand,Core.begin,Core.note,raisedBy,begunBy] using hold
  | activateData item d st bytes frame hh ha hf hp =>
    refine h.begun item item.seq hc hp hf (Core.pending_none ha) ?_ ?_ ?_ (hown _ ?_ ?_ ?_) ?_ ?_ ?_ ⟨?_,?_⟩ ?_ ?_
    all_goals simp only [Core.begin,Core.note,Core.setHand,h.idle ha,le_refl]
  | write item n ha hn => exact h.written ha hc
  | finish item cause ha hd hc =>
    exact h.emptied hc hd rfl rfl (fun _ hu => hu) (fun id => by simp [Core.take,Core.note,raisedBy])
      (fun id => by simp [Core.take,Core.note,begunBy]) rfl rfl rfl rfl hsame
  | parkActive item item' d st fc ha hd hs hf hp =>
    exact h.emptied hc hd rfl rfl (fun _ hu => hu) (fun _ => rfl) (fun _ => rfl) rfl rfl rfl rfl
      (hpark d.streamId item' fc)
  | requeueActive item ha hd hs =>
    exact h.emptied hc hd rfl rfl (fun _ hu => hu) (fun _ => rfl) (fun _ => rfl) rfl rfl rfl rfl hsame
  | «continue» item item' d st bytes frame ha hd hs hf hp =>
    refine h.begun item' item.seq hc hp hf (Core.pending_done hd) ?_ ?_ ?_ (hown _ ?_ ?_ ?_) ?_ ?_ ?_ ⟨?_,?_⟩ ?_ ?_
    all_goals simp only [Core.begin,Core.note,le_refl]

theorem ledger_invariant : Invariant Ledger where
  start P u := by
    refine ⟨counted_invariant.start P u,fun _ => rfl,?_,fun _ _ => ⟨rfl,rfl⟩,?_,?_⟩
    · intro item d hx
      cases hx
    · intro _ _
      change initialSettings settingsInitialWindowSize < 2147483648
      decide
    · intro _ id st hst
      cases hst
  act _ _ := Ledger.act
  inb _ _ := Ledger.inb
  read c f z h := ⟨counted_invariant.read c f z h.counted,h.idle,h.word,h.fresh,h.remote,
    fun hs => h.window ⟨hs.arith,hs.flowControl,hs.stuck,hs.oversize⟩⟩
  outb _ _ := Ledger.outb
  report c e h := h.quiet (counted_invariant.report c e h.counted) rfl (fun _ hu => hu)
    (fun id => by simp [Core.note,raisedBy]) (fun id => by simp [Core.note,begunBy]) rfl rfl ⟨rfl,rfl⟩ (fun _ => rfl)
    (fun id st' hst => ⟨st',hst,rfl⟩)

/-- What pack_data takes fits the ledger. -/
theorem Ledger.packs {c : Core} (h : Ledger c) (hs : c.Sound) {d : DataFrame} {st : Stream} {bytes frame : Bytes}
    (hp : Packs c d st bytes frame) (hpend : c.pending d.streamId = 0) :
    bytes.length ≤ dataPayloadLength ∧ (bytes.length : Int) ≤ c.granted d.streamId := by
  have hw := h.window hs _ st hp.find
  rw [hpend] at hw
  have hpos := hp.positive
  have hr := hp.room
  unfold Core.nextDataRead at hpos hr
  rw [hs.flowControl] at hpos hr
  simp only [Bool.not_true,Bool.false_eq_true,if_false] at hpos hr
  split at hr
  · omega
  · rename_i hn
    rw [if_neg hn] at hpos
    cases hpos

/-! What a call reads from data sources. -/

def isRead : Event → Bool
  | .read _ _ _ => true
  | _ => false

/-- The log grows by events that read nothing. -/
def NoReads (c c' : Core) : Prop := ∃ new, c'.log = c.log ++ new ∧ ∀ e ∈ new, isRead e = false

theorem NoReads.refl {c c' : Core} (h : c'.log = c.log) : NoReads c c' := ⟨[],by simp [h],nofun⟩

theorem NoReads.one {c c' : Core} {e : Event} (h : c'.log = c.log ++ [e]) (he : isRead e = false) : NoReads c c' :=
  ⟨[e],h,by simpa using he⟩

theorem NoReads.trans {c1 c2 c3 : Core} (h : NoReads c1 c2) (h' : NoReads c2 c3) : NoReads c1 c3 := by
  obtain ⟨n,hn,hr⟩ := h
  obtain ⟨n',hn',hr'⟩ := h'
  refine ⟨n ++ n',by rw [hn',hn,List.append_assoc],?_⟩
  intro e he
  exact (List.mem_append.mp he).elim (hr e) (hr' e)

theorem NoReads.of_notes {kind : Event → Bool} {c c' : Core} (h : Notes kind c c')
    (hkind : ∀ e, kind e = true → isRead e = false) : NoReads c c' := by
  obtain h | ⟨e,he,h⟩ := h
  · exact .refl h
  · exact .one h (hkind e he)

theorem Act.noReads {c c' : Core} (h : Act c c') : NoReads c c' := by
  refine .of_notes h.notes ?_
  intro e he
  cases e <;> first | rfl | cases he

theorem Inb.noReads {c c' : Core} (h : Inb c c') : NoReads c c' := by
  refine .of_notes h.notes ?_
  intro e he
  cases e <;> first | rfl | cases he

theorem ReadSteps.noReads {c c' : Core} (h : ReadSteps c c') : NoReads c c' := by
  induction h with
  | refl => exact .refl rfl
  | tail _ hm ih =>
    refine ih.trans ?_
    rcases hm with hm | hm | hm
    · exact hm.noReads
    · exact hm.noReads
    · cases hm
      exact .refl rfl

/-- A move of the send loop reads nothing, or one chunk that it packs. -/
theorem Outb.reads {c c' : Core} (h : Outb c c') :
    NoReads c c' ∨ ∃ seq d st bytes frame e, Packs c d st bytes frame ∧ c.pending d.streamId = 0 ∧ isRead e = false ∧
      c'.log = c.log ++ [.read seq d.streamId bytes] ++ [e] := by
  cases h with
  | openOwn st streams hid hw hd hp hi => exact .inl (.refl (by simp))
  | openOwnFailed st hid hi => exact .inl (.one (e := .insertFailed st.streamId) (by simp [Core.note]) rfl)
  | drop item e hh hd hc => exact .inl (.one (e := .finished item.seq (.dropped e)) rfl rfl)
  | activate item f frame hh ha hf hne => exact .inl (.one (e := .prepared item.seq frame) rfl rfl)
  | activateData item d st bytes frame hh ha hf hp =>
    exact .inr ⟨item.seq,d,st,bytes,frame,.prepared item.seq frame,hp,Core.pending_none ha _,rfl,rfl⟩
  | write item n ha hn =>
    refine .inl (.one (e := .sent ((c.framebuf.drop c.framebufoff).take n)) ?_ rfl)
    unfold Core.debit
    split
    · split <;> rfl
    · rfl
  | finish item cause ha hd hc => exact .inl (.one (e := .finished item.seq cause) rfl rfl)
  | «continue» item item' d st bytes frame ha hd hs hf hp =>
    exact .inr ⟨item.seq,d,st,bytes,frame,.prepared item'.seq frame,hp,Core.pending_done hd _,rfl,rfl⟩
  | _ => exact .inl (.refl rfl)

/-- What the send loop never changes. -/
def Core.terms (c : Core) : (Nat → Nat) × Bool × WindowArith × Bool × Bool :=
  (c.remoteSettings,c.flowControl,c.arith,c.ghost.stuck,c.ghost.oversize)

theorem Act.terms_eq {c c' : Core} (h : Act c c') : c'.terms = c.terms := by
  obtain ⟨_,_,_,_,_,_,_,rfl⟩ := h.frame
  rfl

theorem Outb.terms_eq {c c' : Core} (h : Outb c c') : c'.terms = c.terms := by
  obtain ⟨_,_,_,_,_,_,_,_,_,_,_,rfl⟩ := h.frame
  rfl

/-- What no move changes. -/
def Core.mode (c : Core) : Bool × WindowArith := (c.flowControl,c.arith)

theorem Inb.mode_eq {c c' : Core} (h : Inb c c') : c'.mode = c.mode := by
  obtain ⟨_,_,_,_,_,_,_,_,rfl⟩ := h.frame
  rfl

theorem SysSteps.mode_eq {c c' : Core} (h : SysSteps c c') : c'.mode = c.mode := by
  have hterms : ∀ {c c' : Core}, c'.terms = c.terms → c'.mode = c.mode :=
    fun ht => congrArg (fun t : (Nat → Nat) × Bool × WindowArith × Bool × Bool => (t.2.1,t.2.2.1)) ht
  induction h with
  | refl => rfl
  | tail _ hm ih =>
    refine Eq.trans ?_ ih
    cases hm with
    | act hm => exact hterms hm.terms_eq
    | inb hm => exact hm.mode_eq
    | rd hm =>
      cases hm
      rfl
    | outb hm => exact hterms hm.terms_eq
    | report e he =>
      rw [he]
      rfl

theorem run_mode (P : Platform) (u : Setup) (ops : List Op) :
    ((u.start P).run P ops).flowControl = decide (u.version = .spdy3) ∧
      ((u.start P).run P ops).windowArith = u.arith := by
  obtain ⟨g,hc⟩ := run_calls P (u.start P) ops
  have hm := hc.steps.mode_eq
  rw [core_start] at hm
  simpa [Core.mode,core,initialCore] using hm

theorem Core.Sound.of_terms {c c' : Core} (h : c.Sound) (ht : c'.terms = c.terms) : c'.Sound := by
  simp only [Core.terms,Prod.mk.injEq] at ht
  exact ⟨ht.2.2.1.trans h.arith,ht.2.1.trans h.flowControl,ht.2.2.2.1.trans h.stuck,ht.2.2.2.2.trans h.oversize⟩

/-- Every chunk read in the rest of the log fits what was granted when it was read. -/
def ReadsFit (remote : Int) (log new : List Event) : Prop :=
  ∀ pre seq id bytes post, new = pre ++ Event.read seq id bytes :: post →
    bytes.length ≤ dataPayloadLength ∧
      (bytes.length : Int) ≤ remote+raised id (log ++ pre)-begun id (log ++ pre)

theorem ReadsFit.append {remote : Int} {log new extra : List Event} (h : ReadsFit remote log new)
    (h' : ReadsFit remote (log ++ new) extra) : ReadsFit remote log (new ++ extra) := by
  intro pre seq id bytes post heq
  rcases List.append_eq_append_iff.mp heq with ⟨l,hpre,hex⟩ | ⟨l,hnew,hpost⟩
  · have hfit := h' l seq id bytes post hex
    rw [hpre,← List.append_assoc]
    exact hfit
  · cases l with
    | nil =>
      have hfit := h' [] seq id bytes post (by simpa using hpost.symm)
      rw [List.append_nil] at hfit hnew
      rw [← hnew]
      exact hfit
    | cons e l =>
      rw [List.cons_append,List.cons.injEq] at hpost
      exact h pre seq id bytes l (by rw [hnew,← hpost.1])

theorem ReadsFit.noReads {remote : Int} {log new : List Event} (h : ∀ e ∈ new, isRead e = false) :
    ReadsFit remote log new := by
  rintro pre seq id bytes post rfl
  have hx := h (.read seq id bytes) (by simp)
  cases hx

theorem ReadsFit.chunk {remote : Int} {log : List Event} {seq : Nat} {id : Int} {bytes : Bytes}
    (h : bytes.length ≤ dataPayloadLength ∧ (bytes.length : Int) ≤ remote+raised id log-begun id log) :
    ReadsFit remote log [.read seq id bytes] := by
  intro pre seq' id' bytes' post heq
  cases pre with
  | nil =>
    cases heq
    simpa using h
  | cons e pre => simp at heq

theorem OutSteps.readsFit {c c' : Core} (h : OutSteps c c') (hl : Ledger c) (hs : c.Sound) :
    Ledger c' ∧ c'.terms = c.terms ∧ ∃ new, c'.log = c.log ++ new ∧
      ReadsFit (c.remoteSettings settingsInitialWindowSize) c.log new := by
  induction h with
  | refl => exact ⟨hl,rfl,[],by simp,.noReads nofun⟩
  | tail _ hm ih =>
    rename_i c1 c2 _
    obtain ⟨hl1,ht1,new,hlog,hfit⟩ := ih
    have hl2 : Ledger c2 := hm.elim hl1.act hl1.outb
    have ht2 : c2.terms = c.terms := (hm.elim Act.terms_eq Outb.terms_eq).trans ht1
    refine ⟨hl2,ht2,?_⟩
    have hmove : NoReads c1 c2 ∨ ∃ seq d st bytes frame e, Packs c1 d st bytes frame ∧ c1.pending d.streamId = 0 ∧
        isRead e = false ∧ c2.log = c1.log ++ [.read seq d.streamId bytes] ++ [e] :=
      hm.elim (fun ha => .inl ha.noReads) Outb.reads
    rcases hmove with ⟨n,hn,hr⟩ | ⟨seq,d,st,bytes,frame,e,hp,hpend,he,hlog2⟩
    · exact ⟨new ++ n,by rw [hn,hlog,List.append_assoc],hfit.append (.noReads hr)⟩
    · have hb := hl1.packs (hs.of_terms ht1) hp hpend
      have hrem : c1.remoteSettings = c.remoteSettings := congrArg Prod.fst ht1
      rw [Core.granted,hrem,hlog] at hb
      refine ⟨new ++ ([.read seq d.streamId bytes] ++ [e]),by rw [hlog2,hlog]; simp,?_⟩
      exact hfit.append ((ReadsFit.chunk hb).append (.noReads (by simpa using he)))

end Spdylay.Machine

namespace Spdylay
open Machine Library

/-- In a SPDY/3 run without a fatal result so far, with windows read as unbounded
integers and initial windows below 2^31, every chunk that the next call packs for a
stream is at most 4096 bytes and at most the initial window, plus the accepted deltas,
less what has been begun on the stream. -/
theorem data_within_granted_window (P : Platform) (u : Setup) (ops : List Op) (op : Op) (hv : u.version = .spdy3)
    (ha : u.arith = .unbounded) (hn : ∀ e, Event.fatal e ∉ ((u.start P).run P ops).host.log)
    (ho : ∀ f e, Event.ctrlRecv (.settings f) ∈ ((u.start P).run P ops).host.log → e ∈ f.iv →
      e.settingsId = settingsInitialWindowSize → e.value < 2147483648) :
    let s := (u.start P).run P ops
    ∀ pre seq id bytes post, (s.step P op).host.log = s.host.log ++ pre ++ Event.read seq id bytes :: post →
      bytes.length ≤ 4096 ∧
        (bytes.length : Int) ≤ s.remoteSettings settingsInitialWindowSize+raised id (s.host.log ++ pre)-
          begun id (s.host.log ++ pre) := by
  intro s
  obtain ⟨g,hl,hg,hstuck,hover⟩ := ledger_invariant.run P u ops
  obtain ⟨hflow,harith⟩ := run_mode P u ops
  have hnf : ¬Failed s.host.log := fun ⟨e,he⟩ => hn e he
  have hsound : (core s g).Sound := by
    refine ⟨harith.trans ha,hflow.trans (by simp [hv]),?_,?_⟩
    · exact Bool.eq_false_iff.mpr (fun hx => hnf (hstuck hx))
    · refine Bool.eq_false_iff.mpr (fun hx => (hover hx).elim hnf ?_)
      rintro ⟨f,e,hf,he,hid,hval⟩
      exact absurd (ho f e hf he hid) (not_lt.mpr hval)
  -- the events of the call itself
  have hcall : ∃ new, (s.call P op).1.host.log = s.host.log ++ new ∧
      ReadsFit (s.remoteSettings settingsInitialWindowSize) s.host.log new := by
    by_cases hsend : op = .send
    · subst hsend
      exact (OutSteps.readsFit (sendLoop_steps P s.sendFuel s hg) hl hsound).2.2
    · have hnone : ∀ g', NoReads (core s g) (core (s.call P op).1 g') →
          ∃ new, (s.call P op).1.host.log = s.host.log ++ new ∧
            ReadsFit (s.remoteSettings settingsInitialWindowSize) s.host.log new :=
        fun g' ⟨new,hnew,hr⟩ => ⟨new,hnew,.noReads hr⟩
      by_cases hrecv : ∃ input, op = .memRecv input
      · obtain ⟨input,rfl⟩ := hrecv
        obtain ⟨g',hr⟩ := recvLoop_reads P (Session.recvFuel input) s input g
        exact hnone g' hr.steps.noReads
      · exact hnone g (submission_steps P s op g hsend (not_exists.mp hrecv)).inSteps.readSteps.noReads
  obtain ⟨new,hnew,hfit⟩ := hcall
  -- and the report of its result
  have hstep : ∃ last, (s.step P op).host.log = s.host.log ++ (new ++ last) ∧ ∀ e ∈ last, isRead e = false := by
    unfold Session.step
    dsimp only
    split
    · rename_i e he
      split
      · refine ⟨[.fatal e],?_,by simp [isRead]⟩
        change (s.call P op).1.host.log ++ [.fatal e] = _
        rw [hnew,List.append_assoc]
      · exact ⟨[],by rw [hnew,List.append_nil],nofun⟩
    · exact ⟨[],by rw [hnew,List.append_nil],nofun⟩
  obtain ⟨last,hlast,hnr⟩ := hstep
  intro pre seq id bytes post heq
  rw [hlast,List.append_assoc,List.append_cancel_left_eq] at heq
  exact (hfit.append (.noReads hnr)) pre seq id bytes post heq

/-- A request with a body, before it is sent. -/
def queuedUpload : Session :=
  ((sampleClient .unbounded [.accept 1000] [.data [1,2,3,4,5] false]).start samplePlatform).run samplePlatform
    [.submitRequest 0 [] (some 0)]

/-- The first chunk of the body, read after six events of the SYN_STREAM. -/
theorem first_chunk_within_window :
    let new := (queuedUpload.step samplePlatform .send).host.log.drop queuedUpload.host.log.length
    new = new.take 6 ++ .read 1 1 [1,2,3,4,5] :: new.drop 7 ∧
      (5 : Int) ≤ queuedUpload.remoteSettings settingsInitialWindowSize+raised 1 (queuedUpload.host.log ++ new.take 6)-
        begun 1 (queuedUpload.host.log ++ new.take 6) := by
  intro new
  have hnew : (queuedUpload.step samplePlatform .send).host.log =
      queuedUpload.host.log ++ new.take 6 ++ .read 1 1 [1,2,3,4,5] :: new.drop 7 := by decide +kernel
  have hlog : queuedUpload.host.log = [.accepted ⟨.ctrl (.synStream ⟨⟨3,0,0⟩,0,0,0,0,[]⟩),some 0,0,0⟩] := by
    decide +kernel
  refine ⟨by decide +kernel,?_⟩
  refine (data_within_granted_window samplePlatform (sampleClient .unbounded [.accept 1000] [.data [1,2,3,4,5] false])
    [.submitRequest 0 [] (some 0)] .send rfl rfl ?_ ?_ (new.take 6) 1 1 [1,2,3,4,5] (new.drop 7) hnew).2
  · intro e he
    change Event.fatal e ∈ queuedUpload.host.log at he
    rw [hlog] at he
    simp at he
  · intro f e hf
    change Event.ctrlRecv (.settings f) ∈ queuedUpload.host.log at hf
    rw [hlog] at hf
    simp at hf

end Spdylay
