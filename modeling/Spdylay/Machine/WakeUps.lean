import Spdylay.Machine.Assertions
import Spdylay.Machine.StreamCounters

/-! No lost wake-up: a DATA item that waits for its stream's window waits only while
the window is not positive. -/
namespace Spdylay.Machine
open Library

/-- What waits for the window has reason to. -/
def Waiting (st : Stream) : Prop := st.deferredData.isSome → st.deferredFlowControl = true → st.windowSize ≤ 0

def EveryStream (c : Core) (Q : Stream → Prop) : Prop := ∀ id st, c.streams.find id = some st → Q st

structure Woken (c : Core) : Prop where
  waiting : c.ghost.stuck = false → EveryStream c Waiting
  active : ∀ item d st, c.active = some item → item.frame = .data d → c.streams.find d.streamId = some st →
    st.deferredData = none

theorem EveryStream.modify {c : Core} {Q : Stream → Prop} (h : EveryStream c Q) {streamId : Int} {f : Stream → Stream}
    {hf} (hq : ∀ st, c.streams.find streamId = some st → Q st → Q (f st)) :
    EveryStream (c.modifyStream streamId f hf) Q := by
  intro id st hst
  rw [Core.find_modifyStream] at hst
  split at hst
  · rename_i hid
    subst hid
    obtain ⟨st',hst',rfl⟩ := Option.map_eq_some_iff.mp hst
    exact hq st' hst' (h _ _ hst')
  · exact h _ _ hst

/-- The active item's stream under a change that defers nothing. -/
theorem active_modify {c : Core} (h : Woken c) {streamId : Int} {f : Stream → Stream} {hf}
    (hq : ∀ st, st.deferredData = none → (f st).deferredData = none) (item : OutboundItem) (d : DataFrame) (st : Stream)
    (ha : c.active = some item) (hd : item.frame = .data d)
    (hst : (c.modifyStream streamId f hf).streams.find d.streamId = some st) : st.deferredData = none := by
  rw [Core.find_modifyStream] at hst
  split at hst
  · obtain ⟨st',hst',rfl⟩ := Option.map_eq_some_iff.mp hst
    exact hq st' (h.active item d st' ha hd hst')
  · exact h.active item d st ha hd hst

theorem Woken.restate {c : Core} (h : Woken c) {streamId : Int} {f : Stream → Stream} (hf : Restates f) :
    Woken (c.modifyStream streamId f hf.streamId) := by
  refine ⟨fun hs => (h.waiting hs).modify ?_,active_modify h ?_⟩
  · intro st _ hw
    unfold Waiting
    rw [hf.deferredData,hf.deferredFlowControl,hf.windowSize]
    exact hw
  · intro st hn
    rw [hf.deferredData]
    exact hn

theorem Woken.detach {c : Core} (h : Woken c) (streamId : Int) : Woken (c.detach streamId) :=
  ⟨fun hs => (h.waiting hs).modify (fun _ _ _ hx => by cases hx),active_modify h (fun _ _ => rfl)⟩

/-- Changes outside the streams and the active slot. -/
theorem Woken.congr {c c' : Core} (h : Woken c) (hs : c'.streams = c.streams) (ha : c'.active = c.active)
    (hg : c'.ghost.stuck = c.ghost.stuck) : Woken c' := by
  refine ⟨?_,?_⟩
  · intro hk
    unfold EveryStream
    rw [hs]
    exact h.waiting (hg ▸ hk)
  · rw [hs,ha]
    exact h.active

theorem Woken.closed {c : Core} (h : Woken c) (st : Stream) : Woken (c.close st) := by
  have hstreams : (c.close st).streams = c.streams.remove st.streamId := by
    unfold Core.close Core.freeDeferred
    split <;> rfl
  have hactive : (c.close st).active = c.active := by
    unfold Core.close Core.freeDeferred Core.countClosed
    cases st.deferredData <;> cases Core.isMine c.server st.streamId <;> rfl
  have hstuck : (c.close st).ghost = c.ghost := by
    unfold Core.close Core.freeDeferred Core.countClosed
    cases st.deferredData <;> cases Core.isMine c.server st.streamId <;> rfl
  have hfind : ∀ id st', (c.close st).streams.find id = some st' → c.streams.find id = some st' := by
    intro id st' hst
    rw [hstreams,OrderedTable.find_remove] at hst
    split at hst
    · cases hst
    · exact hst
  refine ⟨fun hs id st' hst => h.waiting (hstuck ▸ hs) id st' (hfind id st' hst),?_⟩
  intro item d st' ha hd hst
  exact h.active item d st' (hactive ▸ ha) hd (hfind _ _ hst)

theorem Woken.act {c c' : Core} (hm : Act c c') (h : Woken c) : Woken c' := by
  cases hm with
  | note e he => exact h.congr rfl rfl rfl
  | accept item hs =>
    unfold Core.enqueue
    split
    · exact h.congr rfl rfl rfl
    · exact h.congr rfl rfl rfl
  | skipSeq => exact h.congr rfl rfl rfl
  | restate streamId f hf => exact h.restate hf
  | close streamId st hst => exact h.closed st
  | resume streamId st item hst hi => exact (h.detach streamId).congr rfl rfl rfl

/-! Window changes. -/

/-- Whatever the new window, nothing is left waiting without reason. -/
theorem settled_waiting (f : Int → Int) (st : Stream) : Waiting (settled f st) := by
  unfold settled
  split
  · exact fun hd => by cases hd
  · rename_i hn
    exact fun hd hfc => not_lt.mp (fun hw => hn ⟨hd,hw,hfc⟩)

theorem Woken.rewindow {c : Core} (h : Woken c) (streamId : Int) (f : Int → Int) : Woken (c.rewindow streamId f) := by
  obtain ⟨streams,obPq,he⟩ := c.rewindow_frame streamId f
  have hactive : (c.rewindow streamId f).active = c.active := by rw [he]
  have hghost : (c.rewindow streamId f).ghost = c.ghost := by rw [he]
  refine ⟨?_,?_⟩
  · intro hs id st hst
    rw [hghost] at hs
    rw [Core.find_rewindow] at hst
    split at hst
    · obtain ⟨st',hst',rfl⟩ := Option.map_eq_some_iff.mp hst
      exact settled_waiting f st'
    · exact h.waiting hs id st hst
  · intro item d st ha hd hst
    rw [hactive] at ha
    rw [Core.find_rewindow] at hst
    split at hst
    · obtain ⟨st',hst',rfl⟩ := Option.map_eq_some_iff.mp hst
      exact settled_free (h.active item d st' ha hd hst')
    · exact h.active item d st ha hd hst

theorem Woken.rebase {c : Core} (h : Woken c) (value : Nat) : Woken (c.rebase value) := by
  obtain ⟨streams,obPq,he⟩ := c.rebase_frame value
  have hactive : (c.rebase value).active = c.active := by rw [he]; rfl
  refine ⟨?_,?_⟩
  · intro hs id st hst
    rw [Core.find_rebase] at hst
    obtain ⟨st',hst',rfl⟩ := Option.map_eq_some_iff.mp hst
    exact settled_waiting _ st'
  · intro item d st ha hd hst
    rw [hactive] at ha
    rw [Core.find_rebase] at hst
    obtain ⟨st',hst',rfl⟩ := Option.map_eq_some_iff.mp hst
    exact settled_free (h.active item d st' ha hd hst')

/-- A new stream defers nothing. -/
theorem Woken.opened {c c1 : Core} (h : Woken c) {st : Stream} {streams} (hi : c.streams.insert st = some streams)
    (hd : st.deferredData = none) (hs : c1.streams = streams) (ha : c1.active = c.active)
    (hg : c1.ghost.stuck = c.ghost.stuck) (id : Int) : Woken (c1.countOpened id) := by
  have hstreams : (c1.countOpened id).streams = streams := by
    unfold Core.countOpened
    split <;> exact hs
  have hactive : (c1.countOpened id).active = c.active := by
    unfold Core.countOpened
    split <;> exact ha
  have hstuck : (c1.countOpened id).ghost.stuck = c.ghost.stuck := by
    unfold Core.countOpened
    split <;> exact hg
  refine ⟨?_,?_⟩
  · intro hk id' st' hst
    rw [hstuck] at hk
    rw [hstreams,OrderedTable.find_insert hi] at hst
    split at hst
    · cases hst
      intro hx
      rw [hd] at hx
      cases hx
    · exact h.waiting hk id' st' hst
  · intro item d st' hact hf hst
    rw [hactive] at hact
    rw [hstreams,OrderedTable.find_insert hi] at hst
    split at hst
    · cases hst
      exact hd
    · exact h.active item d st' hact hf hst

theorem Woken.counted {c : Core} (h : Woken c) (id : Int) : Woken (c.countOpened id) := by
  unfold Core.countOpened
  split
  · exact h.congr rfl rfl rfl
  · exact h.congr rfl rfl rfl

theorem Woken.inb {c c' : Core} (hm : Inb c c') (h : Woken c) : Woken c' := by
  have hstuck : ∀ streamId (f : Int → Int), ∀ item d st, (c.setWindow streamId f).active = some item →
      item.frame = .data d → (c.setWindow streamId f).streams.find d.streamId = some st → st.deferredData = none :=
    fun streamId f => active_modify h (fun _ hn => hn)
  cases hm with
  | seePeer streamId hn => exact h.congr rfl rfl rfl
  | openPeer st streams hn hw hd hp hi => refine h.opened hi hd ?_ ?_ ?_ _ <;> rfl
  | openPeerFailed st hn hi => refine Woken.counted (h.congr ?_ ?_ ?_) _ <;> rfl
  | raise streamId delta st hst => exact (h.rewindow streamId _).congr rfl rfl rfl
  | raiseStuck streamId delta st hst => exact ⟨(absurd · nofun),hstuck streamId (fun w => c.arith.store (w+delta))⟩
  | rebase value hf hv => exact h.rebase value
  | rebaseStuck streamId f => exact ⟨(absurd · nofun),hstuck streamId f⟩
  | setRemote id value hid => exact h.congr rfl rfl rfl
  | setOversize value hv => exact h.congr rfl rfl rfl

/-! Sending. -/

theorem Woken.emptied {c c' : Core} (h : Woken c) (hs : c'.streams = c.streams) (ha : c'.active = none)
    (hg : c'.ghost.stuck = c.ghost.stuck) : Woken c' := by
  refine ⟨?_,?_⟩
  · intro hk
    unfold EveryStream
    rw [hs]
    exact h.waiting (hg ▸ hk)
  · intro item d st hx
    rw [ha] at hx
    cases hx

/-- A DATA item becomes active in a stream that defers nothing. -/
theorem Woken.activated {c c' : Core} (h : Woken c) {item : OutboundItem} {d : DataFrame} {st : Stream}
    {bytes frame : Bytes} (hd : item.frame = .data d) (hp : Packs c d st bytes frame) (hs : c'.streams = c.streams)
    (ha : c'.active = some item) (hg : c'.ghost.stuck = c.ghost.stuck) : Woken c' := by
  refine ⟨?_,?_⟩
  · intro hk
    unfold EveryStream
    rw [hs]
    exact h.waiting (hg ▸ hk)
  · intro item' d' st' ha' hd' hst
    rw [ha] at ha'
    cases ha'
    rw [hd] at hd'
    cases hd'
    rw [hs,hp.find] at hst
    cases hst
    exact hp.free

theorem Woken.parked {c c' : Core} (h : Woken c) {d : DataFrame} {st : Stream} {fc : Bool} (item : OutboundItem)
    (hp : Parks c d st fc) (hs : c'.streams = (c.park d.streamId item fc).streams) (ha : c'.active = none)
    (hg : c'.ghost.stuck = c.ghost.stuck) : Woken c' := by
  refine ⟨?_,?_⟩
  · intro hk
    have hw : EveryStream (c.park d.streamId item fc) Waiting := by
      refine (h.waiting (hg ▸ hk)).modify ?_
      intro st' hst' _ _ hfc
      rw [hp.find] at hst'
      cases hst'
      exact hp.window hfc
    unfold EveryStream
    rw [hs]
    exact hw
  · intro item d st hx
    rw [ha] at hx
    cases hx

theorem Woken.written {c : Core} (h : Woken c) {item : OutboundItem} (n : Nat) (ha : c.active = some item) :
    Woken ((c.write n).debit item) := by
  have hw : Woken (c.write n) := h.congr rfl rfl rfl
  unfold Core.debit
  split
  · rename_i d hd
    split
    · refine ⟨fun hs => (hw.waiting hs).modify ?_,active_modify hw (fun _ hn => hn)⟩
      -- the stream of the active item defers nothing
      intro st hst _ hx
      have hfree : st.deferredData = none := h.active item d st ha hd hst
      dsimp only at hx
      rw [hfree] at hx
      cases hx
    · exact hw
  · exact hw

theorem Woken.outb {c c' : Core} (hm : Outb c c') (h : Woken c) : Woken c' := by
  cases hm with
  | takeId => exact h.congr rfl rfl rfl
  | openOwn st streams hid hw hd hp hi => refine h.opened hi hd ?_ ?_ ?_ _ <;> rfl
  | openOwnFailed st hid hi => refine Woken.counted (h.congr ?_ ?_ ?_) _ <;> rfl
  | pop item rest ha hg hq => exact h.congr rfl rfl rfl
  | popSyn item rest ha hg hq => exact h.congr rfl rfl rfl
  | retouch item item' hg hs => exact h.congr rfl rfl rfl
  | drop item e hg hd hc => exact h.congr rfl rfl rfl
  | requeue item hg hs => exact h.congr rfl rfl rfl
  | defer item d st fc hg ha hd hp => exact h.parked item hp rfl ha rfl
  | activate item f frame hg ha hf hne =>
    refine ⟨h.waiting,?_⟩
    intro item' d st ha' hd
    cases ha'
    rw [hf] at hd
    cases hd
  | activateData item d st bytes frame hg ha hd hp => exact h.activated hd hp rfl rfl rfl
  | write item n ha hn => exact h.written n ha
  | finish item cause ha hl hc => exact h.emptied rfl rfl rfl
  | parkActive item item' d st fc ha hl hs hd hp => exact h.parked item' hp rfl rfl rfl
  | requeueActive item ha hl hs => exact h.emptied rfl rfl rfl
  | «continue» item item' d st bytes frame ha hl hs hd hp => exact h.activated hd hp rfl rfl rfl

theorem woken_invariant : Invariant Woken where
  start P u := by
    constructor
    · intro _ id st hst
      cases hst
    · intro item d st hx
      cases hx
  act _ _ := Woken.act
  inb _ _ := Woken.inb
  read _ _ _ h := h.congr rfl rfl rfl
  outb _ _ := Woken.outb
  report _ _ h := h.congr rfl rfl rfl

/-! Where a waiting item goes while frames are received. -/

/-- The item waits for the window of the stream, is queued, or the stream is closed. -/
def WaitsOrQueued (streamId : Int) (item : OutboundItem) (c : Core) : Prop :=
  (∃ st, c.streams.find streamId = some st ∧ st.deferredData = some item ∧ st.deferredFlowControl = true) ∨
    item ∈ c.obPq ∨ c.streams.find streamId = none

/-- A closed stream is not opened again. -/
theorem not_newPeerId_mono {c c' : Core} {streamId : Int} (hs : c'.server = c.server)
    (hl : c.lastRecvStreamId ≤ c'.lastRecvStreamId) (h : ¬NewPeerId c streamId) : ¬NewPeerId c' streamId := by
  rintro ⟨hzero,hpeer,hlt⟩
  rw [hs] at hpeer
  exact h ⟨hzero,hpeer,by omega⟩

theorem not_newPeerId_act {c c' : Core} {streamId : Int} (hm : Act c c') (h : ¬NewPeerId c streamId) :
    ¬NewPeerId c' streamId := by
  obtain ⟨nextSeq,streams,numOutgoing,numIncoming,obPq,obSsPq,log,hframe⟩ := hm.frame
  rw [hframe]
  exact h

theorem not_newPeerId_inb {c c' : Core} {streamId : Int} (hm : Inb c c') (h : ¬NewPeerId c streamId) :
    ¬NewPeerId c' streamId := by
  have hrewindow : ∀ (id : Int) (f : Int → Int), ¬NewPeerId (c.rewindow id f) streamId := by
    intro id f
    obtain ⟨streams,obPq,he⟩ := c.rewindow_frame id f
    rw [he]
    exact h
  have hcounted : ∀ (c1 : Core) (id : Int), ¬NewPeerId c1 streamId → ¬NewPeerId (c1.countOpened id) streamId := by
    intro c1 id h1
    unfold Core.countOpened
    split <;> exact h1
  cases hm with
  | seePeer id hn => exact not_newPeerId_mono (c := c) rfl hn.2.2.le h
  | openPeer st streams hn hw hd hp hi => exact hcounted _ _ (not_newPeerId_mono (c := c) rfl hn.2.2.le h)
  | openPeerFailed st hn hi => exact hcounted _ _ (not_newPeerId_mono (c := c) rfl hn.2.2.le h)
  | raise id delta st hst => exact hrewindow id _
  | raiseStuck id delta st hst => exact h
  | rebase value hf hv =>
    obtain ⟨streams,obPq,he⟩ := c.rebase_frame value
    rw [he]
    exact h
  | rebaseStuck id f => exact h
  | setRemote id value hid => exact h
  | setOversize value hv => exact h

theorem Core.find_modifyStream_eq_none (c : Core) (id : Int) (f : Stream → Stream) (hf) (streamId : Int) :
    (c.modifyStream id f hf).streams.find streamId = none ↔ c.streams.find streamId = none := by
  rw [Core.find_modifyStream]
  split
  · exact Option.map_eq_none_iff
  · exact Iff.rfl

theorem WaitsOrQueued.mono {streamId : Int} {item : OutboundItem} {c c' : Core} (h : WaitsOrQueued streamId item c)
    (hs : ∀ st, c.streams.find streamId = some st → st.deferredData = some item → st.deferredFlowControl = true →
      WaitsOrQueued streamId item c')
    (hq : item ∈ c.obPq → item ∈ c'.obPq)
    (hn : c.streams.find streamId = none → c'.streams.find streamId = none) : WaitsOrQueued streamId item c' := by
  rcases h with ⟨st,hst,hd,hf⟩ | h | h
  · exact hs st hst hd hf
  · exact .inr (.inl (hq h))
  · exact .inr (.inr (hn h))

theorem WaitsOrQueued.keep {streamId : Int} {item : OutboundItem} {c c' : Core} (h : WaitsOrQueued streamId item c)
    (hs : c'.streams = c.streams) (hq : item ∈ c.obPq → item ∈ c'.obPq) : WaitsOrQueued streamId item c' :=
  h.mono (fun st hst hd hf => .inl ⟨st,hs ▸ hst,hd,hf⟩) hq (fun hn => hs ▸ hn)

theorem WaitsOrQueued.act {streamId : Int} {item : OutboundItem} {c c' : Core} (hm : Act c c')
    (h : WaitsOrQueued streamId item c) : WaitsOrQueued streamId item c' := by
  cases hm with
  | note e he => exact h.keep rfl id
  | accept it hs =>
    refine h.keep ?_ ?_
    · unfold Core.enqueue
      split <;> rfl
    · intro hq
      unfold Core.enqueue
      split
      · exact hq
      · exact Multiset.mem_cons_of_mem hq
  | skipSeq => exact h.keep rfl id
  | restate id f hf =>
    refine h.mono ?_ (fun hq => hq) ?_
    · intro st hst hd hfc
      by_cases hid : id = streamId
      · refine .inl ⟨f st,?_,(hf.deferredData st).trans hd,(hf.deferredFlowControl st).trans hfc⟩
        rw [Core.find_modifyStream,if_pos hid,hst]
        rfl
      · refine .inl ⟨st,?_,hd,hfc⟩
        rw [Core.find_modifyStream,if_neg hid,hst]
    · exact (c.find_modifyStream_eq_none id f hf.streamId streamId).mpr
  | close id st' hst' =>
    have hkey : st'.streamId = id := OrderedTable.find_key hst'
    have hr : (c.close st').streams = c.streams.remove st'.streamId := by
      unfold Core.close Core.freeDeferred
      split <;> rfl
    refine h.mono ?_ ?_ ?_
    · intro st hst hd hfc
      by_cases hid : id = streamId
      · refine .inr (.inr ?_)
        rw [hr,OrderedTable.find_remove,hkey,if_pos hid]
      · refine .inl ⟨st,?_,hd,hfc⟩
        rw [hr,OrderedTable.find_remove,hkey,if_neg hid]
        exact hst
    · intro hq
      unfold Core.close Core.freeDeferred Core.countClosed
      cases st'.deferredData <;> cases Core.isMine c.server st'.streamId <;> exact hq
    · intro hn
      rw [hr,OrderedTable.find_remove,hn,ite_self]
  | resume id st' it hst' hi =>
    refine h.mono ?_ (fun hq => Multiset.mem_cons_of_mem hq) ?_
    · intro st hst hd hfc
      by_cases hid : id = streamId
      · rw [← hid,hst'] at hst
        cases hst
        rw [hi] at hd
        cases hd
        exact .inr (.inl (Multiset.mem_cons_self _ _))
      · refine .inl ⟨st,?_,hd,hfc⟩
        dsimp only
        rw [Core.detach,Core.find_modifyStream,if_neg hid]
        exact hst
    · intro hn
      dsimp only
      rw [Core.detach]
      exact (c.find_modifyStream_eq_none id _ _ streamId).mpr hn

/-- A window change releases the item or leaves it waiting. -/
theorem WaitsOrQueued.rewindow {streamId : Int} {item : OutboundItem} {c : Core} (h : WaitsOrQueued streamId item c)
    (id : Int) (f : Int → Int) : WaitsOrQueued streamId item (c.rewindow id f) := by
  have hqueue : ∀ it ∈ c.obPq, it ∈ (c.rewindow id f).obPq := by
    intro it hq
    unfold Core.rewindow Core.release
    split
    · exact Multiset.mem_cons_of_mem hq
    · exact hq
  have hnone : c.streams.find streamId = none → (c.rewindow id f).streams.find streamId = none := by
    intro hn
    rw [Core.find_rewindow,hn]
    split <;> rfl
  refine h.mono ?_ (hqueue item) hnone
  intro st hst hd hfc
  by_cases hid : id = streamId
  · by_cases hw : 0 < f st.windowSize
    · refine .inr (.inl ?_)
      have hr : (c.setWindow id f).released id = some item := by
        unfold Core.released
        rw [Core.setWindow,Core.find_modifyStream,if_pos rfl,hid,hst]
        dsimp only [Option.map_some]
        rw [if_pos ⟨hw,hfc⟩]
        exact hd
      unfold Core.rewindow Core.release
      rw [hr]
      exact Multiset.mem_cons_self _ _
    · refine .inl ⟨settled f st,?_,?_,?_⟩
      · rw [Core.find_rewindow,if_pos hid,hst]
        rfl
      · rw [settled,if_neg (fun hx => hw hx.2.1)]
        exact hd
      · rw [settled,if_neg (fun hx => hw hx.2.1)]
        exact hfc
  · refine .inl ⟨st,?_,hd,hfc⟩
    rw [Core.find_rewindow,if_neg hid]
    exact hst

theorem WaitsOrQueued.setWindow {streamId : Int} {item : OutboundItem} {c : Core} (h : WaitsOrQueued streamId item c)
    (id : Int) (f : Int → Int) : WaitsOrQueued streamId item (c.setWindow id f) := by
  refine h.mono ?_ (fun hq => hq) (c.find_modifyStream_eq_none id _ _ streamId).mpr
  intro st hst hd hfc
  by_cases hid : id = streamId
  · refine .inl ⟨{st with windowSize := f st.windowSize},?_,hd,hfc⟩
    rw [Core.setWindow,Core.find_modifyStream,if_pos hid,hst]
    rfl
  · refine .inl ⟨st,?_,hd,hfc⟩
    rw [Core.setWindow,Core.find_modifyStream,if_neg hid]
    exact hst

theorem WaitsOrQueued.opened {streamId : Int} {item : OutboundItem} {c c1 : Core} (h : WaitsOrQueued streamId item c)
    {st : Stream} {streams} (hi : c.streams.insert st = some streams) (hs : c1.streams = streams)
    (hq : c1.obPq = c.obPq) (hne : st.streamId ≠ streamId) (id : Int) :
    WaitsOrQueued streamId item (c1.countOpened id) := by
  have hstreams : (c1.countOpened id).streams = streams := by
    unfold Core.countOpened
    split <;> exact hs
  have hqueue : (c1.countOpened id).obPq = c.obPq := by
    unfold Core.countOpened
    split <;> exact hq
  have hfind : (c1.countOpened id).streams.find streamId = c.streams.find streamId := by
    rw [hstreams,OrderedTable.find_insert hi,if_neg hne]
  refine h.mono ?_ (by rw [hqueue]; exact fun hx => hx) (fun hn => hfind.trans hn)
  intro st' hst hd hfc
  exact .inl ⟨st',hfind.trans hst,hd,hfc⟩

theorem WaitsOrQueued.rewindows {streamId : Int} {item : OutboundItem} (f : Int → Int) (ids : List Int) {c : Core}
    (h : WaitsOrQueued streamId item c) :
    WaitsOrQueued streamId item (ids.foldl (fun c' id => c'.rewindow id f) c) := by
  induction ids generalizing c with
  | nil => exact h
  | cons id ids ih => exact ih (h.rewindow id f)

theorem WaitsOrQueued.inb {streamId : Int} {item : OutboundItem} {c c' : Core} (hm : Inb c c')
    (hnew : ¬NewPeerId c streamId) (h : WaitsOrQueued streamId item c) : WaitsOrQueued streamId item c' := by
  cases hm with
  | seePeer id hn => exact h.keep rfl (fun hq => hq)
  | openPeer st streams hn hw hd hp hi =>
    have hne : st.streamId ≠ streamId := by
      rintro rfl
      exact hnew hn
    refine h.opened hi ?_ ?_ hne _ <;> rfl
  | openPeerFailed st hn hi =>
    refine h.keep ?_ ?_
    · unfold Core.countOpened
      split <;> rfl
    · intro hq
      unfold Core.countOpened
      split <;> exact hq
  | raise id delta st hst => exact (h.rewindow id _).keep rfl (fun hq => hq)
  | raiseStuck id delta st hst => exact (h.setWindow id (fun w => c.arith.store (w+delta))).keep rfl (fun hq => hq)
  | rebase value hf hv => exact (h.rewindows (c.rebased value) _).keep rfl (fun hq => hq)
  | rebaseStuck id f => exact (h.setWindow id f).keep rfl (fun hq => hq)
  | setRemote id value hid => exact h.keep rfl (fun hq => hq)
  | setOversize value hv => exact h.keep rfl (fun hq => hq)

theorem WaitsOrQueued.readSteps {streamId : Int} {item : OutboundItem} {c c' : Core} (hs : ReadSteps c c')
    (hnew : ¬NewPeerId c streamId) (h : WaitsOrQueued streamId item c) :
    ¬NewPeerId c' streamId ∧ WaitsOrQueued streamId item c' := by
  induction hs with
  | refl => exact ⟨hnew,h⟩
  | tail _ hm ih =>
    obtain ⟨hnew,h⟩ := ih
    rcases hm with hm | hm | hm
    · exact ⟨not_newPeerId_act hm hnew,h.act hm⟩
    · exact ⟨not_newPeerId_inb hm hnew,h.inb hm hnew⟩
    · cases hm
      exact ⟨hnew,h.keep rfl (fun hq => hq)⟩

end Spdylay.Machine

namespace Spdylay
open Machine Library

/-- In every run without a fatal result a stream that holds a DATA item deferred for
flow control has no window, and when received frames have given it one the item is
back in the queue. -/
theorem flow_control_wakes_deferred_data (P : Platform) (u : Setup) (ops : List Op)
    (h : ∀ e, Event.fatal e ∉ ((u.start P).run P ops).host.log) :
    let s := (u.start P).run P ops
    (∀ st ∈ s.streams.entries, st.deferredData.isSome → st.deferredFlowControl = true → st.windowSize ≤ 0) ∧
      ∀ input st st' item, s.getStream st.streamId = some st → st.deferredData = some item →
        st.deferredFlowControl = true → (∀ e, Event.fatal e ∉ (s.step P (.memRecv input)).host.log) →
        (s.step P (.memRecv input)).getStream st.streamId = some st' → 0 < st'.windowSize →
        item ∈ (s.step P (.memRecv input)).obPq.q := by
  have hwait : ∀ ops : List Op, (∀ e, Event.fatal e ∉ ((u.start P).run P ops).host.log) →
      ∀ id st, ((u.start P).run P ops).streams.find id = some st → Waiting st := by
    intro ops h id st hst
    obtain ⟨g,hw,-,hstuck,-⟩ := woken_invariant.run P u ops
    have hg : g.stuck = false := by
      rw [← Bool.not_eq_true]
      intro hx
      obtain ⟨e,he⟩ := hstuck hx
      exact h e he
    exact hw.waiting hg id st hst
  intro s
  refine ⟨fun st hst => hwait ops h st.streamId st (OrderedTable.find_eq_some.mpr ⟨hst,rfl⟩),?_⟩
  intro input st st' item hst hd hfc hn hst' hpos
  have hw' : Waiting st' := by
    refine hwait (ops ++ [.memRecv input]) ?_ st.streamId st' ?_
    · rw [run_append_singleton]
      exact hn
    · rw [run_append_singleton]
      exact hst'
  -- the item as the receive loop leaves it
  obtain ⟨g,hr⟩ := recvLoop_reads P (Session.recvFuel input) s input cleanGhost
  have hnew : ¬NewPeerId (core s cleanGhost) st.streamId := by
    obtain ⟨g',hc,-⟩ := counted_invariant.run P u ops
    exact fun hx => hc.peer_fresh hx (List.mem_map.mpr ⟨st,(OrderedTable.find_eq_some.mp hst).1,rfl⟩)
  have hgo : WaitsOrQueued st.streamId item (core (s.call P (.memRecv input)).1 g) :=
    (WaitsOrQueued.readSteps hr.steps hnew (.inl ⟨st,hst,hd,hfc⟩)).2
  rw [step_eq_call hn] at hst' ⊢
  rcases hgo with ⟨st2,hst2,hd2,hf2⟩ | hq | hl
  · have heq : st2 = st' := Option.some.inj (hst2.symm.trans hst')
    subst heq
    have hle := hw' (by rw [hd2]; rfl) hf2
    omega
  · exact Multiset.mem_coe.mp hq
  · cases hl.symm.trans hst'

/-- The peer closes all windows, then a request with a body is sent. -/
def stalledUpload : List Op :=
  [.memRecv [128,3,0,4,0,0,0,12,0,0,0,1,0,0,0,7,0,0,0,0],.submitRequest 0 [] (some 0),.send]

def stalledSession : Session :=
  ((sampleClient .int32 [.accept 1000] []).start samplePlatform).run samplePlatform stalledUpload

/-- The body waits for the window, and a WINDOW_UPDATE of 10 bytes queues it again. -/
theorem stalled_upload_wakes :
    let item : OutboundItem := ⟨.data ⟨1,1,false,0⟩,none,0,1⟩
    let st : Stream := ⟨1,.opening,0,0,false,false,[],some item,true,0,0⟩
    let update := Op.memRecv [128,3,0,9,0,0,0,8,0,0,0,1,0,0,0,10]
    stalledSession.getStream 1 = some st ∧ st.windowSize ≤ 0 ∧
      item ∈ (stalledSession.step samplePlatform update).obPq.q := by
  intro item st update
  have hst : stalledSession.getStream 1 = some st := by decide +kernel
  have hnone : ∀ e, Event.fatal e ∉ stalledSession.host.log := by
    have hf : failures stalledSession.host.log = [] := by decide +kernel
    intro e he
    rw [← mem_failures,hf] at he
    cases he
  have hnone' : ∀ e, Event.fatal e ∉ (stalledSession.step samplePlatform update).host.log := by
    have hf : failures (stalledSession.step samplePlatform update).host.log = [] := by decide +kernel
    intro e he
    rw [← mem_failures,hf] at he
    cases he
  have hst' : (stalledSession.step samplePlatform update).getStream 1 =
      some ⟨1,.opening,0,0,false,false,[],none,false,10,0⟩ := by decide +kernel
  obtain ⟨hwait,hwake⟩ := flow_control_wakes_deferred_data samplePlatform _ stalledUpload hnone
  exact ⟨hst,hwait st (OrderedTable.find_eq_some.mp hst).1 rfl rfl,
    hwake _ st _ item hst rfl rfl hnone' hst' (by norm_num)⟩

end Spdylay
