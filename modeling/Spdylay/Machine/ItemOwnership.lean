import Spdylay.Machine.Assertions

/-! Every accepted outbound item has one owner until it is finished. Items are
told apart by the sequence number they are accepted with. What is written is accounted
for, so that the end of an item can be checked against its frames. -/
namespace Spdylay.Machine
open Library

def acceptedSeq : Event → Option Nat
  | .accepted item => some item.seq
  | _ => none

def finishedSeq : Event → Option Nat
  | .finished seq _ => some seq
  | _ => none

def slotSeqs : Option OutboundItem → Multiset Nat
  | some item => {item.seq}
  | none => 0

def seqs (items : Multiset OutboundItem) : Multiset Nat := items.map OutboundItem.seq

/-- Sequence numbers of the items deferred in a list of streams. -/
def deferredSeqs (entries : List Stream) : Multiset Nat := (entries.map (fun st => slotSeqs st.deferredData)).sum

def Core.heldSeqs (c : Core) : Multiset Nat :=
  seqs c.obPq+seqs c.obSsPq+slotSeqs c.active+slotSeqs c.ghost.hand+deferredSeqs c.streams.entries

/-- The stream that a DATA item is for. -/
def HomeOf (st : Stream) (item : OutboundItem) : Prop := ∃ d, item.frame = .data d ∧ d.streamId = st.streamId

structure Owned (c : Core) : Prop where
  balance : (c.log.filterMap acceptedSeq : Multiset Nat) = c.heldSeqs+(c.log.filterMap finishedSeq : Multiset Nat)
  nodup : (c.log.filterMap acceptedSeq).Nodup
  below : ∀ seq ∈ c.log.filterMap acceptedSeq, seq < c.nextSeq
  home : ∀ st ∈ c.streams.entries, ∀ item, st.deferredData = some item → HomeOf st item
  plainQueue : ∀ item ∈ c.obPq, item.isSynStream = false
  synQueue : ∀ item ∈ c.obSsPq, item.isSynStream = true

@[simp] theorem seqs_cons (item : OutboundItem) (q : Multiset OutboundItem) :
    seqs (item ::ₘ q) = {item.seq}+seqs q := by simp [seqs,Multiset.singleton_add]

@[simp] theorem slotSeqs_some (item : OutboundItem) : slotSeqs (some item) = {item.seq} := rfl

@[simp] theorem slotSeqs_none : slotSeqs none = 0 := rfl

theorem deferredSeqs_cons (st : Stream) (l : List Stream) :
    deferredSeqs (st :: l) = slotSeqs st.deferredData+deferredSeqs l := by simp [deferredSeqs]

theorem deferredSeqs_perm {l l' : List Stream} (h : l.Perm l') : deferredSeqs l = deferredSeqs l' :=
  (h.map _).sum_eq

/-! Streams. -/

/-- A change that keeps the deferred item. -/
theorem deferredSeqs_modify (t : OrderedTable Stream Stream.streamId) (streamId : Int) (f : Stream → Stream) (hf)
    (hd : ∀ st, (f st).deferredData = st.deferredData) :
    deferredSeqs (t.modify streamId f hf).entries = deferredSeqs t.entries := by
  unfold deferredSeqs OrderedTable.modify
  rw [List.map_map]
  congr 1
  refine List.map_congr_left (fun st _ => ?_)
  simp only [Function.comp_apply]
  split
  · rw [hd]
  · rfl

/-- A change of the deferred item of one stream. -/
theorem deferredSeqs_change {t : OrderedTable Stream Stream.streamId} {streamId : Int} {st : Stream}
    (f : Stream → Stream) (hf) (h : t.find streamId = some st) :
    deferredSeqs (t.modify streamId f hf).entries+slotSeqs st.deferredData =
      deferredSeqs t.entries+slotSeqs (f st).deferredData := by
  rw [deferredSeqs_perm (OrderedTable.modify_perm f hf h),deferredSeqs_perm (OrderedTable.remove_perm h),
    deferredSeqs_cons,deferredSeqs_cons]
  abel

theorem home_modify {t : OrderedTable Stream Stream.streamId} {streamId : Int} {f : Stream → Stream} {k}
    (h : ∀ st ∈ t.entries, ∀ item, st.deferredData = some item → HomeOf st item)
    (hd : ∀ st item, st.streamId = streamId → (f st).deferredData = some item →
      st.deferredData = some item ∨ HomeOf st item) :
    ∀ st ∈ (t.modify streamId f k).entries, ∀ item, st.deferredData = some item → HomeOf st item := by
  intro st hst item hitem
  obtain ⟨st0,h0,rfl⟩ := List.mem_map.mp hst
  by_cases hk : st0.streamId = streamId
  · rw [if_pos hk] at hitem ⊢
    have hh : HomeOf st0 item := (hd st0 item hk hitem).elim (h st0 h0 item) id
    obtain ⟨d,hd,hid⟩ := hh
    exact ⟨d,hd,hid.trans (k st0).symm⟩
  · rw [if_neg hk] at hitem ⊢
    exact h st0 h0 item hitem

/-! Moves. -/

/-- Moves that accept nothing: the held and the finished items together stay the
same, and items stay in the right places. -/
theorem Owned.move {c c' : Core} (h : Owned c) (hn : c.nextSeq ≤ c'.nextSeq)
    (ha : c'.log.filterMap acceptedSeq = c.log.filterMap acceptedSeq)
    (hb : c'.heldSeqs+(c'.log.filterMap finishedSeq : Multiset Nat) =
      c.heldSeqs+(c.log.filterMap finishedSeq : Multiset Nat))
    (hh : ∀ st ∈ c'.streams.entries, ∀ item, st.deferredData = some item → HomeOf st item)
    (hp : ∀ item ∈ c'.obPq, item.isSynStream = false) (hs : ∀ item ∈ c'.obSsPq, item.isSynStream = true) :
    Owned c' := by
  refine ⟨?_,?_,?_,hh,hp,hs⟩
  · rw [ha,hb]
    exact h.balance
  · rw [ha]
    exact h.nodup
  · rw [ha]
    exact fun seq hseq => (h.below seq hseq).trans_le hn

theorem Owned.noted {c : Core} (h : Owned c) {e : Event} (ha : acceptedSeq e = none) (hf : finishedSeq e = none) :
    Owned (c.note e) := by
  refine h.move le_rfl ?_ ?_ h.home h.plainQueue h.synQueue
  · simp [Core.note,ha]
  · have hlog : (c.note e).log.filterMap finishedSeq = c.log.filterMap finishedSeq := by simp [Core.note,hf]
    rw [hlog]
    rfl

theorem Owned.modify {c : Core} (h : Owned c) (streamId : Int) (f : Stream → Stream) (hf)
    (hd : ∀ st, (f st).deferredData = st.deferredData) : Owned (c.modifyStream streamId f hf) := by
  refine h.move le_rfl rfl ?_ ?_ h.plainQueue h.synQueue
  · unfold Core.heldSeqs Core.modifyStream
    rw [deferredSeqs_modify _ _ _ _ hd]
  · exact home_modify (k := hf) h.home (fun st item _ hi => .inl ((hd st).symm.trans hi))

theorem Owned.resume {c : Core} (h : Owned c) {streamId : Int} {st : Stream} {item : OutboundItem}
    (hst : c.streams.find streamId = some st) (hi : st.deferredData = some item) :
    Owned {c.detach streamId with obPq := item ::ₘ c.obPq} := by
  have hhome := h.home st (OrderedTable.find_eq_some.mp hst).1 item hi
  refine h.move le_rfl rfl ?_ ?_ ?_ h.synQueue
  · have hc := deferredSeqs_change (fun st => {st with deferredData := none, deferredFlowControl := false})
      (fun _ => rfl) hst
    rw [hi] at hc
    simp only [slotSeqs_some,slotSeqs_none,add_zero] at hc
    simp only [Core.heldSeqs,Core.detach,Core.modifyStream,seqs_cons]
    rw [← hc]
    abel
  · exact home_modify (f := fun st => {st with deferredData := none, deferredFlowControl := false})
      (k := fun _ => rfl) h.home (fun st item _ hi => by cases hi)
  · intro it hit
    rcases Multiset.mem_cons.mp hit with rfl | hit
    · obtain ⟨d,hd,-⟩ := hhome
      simp [OutboundItem.isSynStream,hd]
    · exact h.plainQueue it hit

theorem Owned.closed {c : Core} (h : Owned c) {streamId : Int} {st : Stream}
    (hst : c.streams.find streamId = some st) : Owned (c.close st) := by
  obtain rfl := OrderedTable.find_key hst
  have hdef := deferredSeqs_perm (OrderedTable.remove_perm hst)
  rw [deferredSeqs_cons] at hdef
  have hparts : (c.countClosed st.streamId).obPq = c.obPq ∧ (c.countClosed st.streamId).obSsPq = c.obSsPq ∧
      (c.countClosed st.streamId).active = c.active ∧ (c.countClosed st.streamId).ghost = c.ghost ∧
      (c.countClosed st.streamId).nextSeq = c.nextSeq ∧ (c.countClosed st.streamId).log = c.log := by
    unfold Core.countClosed
    split <;> exact ⟨rfl,rfl,rfl,rfl,rfl,rfl⟩
  obtain ⟨h1,h2,h3,h4,h5,h6⟩ := hparts
  have hhome : ∀ st' ∈ (c.streams.remove st.streamId).entries, ∀ item, st'.deferredData = some item → HomeOf st' item :=
    fun st' hm => h.home st' (OrderedTable.mem_remove.mp hm).1
  unfold Core.close Core.freeDeferred
  cases hd : st.deferredData with
  | none =>
    rw [hd,slotSeqs_none,zero_add] at hdef
    refine h.move h5.ge (by simp) ?_ hhome (by simpa [h1] using h.plainQueue) (by simpa [h2] using h.synQueue)
    simp only [Core.heldSeqs,h1,h2,h3,h4,h6,hdef]
  | some item =>
    rw [hd,slotSeqs_some] at hdef
    refine h.move h5.ge (by simp [Core.note,acceptedSeq]) ?_ hhome (by simpa [h1,Core.note] using h.plainQueue)
      (by simpa [h2,Core.note] using h.synQueue)
    simp only [Core.heldSeqs,Core.note,h1,h2,h3,h4,h6,hdef,List.filterMap_append,List.filterMap_cons,
      List.filterMap_nil,finishedSeq,← Multiset.coe_add,Multiset.coe_singleton]
    abel

theorem Owned.insert {c : Core} (h : Owned c) {st : Stream} {streams} (hd : st.deferredData = none)
    (hi : c.streams.insert st = some streams) : Owned {c with streams := streams} := by
  have hp := OrderedTable.insert_perm hi
  refine h.move le_rfl rfl ?_ ?_ h.plainQueue h.synQueue
  · have hs := deferredSeqs_perm hp
    rw [deferredSeqs_cons,hd,slotSeqs_none,zero_add] at hs
    simp only [Core.heldSeqs,hs]
  · intro st' hst' item hitem
    rcases List.mem_cons.mp (hp.mem_iff.mp hst') with rfl | hst'
    · rw [hd] at hitem
      cases hitem
    · exact h.home st' hst' item hitem

theorem Owned.accept {c : Core} (h : Owned c) {item : OutboundItem} (hs : item.seq = c.nextSeq) :
    Owned ((({c with nextSeq := c.nextSeq+1} : Core).enqueue item).note (.accepted item)) := by
  have hfresh : item.seq ∉ c.log.filterMap acceptedSeq := by
    intro hm
    have := h.below _ hm
    omega
  have hacc : ∀ l : List Event, (l ++ [Event.accepted item]).filterMap acceptedSeq =
      l.filterMap acceptedSeq ++ [item.seq] := by simp [acceptedSeq]
  have hfin : ∀ l : List Event, (l ++ [Event.accepted item]).filterMap finishedSeq = l.filterMap finishedSeq := by
    simp [finishedSeq]
  have hlog : ((({c with nextSeq := c.nextSeq+1} : Core).enqueue item).note (.accepted item)).log =
      c.log ++ [.accepted item] := by simp [Core.note]
  refine ⟨?_,?_,?_,?_,?_,?_⟩
  · rw [hlog,hacc,hfin,← Multiset.coe_add,h.balance]
    unfold Core.enqueue
    split
    · simp only [Core.heldSeqs,Core.note,seqs_cons,Multiset.coe_singleton]
      abel
    · simp only [Core.heldSeqs,Core.note,seqs_cons,Multiset.coe_singleton]
      abel
  · rw [hlog,hacc,List.nodup_append]
    refine ⟨h.nodup,List.nodup_singleton _,?_⟩
    intro a ha b hb hab
    obtain rfl := List.mem_singleton.mp hb
    exact hfresh (hab ▸ ha)
  · rw [hlog,hacc]
    have hnext : ((({c with nextSeq := c.nextSeq+1} : Core).enqueue item).note (.accepted item)).nextSeq =
        c.nextSeq+1 := by
      unfold Core.enqueue
      split <;> rfl
    rw [hnext]
    intro seq hseq
    rcases List.mem_append.mp hseq with hseq | hseq
    · exact (h.below seq hseq).trans (Nat.lt_succ_self _)
    · obtain rfl := List.mem_singleton.mp hseq
      omega
  · unfold Core.enqueue
    split <;> exact h.home
  · unfold Core.enqueue
    split
    · exact h.plainQueue
    · rename_i hy
      intro it hit
      rcases Multiset.mem_cons.mp hit with rfl | hit
      · simpa using hy
      · exact h.plainQueue it hit
  · unfold Core.enqueue
    split
    · rename_i hy
      intro it hit
      rcases Multiset.mem_cons.mp hit with rfl | hit
      · exact hy
      · exact h.synQueue it hit
    · exact h.synQueue

theorem Owned.act {c c' : Core} (hm : Act c c') (h : Owned c) : Owned c' := by
  cases hm with
  | note e he =>
    refine h.noted ?_ ?_
    · cases e <;> first | rfl | cases he
    · cases e <;> first | rfl | cases he
  | accept item hs => exact h.accept hs
  | skipSeq => exact h.move (Nat.le_succ _) rfl rfl h.home h.plainQueue h.synQueue
  | restate streamId f hf => exact h.modify streamId f hf.streamId hf.deferredData
  | close streamId st hst => exact h.closed hst
  | resume streamId st item hst hi => exact h.resume hst hi

theorem Owned.steps {c c' : Core} (h : Owned c) (hs : Steps c c') : Owned c' := by
  induction hs with
  | refl => exact h
  | tail _ hm ih => exact ih.act hm

theorem Owned.rewindow {c : Core} (h : Owned c) (streamId : Int) (f : Int → Int) : Owned (c.rewindow streamId f) := by
  have hw : Owned (c.setWindow streamId f) := h.modify streamId _ _ (fun _ => rfl)
  exact hw.steps (release_steps (c.setWindow streamId f) streamId)

theorem Owned.inb {c c' : Core} (hm : Inb c c') (h : Owned c) : Owned c' := by
  have hopen : ∀ {c1 : Core} {id : Int}, Owned c1 → Owned (c1.countOpened id) := by
    intro c1 id h1
    unfold Core.countOpened
    split <;> exact ⟨h1.balance,h1.nodup,h1.below,h1.home,h1.plainQueue,h1.synQueue⟩
  cases hm with
  | seePeer streamId hn => exact ⟨h.balance,h.nodup,h.below,h.home,h.plainQueue,h.synQueue⟩
  | openPeer st streams hn hw hd hp hi =>
    have h' : Owned {c with lastRecvStreamId := st.streamId} :=
      ⟨h.balance,h.nodup,h.below,h.home,h.plainQueue,h.synQueue⟩
    exact hopen (h'.insert hd hi)
  | openPeerFailed st hn hi =>
    have h' : Owned {c with lastRecvStreamId := st.streamId} :=
      ⟨h.balance,h.nodup,h.below,h.home,h.plainQueue,h.synQueue⟩
    exact hopen (h'.noted rfl rfl)
  | raise streamId delta st hst =>
    exact (h.rewindow streamId (fun w => c.arith.store (w+delta))).noted rfl rfl
  | raiseStuck streamId delta st hst =>
    have hw : Owned (c.setWindow streamId (fun w => c.arith.store (w+delta))) := h.modify streamId _ _ (fun _ => rfl)
    have hr := hw.noted (e := .windowRaised streamId delta) rfl rfl
    exact ⟨hr.balance,hr.nodup,hr.below,hr.home,hr.plainQueue,hr.synQueue⟩
  | rebase value hf hv =>
    have hall : ∀ (f : Int → Int) (ids : List Int) (c' : Core), Owned c' →
        Owned (ids.foldl (fun c id => c.rewindow id f) c') := by
      intro f ids
      induction ids with
      | nil => exact fun _ => id
      | cons id ids ih => exact fun c' h' => ih _ (h'.rewindow id f)
    have h' := hall (c.rebased value) (c.streams.entries.map Stream.streamId) c h
    exact ⟨h'.balance,h'.nodup,h'.below,h'.home,h'.plainQueue,h'.synQueue⟩
  | rebaseStuck streamId f =>
    have hw : Owned (c.setWindow streamId f) := h.modify streamId _ _ (fun _ => rfl)
    exact ⟨hw.balance,hw.nodup,hw.below,hw.home,hw.plainQueue,hw.synQueue⟩
  | setRemote id value hid => exact ⟨h.balance,h.nodup,h.below,h.home,h.plainQueue,h.synQueue⟩
  | setOversize value hv => exact ⟨h.balance,h.nodup,h.below,h.home,h.plainQueue,h.synQueue⟩

/-- Parking an item in a stream that has none. -/
theorem deferredSeqs_park {c : Core} {d : DataFrame} {st : Stream} {fc : Bool} (hp : Parks c d st fc)
    (item : OutboundItem) : deferredSeqs (c.park d.streamId item fc).streams.entries =
      deferredSeqs c.streams.entries+{item.seq} := by
  have hc := deferredSeqs_change (fun st => {st with deferredData := some item, deferredFlowControl := fc})
    (fun _ => rfl) hp.find
  rw [hp.free,slotSeqs_none,add_zero] at hc
  exact hc

theorem home_park {c : Core} {d : DataFrame} (h : Owned c) (item : OutboundItem) (fc : Bool)
    (hf : item.frame = .data d) : ∀ st ∈ (c.park d.streamId item fc).streams.entries, ∀ it,
      st.deferredData = some it → HomeOf st it := by
  refine home_modify (f := fun st => {st with deferredData := some item, deferredFlowControl := fc})
    (k := fun _ => rfl) h.home (fun st it hid hi => .inr ?_)
  cases hi
  exact ⟨d,hf,hid.symm⟩

private theorem filterMap_finished (l : List Event) (seq : Nat) (cause : Finish) :
    (((l ++ [Event.finished seq cause]).filterMap finishedSeq : List Nat) : Multiset Nat) =
      (l.filterMap finishedSeq : Multiset Nat)+{seq} := by
  rw [List.filterMap_append,← Multiset.coe_add]
  rfl

theorem Owned.outb {c c' : Core} (hm : Outb c c') (h : Owned c) : Owned c' := by
  have hopen : ∀ {c1 : Core} {id : Int}, Owned c1 → Owned (c1.countOpened id) := by
    intro c1 id h1
    unfold Core.countOpened
    split <;> exact ⟨h1.balance,h1.nodup,h1.below,h1.home,h1.plainQueue,h1.synQueue⟩
  have hnext : Owned {c with nextStreamId := c.nextStreamId+2} :=
    ⟨h.balance,h.nodup,h.below,h.home,h.plainQueue,h.synQueue⟩
  cases hm with
  | takeId => exact hnext
  | openOwn st streams hid hw hd hp hi => exact hopen (hnext.insert hd hi)
  | openOwnFailed st hid hi => exact hopen (hnext.noted rfl rfl)
  | pop item rest ha hh hq =>
    refine h.move le_rfl rfl ?_ h.home ?_ h.synQueue
    · simp only [Core.heldSeqs,Core.setHand,hq,hh,seqs_cons,slotSeqs_some,slotSeqs_none]
      abel
    · exact fun it hit => h.plainQueue it (by rw [hq]; exact Multiset.mem_cons_of_mem hit)
  | popSyn item rest ha hh hq =>
    refine h.move le_rfl rfl ?_ h.home h.plainQueue ?_
    · simp only [Core.heldSeqs,Core.setHand,hq,hh,seqs_cons,slotSeqs_some,slotSeqs_none]
      abel
    · exact fun it hit => h.synQueue it (by rw [hq]; exact Multiset.mem_cons_of_mem hit)
  | retouch item item' hh hs =>
    refine h.move le_rfl rfl ?_ h.home h.plainQueue h.synQueue
    simp only [Core.heldSeqs,Core.setHand,hh,slotSeqs_some,hs.seq]
  | drop item e hh hd hc =>
    refine h.move le_rfl (by simp [Core.note,Core.setHand,acceptedSeq]) ?_ h.home h.plainQueue h.synQueue
    simp only [Core.heldSeqs,Core.setHand,Core.note,filterMap_finished,hh,slotSeqs_some,slotSeqs_none]
    abel
  | requeue item hh hs =>
    refine h.move le_rfl rfl ?_ h.home h.plainQueue ?_
    · simp only [Core.heldSeqs,Core.setHand,hh,seqs_cons,slotSeqs_some,slotSeqs_none]
      abel
    · intro it hit
      rcases Multiset.mem_cons.mp hit with rfl | hit
      · exact hs
      · exact h.synQueue it hit
  | defer item d st fc hh ha hf hp =>
    refine h.move le_rfl rfl ?_ (home_park h item fc hf) h.plainQueue h.synQueue
    have hd := deferredSeqs_park hp item
    simp only [Core.park,Core.modifyStream] at hd
    simp only [Core.heldSeqs,Core.setHand,Core.park,Core.modifyStream,hh,hd,slotSeqs_some,slotSeqs_none]
    abel
  | activate item f frame hh ha hf hne =>
    refine h.move le_rfl (by simp [Core.note,Core.setHand,Core.begin,acceptedSeq]) ?_ h.home h.plainQueue h.synQueue
    simp only [Core.heldSeqs,Core.setHand,Core.begin,Core.note,hh,ha,slotSeqs_some,slotSeqs_none,
      List.filterMap_append,List.filterMap_cons,List.filterMap_nil,finishedSeq,List.append_nil]
    abel
  | activateData item d st bytes frame hh ha hf hp =>
    refine h.move le_rfl (by simp [Core.note,Core.setHand,Core.begin,acceptedSeq]) ?_ h.home h.plainQueue h.synQueue
    simp only [Core.heldSeqs,Core.setHand,Core.begin,Core.note,hh,ha,slotSeqs_some,slotSeqs_none,
      List.filterMap_append,List.filterMap_cons,List.filterMap_nil,finishedSeq,List.append_nil]
    abel
  | write item n ha hn =>
    have hw : Owned (c.write n) := by
      have hr := h.noted (e := .sent ((c.framebuf.drop c.framebufoff).take n)) rfl rfl
      exact ⟨hr.balance,hr.nodup,hr.below,hr.home,hr.plainQueue,hr.synQueue⟩
    unfold Core.debit
    split
    · split
      · exact hw.modify _ _ _ (fun _ => rfl)
      · exact hw
    · exact hw
  | finish item cause ha hd hc =>
    refine h.move le_rfl (by simp [Core.note,Core.take,acceptedSeq]) ?_ h.home h.plainQueue h.synQueue
    simp only [Core.heldSeqs,Core.take,Core.note,filterMap_finished,ha,slotSeqs_some,slotSeqs_none]
    abel
  | parkActive item item' d st fc ha hd hs hf hp =>
    refine h.move le_rfl rfl ?_ (home_park h item' fc hf) h.plainQueue h.synQueue
    have hd := deferredSeqs_park hp item'
    simp only [Core.park,Core.modifyStream] at hd
    simp only [Core.heldSeqs,Core.take,Core.park,Core.modifyStream,ha,hd,slotSeqs_some,slotSeqs_none,hs.seq]
    abel
  | requeueActive item ha hd hs =>
    refine h.move le_rfl rfl ?_ h.home ?_ h.synQueue
    · simp only [Core.heldSeqs,Core.take,ha,seqs_cons,slotSeqs_some,slotSeqs_none]
      abel
    · intro it hit
      rcases Multiset.mem_cons.mp hit with rfl | hit
      · exact hs
      · exact h.plainQueue it hit
  | «continue» item item' d st bytes frame ha hd hs hf hp =>
    refine h.move le_rfl (by simp [Core.note,Core.begin,acceptedSeq]) ?_ h.home h.plainQueue h.synQueue
    simp only [Core.heldSeqs,Core.begin,Core.note,ha,slotSeqs_some,hs.seq,
      List.filterMap_append,List.filterMap_cons,List.filterMap_nil,finishedSeq,List.append_nil]

theorem owned_invariant : Invariant Owned where
  start P u := by
    constructor <;> simp [initialCore,Core.heldSeqs,seqs,deferredSeqs,OrderedTable.empty,cleanGhost]
  act _ _ := Owned.act
  inb _ _ := Owned.inb
  read _ _ _ h := ⟨h.balance,h.nodup,h.below,h.home,h.plainQueue,h.synQueue⟩
  outb _ _ := Owned.outb
  report _ _ h := h.noted rfl rfl

/-! How an item ends. -/

/-- The bytes of the frames that have been prepared. -/
def preparedBytes (log : List Event) : Bytes := log.flatMap (fun | .prepared _ frame => frame | _ => [])

/-- What is true of an item when it is freed: the frames prepared for it have been written to their
ends, and the cause that is reported is what has happened to it. -/
structure Ending (pre : List Event) (seq : Nat) (cause : Finish) : Prop where
  written : ∀ a frame b, pre = a ++ .prepared seq frame :: b → preparedBytes a ++ frame <+: sentBytes pre
  begun : cause.afterWriting = true → ∃ frame, .prepared seq frame ∈ pre
  dropped : ∀ e, cause = .dropped e → e ≠ .deferred ∧ e ≠ .credentialPending
  closed : ∀ streamId, cause = .streamClosed streamId →
    ∃ item d, .accepted item ∈ pre ∧ item.seq = seq ∧ item.frame = .data d ∧ d.streamId = streamId
  running : cause ≠ .deleted

def EndsFor (pre : List Event) (e : Event) : Prop := ∀ seq cause, e = .finished seq cause → Ending pre seq cause

/-- The item is in one of the places. -/
def Core.Holds (c : Core) (item : OutboundItem) : Prop :=
  item ∈ c.obPq ∨ item ∈ c.obSsPq ∨ c.active = some item ∨ c.ghost.hand = some item ∨
    ∃ st ∈ c.streams.entries, st.deferredData = some item

/-- The account of the bytes. What is prepared and not sent is the rest of the frame in the
buffer, which is the active item's. -/
structure Accounted (c : Core) : Prop where
  idle : c.active = none → c.framebuf = [] ∧ c.framebufoff = 0
  hand : c.ghost.hand ≠ none → c.active = none
  bytes : preparedBytes c.log = sentBytes c.log ++ c.framebuf.drop c.framebufoff
  begun : ∀ item, c.active = some item → ∃ frame, .prepared item.seq frame ∈ c.log
  others : ∀ a seq frame b, c.log = a ++ .prepared seq frame :: b →
    (∀ item, c.active = some item → item.seq ≠ seq) → preparedBytes a ++ frame <+: sentBytes c.log
  known : ∀ item, c.Holds item → ∃ item0, .accepted item0 ∈ c.log ∧ SameItem item0 item
  endings : Guarded EndsFor c.log

theorem preparedBytes_append (log log' : List Event) :
    preparedBytes (log ++ log') = preparedBytes log ++ preparedBytes log' :=
  List.flatMap_append

theorem preparedBytes_prefix (a : List Event) (seq : Nat) (frame : Bytes) (b : List Event) :
    preparedBytes a ++ frame <+: preparedBytes (a ++ .prepared seq frame :: b) := by
  rw [preparedBytes_append]
  exact ⟨preparedBytes b,List.append_assoc _ _ _⟩

theorem SameItem.trans {x y z : OutboundItem} (h : SameItem x y) (h' : SameItem y z) : SameItem x z := by
  refine ⟨h'.seq.trans h.seq,h'.syn.trans h.syn,?_,?_⟩
  · intro d hd
    obtain ⟨d1,h1,e1⟩ := h.data d hd
    obtain ⟨d2,h2,e2⟩ := h'.data d1 h1
    exact ⟨d2,h2,e2.trans e1⟩
  · intro f hf
    obtain ⟨f1,h1⟩ := h.ctrl f hf
    exact h'.ctrl f1 h1

/-- Two versions of an item that is DATA are for one stream. -/
theorem SameItem.home {x y : OutboundItem} (h : SameItem x y) {d : DataFrame} (hd : y.frame = .data d) :
    ∃ d', x.frame = .data d' ∧ d'.streamId = d.streamId := by
  cases hx : x.frame with
  | data d' =>
    obtain ⟨d2,h2,e2⟩ := h.data d' hx
    obtain rfl := OutFrame.data.inj (hd.symm.trans h2)
    exact ⟨d',rfl,e2.symm⟩
  | ctrl f =>
    obtain ⟨f',hf⟩ := h.ctrl f hx
    rw [hd] at hf
    cases hf

/-- Events that prepare and send nothing. -/
def unwritten : Event → Bool
  | .prepared _ _ | .sent _ => false
  | _ => true

theorem unwritten_ofAct {e : Event} (h : notedByAct e = true) : unwritten e = true := by
  cases e <;> first | rfl | cases h

theorem unwritten_ofInb {e : Event} (h : notedByInb e = true) : unwritten e = true := by
  cases e <;> first | rfl | cases h

theorem Notes.of {kind kind' : Event → Bool} {c c' : Core} (h : Notes kind c c')
    (hk : ∀ e, kind e = true → kind' e = true) : Notes kind' c c' := by
  refine h.imp_right ?_
  rintro ⟨e,he,hl⟩
  exact ⟨e,hk e he,hl⟩

/-- The account stays as it is. -/
theorem Notes.account {c c' : Core} (h : Notes unwritten c c') :
    preparedBytes c'.log = preparedBytes c.log ∧ sentBytes c'.log = sentBytes c.log ∧
      ∀ a seq frame b, c'.log = a ++ .prepared seq frame :: b → ∃ b', c.log = a ++ .prepared seq frame :: b' := by
  rcases h with hl | ⟨e,he,hl⟩
  · rw [hl]
    exact ⟨rfl,rfl,fun a seq frame b hab => ⟨b,hab⟩⟩
  · rw [hl,preparedBytes_append,sentBytes_append]
    refine ⟨?_,?_,?_⟩
    · cases e <;> first | exact List.append_nil _ | cases he
    · cases e <;> first | exact List.append_nil _ | cases he
    · intro a seq frame b hab
      rcases concat_eq_append_cons.mp hab with ⟨b',-,hab'⟩ | ⟨-,-,rfl⟩
      · exact ⟨b',hab'⟩
      · cases he

theorem Accounted.whole {c : Core} (h : Accounted c) (hf : c.framebuf.drop c.framebufoff = []) :
    preparedBytes c.log = sentBytes c.log := by rw [h.bytes,hf,List.append_nil]

theorem Accounted.written {c : Core} (h : Accounted c) (hf : c.framebuf.drop c.framebufoff = []) {a : List Event}
    {seq : Nat} {frame : Bytes} {b : List Event} (hab : c.log = a ++ .prepared seq frame :: b) :
    preparedBytes a ++ frame <+: sentBytes c.log := by
  rw [← h.whole hf,hab]
  exact preparedBytes_prefix a seq frame b

theorem Accounted.nothingLeft {c : Core} (h : Accounted c) (ha : c.active = none) :
    c.framebuf.drop c.framebufoff = [] := by
  obtain ⟨hf,-⟩ := h.idle ha
  rw [hf,List.drop_nil]

/-- Moves that leave the bytes alone: no item becomes active, one that stops being active has been
written, and the places hold no more than before. -/
theorem Accounted.keep {c c' : Core} (h : Accounted c) (hl : Notes unwritten c c')
    (hend : ∀ seq cause, c'.log = c.log ++ [.finished seq cause] → Ending c.log seq cause)
    (hf : c'.framebuf.drop c'.framebufoff = c.framebuf.drop c.framebufoff)
    (hi : c'.active = none → c'.framebuf = [] ∧ c'.framebufoff = 0) (hh : c'.ghost.hand ≠ none → c'.active = none)
    (ha : c'.active = c.active ∨ c'.active = none ∧ c.framebuf.drop c.framebufoff = [])
    (hk : ∀ item, c'.Holds item → ∃ item0, (c.Holds item0 ∨ .accepted item0 ∈ c'.log) ∧ SameItem item0 item) :
    Accounted c' := by
  obtain ⟨hp,hs,hcut⟩ := hl.account
  have hpre : c.log <+: c'.log := hl.log_prefix
  refine ⟨hi,hh,?_,?_,?_,?_,?_⟩
  · rw [hp,hs,hf,h.bytes]
  · intro item hitem
    rcases ha with ha | ⟨ha,-⟩
    · obtain ⟨frame,hm⟩ := h.begun item (ha ▸ hitem)
      exact ⟨frame,hpre.subset hm⟩
    · rw [ha] at hitem
      cases hitem
  · intro a seq frame b hab hne
    obtain ⟨b',hab'⟩ := hcut a seq frame b hab
    rw [hs]
    rcases ha with ha | ⟨-,hd⟩
    · exact h.others a seq frame b' hab' (fun item hitem => hne item (ha.trans hitem))
    · exact h.written hd hab'
  · intro item hitem
    obtain ⟨item0,h0 | h0,hsame⟩ := hk item hitem
    · obtain ⟨item1,h1,hsame1⟩ := h.known item0 h0
      exact ⟨item1,hpre.subset h1,hsame1.trans hsame⟩
    · exact ⟨item0,h0,hsame⟩
  · rcases hl with hl | ⟨e,-,hl⟩
    · rw [hl]
      exact h.endings
    · rw [hl]
      refine guarded_concat.mpr ⟨h.endings,?_⟩
      rintro seq cause rfl
      exact hend seq cause hl

theorem Core.Holds.modified {c : Core} {streamId : Int} {f : Stream → Stream} {hf} {item : OutboundItem}
    (h : (c.modifyStream streamId f hf).Holds item) :
    c.Holds item ∨ ∃ st ∈ c.streams.entries, (f st).deferredData = some item := by
  rcases h with h | h | h | h | ⟨st,hst,hitem⟩
  · exact .inl (.inl h)
  · exact .inl (.inr (.inl h))
  · exact .inl (.inr (.inr (.inl h)))
  · exact .inl (.inr (.inr (.inr (.inl h))))
  · obtain ⟨st0,h0,rfl⟩ := List.mem_map.mp hst
    split at hitem
    · exact .inr ⟨st0,h0,hitem⟩
    · exact .inl (.inr (.inr (.inr (.inr ⟨st0,h0,hitem⟩))))

/-- A change of streams that keeps the deferred items or empties their slots. -/
theorem Core.Holds.modify {c : Core} {streamId : Int} {f : Stream → Stream} {hf} {item : OutboundItem}
    (hd : ∀ st, (f st).deferredData = st.deferredData ∨ (f st).deferredData = none)
    (h : (c.modifyStream streamId f hf).Holds item) : c.Holds item := by
  rcases h.modified with h | ⟨st,hst,hitem⟩
  · exact h
  · rcases hd st with hd | hd
    · exact .inr (.inr (.inr (.inr ⟨st,hst,hd.symm.trans hitem⟩)))
    · rw [hd] at hitem
      cases hitem

theorem Core.Holds.setWindow {c : Core} (streamId : Int) (f : Int → Int) {item : OutboundItem}
    (h : (c.setWindow streamId f).Holds item) : c.Holds item :=
  Core.Holds.modify (f := fun st => {st with windowSize := f st.windowSize}) (fun _ => .inl rfl) h

theorem Core.Holds.detach {c : Core} (streamId : Int) {item : OutboundItem} (h : (c.detach streamId).Holds item) :
    c.Holds item :=
  Core.Holds.modify (f := fun st => {st with deferredData := none, deferredFlowControl := false}) (fun _ => .inr rfl) h

theorem Core.Holds.park {c : Core} {streamId : Int} {fc : Bool} {item item' : OutboundItem}
    (h : (c.park streamId item' fc).Holds item) : c.Holds item ∨ item = item' := by
  refine (Core.Holds.modified h).imp_right ?_
  rintro ⟨st,-,hitem⟩
  exact (Option.some.inj hitem).symm

/-- A call puts no item anywhere but those it accepts. -/
theorem Act.holds {c c' : Core} (hm : Act c c') {item : OutboundItem} (hi : c'.Holds item) :
    c.Holds item ∨ .accepted item ∈ c'.log := by
  cases hm with
  | note e he => exact .inl hi
  | accept item' hs =>
    have hcases : c.Holds item ∨ item = item' := by
      unfold Core.enqueue at hi
      split at hi
      · rcases hi with hi | hi | hi
        · exact .inl (.inl hi)
        · rcases Multiset.mem_cons.mp hi with hi | hi
          · exact .inr hi
          · exact .inl (.inr (.inl hi))
        · exact .inl (.inr (.inr hi))
      · rcases hi with hi | hi
        · rcases Multiset.mem_cons.mp hi with hi | hi
          · exact .inr hi
          · exact .inl (.inl hi)
        · exact .inl (.inr hi)
    refine hcases.imp_right ?_
    rintro rfl
    exact List.mem_append_right _ (.head _)
  | skipSeq => exact .inl hi
  | restate streamId f hf => exact .inl (hi.modify (fun st => .inl (hf.deferredData st)))
  | close streamId st hst =>
    have hparts : (c.close st).obPq = c.obPq ∧ (c.close st).obSsPq = c.obSsPq ∧ (c.close st).active = c.active ∧
        (c.close st).ghost = c.ghost ∧ (c.close st).streams = c.streams.remove st.streamId := by
      unfold Core.close Core.freeDeferred Core.countClosed
      split <;> split <;> exact ⟨rfl,rfl,rfl,rfl,rfl⟩
    obtain ⟨h1,h2,h3,h4,h5⟩ := hparts
    unfold Core.Holds at hi
    rw [h1,h2,h3,h4,h5] at hi
    refine .inl (hi.imp_right (Or.imp_right (Or.imp_right (Or.imp_right ?_))))
    rintro ⟨st',hst',hitem⟩
    exact ⟨st',(OrderedTable.mem_remove.mp hst').1,hitem⟩
  | resume streamId st item' hst hd =>
    rcases hi with hi | hi
    · rcases Multiset.mem_cons.mp hi with rfl | hi
      · exact .inl (.inr (.inr (.inr (.inr ⟨st,(OrderedTable.find_eq_some.mp hst).1,hd⟩))))
      · exact .inl (.inl hi)
    · exact .inl (Core.Holds.detach streamId (.inr hi))

theorem Core.Holds.rewindow {c : Core} {streamId : Int} {f : Int → Int} {item : OutboundItem}
    (hi : (c.rewindow streamId f).Holds item) : c.Holds item := by
  unfold Core.rewindow Core.release at hi
  split at hi
  · rename_i it hr
    have hmem : (c.setWindow streamId f).Holds it := by
      unfold Core.released at hr
      split at hr
      · rename_i st hst
        split at hr
        · exact .inr (.inr (.inr (.inr ⟨st,(OrderedTable.find_eq_some.mp hst).1,hr⟩)))
        · cases hr
      · cases hr
    rcases hi with hi | hi
    · rcases Multiset.mem_cons.mp hi with rfl | hi
      · exact hmem.setWindow streamId f
      · exact .inl hi
    · exact Core.Holds.setWindow streamId f (Core.Holds.detach streamId (.inr hi))
  · exact hi.setWindow streamId f

theorem Core.holds_rewindows {f : Int → Int} {item : OutboundItem} (ids : List Int) (c : Core)
    (hi : (ids.foldl (fun c' id => c'.rewindow id f) c).Holds item) : c.Holds item := by
  induction ids generalizing c with
  | nil => exact hi
  | cons id ids ih => exact (ih _ hi).rewindow

theorem Core.Holds.countOpened {c : Core} {streamId : Int} {item : OutboundItem}
    (hi : (c.countOpened streamId).Holds item) : c.Holds item := by
  unfold Core.countOpened at hi
  split at hi <;> exact hi

theorem Core.Holds.insert {c : Core} {st : Stream} {streams} {item : OutboundItem} (hd : st.deferredData = none)
    (hs : c.streams.insert st = some streams) (hi : ({c with streams := streams} : Core).Holds item) : c.Holds item := by
  refine hi.imp_right (Or.imp_right (Or.imp_right (Or.imp_right ?_)))
  rintro ⟨st',hst',hitem⟩
  rcases List.mem_cons.mp ((OrderedTable.insert_perm hs).mem_iff.mp hst') with rfl | hst'
  · rw [hd] at hitem
    cases hitem
  · exact ⟨st',hst',hitem⟩

/-- A received frame puts no item anywhere but from a stream into the queue. -/
theorem Inb.holds {c c' : Core} (hm : Inb c c') {item : OutboundItem} (hi : c'.Holds item) : c.Holds item := by
  cases hm with
  | seePeer streamId hn => exact hi
  | openPeer st streams hn hw hd hp hs => exact (hi.countOpened).insert (c := {c with lastRecvStreamId := st.streamId}) hd hs
  | openPeerFailed st hn hs => exact hi.countOpened
  | raise streamId delta st hst => exact Core.Holds.rewindow (c := c) hi
  | raiseStuck streamId delta st hst =>
    exact Core.Holds.setWindow (c := c) streamId (fun w => c.arith.store (w+delta)) hi
  | rebase value hf hv => exact Core.holds_rewindows _ _ hi
  | rebaseStuck streamId f => exact Core.Holds.setWindow (c := c) streamId f hi
  | setRemote id value hid => exact hi
  | setOversize value hv => exact hi

/-- Moves that leave the active slot and the hand alone. -/
theorem Accounted.quiet {c c' : Core} (h : Accounted c) (hl : Notes unwritten c c')
    (hend : ∀ seq cause, c'.log = c.log ++ [.finished seq cause] → Ending c.log seq cause) (haob : c'.aob = c.aob)
    (hhand : c'.ghost.hand = c.ghost.hand) (hk : ∀ item, c'.Holds item → c.Holds item ∨ .accepted item ∈ c'.log) :
    Accounted c' := by
  have hactive : c'.active = c.active := congrArg Prod.fst haob
  have hbuf : c'.framebuf = c.framebuf := congrArg (fun p => p.2.1) haob
  have hoff : c'.framebufoff = c.framebufoff := congrArg (fun p => p.2.2) haob
  refine h.keep hl hend (by rw [hbuf,hoff]) ?_ ?_ (.inl hactive) (fun item hi => ⟨item,hk item hi,SameItem.rfl' item⟩)
  · rw [hactive,hbuf,hoff]
    exact h.idle
  · rw [hhand,hactive]
    exact h.hand

theorem noEnd {c c' : Core} (hl : c'.log = c.log) (seq : Nat) (cause : Finish)
    (h : c'.log = c.log ++ [.finished seq cause]) : Ending c.log seq cause := by
  rw [hl] at h
  cases List.self_eq_append_right.mp h

/-- Moves between the hand and the places while no item is active. -/
theorem Accounted.handed {c c' : Core} (h : Accounted c) (ha : c.active = none) (hl : c'.log = c.log)
    (haob : c'.aob = c.aob) (hk : ∀ x, c'.Holds x → ∃ item0, c.Holds item0 ∧ SameItem item0 x) : Accounted c' := by
  have hactive : c'.active = c.active := congrArg Prod.fst haob
  have hbuf : c'.framebuf = c.framebuf := congrArg (fun p => p.2.1) haob
  have hoff : c'.framebufoff = c.framebufoff := congrArg (fun p => p.2.2) haob
  refine h.keep (.inl hl) (noEnd hl) (by rw [hbuf,hoff]) ?_ (fun _ => hactive.trans ha) (.inl hactive) ?_
  · rw [hactive,hbuf,hoff]
    exact h.idle
  · intro x hx
    obtain ⟨item0,h0,hsame⟩ := hk x hx
    exact ⟨item0,.inl h0,hsame⟩

/-- An item that waits in a stream is not the active one. -/
theorem Owned.apart {c : Core} (h : Owned c) {streamId : Int} {st : Stream} {item it : OutboundItem}
    (hst : c.streams.find streamId = some st) (hd : st.deferredData = some item) (ha : c.active = some it) :
    it.seq ≠ item.seq := by
  intro he
  have hdef : deferredSeqs c.streams.entries = {item.seq}+deferredSeqs (c.streams.remove streamId).entries := by
    rw [deferredSeqs_perm (OrderedTable.remove_perm hst),deferredSeqs_cons,hd,slotSeqs_some]
  have hnodup : (c.log.filterMap acceptedSeq : Multiset Nat).Nodup := h.nodup
  rw [h.balance] at hnodup
  have hcount := Multiset.nodup_iff_count_le_one.mp hnodup item.seq
  simp only [Core.heldSeqs,ha,hdef,slotSeqs_some,he,Multiset.count_add,Multiset.count_singleton_self] at hcount
  omega

/-- A stream is closed and its item freed. -/
theorem Accounted.lost {c : Core} (h : Accounted c) (ho : Owned c) {streamId : Int} {st : Stream} {item : OutboundItem}
    (hst : c.streams.find streamId = some st) (hd : st.deferredData = some item) :
    Ending c.log item.seq (.streamClosed st.streamId) := by
  have hmem := (OrderedTable.find_eq_some.mp hst).1
  refine ⟨?_,(by rintro ⟨⟩),(by rintro e ⟨⟩),?_,(by rintro ⟨⟩)⟩
  · intro a frame b hab
    exact h.others a item.seq frame b hab (fun it ha => ho.apart hst hd ha)
  · intro id hid
    obtain rfl := Finish.streamClosed.inj hid
    obtain ⟨item0,h0,hsame⟩ := h.known item (.inr (.inr (.inr (.inr ⟨st,hmem,hd⟩))))
    obtain ⟨d,hframe,hhome⟩ := ho.home st hmem item hd
    obtain ⟨d0,hframe0,he⟩ := hsame.home hframe
    exact ⟨item0,d0,h0,hsame.seq.symm,hframe0,he.trans hhome⟩

/-- An item cannot be sent. -/
theorem Accounted.dropped {c : Core} (h : Accounted c) (ha : c.active = none) (seq : Nat) {e : Err} (hd : e ≠ .deferred)
    (hc : e ≠ .credentialPending) : Ending c.log seq (.dropped e) := by
  refine ⟨fun a frame b hab => h.written (h.nothingLeft ha) hab,(by rintro ⟨⟩),?_,(by rintro id ⟨⟩),(by rintro ⟨⟩)⟩
  intro e' he
  obtain rfl := Finish.dropped.inj he
  exact ⟨hd,hc⟩

/-- The frame of the active item has been written, and the item is freed. -/
theorem Accounted.ended {c : Core} (h : Accounted c) {item : OutboundItem} (ha : c.active = some item)
    (hd : c.framebuf.drop c.framebufoff = []) {cause : Finish} (hc : cause.afterWriting = true) :
    Ending c.log item.seq cause := by
  refine ⟨fun a frame b hab => h.written hd hab,fun _ => h.begun item ha,?_,?_,?_⟩
  · rintro e rfl
    cases hc
  · rintro id rfl
    cases hc
  · rintro rfl
    cases hc

theorem Accounted.act {c c' : Core} (hm : Act c c') (h : Accounted c) (ho : Owned c) : Accounted c' := by
  have hhand : c'.ghost.hand = c.ghost.hand := by
    obtain ⟨_,_,_,_,_,_,_,rfl⟩ := hm.frame
    rfl
  refine h.quiet (hm.notes.of (fun _ => unwritten_ofAct)) ?_ hm.aob_eq hhand ?_
  · intro seq cause hl
    cases hm with
    | note e he =>
      obtain rfl := List.singleton_inj.mp (List.append_cancel_left hl)
      cases he
    | accept item hs =>
      rw [Core.note,Core.enqueue_log] at hl
      cases List.singleton_inj.mp (List.append_cancel_left hl)
    | close streamId st hst =>
      rw [Core.close_log] at hl
      cases hd : st.deferredData with
      | none =>
        rw [hd] at hl
        cases List.append_cancel_left hl
      | some item =>
        rw [hd] at hl
        obtain ⟨rfl,rfl⟩ := Event.finished.inj (List.singleton_inj.mp (List.append_cancel_left hl))
        exact h.lost ho hst hd
    | skipSeq => cases List.self_eq_append_right.mp hl
    | restate streamId f hf => cases List.self_eq_append_right.mp hl
    | resume streamId st item hst hi => cases List.self_eq_append_right.mp hl
  · exact fun item hi => hm.holds hi

theorem Inb.hand_eq {c c' : Core} (hm : Inb c c') : c'.ghost.hand = c.ghost.hand := by
  cases hm with
  | openPeer st streams hn hw hd hp hs =>
    unfold Core.countOpened
    split <;> rfl
  | openPeerFailed st hn hs =>
    unfold Core.countOpened
    split <;> rfl
  | raise streamId delta st hst =>
    obtain ⟨streams,obPq,he⟩ := c.rewindow_frame streamId (fun w => c.arith.store (w+delta))
    rw [he]
    rfl
  | rebase value hf hv =>
    obtain ⟨streams,obPq,he⟩ := c.rebase_frame value
    rw [he]
    rfl
  | _ => rfl

theorem Accounted.inb {c c' : Core} (hm : Inb c c') (h : Accounted c) : Accounted c' := by
  refine h.quiet (hm.notes.of (fun _ => unwritten_ofInb)) ?_ hm.aob_eq hm.hand_eq (fun item hi => .inl (hm.holds hi))
  intro seq cause hl
  rcases hm.notes with hn | ⟨e,he,hn⟩
  · cases List.self_eq_append_right.mp (hn.symm.trans hl)
  · obtain rfl := List.singleton_inj.mp (List.append_cancel_left (hn.symm.trans hl))
    cases he

theorem Accounted.countOpened {c : Core} (h : Accounted c) (streamId : Int) : Accounted (c.countOpened streamId) := by
  unfold Core.countOpened
  split <;> exact ⟨h.idle,h.hand,h.bytes,h.begun,h.others,h.known,h.endings⟩

/-- An event that is neither a frame nor the end of an item. -/
theorem Accounted.noted {c : Core} (h : Accounted c) {e : Event} (he : unwritten e = true) (hf : finishedSeq e = none) :
    Accounted (c.note e) := by
  refine h.quiet (.inr ⟨e,he,rfl⟩) ?_ rfl rfl (fun item hi => .inl hi)
  intro seq cause hl
  obtain rfl := List.singleton_inj.mp (List.append_cancel_left hl)
  cases hf

/-- The frame of an item is put into the buffer, which is empty or has been sent. -/
theorem Accounted.begin {c c' : Core} (h : Accounted c) (item : OutboundItem) (frame : Bytes)
    (hd : c.framebuf.drop c.framebufoff = []) (hl : c'.log = c.log ++ [.prepared item.seq frame])
    (hactive : c'.active = some item) (hf : c'.framebuf = frame) (ho : c'.framebufoff = 0) (hh : c'.ghost.hand = none)
    (hk : ∀ x, c'.Holds x → ∃ item0, c.Holds item0 ∧ SameItem item0 x) : Accounted c' := by
  have hs : sentBytes c'.log = sentBytes c.log := by
    rw [hl,sentBytes_append]
    exact List.append_nil _
  refine ⟨?_,?_,?_,?_,?_,?_,?_⟩
  · intro hnone
    rw [hactive] at hnone
    cases hnone
  · exact fun hne => absurd hh hne
  · rw [hs,hl,preparedBytes_append,h.whole hd,hf,ho]
    exact congrArg (sentBytes c.log ++ ·) (List.append_nil frame)
  · intro it hit
    obtain rfl := Option.some.inj (hactive.symm.trans hit)
    exact ⟨frame,hl ▸ List.mem_append_right _ (.head _)⟩
  · intro a seq frame' b hab hne
    rw [hl] at hab
    rw [hs]
    rcases concat_eq_append_cons.mp hab with ⟨b',-,hab'⟩ | ⟨-,-,he⟩
    · exact h.written hd hab'
    · exact absurd (Event.prepared.inj he).1 (hne item hactive)
  · intro x hx
    obtain ⟨item0,h0,hsame⟩ := hk x hx
    obtain ⟨item1,h1,hsame1⟩ := h.known item0 h0
    exact ⟨item1,hl ▸ List.mem_append_left _ h1,hsame1.trans hsame⟩
  · rw [hl]
    refine guarded_concat.mpr ⟨h.endings,?_⟩
    intro seq cause he
    cases he

/-- A piece of the frame is sent. -/
theorem Accounted.write {c : Core} (h : Accounted c) {item : OutboundItem} (ha : c.active = some item) (n : Nat) :
    Accounted (c.write n) := by
  have hs : sentBytes (c.write n).log = sentBytes c.log ++ (c.framebuf.drop c.framebufoff).take n := by
    rw [Core.write,Core.note,sentBytes_append]
    exact congrArg (sentBytes c.log ++ ·) (List.append_nil _)
  have hp : preparedBytes (c.write n).log = preparedBytes c.log := by
    rw [Core.write,Core.note,preparedBytes_append]
    exact List.append_nil _
  refine ⟨?_,h.hand,?_,?_,?_,?_,?_⟩
  · intro hnone
    cases ha.symm.trans hnone
  · change preparedBytes (c.write n).log = sentBytes (c.write n).log ++ c.framebuf.drop (c.framebufoff+n)
    rw [hp,hs,h.bytes,List.append_assoc,← List.drop_drop,List.take_append_drop]
  · intro it hit
    obtain ⟨frame,hm⟩ := h.begun it hit
    exact ⟨frame,List.mem_append_left _ hm⟩
  · intro a seq frame b hab hne
    rw [hs]
    rcases concat_eq_append_cons.mp hab with ⟨b',-,hab'⟩ | ⟨-,-,he⟩
    · exact (h.others a seq frame b' hab' hne).trans (List.prefix_append _ _)
    · cases he
  · intro x hx
    obtain ⟨item0,h0,hsame⟩ := h.known x hx
    exact ⟨item0,List.mem_append_left _ h0,hsame⟩
  · refine guarded_concat.mpr ⟨h.endings,?_⟩
    intro seq cause he
    cases he

theorem Accounted.debit {c : Core} (h : Accounted c) (item : OutboundItem) : Accounted (c.debit item) := by
  unfold Core.debit
  split
  · split
    · exact h.quiet (.inl rfl) (noEnd rfl) rfl rfl (fun x hx => .inl (hx.setWindow _ _))
    · exact h
  · exact h

theorem Accounted.outb {c c' : Core} (hm : Outb c c') (h : Accounted c) : Accounted c' := by
  have hfree : ∀ item, c.active = some item → c.ghost.hand = none := by
    intro item ha
    by_contra hh
    cases ha.symm.trans (h.hand hh)
  have hheld : ∀ item, c.ghost.hand = some item → c.active = none := by
    intro item hh
    exact h.hand (by rw [hh]; exact Option.some_ne_none item)
  have hrest : c.framebufoff = c.framebuf.length → c.framebuf.drop c.framebufoff = [] := by
    intro hd
    rw [hd,List.drop_length]
  cases hm with
  | takeId => exact h.quiet (.inl rfl) (noEnd rfl) rfl rfl (fun x hx => .inl hx)
  | openOwn st streams hid hw hd hp hi =>
    have hins : Accounted {c with nextStreamId := c.nextStreamId+2, streams := streams} :=
      h.quiet (.inl rfl) (noEnd rfl) rfl rfl (fun x hx => .inl (Core.Holds.insert (c := c) hd hi hx))
    exact hins.countOpened _
  | openOwnFailed st hid hi =>
    have hnext : Accounted {c with nextStreamId := c.nextStreamId+2} :=
      h.quiet (.inl rfl) (noEnd rfl) rfl rfl (fun x hx => .inl hx)
    exact (hnext.noted (e := .insertFailed st.streamId) rfl rfl).countOpened _
  | pop item rest ha hh hq =>
    refine h.handed ha rfl rfl (fun x hx => ⟨x,?_,SameItem.rfl' x⟩)
    simp only [Core.Holds,Core.setHand,hq,Multiset.mem_cons,Option.some.injEq] at hx ⊢
    grind
  | popSyn item rest ha hh hq =>
    refine h.handed ha rfl rfl (fun x hx => ⟨x,?_,SameItem.rfl' x⟩)
    simp only [Core.Holds,Core.setHand,hq,Multiset.mem_cons,Option.some.injEq] at hx ⊢
    grind
  | retouch item item' hh hs =>
    refine h.handed (hheld item hh) rfl rfl ?_
    intro x hx
    by_cases he : x = item'
    · exact ⟨item,.inr (.inr (.inr (.inl hh))),he ▸ hs⟩
    · refine ⟨x,?_,SameItem.rfl' x⟩
      simp only [Core.Holds,Core.setHand,Option.some.injEq] at hx ⊢
      grind
  | drop item e hh hd hc =>
    have ha := hheld item hh
    refine h.keep (.inr ⟨.finished item.seq (.dropped e),rfl,rfl⟩) ?_ rfl h.idle (fun _ => ha) (.inl rfl) ?_
    · intro seq cause hl
      obtain ⟨rfl,rfl⟩ := Event.finished.inj (List.singleton_inj.mp (List.append_cancel_left hl))
      exact h.dropped ha item.seq hd hc
    · intro x hx
      refine ⟨x,.inl ?_,SameItem.rfl' x⟩
      simp only [Core.Holds,Core.setHand,Core.note] at hx ⊢
      grind
  | requeue item hh hs =>
    refine h.handed (hheld item hh) rfl rfl (fun x hx => ⟨x,?_,SameItem.rfl' x⟩)
    simp only [Core.Holds,Core.setHand,Multiset.mem_cons] at hx ⊢
    grind
  | defer item d st fc hh ha hf hp =>
    refine h.handed ha rfl rfl (fun x hx => ⟨x,?_,SameItem.rfl' x⟩)
    have hpark : (c.park d.streamId item fc).Holds x := by
      simp only [Core.Holds,Core.setHand] at hx ⊢
      grind
    rcases hpark.park with hx | rfl
    · exact hx
    · exact .inr (.inr (.inr (.inl hh)))
  | activate item f frame hh ha hf hne =>
    refine h.begin item frame (h.nothingLeft ha) rfl rfl rfl (h.idle ha).2 rfl (fun x hx => ⟨x,?_,SameItem.rfl' x⟩)
    simp only [Core.Holds,Core.setHand,Core.begin,Core.note,Option.some.injEq] at hx ⊢
    grind
  | activateData item d st bytes frame hh ha hf hp =>
    have hread := h.noted (e := .read item.seq d.streamId bytes) rfl rfl
    refine hread.begin item frame (h.nothingLeft ha) rfl rfl rfl (h.idle ha).2 rfl (fun x hx => ⟨x,?_,SameItem.rfl' x⟩)
    simp only [Core.Holds,Core.setHand,Core.begin,Core.note,Option.some.injEq] at hx ⊢
    grind
  | write item n ha hn => exact (h.write ha n).debit item
  | finish item cause ha hd hc =>
    refine h.keep (.inr ⟨.finished item.seq cause,rfl,rfl⟩) ?_ ?_ (fun _ => ⟨rfl,rfl⟩) (fun _ => rfl)
      (.inr ⟨rfl,hrest hd⟩) ?_
    · intro seq cause' hl
      obtain ⟨rfl,rfl⟩ := Event.finished.inj (List.singleton_inj.mp (List.append_cancel_left hl))
      exact h.ended ha (hrest hd) hc
    · exact (hrest hd).symm
    · intro x hx
      refine ⟨x,.inl ?_,SameItem.rfl' x⟩
      simp only [Core.Holds,Core.take,Core.note] at hx ⊢
      grind
  | parkActive item item' d st fc ha hd hs hf hp =>
    refine h.keep (.inl rfl) (noEnd rfl) (hrest hd).symm (fun _ => ⟨rfl,rfl⟩) (fun _ => rfl) (.inr ⟨rfl,hrest hd⟩) ?_
    intro x hx
    have hpark : (c.park d.streamId item' fc).Holds x := by
      simp only [Core.Holds,Core.take] at hx ⊢
      grind
    rcases hpark.park with hx | rfl
    · exact ⟨x,.inl hx,SameItem.rfl' x⟩
    · exact ⟨item,.inl (.inr (.inr (.inl ha))),hs⟩
  | requeueActive item ha hd hs =>
    refine h.keep (.inl rfl) (noEnd rfl) (hrest hd).symm (fun _ => ⟨rfl,rfl⟩) (fun _ => rfl) (.inr ⟨rfl,hrest hd⟩) ?_
    intro x hx
    refine ⟨x,.inl ?_,SameItem.rfl' x⟩
    simp only [Core.Holds,Core.take,Multiset.mem_cons] at hx ⊢
    grind
  | «continue» item item' d st bytes frame ha hd hs hf hp =>
    have hread := h.noted (e := .read item.seq d.streamId bytes) rfl rfl
    refine hread.begin item' frame (hrest hd) rfl rfl rfl rfl (hfree item ha) ?_
    intro x hx
    by_cases he : x = item'
    · exact ⟨item,.inr (.inr (.inl ha)),he ▸ hs⟩
    · refine ⟨x,?_,SameItem.rfl' x⟩
      simp only [Core.Holds,Core.begin,Core.note,Option.some.injEq] at hx ⊢
      grind

theorem accounted_invariant : Invariant (fun c => Owned c ∧ Accounted c) where
  start P u := by
    refine ⟨owned_invariant.start P u,⟨fun _ => ⟨rfl,rfl⟩,?_,rfl,?_,?_,?_,?_⟩⟩
    · exact fun hne => absurd rfl hne
    · intro item hi
      cases hi
    · intro a seq frame b hab
      cases List.nil_eq_append_iff.mp hab |>.2
    · rintro item (hi | hi | hi | hi | ⟨st,hst,hi⟩)
      · cases hi
      · cases hi
      · cases hi
      · cases hi
      · cases hst
    · intro pre e post hcut
      cases List.nil_eq_append_iff.mp hcut |>.2
  act _ _ hm h := ⟨h.1.act hm,h.2.act hm h.1⟩
  inb _ _ hm h := ⟨h.1.inb hm,h.2.inb hm⟩
  read c f z h := ⟨owned_invariant.read c f z h.1,h.2.idle,h.2.hand,h.2.bytes,h.2.begun,h.2.others,h.2.known,h.2.endings⟩
  outb _ _ hm h := ⟨h.1.outb hm,h.2.outb hm⟩
  report _ _ h := ⟨h.1.noted rfl rfl,h.2.noted rfl rfl⟩

end Spdylay.Machine

namespace Spdylay
open Machine Library

/-- The sequence numbers of the items in the queues, in the active slot and deferred
in streams. -/
def Session.places (s : Session) : Multiset Nat :=
  seqs s.obPq.q+seqs s.obSsPq.q+slotSeqs s.aob.item+deferredSeqs s.streams.entries

/-- After every run each accepted item is in one place or has been finished once,
the places hold accepted items only, a deferred item is in the stream it is for,
and no item has been deferred over another. An item is finished when it has been sent
completely, has failed, is dropped in preparation or loses its stream. -/
theorem outbound_items_one_owner (P : Platform) (u : Setup) (ops : List Op) :
    let s := (u.start P).run P ops
    (s.host.log.filterMap acceptedSeq).Nodup ∧
      (∀ seq ∈ s.host.log.filterMap acceptedSeq,
        s.places.count seq+(s.host.log.filterMap finishedSeq).count seq = 1) ∧
      (∀ seq ∈ s.places, seq ∈ s.host.log.filterMap acceptedSeq) ∧
      (∀ st ∈ s.streams.entries, ∀ item, st.deferredData = some item →
        ∃ d, item.frame = .data d ∧ d.streamId = st.streamId) ∧
      Event.fatal (.assertion .deferredDataEmpty) ∉ s.host.log ∧
      ∀ pre seq cause post, s.host.log = pre ++ .finished seq cause :: post → Ending pre seq cause := by
  intro s
  obtain ⟨g,⟨h,haccount⟩,hg,-⟩ := accounted_invariant.run P u ops
  have hheld : (core s g).heldSeqs = s.places := by
    simp only [Core.heldSeqs,core,hg,slotSeqs_none,add_zero,Session.places]
  have hbal : (s.host.log.filterMap acceptedSeq : Multiset Nat) =
      s.places+(s.host.log.filterMap finishedSeq : Multiset Nat) := by
    rw [← hheld]
    exact h.balance
  refine ⟨h.nodup,?_,?_,h.home,?_,fun pre seq cause post hcut => haccount.endings pre _ post hcut seq cause rfl⟩
  · intro seq hseq
    have hc := congrArg (Multiset.count seq) hbal
    rw [Multiset.count_add,Multiset.coe_count,Multiset.coe_count] at hc
    exact hc.symm.trans (List.count_eq_one_of_mem h.nodup hseq)
  · intro seq hseq
    have hm : seq ∈ (s.host.log.filterMap acceptedSeq : Multiset Nat) := by
      rw [hbal]
      exact Multiset.mem_add.mpr (.inl hseq)
    exact Multiset.mem_coe.mp hm
  · intro hmem
    rcases run_failures P (frameOk_start P u) ops _ (mem_failures.mpr hmem) with hf | hf | hf | hf | hf
    · rw [log_start] at hf
      cases hf
    · cases hf
    · cases hf
    · cases hf
    · cases hf

end Spdylay
