import Spdylay.Machine.Runs

/-! The stream counters. Both rest on the ids never being used twice: the local
ones are taken in order, the peer's must grow. -/
namespace Spdylay.Machine
open Library

def Core.ids (c : Core) : List Int := c.streams.entries.map Stream.streamId

structure Counted (c : Core) : Prop where
  outgoing : c.numOutgoing = c.ids.countP (Core.isMine c.server)
  incoming : c.numIncoming = c.ids.countP (fun id => !Core.isMine c.server id)
  next : Core.isMine c.server c.nextStreamId = true
  own : ∀ id ∈ c.ids, Core.isMine c.server id = true → id < c.nextStreamId
  peer : ∀ id ∈ c.ids, Core.isMine c.server id = false → id ≤ c.lastRecvStreamId
  inserted : ∀ id, Event.insertFailed id ∉ c.log

private theorem isMine_add_two {server : Bool} {n : Nat} (h : Core.isMine server n = true) :
    Core.isMine server ((n+2 : Nat) : Int) = true := by
  have h1 := Int.tmod_eq_emod_of_nonneg (b := 2) (Int.natCast_nonneg n)
  have h2 := Int.tmod_eq_emod_of_nonneg (b := 2) (Int.natCast_nonneg (n+2))
  unfold Core.isMine at h ⊢
  rw [h1] at h
  rw [h2,if_neg (by omega)]
  split_ifs at h ⊢ <;> simp only [decide_eq_true_eq] at h ⊢ <;> omega

/-- Moves that touch neither ids nor counters. -/
theorem Counted.congr {c c' : Core} (h : Counted c) (hs : c'.server = c.server) (hn : c'.nextStreamId = c.nextStreamId)
    (hl : c'.lastRecvStreamId = c.lastRecvStreamId) (hi : c'.ids = c.ids) (ho : c'.numOutgoing = c.numOutgoing)
    (hc : c'.numIncoming = c.numIncoming) (hlog : ∀ id, Event.insertFailed id ∈ c'.log → Event.insertFailed id ∈ c.log) :
    Counted c' := by
  constructor
  · rw [ho,hi,hs,h.outgoing]
  · rw [hc,hi,hs,h.incoming]
  · rw [hs,hn]
    exact h.next
  · rw [hi,hs,hn]
    exact h.own
  · rw [hi,hs,hl]
    exact h.peer
  · exact fun id hid => h.inserted id (hlog id hid)

theorem ids_modifyStream (c : Core) (streamId : Int) (f : Stream → Stream) (hf) :
    (c.modifyStream streamId f hf).ids = c.ids := OrderedTable.keys_modify c.streams streamId f hf

theorem ids_detach (c : Core) (streamId : Int) : (c.detach streamId).ids = c.ids := ids_modifyStream _ _ _ _

theorem ids_setWindow (c : Core) (streamId : Int) (f : Int → Int) : (c.setWindow streamId f).ids = c.ids :=
  ids_modifyStream _ _ _ _

theorem ids_park (c : Core) (streamId : Int) (item : OutboundItem) (fc : Bool) :
    (c.park streamId item fc).ids = c.ids := ids_modifyStream _ _ _ _

theorem ids_rewindow (c : Core) (streamId : Int) (f : Int → Int) : (c.rewindow streamId f).ids = c.ids := by
  unfold Core.rewindow Core.release
  split
  · exact (ids_detach (c.setWindow streamId f) streamId).trans (ids_setWindow c streamId f)
  · exact ids_setWindow c streamId f

theorem ids_rebase (c : Core) (value : Nat) : (c.rebase value).ids = c.ids := by
  have h : ∀ (f : Int → Int) (ids : List Int) (c' : Core),
      (ids.foldl (fun c id => c.rewindow id f) c').ids = c'.ids := by
    intro f ids
    induction ids with
    | nil => exact fun _ => rfl
    | cons id ids ih => exact fun c' => (ih _).trans (ids_rewindow c' id f)
  exact h _ _ c

/-- A new stream of either side is counted once. -/
theorem Counted.opened {c : Core} {id : Int} (h : Counted c) (c1 : Core) (hs : c1.server = c.server) (hp : c1.ids.Perm (id :: c.ids))
    (ho : c1.numOutgoing = c.numOutgoing) (hc : c1.numIncoming = c.numIncoming)
    (hn : Core.isMine c.server c1.nextStreamId = true) (hnle : c.nextStreamId ≤ c1.nextStreamId)
    (hlle : c.lastRecvStreamId ≤ c1.lastRecvStreamId)
    (hown : Core.isMine c.server id = true → id < c1.nextStreamId)
    (hpeer : Core.isMine c.server id = false → id ≤ c1.lastRecvStreamId) (hlog : c1.log = c.log) :
    Counted (c1.countOpened id) := by
  have hids : (c1.countOpened id).ids = c1.ids := by
    unfold Core.countOpened
    split <;> rfl
  have hmem : ∀ j ∈ c1.ids, j = id ∨ j ∈ c.ids := fun j hj => List.mem_cons.mp (hp.mem_iff.mp hj)
  have hserver : (c1.countOpened id).server = c.server := by
    unfold Core.countOpened
    split <;> exact hs
  have hnext : (c1.countOpened id).nextStreamId = c1.nextStreamId := by
    unfold Core.countOpened
    split <;> rfl
  have hlast : (c1.countOpened id).lastRecvStreamId = c1.lastRecvStreamId := by
    unfold Core.countOpened
    split <;> rfl
  refine ⟨?_,?_,?_,?_,?_,?_⟩
  · rw [hids,hserver,hp.countP_eq,List.countP_cons,← h.outgoing,← ho]
    unfold Core.countOpened
    rw [hs]
    cases Core.isMine c.server id <;> rfl
  · rw [hids,hserver,hp.countP_eq,List.countP_cons,← h.incoming,← hc]
    unfold Core.countOpened
    rw [hs]
    cases Core.isMine c.server id <;> rfl
  · rw [hserver,hnext]
    exact hn
  · rw [hids,hserver,hnext]
    intro j hj hm
    rcases hmem j hj with rfl | hj
    · exact hown hm
    · have := h.own j hj hm
      omega
  · rw [hids,hserver,hlast]
    intro j hj hm
    rcases hmem j hj with rfl | hj
    · exact hpeer hm
    · exact (h.peer j hj hm).trans hlle
  · rw [Core.countOpened_log,hlog]
    exact h.inserted

private theorem ids_insert {c : Core} {st : Stream} {streams} (h : c.streams.insert st = some streams) :
    (streams.entries.map Stream.streamId).Perm (st.streamId :: c.ids) := (OrderedTable.insert_perm h).map _

/-- An id that no open stream has can be inserted. -/
private theorem insert_ne_none {c : Core} {st : Stream} (h : st.streamId ∉ c.ids) : c.streams.insert st ≠ none := by
  have hf : c.streams.find st.streamId = none :=
    OrderedTable.find_eq_none.mpr (fun x hx he => h (List.mem_map.mpr ⟨x,hx,he⟩))
  obtain ⟨t,ht,-⟩ := OrderedTable.insert_fresh hf
  rw [ht]
  exact nofun

theorem Counted.peer_fresh {c : Core} {id : Int} (h : Counted c) (hn : NewPeerId c id) : id ∉ c.ids := by
  intro hm
  have := h.peer id hm hn.2.1
  have := hn.2.2
  omega

theorem Counted.own_fresh {c : Core} (h : Counted c) : (c.nextStreamId : Int) ∉ c.ids := by
  intro hm
  have := h.own _ hm h.next
  omega

theorem Counted.closed {c : Core} {streamId : Int} {st : Stream} (h : Counted c)
    (hst : c.streams.find streamId = some st) : Counted (c.close st) := by
  obtain rfl := OrderedTable.find_key hst
  have hp : c.ids.Perm (st.streamId :: (c.streams.remove st.streamId).entries.map Stream.streamId) :=
    (OrderedTable.remove_perm hst).map Stream.streamId
  have hsub : ∀ j ∈ (c.streams.remove st.streamId).entries.map Stream.streamId, j ∈ c.ids :=
    fun j hj => hp.mem_iff.mpr (List.mem_cons_of_mem _ hj)
  -- freeing the deferred item only adds to the log
  suffices hmain : Counted {c.countClosed st.streamId with streams := c.streams.remove st.streamId} by
    unfold Core.close Core.freeDeferred
    split
    · exact hmain.congr rfl rfl rfl rfl rfl rfl (by simp [Core.note])
    · exact hmain
  have hfields : (c.countClosed st.streamId).server = c.server ∧
      (c.countClosed st.streamId).nextStreamId = c.nextStreamId ∧
      (c.countClosed st.streamId).lastRecvStreamId = c.lastRecvStreamId := by
    unfold Core.countClosed
    split <;> exact ⟨rfl,rfl,rfl⟩
  obtain ⟨hserver,hnext,hlast⟩ := hfields
  refine ⟨?_,?_,?_,?_,?_,?_⟩
  · have ho := h.outgoing
    rw [hp.countP_eq,List.countP_cons] at ho
    change (c.countClosed st.streamId).numOutgoing = _
    rw [hserver]
    change _ = List.countP _ ((c.streams.remove st.streamId).entries.map Stream.streamId)
    unfold Core.countClosed
    cases hm : Core.isMine c.server st.streamId with
    | true =>
      simp only [hm,if_true] at ho ⊢
      omega
    | false => simpa [hm] using ho
  · have ho := h.incoming
    rw [hp.countP_eq,List.countP_cons] at ho
    change (c.countClosed st.streamId).numIncoming = _
    rw [hserver]
    change _ = List.countP _ ((c.streams.remove st.streamId).entries.map Stream.streamId)
    unfold Core.countClosed
    cases hm : Core.isMine c.server st.streamId with
    | true => simpa [hm] using ho
    | false =>
      simp only [hm,Bool.not_false,if_true] at ho
      change c.numIncoming-1 = _
      omega
  · change Core.isMine (c.countClosed st.streamId).server (c.countClosed st.streamId).nextStreamId = true
    rw [hserver,hnext]
    exact h.next
  · change ∀ j ∈ (c.streams.remove st.streamId).entries.map Stream.streamId,
      Core.isMine (c.countClosed st.streamId).server j = true → j < (c.countClosed st.streamId).nextStreamId
    rw [hserver,hnext]
    exact fun j hj => h.own j (hsub j hj)
  · change ∀ j ∈ (c.streams.remove st.streamId).entries.map Stream.streamId,
      Core.isMine (c.countClosed st.streamId).server j = false → j ≤ (c.countClosed st.streamId).lastRecvStreamId
    rw [hserver,hlast]
    exact fun j hj => h.peer j (hsub j hj)
  · change ∀ id, Event.insertFailed id ∉ (c.countClosed st.streamId).log
    rw [Core.countClosed_log]
    exact h.inserted

theorem Counted.act {c c' : Core} (hm : Act c c') (h : Counted c) : Counted c' := by
  cases hm with
  | note e he => exact h.congr rfl rfl rfl rfl rfl rfl (by cases e <;> simp_all [Core.note,plain])
  | accept item hs =>
    unfold Core.enqueue
    split <;> exact h.congr rfl rfl rfl rfl rfl rfl (by simp [Core.note])
  | skipSeq => exact h.congr rfl rfl rfl rfl rfl rfl (fun _ => id)
  | restate streamId f hf => exact h.congr rfl rfl rfl (ids_modifyStream _ _ _ _) rfl rfl (fun _ => id)
  | close streamId st hst => exact h.closed hst
  | resume streamId st item hst hi =>
    exact h.congr rfl rfl rfl (ids_detach c streamId) rfl rfl (fun _ => id)

theorem Counted.inb {c c' : Core} (hm : Inb c c') (h : Counted c) : Counted c' := by
  cases hm with
  | seePeer streamId hn =>
    exact ⟨h.outgoing,h.incoming,h.next,h.own,fun id hid hp => (h.peer id hid hp).trans hn.2.2.le,h.inserted⟩
  | openPeer st streams hn hw hd hp hi =>
    refine h.opened {c with lastRecvStreamId := st.streamId, streams := streams} rfl (ids_insert hi) rfl rfl
      h.next le_rfl hn.2.2.le ?_ (fun _ => le_rfl) rfl
    intro hmine
    rw [hn.2.1] at hmine
    cases hmine
  | openPeerFailed st hn hi => exact absurd hi (insert_ne_none (h.peer_fresh hn))
  | raise streamId delta st hst =>
    obtain ⟨streams,obPq,he⟩ := c.rewindow_frame streamId (fun w => c.arith.store (w+delta))
    have hids := ids_rewindow c streamId (fun w => c.arith.store (w+delta))
    rw [he] at hids ⊢
    exact h.congr rfl rfl rfl hids rfl rfl (by simp [Core.note])
  | raiseStuck streamId delta st hst =>
    exact h.congr rfl rfl rfl (ids_setWindow c streamId (fun w => c.arith.store (w+delta))) rfl rfl
      (by simp [Core.note,Core.setWindow,Core.modifyStream])
  | rebase value hf hv =>
    obtain ⟨streams,obPq,he⟩ := c.rebase_frame value
    have hids := ids_rebase c value
    rw [he] at hids ⊢
    exact h.congr rfl rfl rfl hids rfl rfl (fun _ => id)
  | rebaseStuck streamId f => exact h.congr rfl rfl rfl (ids_setWindow c streamId f) rfl rfl (fun _ => id)
  | setRemote i value hi => exact h.congr rfl rfl rfl rfl rfl rfl (fun _ => id)
  | setOversize value hv => exact h.congr rfl rfl rfl rfl rfl rfl (fun _ => id)

theorem Counted.outb {c c' : Core} (hm : Outb c c') (h : Counted c) : Counted c' := by
  cases hm with
  | takeId =>
    refine ⟨h.outgoing,h.incoming,isMine_add_two h.next,fun id hid hp => ?_,h.peer,h.inserted⟩
    have := h.own id hid hp
    change id < ((c.nextStreamId+2 : Nat) : Int)
    omega
  | openOwn st streams hid hw hd hp hi =>
    refine h.opened {c with nextStreamId := c.nextStreamId+2, streams := streams} rfl (ids_insert hi) rfl rfl
      (isMine_add_two h.next) (Nat.le_add_right _ _) le_rfl ?_ ?_ rfl
    · intro _
      rw [hid]
      exact Int.ofNat_lt.mpr (Nat.lt_add_of_pos_right (by omega))
    · intro hp
      rw [hid,h.next] at hp
      cases hp
  | openOwnFailed st hid hi =>
    refine absurd hi (insert_ne_none ?_)
    rw [hid]
    exact h.own_fresh
  | pop item rest ha hh hq => exact h.congr rfl rfl rfl rfl rfl rfl (fun _ => id)
  | popSyn item rest ha hh hq => exact h.congr rfl rfl rfl rfl rfl rfl (fun _ => id)
  | retouch item item' hh hs => exact h.congr rfl rfl rfl rfl rfl rfl (fun _ => id)
  | drop item e hh hd hc => exact h.congr rfl rfl rfl rfl rfl rfl (by simp [Core.note,Core.setHand])
  | requeue item hh hs => exact h.congr rfl rfl rfl rfl rfl rfl (fun _ => id)
  | defer item d st fc hh ha hf hp =>
    exact h.congr rfl rfl rfl (ids_park c d.streamId item fc) rfl rfl (fun _ => id)
  | activate item f frame hh ha hf hne =>
    exact h.congr rfl rfl rfl rfl rfl rfl (by simp [Core.note,Core.setHand,Core.begin])
  | activateData item d st bytes frame hh ha hf hp =>
    exact h.congr rfl rfl rfl rfl rfl rfl (by simp [Core.note,Core.setHand,Core.begin])
  | write item n ha hn =>
    unfold Core.debit
    split
    · split
      · exact h.congr rfl rfl rfl (ids_setWindow (c.write n) _ _) rfl rfl
          (by simp [Core.note,Core.write,Core.setWindow,Core.modifyStream])
      · exact h.congr rfl rfl rfl rfl rfl rfl (by simp [Core.note,Core.write])
    · exact h.congr rfl rfl rfl rfl rfl rfl (by simp [Core.note,Core.write])
  | finish item cause ha hd hc => exact h.congr rfl rfl rfl rfl rfl rfl (by simp [Core.note,Core.take])
  | parkActive item item' d st fc ha hd hs hf hp =>
    exact h.congr rfl rfl rfl (ids_park c d.streamId item' fc) rfl rfl (fun _ => id)
  | requeueActive item ha hd hs => exact h.congr rfl rfl rfl rfl rfl rfl (fun _ => id)
  | «continue» item item' d st bytes frame ha hd hs hf hp =>
    exact h.congr rfl rfl rfl rfl rfl rfl (by simp [Core.note,Core.begin])

theorem counted_invariant : Invariant Counted where
  start P u := by
    refine ⟨rfl,rfl,?_,nofun,nofun,nofun⟩
    change Core.isMine u.server ((if u.server then 2 else 1 : Nat) : Int) = true
    cases u.server <;> decide
  act _ _ := Counted.act
  inb _ _ := Counted.inb
  read _ _ _ h := ⟨h.outgoing,h.incoming,h.next,h.own,h.peer,h.inserted⟩
  outb _ _ := Counted.outb
  report _ _ h := h.congr rfl rfl rfl rfl rfl rfl (by simp [Core.note])

end Spdylay.Machine

namespace Spdylay
open Machine Library

/-- The streams that are open now and carry an id of the given side. -/
def Session.openStreams (s : Session) (mine : Bool) : Nat :=
  s.streams.entries.countP (fun st => s.isMyStreamId st.streamId == mine)

/-- After every run each counter is the number of open streams of its side, the
two add up to the size of the table, and no insertion has failed. -/
theorem stream_counters_exact (P : Platform) (u : Setup) (ops : List Op) :
    let s := (u.start P).run P ops
    s.numOutgoingStreams = s.openStreams true ∧ s.numIncomingStreams = s.openStreams false ∧
      s.numOutgoingStreams+s.numIncomingStreams = s.streams.size ∧ ∀ id, Event.insertFailed id ∉ s.host.log := by
  intro s
  obtain ⟨g,h,-⟩ := counted_invariant.run P u ops
  have ho : s.numOutgoingStreams = s.openStreams true := by
    have hc : s.numOutgoingStreams = s.streams.entries.countP (fun st => s.isMyStreamId st.streamId) :=
      h.outgoing.trans (List.countP_map)
    simpa [Session.openStreams] using hc
  have hi : s.numIncomingStreams = s.openStreams false := by
    have hc : s.numIncomingStreams = s.streams.entries.countP (fun st => !s.isMyStreamId st.streamId) :=
      h.incoming.trans (List.countP_map)
    simpa [Session.openStreams] using hc
  refine ⟨ho,hi,?_,h.inserted⟩
  rw [ho,hi]
  have hsum := List.length_eq_countP_add_countP (fun st : Stream => s.isMyStreamId st.streamId == true)
    (l := s.streams.entries)
  unfold Session.openStreams OrderedTable.size
  rw [hsum]
  congr 2
  funext st
  cases s.isMyStreamId st.streamId <;> rfl

end Spdylay
