import Spdylay.Protocol.Inversion
import Spdylay.Protocol.Queues

/-! Push announcements: a SYN_STREAM that waits is taken before anything else, so
that it has left the session before a body begins that was not begun before it. -/
namespace Spdylay.Protocol
open Library Session Conn

/-- A SYN_STREAM of this number is queued, in hand or being written. -/
def Waiting (c : Conn) (seq : Nat) : Prop :=
  ∃ it : OutboundItem, it.isSynStream = true ∧ it.seq = seq ∧ (it ∈ c.obSsPq ∨ c.hand = some it ∨ c.active = some it)

/-- A chunk of a body is read only when each SYN_STREAM that was accepted before the
first chunk has been freed. -/
def AfterAnnouncements (pre : List Event) (e : Event) : Prop :=
  ∀ q id bytes, e = .read q id bytes → ∀ a item b, pre = a ++ .accepted item :: b → item.isSynStream = true →
    (∀ q' bytes', .read q' id bytes' ∉ a) → ∃ cause, .finished item.seq cause ∈ b

structure Announces (c : Conn) : Prop where
  owned : ∀ a item b, c.log = a ++ .accepted item :: b → item.isSynStream = true →
    (∃ cause, .finished item.seq cause ∈ b) ∨ Waiting c item.seq
  alone : ∀ it, c.hand = some it → c.active = none ∧ (it.isSynStream = false → c.obSsPq = [])
  begun : ∀ it d, c.active = some it → it.frame = .data d → ∃ q bytes, .read q d.streamId bytes ∈ c.log
  order : Guarded AfterAnnouncements c.log

/-- Events that neither queue a SYN_STREAM nor read a body. -/
def announcementFree : Event → Bool
  | .accepted item => !item.isSynStream
  | .read _ _ _ => false
  | _ => true

theorem announcementFree_of_aside {e : Event} (h : aside e = true) : announcementFree e = true := by
  cases e with
  | accepted _ | read _ _ _ | prepared _ _ | beforeCtrlSend _ => cases h
  | _ => rfl

theorem Announces.grow {c c' : Conn} (hi : Announces c) {es : List Event} (hl : c'.log = c.log ++ es)
    (hes : ∀ e ∈ es, announcementFree e = true)
    (hw : ∀ seq, Waiting c seq → Waiting c' seq ∨ ∃ cause, .finished seq cause ∈ es)
    (ha : ∀ it, c'.hand = some it → c'.active = none ∧ (it.isSynStream = false → c'.obSsPq = []))
    (hb : ∀ it d, c'.active = some it → it.frame = .data d → ∃ q bytes, .read q d.streamId bytes ∈ c.log) :
    Announces c' := by
  refine ⟨?_,ha,?_,?_⟩
  · intro a item b hab hs
    rw [hl] at hab
    rcases append_eq_append_cons hab with ⟨b',rfl,hab'⟩ | ⟨a',-,hab'⟩
    · rcases hi.owned a item b' hab' hs with h | h
      · obtain ⟨cause,h⟩ := h
        exact .inl ⟨cause,List.mem_append_left _ h⟩
      · rcases hw item.seq h with h | ⟨cause,h⟩
        · exact .inr h
        · exact .inl ⟨cause,List.mem_append_right _ h⟩
    · have h := hes (.accepted item) (hab' ▸ List.mem_append_right _ (.head _))
      simp [announcementFree,hs] at h
  · intro it d h1 h2
    obtain ⟨q,bytes,h⟩ := hb it d h1 h2
    exact ⟨q,bytes,hl ▸ List.mem_append_left _ h⟩
  · rw [hl]
    refine hi.order.append ?_
    rintro e he pre q id bytes rfl
    cases hes _ he

/-- A move that logs nothing. -/
theorem Announces.still {c c' : Conn} (hi : Announces c) (hl : c'.log = c.log)
    (hw : ∀ seq, Waiting c seq → Waiting c' seq)
    (ha : ∀ it, c'.hand = some it → c'.active = none ∧ (it.isSynStream = false → c'.obSsPq = []))
    (hb : ∀ it d, c'.active = some it → it.frame = .data d → ∃ q bytes, .read q d.streamId bytes ∈ c.log) :
    Announces c' := hi.grow (by rw [hl,List.append_nil]) (List.forall_mem_nil _) (fun seq h => .inl (hw seq h)) ha hb

theorem Announces.aside {c c' : Conn} (hi : Announces c) (h : Aside c c') : Announces c' := by
  obtain ⟨es,hl,hes⟩ := h.log
  refine hi.grow hl (fun e he => announcementFree_of_aside (hes e he)) ?_ ?_ ?_
  · intro seq hw
    unfold Waiting at hw ⊢
    rw [h.obSsPq,h.hand,h.active]
    exact .inl hw
  · rw [h.obSsPq,h.hand,h.active]
    exact hi.alone
  · rw [h.active]
    exact hi.begun

/-- A frame that is no SYN_STREAM is queued. -/
theorem Announces.queued {c c' : Conn} (hi : Announces c) {item : OutboundItem} (hs : item.isSynStream = false)
    (h1 : c'.obSsPq = c.obSsPq) (h2 : c'.hand = c.hand) (h3 : c'.active = c.active)
    (hl : c'.log = c.log ++ [.accepted item]) : Announces c' := by
  refine hi.grow hl (by simp [announcementFree,hs]) ?_ ?_ ?_
  · intro seq hw
    unfold Waiting at hw ⊢
    rw [h1,h2,h3]
    exact .inl hw
  · rw [h1,h2,h3]
    exact hi.alone
  · rw [h3]
    exact hi.begun

/-- Submitting a SYN_STREAM, which the hand does not allow. -/
theorem Announces.announced {c c' : Conn} (hi : Announces c) (item : OutboundItem) (hh : c.hand = none)
    (h1 : c'.obSsPq = BinaryHeap.push outboundItemCompar c.obSsPq item) (h2 : c'.hand = c.hand)
    (h3 : c'.active = c.active) (hl : c'.log = c.log ++ [.accepted item]) : Announces c' := by
  have hmem : ∀ it, it ∈ c'.obSsPq ↔ it = item ∨ it ∈ c.obSsPq := by
    intro it
    rw [h1,(BinaryHeap.push_perm outboundItemCompar c.obSsPq item).mem_iff,List.mem_cons]
  have hw : ∀ seq, Waiting c seq → Waiting c' seq := by
    rintro seq ⟨it,hit,hseq,h | h | h⟩
    · exact ⟨it,hit,hseq,.inl ((hmem it).mpr (.inr h))⟩
    · rw [hh] at h
      cases h
    · exact ⟨it,hit,hseq,.inr (.inr (h3.trans h))⟩
  refine ⟨?_,?_,?_,?_⟩
  · intro a x b hab hx
    rw [hl] at hab
    rcases concat_eq_append_cons.mp hab with ⟨b',rfl,hab'⟩ | ⟨-,-,he⟩
    · rcases hi.owned a x b' hab' hx with ⟨cause,h⟩ | h
      · exact .inl ⟨cause,List.mem_append_left _ h⟩
      · exact .inr (hw _ h)
    · have he := Event.accepted.inj he
      exact .inr ⟨x,hx,rfl,.inl ((hmem x).mpr (.inl he.symm))⟩
  · intro it h
    rw [h2,hh] at h
    cases h
  · intro it d h h'
    rw [h3] at h
    obtain ⟨q,bytes,hr⟩ := hi.begun it d h h'
    exact ⟨q,bytes,hl ▸ List.mem_append_left _ hr⟩
  · rw [hl]
    refine hi.order.append ?_
    rintro e he pre q id bytes rfl
    simp at he

/-- An active item that is no SYN_STREAM leaves its slot. -/
theorem Waiting.take {c c' : Conn} {seq : Nat} {item : OutboundItem} (hw : Waiting c seq) (ha : c.active = some item)
    (hs : item.isSynStream = false) (h1 : c'.obSsPq = c.obSsPq) (h2 : c'.hand = c.hand) : Waiting c' seq := by
  obtain ⟨it,hit,hseq,h | h | h⟩ := hw
  · exact ⟨it,hit,hseq,.inl (h1 ▸ h)⟩
  · exact ⟨it,hit,hseq,.inr (.inl (h2.trans h))⟩
  · rw [ha] at h
    cases h
    rw [hs] at hit
    cases hit

theorem sameFrame_isSyn {x y : OutboundItem} (h : SameFrame x.frame y.frame) : y.isSynStream = x.isSynStream := by
  unfold OutboundItem.isSynStream
  generalize x.frame = a at h
  generalize y.frame = b at h
  unfold SameFrame at h
  split at h
  · rfl
  · rfl
  · rfl
  · rfl
  · rw [h]

/-- When no SYN_STREAM waits, each one accepted has been freed. -/
theorem Announces.freed {c : Conn} (hi : Announces c) (hw : ∀ seq, ¬Waiting c seq) : ∀ a item b,
    c.log = a ++ .accepted item :: b → item.isSynStream = true → ∃ cause, .finished item.seq cause ∈ b :=
  fun a item b h hs => (hi.owned a item b h hs).resolve_right (hw _)

/-- A body is read for the first time, or once more. -/
theorem Announces.read {c c' : Conn} (hi : Announces c) {q : Nat} {id : Int} {bytes frame : Bytes}
    (hl : c'.log = c.log ++ [.read q id bytes,.prepared q frame])
    (hw : ∀ seq, Waiting c seq → Waiting c' seq)
    (ha : ∀ it, c'.hand = some it → c'.active = none ∧ (it.isSynStream = false → c'.obSsPq = []))
    (hb : ∀ it d, c'.active = some it → it.frame = .data d → d.streamId = id)
    (hfirst : (∀ seq, ¬Waiting c seq) ∨ ∃ q' bytes', .read q' id bytes' ∈ c.log) : Announces c' := by
  have hread : AfterAnnouncements c.log (.read q id bytes) := by
    rintro q' id' bytes' he a item b hab hs hnone
    obtain ⟨-,rfl,-⟩ := Event.read.inj he
    rcases hfirst with hfirst | ⟨q2,bytes2,h2⟩
    · exact hi.freed hfirst a item b hab hs
    · -- the chunk read before has found it freed
      obtain ⟨pre,post,hp⟩ := List.append_of_mem h2
      have hcut := hp
      rw [hab] at hcut
      rcases append_eq_append_cons hcut with ⟨post',-,hp'⟩ | ⟨pre',hp',hq'⟩
      · exact absurd (hp' ▸ List.mem_append_right _ (.head _)) (hnone q2 bytes2)
      · cases pre' with
        | nil => cases hq'
        | cons y pre' =>
          obtain ⟨rfl,hb'⟩ := List.cons.inj hq'
          obtain ⟨cause,h⟩ := hi.order pre _ post hp q2 id bytes2 rfl a item pre' hp' hs hnone
          rw [hb']
          exact ⟨cause,List.mem_append_left _ h⟩
  refine ⟨?_,ha,?_,?_⟩
  · intro a item b hab hs
    rw [hl] at hab
    rcases append_eq_append_cons hab with ⟨b',rfl,hab'⟩ | ⟨a',-,hab'⟩
    · rcases hi.owned a item b' hab' hs with ⟨cause,h⟩ | h
      · exact .inl ⟨cause,List.mem_append_left _ h⟩
      · exact .inr (hw _ h)
    · rcases a' with - | ⟨x,a'⟩
      · cases hab'
      · rcases a' with - | ⟨y,a'⟩ <;> simp at hab'
  · intro it d h1 h2
    refine ⟨q,bytes,?_⟩
    rw [hl,hb it d h1 h2]
    exact List.mem_append_right _ (.head _)
  · rw [hl,← List.singleton_append,← List.append_assoc]
    refine guarded_concat.mpr ⟨guarded_concat.mpr ⟨hi.order,hread⟩,?_⟩
    rintro q' id' bytes' he
    cases he

/-- A control frame is begun. -/
theorem Announces.started {c c' : Conn} (hi : Announces c) {item : OutboundItem} {f : Frame} {bytes : Bytes}
    (h1 : c.hand = some item) (h2 : c.active = none) (h3 : item.frame = .ctrl f)
    (hl : c'.log = c.log ++ [.prepared item.seq bytes,.beforeCtrlSend f]) (hq : c'.obSsPq = c.obSsPq)
    (hh : c'.hand = none) (ha : c'.active = some item) : Announces c' := by
  refine hi.grow hl (by simp [announcementFree]) ?_ ?_ ?_
  · rintro seq ⟨it,hit,hseq,h | h | h⟩
    · exact .inl ⟨it,hit,hseq,.inl (hq ▸ h)⟩
    · rw [h1] at h
      cases h
      exact .inl ⟨item,hit,hseq,.inr (.inr ha)⟩
    · rw [h2] at h
      cases h
  · intro it h
    rw [hh] at h
    cases h
  · intro it d h h'
    rw [ha] at h
    cases h
    rw [h3] at h'
    cases h'

/-- Nothing waits while an item that is no SYN_STREAM is in hand. -/
theorem Announces.nothing_waits {c : Conn} (hi : Announces c) {it : OutboundItem} (hh : c.hand = some it)
    (hs : it.isSynStream = false) : ∀ seq, ¬Waiting c seq := by
  obtain ⟨hact,hq⟩ := hi.alone it hh
  rintro seq ⟨x,hx,-,h | h | h⟩
  · rw [hq hs] at h
    cases h
  · rw [hh] at h
    cases h
    rw [hs] at hx
    cases hx
  · rw [hact] at h
    cases h

theorem Announces.move {c c' : Conn} (h : Move c c') (hq : Queues c) (hi : Announces c) : Announces c' := by
  cases h with
  | side h => exact hi.aside h.aside
  | accept item ha =>
    cases hs : item.isSynStream with
    | false => exact hi.queued hs (by simp [hs]) (by simp) (by simp) (by simp)
    | true =>
      have hh : c.hand = none := by
        have h := ha.2
        unfold OutboundItem.isSynStream at hs
        split at hs
        · rename_i f hf
          rw [hf] at h
          exact h.1
        · cases hs
      exact hi.announced item hh (by simp [hs]) (by simp) (by simp) (by simp)
  | credential syn item f origin h1 h2 h3 h4 h5 h6 =>
    have hs : item.isSynStream = false := by simp [OutboundItem.isSynStream,h4]
    exact hi.queued hs (by simp [hs]) (by simp) (by simp) (by simp)
  | pop item h1 h2 h3 h4 =>
    refine hi.still rfl ?_ ?_ ?_
    · rintro seq ⟨it,hit,hseq,h | h | h⟩
      · exact ⟨it,hit,hseq,.inl h⟩
      · rw [h2] at h
        cases h
      · exact ⟨it,hit,hseq,.inr (.inr h)⟩
    · intro it _
      exact ⟨h1,fun _ => h4⟩
    · exact hi.begun
  | popSyn item h1 h2 h3 =>
    have hsyn := hq.syn item (BinaryHeap.top_mem h3)
    refine hi.still rfl ?_ ?_ ?_
    · rintro seq ⟨it,hit,hseq,h | h | h⟩
      · rcases List.mem_cons.mp ((BinaryHeap.pop_perm outboundItemCompar h3).mem_iff.mp h) with rfl | h
        · exact ⟨it,hit,hseq,.inr (.inl rfl)⟩
        · exact ⟨it,hit,hseq,.inl h⟩
      · rw [h2] at h
        cases h
      · exact ⟨it,hit,hseq,.inr (.inr h)⟩
    · intro it h
      cases h
      exact ⟨h1,fun hs => by rw [hsyn] at hs; cases hs⟩
    · exact hi.begun
  | retouch item item' h1 h2 h3 =>
    have hs := sameFrame_isSyn h3
    refine hi.still rfl ?_ ?_ ?_
    · rintro seq ⟨it,hit,hseq,h | h | h⟩
      · exact ⟨it,hit,hseq,.inl h⟩
      · rw [h1] at h
        cases h
        exact ⟨item',hs.trans hit,h2.trans hseq,.inr (.inl rfl)⟩
      · exact ⟨it,hit,hseq,.inr (.inr h)⟩
    · intro it h
      cases h
      rw [hs]
      exact hi.alone item h1
    · exact hi.begun
  | drop item e h1 =>
    refine hi.grow rfl (by simp [announcementFree]) ?_ (by rintro _ ⟨⟩) hi.begun
    rintro seq ⟨it,hit,hseq,h | h | h⟩
    · exact .inl ⟨it,hit,hseq,.inl h⟩
    · rw [h1] at h
      cases h
      exact .inr (by simp [hseq])
    · exact .inl ⟨it,hit,hseq,.inr (.inr h)⟩
  | requeue item h1 h2 h3 =>
    refine hi.still rfl ?_ (by rintro _ ⟨⟩) hi.begun
    have hmem := fun it => (BinaryHeap.push_perm outboundItemCompar c.obSsPq item).mem_iff (a := it)
    rintro seq ⟨it,hit,hseq,h | h | h⟩
    · exact ⟨it,hit,hseq,.inl ((hmem it).mpr (.tail _ h))⟩
    · rw [h1] at h
      cases h
      exact ⟨item,hit,hseq,.inl ((hmem item).mpr (.head _))⟩
    · exact ⟨it,hit,hseq,.inr (.inr h)⟩
  | defer item d l h1 h2 h3 h4 =>
    refine hi.still rfl ?_ (by rintro _ ⟨⟩) hi.begun
    exact fun seq hw => absurd hw (hi.nothing_waits h1 (data_notSyn h2) seq)
  | start item f bytes h1 h2 h3 h4 => exact hi.started h1 h2 h3 rfl rfl rfl rfl
  | startOwn item f bytes h1 h2 h3 h4 h5 h6 => exact hi.started h1 h2 h3 rfl rfl rfl rfl
  | startData item d bytes frame h1 h2 h3 h4 =>
    have hnone := hi.nothing_waits h1 (data_notSyn h3)
    refine hi.read rfl (fun seq hw => absurd hw (hnone seq)) (by rintro _ ⟨⟩) ?_ (.inl hnone)
    intro it d' h h'
    cases h
    rw [h3] at h'
    cases h'
    rfl
  | finish item cause h1 h2 h3 =>
    refine hi.grow rfl (by simp [announcementFree]) ?_ ?_ (by rintro _ _ ⟨⟩)
    · rintro seq ⟨it,hit,hseq,h | h | h⟩
      · exact .inl ⟨it,hit,hseq,.inl h⟩
      · exact .inl ⟨it,hit,hseq,.inr (.inl h)⟩
      · rw [h1] at h
        cases h
        exact .inr (by simp [hseq])
    · exact fun it h => ⟨rfl,(hi.alone it h).2⟩
  | parkActive item item' d l h1 h2 h3 h4 h5 h6 =>
    refine hi.still rfl (fun seq hw => ?_) (fun it h => ⟨rfl,(hi.alone it h).2⟩) (by rintro _ _ ⟨⟩)
    exact hw.take h1 ((sameFrame_isSyn h3).symm.trans (data_notSyn h4)) rfl rfl
  | requeueActive item d h1 h2 =>
    refine hi.still rfl (fun seq hw => ?_) (fun it h => ⟨rfl,(hi.alone it h).2⟩) (by rintro _ _ ⟨⟩)
    exact hw.take h1 (data_notSyn h2) rfl rfl
  | «continue» item item' d bytes frame h1 h2 h3 h4 h5 =>
    have hs : item.isSynStream = false := (sameFrame_isSyn h3).symm.trans (data_notSyn h4)
    obtain ⟨d0,hd0,hid⟩ := data_of_sameFrame h3 h4
    obtain ⟨q',bytes',hr⟩ := hi.begun item d0 h1 hd0
    refine hi.read rfl (fun seq hw => hw.take h1 hs rfl rfl) ?_ ?_ (.inr ⟨q',bytes',hid ▸ hr⟩)
    · intro it h
      have h' := (hi.alone it h).1
      rw [h1] at h'
      cases h'
    · intro it d' h h'
      cases h
      rw [h4] at h'
      cases h'
      rfl

theorem announces_invariant : Invariant (fun c => Queues c ∧ Announces c) := by
  refine queues_invariant.with ?_ ?_
  · intro P u
    refine ⟨?_,nofun,nofun,guarded_nil⟩
    intro a item b h
    cases a <;> cases h
  · intro c c' h hq _ hi
    cases h with
    | move h => exact hi.move h hq
    | chunk flags id data hd =>
      exact hi.grow rfl (by simp [announcementFree]) (fun _ hw => .inl hw) hi.alone hi.begun

/-- In every session that can come about: each SYN_STREAM accepted before the first
chunk of a stream's body is read has been sent or discarded when a chunk is read. -/
theorem pushes_precede_body (P : Platform) (u : Setup) (s : Session) (h : Reachable P u s) (id : Int) (q : Nat)
    (bytes : Bytes) (pre post a b : List Event) (item : OutboundItem)
    (hlog : s.host.log = pre ++ .read q id bytes :: post) (hsyn : item.isSynStream = true)
    (hpre : pre = a ++ .accepted item :: b) (hfirst : ∀ q' bytes', .read q' id bytes' ∉ a) :
    ∃ cause, .finished item.seq cause ∈ b :=
  (announces_invariant.reachable h).2.order pre _ post hlog q id bytes rfl a item b hpre hsyn hfirst

/-- A server that has announced a push and answered its first request. -/
def pushedResponse : Session :=
  ((sampleServer [.accept 1000,.accept 1000] [.data [1,2,3] true]).start peerPlatform).run peerPlatform
    [.memRecv (firstRequest 1 1),.submitResponse 1 [] (some 0),.submitServerPush 1 [] none,.send]

/-- The push has the number 1, and the body begins after it. -/
theorem push_before_response_body : ∃ cause, .finished 1 cause ∈ (pushedResponse.host.log.take 16).drop 5 := by
  have hnone : (pushedResponse.host.log.take 4).all announcementFree = true := by decide +kernel
  refine pushes_precede_body peerPlatform (sampleServer [.accept 1000,.accept 1000] [.data [1,2,3] true])
    pushedResponse (run_reachable _ _ _) 1 2 [1,2,3] (pushedResponse.host.log.take 16)
    (pushedResponse.host.log.drop 17) (pushedResponse.host.log.take 4) ((pushedResponse.host.log.take 16).drop 5)
    ⟨.ctrl (.synStream ⟨⟨3,2,0⟩,0,1,3,0,[]⟩),none,3,1⟩ ?_ rfl ?_ ?_
  · decide +kernel
  · decide +kernel
  · intro q' bytes' h
    cases List.all_eq_true.mp hnone _ h

end Spdylay.Protocol
