import Spdylay.Protocol.Fields

/-! The outbound queues of every session are heaps, with the SYN_STREAMs apart. -/
namespace Spdylay.Protocol
open Library Session Conn

/-- The item deferred in a stream, if any. -/
def deferredIn (streams : Int → Option Life) (id : Int) : Option OutboundItem := (streams id).bind Life.deferred

theorem deferredIn_update (streams : Int → Option Life) (id : Int) (l : Option Life) (k : Int) :
    deferredIn (Function.update streams id l) k = if k = id then l.bind Life.deferred else deferredIn streams k := by
  unfold deferredIn
  rw [Function.update_apply]
  split <;> rfl

/-- Changing the other fields of a life leaves the deferred items. -/
theorem deferredIn_update_map (streams : Int → Option Life) (id : Int) (g : Life → Life)
    (hg : ∀ l, (g l).deferred = l.deferred) (k : Int) :
    deferredIn (Function.update streams id ((streams id).map g)) k = deferredIn streams k := by
  rw [deferredIn_update]
  split
  · rename_i hk
    subst hk
    unfold deferredIn
    cases streams k with
    | none => rfl
    | some l => exact hg l
  · rfl

theorem deferredIn_marked (streams : Int → Option Life) (frame : OutFrame) (k : Int) :
    deferredIn (marked streams frame) k = deferredIn streams k := by
  unfold marked
  split
  · refine deferredIn_update_map _ _ _ ?_ k
    exact fun _ => rfl
  · rfl

theorem deferredIn_completed (streams : Int → Option Life) (f : Frame) (k : Int) :
    deferredIn (completed streams f) k = deferredIn streams k := by
  unfold completed
  split
  · refine deferredIn_update_map _ _ _ ?_ k
    exact fun _ => rfl
  · refine deferredIn_update_map _ _ _ ?_ k
    exact fun _ => rfl
  · refine deferredIn_update_map _ _ _ ?_ k
    exact fun _ => rfl
  · rfl

/-- Beside the way of the items nothing is deferred anew, and what goes to the queue
comes from a stream. -/
theorem Side.deferred {c c' : Conn} (h : Side c c') : (∀ k item, deferredIn c'.streams k = some item →
    deferredIn c.streams k = some item) ∧ (c'.obPq = c.obPq ∨ ∃ k item, deferredIn c.streams k = some item ∧
    c'.obPq = BinaryHeap.push outboundItemCompar c.obPq item) := by
  have hput : ∀ (id : Int) (l : Option Life), l.bind Life.deferred = none ∨
      l.bind Life.deferred = deferredIn c.streams id → ∀ k item,
      deferredIn (Function.update c.streams id l) k = some item → deferredIn c.streams k = some item := by
    intro id l hl k item hk
    rw [deferredIn_update] at hk
    split at hk
    · rename_i hid
      subst hid
      rcases hl with hl | hl
      · rw [hl] at hk
        cases hk
      · rwa [← hl]
    · exact hk
  cases h with
  | refuse frame =>
    simp only [mark_streams,skipSeq,mark_fields,true_or,and_true,deferredIn_marked]
    exact fun _ _ h => h
  | close id l statusCode h => exact ⟨hput id none (.inl rfl),.inl rfl⟩
  | resume id l item h1 h2 =>
    refine ⟨hput id _ (.inl rfl),.inr ⟨id,item,?_,rfl⟩⟩
    simp [deferredIn,h1,h2]
  | shutRd id =>
    refine ⟨fun k item hk => ?_,.inl rfl⟩
    have he := deferredIn_update_map c.streams id (fun l => {l with shutRd := true}) (fun _ => rfl) k
    exact he ▸ hk
  | admitStream f h1 h2 h3 h4 => exact ⟨hput _ _ (.inl rfl),.inl rfl⟩
  | recvSynReply f l h1 h2 h3 h4 =>
    refine ⟨hput _ _ (.inr ?_),.inl rfl⟩
    simp [deferredIn,h1]
  | complete item f h1 h2 =>
    simp only [sent_streams,sent_fields,true_or,and_true,deferredIn_completed]
    exact fun _ _ h => h
  | completeData item d length h1 h2 =>
    refine ⟨fun k item hk => ?_,.inl rfl⟩
    have he := deferredIn_update_map c.streams d.streamId (fun l => {l with
      shutWr := l.shutWr || (d.eof && flagFin d.flags)}) (fun _ => rfl) k
    exact he ▸ hk
  | note | read | seePeer | admitUnopened | recvHeaders | recvData | recvRequest | recvPing | recvPingReply | recvGoaway
  | fail | resize | setOrigin | loseCredential | takeId => exact ⟨fun _ _ h => h,.inl rfl⟩

/-- What every pair of queues keeps. -/
structure Queues (c : Conn) : Prop where
  order : BinaryHeap.IsHeap outboundItemCompar c.obPq
  orderSs : BinaryHeap.IsHeap outboundItemCompar c.obSsPq
  plain : ∀ item ∈ c.obPq, item.isSynStream = false
  syn : ∀ item ∈ c.obSsPq, item.isSynStream = true
  deferred : ∀ k item, deferredIn c.streams k = some item → item.isSynStream = false

theorem Queues.push {q : List OutboundItem} {item : OutboundItem} {b : Bool} (ho : BinaryHeap.IsHeap outboundItemCompar q)
    (hq : ∀ x ∈ q, x.isSynStream = b) (hi : item.isSynStream = b) :
    BinaryHeap.IsHeap outboundItemCompar (BinaryHeap.push outboundItemCompar q item) ∧
      ∀ x ∈ BinaryHeap.push outboundItemCompar q item, x.isSynStream = b := by
  refine ⟨BinaryHeap.push_isHeap outboundItemCompar_order ho item,?_⟩
  intro x hx
  rcases List.mem_cons.mp ((BinaryHeap.push_perm outboundItemCompar q item).mem_iff.mp hx) with rfl | hx
  · exact hi
  · exact hq x hx

theorem Queues.pop {q : List OutboundItem} {item : OutboundItem} {b : Bool} (ho : BinaryHeap.IsHeap outboundItemCompar q)
    (hq : ∀ x ∈ q, x.isSynStream = b) (ht : BinaryHeap.top q = some item) :
    BinaryHeap.IsHeap outboundItemCompar (BinaryHeap.pop outboundItemCompar q) ∧
      ∀ x ∈ BinaryHeap.pop outboundItemCompar q, x.isSynStream = b := by
  refine ⟨BinaryHeap.pop_isHeap outboundItemCompar_order ho,?_⟩
  intro x hx
  exact hq x ((BinaryHeap.pop_perm outboundItemCompar ht).mem_iff.mpr (.tail _ hx))

theorem data_notSyn {it : OutboundItem} {d : DataFrame} (h : it.frame = .data d) : it.isSynStream = false := by
  simp [OutboundItem.isSynStream,h]

theorem Queues.accept {c : Conn} (hi : Queues c) (item : OutboundItem) : Queues (c.accept item) := by
  have hd : ∀ k x, deferredIn (c.accept item).streams k = some x → x.isSynStream = false := by
    intro k x hx
    rw [(accept_fields c item).2.2.2.2.1,deferredIn_marked] at hx
    exact hi.deferred k x hx
  cases hs : item.isSynStream with
  | true =>
    have h := Queues.push hi.orderSs hi.syn hs
    refine ⟨?_,?_,?_,?_,hd⟩
    · simpa [hs] using hi.order
    · simpa [hs] using h.1
    · simpa [hs] using hi.plain
    · simpa [hs] using h.2
  | false =>
    have h := Queues.push hi.order hi.plain hs
    refine ⟨?_,?_,?_,?_,hd⟩
    · simpa [hs] using h.1
    · simpa [hs] using hi.orderSs
    · simpa [hs] using h.2
    · simpa [hs] using hi.syn

/-- An item of a body is put into its stream. -/
theorem Queues.defer {streams : Int → Option Life} {id : Int} {l : Life} {item : OutboundItem}
    (hs : item.isSynStream = false) (h : ∀ k x, deferredIn streams k = some x → x.isSynStream = false) :
    ∀ k x, deferredIn (Function.update streams id (some {l with deferred := some item})) k = some x →
      x.isSynStream = false := by
  intro k x hx
  rw [deferredIn_update] at hx
  split at hx
  · cases hx
    exact hs
  · exact h k x hx

/-- A new stream has nothing deferred. -/
theorem Queues.fresh {streams : Int → Option Life} {id : Int} {l : Life} (hl : l.deferred = none)
    (h : ∀ k x, deferredIn streams k = some x → x.isSynStream = false) :
    ∀ k x, deferredIn (Function.update streams id (some l)) k = some x → x.isSynStream = false := by
  intro k x hx
  rw [deferredIn_update] at hx
  split at hx
  · rw [Option.bind_some,hl] at hx
    cases hx
  · exact h k x hx

theorem Queues.move {c c' : Conn} (h : Move c c') (hi : Queues c) : Queues c' := by
  cases h with
  | side h =>
    obtain ⟨hd,hq⟩ := h.deferred
    have hs := h.aside.obSsPq
    have hdef : ∀ k item, deferredIn c'.streams k = some item → item.isSynStream = false :=
      fun k item hk => hi.deferred k item (hd k item hk)
    rcases hq with hq | ⟨k,item,hk,hq⟩
    · exact ⟨hq ▸ hi.order,hs ▸ hi.orderSs,hq ▸ hi.plain,hs ▸ hi.syn,hdef⟩
    · have hp := Queues.push hi.order hi.plain (hi.deferred k item hk)
      exact ⟨hq ▸ hp.1,hs ▸ hi.orderSs,hq ▸ hp.2,hs ▸ hi.syn,hdef⟩
  | accept item ha => exact hi.accept item
  | credential syn item f origin h1 h2 h3 h4 h5 h6 =>
    have hi' : Queues {c with cliCertvec := (c.cliCertvec.put origin).1} := ⟨hi.order,hi.orderSs,hi.plain,hi.syn,hi.deferred⟩
    exact hi'.accept item
  | pop item h1 h2 h3 h4 =>
    have hp := Queues.pop hi.order hi.plain h3
    exact ⟨hp.1,hi.orderSs,hp.2,hi.syn,hi.deferred⟩
  | popSyn item h1 h2 h3 =>
    have hp := Queues.pop hi.orderSs hi.syn h3
    exact ⟨hi.order,hp.1,hi.plain,hp.2,hi.deferred⟩
  | requeue item h1 h2 h3 =>
    have hp := Queues.push hi.orderSs hi.syn h2
    exact ⟨hi.order,hp.1,hi.plain,hp.2,hi.deferred⟩
  | requeueActive item d h1 h2 =>
    have hp := Queues.push hi.order hi.plain (data_notSyn h2)
    exact ⟨hp.1,hi.orderSs,hp.2,hi.syn,hi.deferred⟩
  | defer item d l h1 h2 h3 h4 =>
    exact ⟨hi.order,hi.orderSs,hi.plain,hi.syn,Queues.defer (data_notSyn h2) hi.deferred⟩
  | startOwn item f bytes h1 h2 h3 h4 h5 h6 =>
    exact ⟨hi.order,hi.orderSs,hi.plain,hi.syn,Queues.fresh rfl hi.deferred⟩
  | parkActive item item' d l h1 h2 h3 h4 h5 h6 =>
    exact ⟨hi.order,hi.orderSs,hi.plain,hi.syn,Queues.defer (data_notSyn h4) hi.deferred⟩
  | retouch | drop | start | startData | finish | «continue» =>
    exact ⟨hi.order,hi.orderSs,hi.plain,hi.syn,hi.deferred⟩

theorem queues_invariant : Invariant Queues where
  start P u := ⟨BinaryHeap.isHeap_nil,BinaryHeap.isHeap_nil,nofun,nofun,nofun⟩
  step c c' h hi := by
    cases h with
    | move h => exact hi.move h
    | chunk flags id data hd => exact ⟨hi.order,hi.orderSs,hi.plain,hi.syn,hi.deferred⟩

/-- Every session that can come about has its queues in order. -/
theorem queuesOk_of_reachable {P : Platform} {u : Setup} {s : Session} (h : Reachable P u s) : s.QueuesOk := by
  have hq := queues_invariant.reachable h
  exact ⟨hq.order,hq.orderSs,hq.plain,hq.syn⟩

end Spdylay.Protocol
