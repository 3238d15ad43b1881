import Spdylay.Library.HeapOrder
import Spdylay.Machine.ConcurrencyLimit

/-! The two functions that choose the next outbound item. Peeking compares the tops
of both queues; popping takes the SYN_STREAM whenever both have an item. -/
namespace Spdylay
open Library

/-- Smaller priority value first, then in the order of submission. -/
def Precedes (x y : OutboundItem) : Prop := x.pri < y.pri ∨ (x.pri = y.pri ∧ x.seq < y.seq)

instance (x y : OutboundItem) : Decidable (Precedes x y) := by unfold Precedes; infer_instance

theorem outboundItemCompar_le {x y : OutboundItem} : outboundItemCompar x y ≤ 0 ↔ ¬Precedes y x := by
  unfold outboundItemCompar Precedes
  split_ifs <;> omega

theorem outboundItemCompar_order : BinaryHeap.TotalOrder outboundItemCompar := by
  constructor
  · intro x y
    rw [outboundItemCompar_le,outboundItemCompar_le]
    unfold Precedes
    omega
  · intro x y z
    rw [outboundItemCompar_le,outboundItemCompar_le,outboundItemCompar_le]
    unfold Precedes
    omega

/-- A heap of items. -/
abbrev Pq.Ordered (pq : Pq) : Prop := BinaryHeap.IsHeap outboundItemCompar pq.q

theorem Pq.Ordered.top {pq : Pq} (h : pq.Ordered) {x y : OutboundItem} (hx : pqTop pq = some x) (hy : y ∈ pq.q) :
    ¬Precedes y x :=
  outboundItemCompar_le.mp (BinaryHeap.top_le outboundItemCompar_order h hx hy)

namespace Session

/-- What every pair of queues keeps: heap order, and the SYN_STREAMs apart. -/
structure QueuesOk (s : Session) : Prop where
  order : s.obPq.Ordered
  orderSs : s.obSsPq.Ordered
  plain : ∀ item ∈ s.obPq.q, item.isSynStream = false
  syn : ∀ item ∈ s.obSsPq.q, item.isSynStream = true

/-- The items that may be sent now. -/
def MaySend (s : Session) (item : OutboundItem) : Prop :=
  item ∈ s.obPq.q ∨ (item ∈ s.obSsPq.q ∧ s.isOutgoingConcurrentStreamsMax = false)

/-- Popping returns what peeking returns, a least item among those that may be sent
now, and removes exactly that item. -/
def PeekPopAgree (s : Session) : Prop :=
  s.popNextObItem.map Prod.fst = s.getNextObItem ∧
  ∀ item s', s.popNextObItem = some (item,s') →
    (s.MaySend item ∧ ∀ other, s.MaySend other → ¬Precedes other item) ∧
    (s.obPq.q ++ s.obSsPq.q).Perm (item :: (s'.obPq.q ++ s'.obSsPq.q)) ∧
    s' = {s with obPq := s'.obPq, obSsPq := s'.obSsPq}

end Session
open Session

theorem pqPop_perm {pq : Pq} {item : OutboundItem} (h : pqTop pq = some item) : pq.q.Perm (item :: (pqPop pq).q) :=
  BinaryHeap.pop_perm outboundItemCompar h

theorem pqTop_eq_none {pq : Pq} : pqTop pq = none ↔ pq.q = [] := BinaryHeap.top_eq_none

/-- Peeking and popping agree exactly where popping does not pass over an item of
the other queue: with items in both queues, the limit is not reached and the first
item of the other queue does not precede the first SYN_STREAM. -/
theorem peek_pop_agree_iff (s : Session) (hq : s.QueuesOk) :
    s.PeekPopAgree ↔ ∀ item syn, pqTop s.obPq = some item → pqTop s.obSsPq = some syn →
      s.isOutgoingConcurrentStreamsMax = false ∧ ¬Precedes item syn := by
  unfold PeekPopAgree MaySend
  cases hp : pqTop s.obPq with
  | none =>
    have he := pqTop_eq_none.mp hp
    refine ⟨by rintro _ _ _ ⟨⟩,fun _ => ?_⟩
    cases hs : pqTop s.obSsPq with
    | none => simp [popNextObItem,getNextObItem,hp,hs]
    | some syn =>
      cases hl : s.isOutgoingConcurrentStreamsMax with
      | true => simp [popNextObItem,getNextObItem,hp,hs,hl]
      | false =>
        refine ⟨by simp [popNextObItem,getNextObItem,hp,hs,hl],?_⟩
        intro item s' h
        simp only [popNextObItem,hp,hs,hl] at h
        cases h
        refine ⟨⟨.inr ⟨BinaryHeap.top_mem hs,rfl⟩,?_⟩,?_,rfl⟩
        · rintro other (ho | ⟨ho,-⟩)
          · rw [he] at ho
            cases ho
          · exact hq.orderSs.top hs ho
        · rw [he]
          exact pqPop_perm hs
  | some item =>
    cases hs : pqTop s.obSsPq with
    | none =>
      have he := pqTop_eq_none.mp hs
      refine ⟨by rintro _ _ _ _ ⟨⟩,fun _ => ?_⟩
      refine ⟨by simp [popNextObItem,getNextObItem,hp,hs],?_⟩
      intro item' s' h
      simp only [popNextObItem,hp,hs] at h
      cases h
      refine ⟨⟨.inl (BinaryHeap.top_mem hp),?_⟩,?_,rfl⟩
      · rintro other (ho | ⟨ho,-⟩)
        · exact hq.order.top hp ho
        · rw [he] at ho
          cases ho
      · exact (pqPop_perm hp).append_right _
    | some syn =>
      have hne : item ≠ syn := by
        rintro rfl
        have h1 := hq.plain item (BinaryHeap.top_mem hp)
        rw [hq.syn item (BinaryHeap.top_mem hs)] at h1
        cases h1
      constructor
      · rintro ⟨h,-⟩ item' syn' hi hy
        cases hi
        cases hy
        simp only [popNextObItem,getNextObItem,hp,hs,Option.map_some] at h
        split at h
        · exact absurd (Option.some.inj h).symm hne
        · rename_i hc
          exact ⟨Bool.eq_false_iff.mpr (fun hl => hc (.inl hl)),fun hpre => hc (.inr hpre)⟩
      · intro h
        obtain ⟨hl,hpre⟩ := h item syn rfl rfl
        have hc : ¬(s.isOutgoingConcurrentStreamsMax = true ∨ item.pri < syn.pri ∨
            (item.pri = syn.pri ∧ item.seq < syn.seq)) := by
          rw [hl]
          exact fun hx => hpre (hx.resolve_left Bool.false_ne_true)
        refine ⟨by simp only [popNextObItem,getNextObItem,hp,hs,Option.map_some,if_neg hc],?_⟩
        intro item' s' hx
        simp only [popNextObItem,hp,hs] at hx
        cases hx
        refine ⟨⟨.inr ⟨BinaryHeap.top_mem hs,hl⟩,?_⟩,?_,rfl⟩
        · rintro other (ho | ⟨ho,-⟩)
          · -- through the first item of the other queue
            have h1 := hq.order.top hp ho
            unfold Precedes at h1 hpre ⊢
            omega
          · exact hq.orderSs.top hs ho
        · refine ((pqPop_perm hs).append_left _).trans ?_
          exact List.perm_middle

/-- A PING and a request wait. -/
def pingAndRequest : Session :=
  ((sampleClient .int32 [] []).start samplePlatform).run samplePlatform [.submitPing,.submitRequest 0 [] none]

theorem pingAndRequest_queues : pingAndRequest.QueuesOk := by
  have h1 : pingAndRequest.obPq.q = [⟨.ctrl (.ping (framePingInit 3 1)),none,-10,0⟩] := by decide +kernel
  have h2 : pingAndRequest.obSsPq.q = [⟨.ctrl (.synStream ⟨⟨3,1,0⟩,0,0,0,0,[]⟩),none,0,1⟩] := by decide +kernel
  refine ⟨?_,?_,?_,?_⟩
  · rw [Pq.Ordered,h1]
    exact BinaryHeap.push_isHeap outboundItemCompar_order BinaryHeap.isHeap_nil _
  · rw [Pq.Ordered,h2]
    exact BinaryHeap.push_isHeap outboundItemCompar_order BinaryHeap.isHeap_nil _
  · rw [h1]
    decide
  · rw [h2]
    decide

/-- The PING is what peeking returns, the SYN_STREAM what popping returns. -/
theorem request_popped_before_ping : pingAndRequest.QueuesOk ∧ ¬pingAndRequest.PeekPopAgree ∧
    (pingAndRequest.getNextObItem.map OutboundItem.isSynStream = some false) ∧
    (pingAndRequest.popNextObItem.map (fun p => p.1.isSynStream) = some true) := by
  refine ⟨pingAndRequest_queues,?_,by decide +kernel,by decide +kernel⟩
  rintro ⟨h,-⟩
  have h' := congrArg (Option.map OutboundItem.isSynStream) h
  revert h'
  decide +kernel

/-- A GOAWAY and a request of higher priority. -/
def goawayAndRequest : Session :=
  ((sampleClient .int32 [] []).start samplePlatform).run samplePlatform [.submitGoaway 0,.submitRequest 0 [] none]

/-- Both queues hold an item, and the two agree on the request. -/
theorem request_peeked_and_popped : goawayAndRequest.PeekPopAgree ∧
    (goawayAndRequest.getNextObItem.map OutboundItem.isSynStream = some true) ∧ goawayAndRequest.obPq.q ≠ [] := by
  have h1 : goawayAndRequest.obPq.q = [⟨.ctrl (.goaway (frameGoawayInit 3 0 0)),none,7,0⟩] := by decide +kernel
  have h2 : goawayAndRequest.obSsPq.q = [⟨.ctrl (.synStream ⟨⟨3,1,0⟩,0,0,0,0,[]⟩),none,0,1⟩] := by decide +kernel
  refine ⟨(peek_pop_agree_iff goawayAndRequest ⟨?_,?_,?_,?_⟩).mpr ?_,by decide +kernel,?_⟩
  · rw [Pq.Ordered,h1]
    exact BinaryHeap.push_isHeap outboundItemCompar_order BinaryHeap.isHeap_nil _
  · rw [Pq.Ordered,h2]
    exact BinaryHeap.push_isHeap outboundItemCompar_order BinaryHeap.isHeap_nil _
  · rw [h1]
    decide
  · rw [h2]
    decide
  · intro item syn hi hs
    have htop : pqTop goawayAndRequest.obPq = some ⟨.ctrl (.goaway (frameGoawayInit 3 0 0)),none,7,0⟩ ∧
        pqTop goawayAndRequest.obSsPq = some ⟨.ctrl (.synStream ⟨⟨3,1,0⟩,0,0,0,0,[]⟩),none,0,1⟩ := by decide +kernel
    cases htop.1.symm.trans hi
    cases htop.2.symm.trans hs
    exact ⟨by decide +kernel,by decide⟩
  · rw [h1]
    exact List.cons_ne_nil _ _

end Spdylay
