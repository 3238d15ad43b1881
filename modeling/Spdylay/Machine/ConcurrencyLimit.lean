import Spdylay.Machine.ItemOwnership

/-! The limit on concurrent outgoing streams. A SYN_STREAM is taken from its queue
below the limit only, except where the other queue has an item too. -/
namespace Spdylay.Machine
open Library Session

/-- The state after some iterations of the send loop, or where the loop ends. -/
def sendStates (P : Platform) : Nat → Session → Session
  | 0, s => s
  | k+1, s =>
    match s.sendIter P with
    | (s', none) => sendStates P k s'
    | (s', some _) => s'

theorem sendStates_steps (P : Platform) (k : Nat) (s : Session) {g : Ghost} (hg : g.hand = none) :
    OutSteps (core s g) (core (sendStates P k s) g) := by
  induction k generalizing s with
  | zero => exact .refl
  | succ k ih =>
    have h := sendIter_steps P (s := s) hg
    unfold sendStates
    split
    · rename_i s' heq
      rw [heq] at h
      exact h.trans (ih s')
    · rename_i s' r heq
      rw [heq] at h
      exact h

/-- An invariant holds within every call of send too. -/
theorem Invariant.sending {I : Core → Prop} (h : Invariant I) (P : Platform) (u : Setup) (ops : List Op) (k : Nat) :
    ∃ g, I (core (sendStates P k ((u.start P).run P ops)) g) := by
  obtain ⟨g,hi,hg,-⟩ := h.run P u ops
  exact ⟨g,h.sysSteps (sendStates_steps P k _ hg).sysSteps hi⟩

end Spdylay.Machine

namespace Spdylay
open Machine Library

/-- The item that the next iteration of the send loop hands to prep_frame. -/
def Session.nextPrepared (s : Session) : Option OutboundItem :=
  match s.aob.item with
  | some _ => none
  | none => s.popNextObItem.map Prod.fst

theorem pqTop_isSome (pq : Pq) : (pqTop pq).isSome ↔ pq.q ≠ [] := by
  unfold pqTop BinaryHeap.top
  cases pq.q <;> simp

/-- Before every iteration of every call of send: the item to be prepared is no
SYN_STREAM at the limit, if and only if it is not the case that a new frame is to be
begun at the limit with items in both queues. -/
theorem syn_stream_limit_kept_iff (P : Platform) (u : Setup) (ops : List Op) (k : Nat) :
    let s := sendStates P k ((u.start P).run P ops)
    let limit := s.remoteSettings settingsMaxConcurrentStreams ≤ s.numOutgoingStreams
    (∀ item, s.nextPrepared = some item → item.isSynStream = true → ¬limit) ↔
      ¬(s.aob.item = none ∧ limit ∧ s.obPq.q ≠ [] ∧ s.obSsPq.q ≠ []) := by
  intro s limit
  obtain ⟨g,h⟩ := owned_invariant.sending P u ops k
  have hplain : ∀ item, pqTop s.obPq = some item → item.isSynStream = false :=
    fun item ht => h.plainQueue item (Multiset.mem_coe.mpr (List.mem_of_mem_head? ht))
  have hsyn : ∀ item, pqTop s.obSsPq = some item → item.isSynStream = true :=
    fun item ht => h.synQueue item (Multiset.mem_coe.mpr (List.mem_of_mem_head? ht))
  have hmax : s.isOutgoingConcurrentStreamsMax = decide limit := rfl
  rw [← pqTop_isSome,← pqTop_isSome]
  cases ha : s.aob.item with
  | some item => simp [Session.nextPrepared,ha]
  | none =>
    simp only [Session.nextPrepared,ha,Session.popNextObItem,hmax]
    cases hp : pqTop s.obPq with
    | none =>
      cases hq : pqTop s.obSsPq with
      | none => simp
      | some syn =>
        by_cases hl : limit
        · simp [hl]
        · simp [hl]
    | some item =>
      have hi := hplain item hp
      cases hq : pqTop s.obSsPq with
      | none => simp [hi]
      | some syn => simp [hsyn syn hq]

/-- The peer allows no stream at all; a PING and a request are submitted. -/
def refusedRequest : List Op :=
  [.memRecv [128,3,0,4,0,0,0,12,0,0,0,1,0,0,0,4,0,0,0,0],.submitPing,.submitRequest 0 [] none]

/-- A SYN_STREAM that waits beside a PING is prepared, and its stream opened, at the
limit. -/
theorem syn_stream_prepared_at_limit :
    (¬∀ (P : Platform) (u : Setup) (ops : List Op) (k : Nat) (item : OutboundItem),
      (sendStates P k ((u.start P).run P ops)).nextPrepared = some item → item.isSynStream = true →
        (sendStates P k ((u.start P).run P ops)).numOutgoingStreams <
          (sendStates P k ((u.start P).run P ops)).remoteSettings settingsMaxConcurrentStreams) ∧
      let s := ((sampleClient .int32 [.accept 1000] []).start samplePlatform).run samplePlatform refusedRequest
      s.remoteSettings settingsMaxConcurrentStreams = 0 ∧ s.numOutgoingStreams = 0 ∧
        (s.step samplePlatform .send).numOutgoingStreams = 1 := by
  refine ⟨?_,by decide +kernel⟩
  intro h
  have hn := h samplePlatform (sampleClient .int32 [.accept 1000] []) refusedRequest 0
    ⟨.ctrl (.synStream ⟨⟨3,1,0⟩,0,0,0,0,[]⟩),none,0,1⟩ (by decide +kernel) rfl
  revert hn
  decide +kernel

end Spdylay
