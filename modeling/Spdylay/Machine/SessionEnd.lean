import Spdylay.Machine.ItemOwnership

/-! The end of a session. The items that still wait are freed with what holds them, and with that every item
that was ever accepted has been freed once. -/
namespace Spdylay
open Library Machine

namespace Session

/-- Each stream is freed with the item that it keeps deferred, here in the order of the table. -/
def freeStreams (s : Session) : Session := s.streams.entries.foldl freeDeferred s

/-- Items are freed from the top of a queue until it is empty. -/
def obPqFree : Nat → Pq → Session → Session
  | 0, _, s => s
  | n+1, pq, s =>
    match pqTop pq with
    | none => s
    | some item => obPqFree n (pqPop pq) (s.emit (.finished item.seq .deleted))

/-- What the log of the host says when the session is gone. -/
def del (s : Session) : List Event :=
  let s1 := s.freeStreams
  let s2 := obPqFree s1.obPq.q.length s1.obPq s1
  let s3 := obPqFree s2.obSsPq.q.length s2.obSsPq s2
  (s3.activeReset .deleted).host.log

/-- The reports of items that are freed. -/
def freedEvents (freed : List (Nat × Finish)) : List Event := freed.map (fun p => .finished p.1 p.2)

/-- Only frees items. -/
def Frees (t s : Session) (m : Multiset Nat) : Prop :=
  ∃ freed, t = {s with host := {s.host with log := s.host.log ++ freedEvents freed}} ∧
    (freed.map Prod.fst : Multiset Nat) = m

section
variable {s t u : Session} {m m' : Multiset Nat}

theorem Frees.refl (s : Session) : Frees s s 0 := ⟨[], by rw [freedEvents, List.map_nil, List.append_nil], rfl⟩

theorem Frees.trans (h : Frees t s m) (h' : Frees u t m') : Frees u s (m+m') := by
  obtain ⟨ns, rfl, rfl⟩ := h
  obtain ⟨ns', rfl, rfl⟩ := h'
  refine ⟨ns ++ ns', ?_, ?_⟩
  · simp only [freedEvents, List.map_append, List.append_assoc]
  · rw [List.map_append, Multiset.coe_add]

theorem frees_emit (s : Session) (n : Nat) (cause : Finish) : Frees (s.emit (.finished n cause)) s {n} :=
  ⟨[(n, cause)], rfl, rfl⟩

theorem frees_freeDeferred (s : Session) (st : Stream) : Frees (s.freeDeferred st) s (slotSeqs st.deferredData) := by
  unfold freeDeferred
  split
  · rename_i item h
    rw [h, slotSeqs_some]
    exact frees_emit s item.seq _
  · rename_i h
    rw [h]
    exact .refl s

theorem frees_streams (entries : List Stream) (s : Session) : Frees (entries.foldl freeDeferred s) s (deferredSeqs entries) := by
  induction entries generalizing s with
  | nil => exact .refl s
  | cons st entries ih =>
    rw [deferredSeqs_cons]
    exact (frees_freeDeferred s st).trans (ih _)

theorem frees_obPqFree (n : Nat) (pq : Pq) (s : Session) (h : pq.q.length ≤ n) : Frees (obPqFree n pq s) s (seqs pq.q) := by
  induction n generalizing pq s with
  | zero =>
    rw [List.length_eq_zero_iff.mp (Nat.le_zero.mp h)]
    exact .refl s
  | succ n ih =>
    rw [obPqFree]
    split
    · rename_i htop
      rw [BinaryHeap.top_eq_none.mp htop]
      exact .refl s
    · rename_i item htop
      have hperm : pq.q.Perm (item :: (pqPop pq).q) := BinaryHeap.pop_perm outboundItemCompar htop
      have hlen := hperm.length_eq
      rw [List.length_cons] at hlen
      have hseqs : seqs (pq.q : Multiset OutboundItem) = {item.seq}+seqs ((pqPop pq).q : Multiset OutboundItem) := by
        rw [Multiset.coe_eq_coe.mpr hperm, ← Multiset.cons_coe, seqs_cons]
      rw [hseqs]
      exact (frees_emit s item.seq _).trans (ih _ _ (by omega))

theorem frees_activeReset (s : Session) (cause : Finish) :
    ∃ t, Frees t s (slotSeqs s.aob.item) ∧ (s.activeReset cause).host.log = t.host.log := by
  unfold activeReset
  split
  · rename_i item h
    rw [h, slotSeqs_some]
    exact ⟨_, frees_emit s item.seq cause, rfl⟩
  · rename_i h
    rw [h]
    exact ⟨s, .refl s, rfl⟩

theorem Frees.keeps (h : Frees t s m) : t.obPq = s.obPq ∧ t.obSsPq = s.obSsPq ∧ t.aob = s.aob := by
  obtain ⟨ns, rfl, -⟩ := h
  exact ⟨rfl, rfl, rfl⟩

/-- Everything that is still in its place is freed. -/
theorem del_frees (s : Session) :
    ∃ freed, s.del = s.host.log ++ freedEvents freed ∧ (freed.map Prod.fst : Multiset Nat) = s.places := by
  have h1 : Frees s.freeStreams s (deferredSeqs s.streams.entries) := frees_streams _ s
  rw [del]
  generalize s.freeStreams = s1 at h1 ⊢
  have h2 := frees_obPqFree _ s1.obPq s1 (le_refl _)
  generalize obPqFree s1.obPq.q.length s1.obPq s1 = s2 at h2 ⊢
  have h3 := frees_obPqFree _ s2.obSsPq s2 (le_refl _)
  generalize obPqFree s2.obSsPq.q.length s2.obSsPq s2 = s3 at h3 ⊢
  obtain ⟨t, h4, hlog⟩ := frees_activeReset s3 .deleted
  have hss := (h1.trans h2).keeps.2.1
  have haob := ((h1.trans h2).trans h3).keeps.2.2
  obtain ⟨ns, ht, hns⟩ := ((h1.trans h2).trans h3).trans h4
  refine ⟨ns, ?_, ?_⟩
  · rw [hlog, ht]
  · rw [hns, h1.keeps.1, hss, haob, places]
    abel

end
end Session

/-- When a session is deleted after any run, each item that it has ever accepted has been freed, and none of
them twice. -/
theorem session_del_frees_items (P : Platform) (u : Setup) (ops : List Op) :
    let log := ((u.start P).run P ops).del
    (log.filterMap finishedSeq).Nodup ∧ (log.filterMap acceptedSeq).Perm (log.filterMap finishedSeq) := by
  intro log
  obtain ⟨g, h, hg, -⟩ := owned_invariant.run P u ops
  obtain ⟨ns, hlog, hns⟩ := ((u.start P).run P ops).del_frees
  have haccepted : log.filterMap acceptedSeq = ((u.start P).run P ops).host.log.filterMap acceptedSeq := by
    have hnone : (Session.freedEvents ns).filterMap acceptedSeq = [] := by
      simp [Session.freedEvents, List.filterMap_map, Function.comp_def, acceptedSeq]
    change ((u.start P).run P ops).del.filterMap acceptedSeq = _
    rw [hlog, List.filterMap_append, hnone, List.append_nil]
  have hfinished : log.filterMap finishedSeq = ((u.start P).run P ops).host.log.filterMap finishedSeq ++ ns.map Prod.fst := by
    have hall : (Session.freedEvents ns).filterMap finishedSeq = ns.map Prod.fst := by
      simp only [Session.freedEvents, List.filterMap_map, Function.comp_def, finishedSeq]
      exact List.filterMap_eq_map' ▸ rfl
    change ((u.start P).run P ops).del.filterMap finishedSeq = _
    rw [hlog, List.filterMap_append, hall]
  have hheld : (core ((u.start P).run P ops) g).heldSeqs = (ns.map Prod.fst : Multiset Nat) := by
    rw [hns]
    simp only [Core.heldSeqs, core, hg, slotSeqs_none, add_zero, Session.places]
  have hperm : (log.filterMap acceptedSeq).Perm (log.filterMap finishedSeq) := by
    have hbalance := h.balance
    rw [hheld, add_comm, Multiset.coe_add] at hbalance
    rw [haccepted, hfinished]
    exact Multiset.coe_eq_coe.mp hbalance
  refine ⟨?_, hperm⟩
  have hnodup : (log.filterMap acceptedSeq).Nodup := by
    rw [haccepted]
    exact h.nodup
  exact hperm.nodup_iff.mp hnodup

end Spdylay
