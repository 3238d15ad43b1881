import Spdylay.Protocol.Queues
import Spdylay.Protocol.Inversion

/-! Where an outbound item comes from: whatever is queued, held, deferred or written
was accepted once, and only its preparation has touched it since. -/
namespace Spdylay.Protocol
open Library Conn

/-- The places of an item. -/
inductive Conn.Holds (c : Conn) (item : OutboundItem) : Prop
  | queued : item ∈ c.obPq → Holds c item
  | queuedSyn : item ∈ c.obSsPq → Holds c item
  | handed : c.hand = some item → Holds c item
  | active : c.active = some item → Holds c item
  | deferred (k : Int) : deferredIn c.streams k = some item → Holds c item

theorem SameFrame.refl (x : OutFrame) : SameFrame x x := by
  cases x with
  | data d => rfl
  | ctrl f => cases f <;> trivial

theorem SameFrame.trans {x y z : OutFrame} (h1 : SameFrame x y) (h2 : SameFrame y z) : SameFrame x z := by
  cases x with
  | data d =>
    cases y with
    | ctrl f => cases h1
    | data d' =>
      cases z with
      | ctrl f => cases h2
      | data d'' => exact Eq.trans h2 h1
  | ctrl f =>
    cases y with
    | data d' => cases f <;> cases h1
    | ctrl f' =>
      cases f with
      | synStream f =>
        cases f' with
        | synStream f' =>
          cases z with
          | data d => cases h2
          | ctrl f'' =>
            cases f'' with
            | synStream f'' => trivial
            | _ => cases h2
        | _ => cases h1
      | synReply f =>
        cases f' with
        | synReply f' =>
          cases z with
          | data d => cases h2
          | ctrl f'' =>
            cases f'' with
            | synReply f'' => exact Eq.trans h2 h1
            | _ => cases h2
        | _ => cases h1
      | headers f =>
        cases f' with
        | headers f' =>
          cases z with
          | data d => cases h2
          | ctrl f'' =>
            cases f'' with
            | headers f'' => exact Eq.trans h2 h1
            | _ => cases h2
        | _ => cases h1
      | _ =>
        cases h1
        exact h2

/-- The item was somewhere else before, maybe in an earlier version. -/
def Conn.Held (c : Conn) (item : OutboundItem) : Prop :=
  ∃ item0, c.Holds item0 ∧ item0.seq = item.seq ∧ SameFrame item0.frame item.frame

theorem Conn.Holds.held {c : Conn} {item : OutboundItem} (h : c.Holds item) : c.Held item :=
  ⟨item,h,rfl,SameFrame.refl _⟩

theorem held_of_push {c : Conn} {q : List OutboundItem} {item x : OutboundItem} (hq : ∀ y ∈ q, c.Holds y)
    (hi : c.Held item) (hx : x ∈ BinaryHeap.push outboundItemCompar q item) : c.Held x := by
  rcases List.mem_cons.mp ((BinaryHeap.push_perm outboundItemCompar q item).mem_iff.mp hx) with rfl | hx
  · exact hi
  · exact (hq x hx).held

/-- Where the items of the next state were, place by place. -/
theorem held_of {c c' : Conn} {item : OutboundItem} (h : c'.Holds item) (hq : ∀ x ∈ c'.obPq, c.Held x)
    (hs : ∀ x ∈ c'.obSsPq, c.Held x) (hh : ∀ x, c'.hand = some x → c.Held x)
    (ha : ∀ x, c'.active = some x → c.Held x) (hd : ∀ k x, deferredIn c'.streams k = some x → c.Held x) :
    c.Held item := by
  cases h with
  | queued h => exact hq item h
  | queuedSyn h => exact hs item h
  | handed h => exact hh item h
  | active h => exact ha item h
  | deferred k h => exact hd k item h

section
variable {c : Conn}

theorem held_queue (c : Conn) : ∀ x ∈ c.obPq, c.Held x := fun _ h => (Conn.Holds.queued h).held
theorem held_synQueue (c : Conn) : ∀ x ∈ c.obSsPq, c.Held x := fun _ h => (Conn.Holds.queuedSyn h).held
theorem held_hand (c : Conn) : ∀ x, c.hand = some x → c.Held x := fun _ h => (Conn.Holds.handed h).held
theorem held_active (c : Conn) : ∀ x, c.active = some x → c.Held x := fun _ h => (Conn.Holds.active h).held
theorem held_deferred (c : Conn) : ∀ k x, deferredIn c.streams k = some x → c.Held x := fun k _ h => (Conn.Holds.deferred k h).held

theorem held_defer {id : Int} {l : Life} {item : OutboundItem} (hi : c.Held item) :
    ∀ k x, deferredIn (Function.update c.streams id (some {l with deferred := some item})) k = some x → c.Held x := by
  intro k x hx
  rw [deferredIn_update] at hx
  split at hx
  · cases hx
    exact hi
  · exact held_deferred c k x hx

theorem held_accept (item : OutboundItem) {x : OutboundItem} (h : (c.accept item).Holds x) : c.Held x ∨ x = item := by
  have hpush : ∀ {q : List OutboundItem}, (∀ y ∈ q, c.Held y) → x ∈ BinaryHeap.push outboundItemCompar q item →
      c.Held x ∨ x = item := by
    intro q hq hx
    rcases List.mem_cons.mp ((BinaryHeap.push_perm outboundItemCompar q item).mem_iff.mp hx) with rfl | hx
    · exact .inr rfl
    · exact .inl (hq x hx)
  obtain ⟨-,-,-,-,hstreams,hob,hss,hact,hhand,-⟩ := accept_fields c item
  cases h with
  | queued h =>
    rw [hob] at h
    split at h
    · exact .inl (held_queue c x h)
    · exact hpush (held_queue c) h
  | queuedSyn h =>
    rw [hss] at h
    split at h
    · exact hpush (held_synQueue c) h
    · exact .inl (held_synQueue c x h)
  | handed h => exact .inl (held_hand c x (hhand ▸ h))
  | active h => exact .inl (held_active c x (hact ▸ h))
  | deferred k h =>
    rw [hstreams,deferredIn_marked] at h
    exact .inl (held_deferred c k x h)

end

theorem Side.held {c c' : Conn} (h : Side c c') {item : OutboundItem} (hi : c'.Holds item) : c.Held item := by
  obtain ⟨hd,hq⟩ := h.deferred
  have ha := h.aside
  refine held_of hi ?_ (ha.obSsPq ▸ (held_synQueue c)) (ha.hand ▸ (held_hand c)) (ha.active ▸ (held_active c))
    (fun k x hx => held_deferred c k x (hd k x hx))
  rcases hq with hq | ⟨k,x,hk,hq⟩
  · exact hq ▸ (held_queue c)
  · intro y hy
    rw [hq] at hy
    exact held_of_push (fun _ h => .queued h) (held_deferred c k x hk) hy

theorem Move.held {c c' : Conn} (h : Move c c') {item : OutboundItem} (hi : c'.Holds item) :
    c.Held item ∨ .accepted item ∈ c'.log := by
  cases h with
  | side h => exact .inl (h.held hi)
  | accept x ha =>
    rcases held_accept x hi with h | rfl
    · exact .inl h
    · exact .inr (by simp)
  | credential syn x f origin h1 h2 h3 h4 h5 h6 =>
    have hi' := held_accept (c := {c with cliCertvec := (c.cliCertvec.put origin).1}) x hi
    rcases hi' with ⟨y,hy,h⟩ | rfl
    · refine .inl ⟨y,?_,h⟩
      cases hy with
      | queued h => exact .queued h
      | queuedSyn h => exact .queuedSyn h
      | handed h => exact .handed h
      | active h => exact .active h
      | deferred k h => exact .deferred k h
    · exact .inr (by simp)
  | pop x h1 h2 h3 h4 =>
    have hmem := fun y => (BinaryHeap.pop_perm outboundItemCompar h3).mem_iff (a := y)
    refine .inl (held_of hi (fun y hy => held_queue c y ((hmem y).mpr (.tail _ hy))) (held_synQueue c) ?_ (held_active c)
      (held_deferred c))
    intro y hy
    cases hy
    exact held_queue c x ((hmem x).mpr (.head _))
  | popSyn x h1 h2 h3 =>
    have hmem := fun y => (BinaryHeap.pop_perm outboundItemCompar h3).mem_iff (a := y)
    refine .inl (held_of hi (held_queue c) (fun y hy => held_synQueue c y ((hmem y).mpr (.tail _ hy))) ?_ (held_active c)
      (held_deferred c))
    intro y hy
    cases hy
    exact held_synQueue c x ((hmem x).mpr (.head _))
  | retouch x x' h1 h2 h3 =>
    refine .inl (held_of hi (held_queue c) (held_synQueue c) ?_ (held_active c) (held_deferred c))
    intro y hy
    cases hy
    exact ⟨x,.handed h1,h2.symm,h3⟩
  | drop x h1 => exact .inl (held_of hi (held_queue c) (held_synQueue c) nofun (held_active c) (held_deferred c))
  | requeue x h1 h2 h3 =>
    refine .inl (held_of hi (held_queue c) (fun y hy => ?_) nofun (held_active c) (held_deferred c))
    exact held_of_push (fun _ h => .queuedSyn h) (held_hand c x h1) hy
  | defer x d l h1 h2 h3 h4 =>
    exact .inl (held_of hi (held_queue c) (held_synQueue c) nofun (held_active c) (held_defer (held_hand c x h1)))
  | start x f bytes h1 h2 h3 h4 =>
    refine .inl (held_of hi (held_queue c) (held_synQueue c) nofun ?_ (held_deferred c))
    intro y hy
    cases hy
    exact held_hand c x h1
  | startOwn x f bytes h1 h2 h3 h4 h5 h6 =>
    refine .inl (held_of hi (held_queue c) (held_synQueue c) nofun ?_ ?_)
    · intro y hy
      cases hy
      exact held_hand c x h1
    · intro k y hy
      change deferredIn (Function.update c.streams f.streamId _) k = some y at hy
      rw [deferredIn_update] at hy
      split at hy
      · cases hy
      · exact held_deferred c k y hy
  | startData x d bytes frame h1 h2 h3 h4 =>
    refine .inl (held_of hi (held_queue c) (held_synQueue c) nofun ?_ (held_deferred c))
    intro y hy
    cases hy
    exact held_hand c x h1
  | finish x h1 h2 h3 => exact .inl (held_of hi (held_queue c) (held_synQueue c) (held_hand c) nofun (held_deferred c))
  | parkActive x x' d l h1 h2 h3 h4 h5 h6 =>
    exact .inl (held_of hi (held_queue c) (held_synQueue c) (held_hand c) nofun (held_defer ⟨x,.active h1,h2.symm,h3⟩))
  | requeueActive x d h1 h2 =>
    refine .inl (held_of hi (fun y hy => ?_) (held_synQueue c) (held_hand c) nofun (held_deferred c))
    exact held_of_push (fun _ h => .queued h) (held_active c x h1) hy
  | «continue» x x' d bytes frame h1 h2 h3 h4 h5 =>
    refine .inl (held_of hi (held_queue c) (held_synQueue c) (held_hand c) ?_ (held_deferred c))
    intro y hy
    cases hy
    exact ⟨x,.active h1,h2.symm,h3⟩

theorem Step.held {c c' : Conn} (h : Step c c') {item : OutboundItem} (hi : c'.Holds item) :
    c.Held item ∨ .accepted item ∈ c'.log := by
  cases h with
  | move h => exact h.held hi
  | chunk => exact .inl (held_of hi (held_queue c) (held_synQueue c) (held_hand c) (held_active c) (held_deferred c))

/-- The frame was accepted, up to what its preparation fills in. -/
def FromQueue (log : List Event) (x : OutFrame) : Prop := ∃ item, .accepted item ∈ log ∧ SameFrame item.frame x

structure Origins (c : Conn) : Prop where
  items : ∀ item, c.Holds item → FromQueue c.log item.frame
  begun : Guarded (fun pre e => ∀ f, e = .beforeCtrlSend f → FromQueue pre (.ctrl f)) c.log

theorem FromQueue.mono {log log' : List Event} {x : OutFrame} (h : FromQueue log x) (hs : log ⊆ log') :
    FromQueue log' x := by
  obtain ⟨item,hi,hx⟩ := h
  exact ⟨item,hs hi,hx⟩

theorem Origins.held {c : Conn} (ho : Origins c) {item : OutboundItem} (h : c.Held item) : FromQueue c.log item.frame := by
  obtain ⟨item0,h0,-,hsame⟩ := h
  obtain ⟨x,hx,hsame'⟩ := ho.items item0 h0
  exact ⟨x,hx,hsame'.trans hsame⟩

theorem Origins.step {c c' : Conn} (ho : Origins c) (h : Step c c') : Origins c' := by
  refine ⟨?_,?_⟩
  · intro item hi
    rcases h.held hi with hi | hi
    · exact (ho.held hi).mono h.log_grows.subset
    · exact ⟨item,hi,SameFrame.refl _⟩
  · refine h.guarded ho.begun ?_
    rintro e es hm - - f rfl
    have hw : c.active = none ∧ c'.Writes (.ctrl f) := by
      cases f with
      | synStream f => exact ⟨hm.1,hm.2.2.2.2.1⟩
      | _ => exact ⟨hm.1,hm.2.2.1⟩
    obtain ⟨hnone,item,ha,hf⟩ := hw
    rw [← hf]
    rcases h.held (.active ha) with hi | hi
    · exact (ho.held hi).mono (List.subset_append_left _ _)
    · rcases h.mem_log hi with hi | hacc
      · exact ⟨item,List.mem_append_left _ hi,SameFrame.refl _⟩
      · -- an accepted item does not become active at once
        rw [hacc.1,hnone] at ha
        cases ha

theorem origins_invariant : Invariant Origins where
  start P u := by
    refine ⟨?_,guarded_nil⟩
    intro item h
    cases h with
    | queued h => cases h
    | queuedSyn h => cases h
    | handed h => cases h
    | active h => cases h
    | deferred k h => cases h
  step _ _ h ho := ho.step h

end Spdylay.Protocol
