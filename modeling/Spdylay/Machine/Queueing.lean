import Spdylay.Machine.Core

/-! Queueing, closing and the submission functions as moves of the machine. -/
namespace Spdylay.Machine
open Library Session
variable {s : Session} {g : Ghost}

theorem push_core (q : List OutboundItem) (item : OutboundItem) :
    (BinaryHeap.push outboundItemCompar q item : Multiset OutboundItem) = item ::ₘ (q : Multiset OutboundItem) :=
  Multiset.coe_eq_coe.mpr (BinaryHeap.push_perm _ _ _)

/-- The outcome of a push on either queue. -/
theorem pushOb_cases (s : Session) (item : OutboundItem) :
    ((s.pushOb item).2 = none ∧ ∀ g, core (s.pushOb item).1 g = {core s g with obPq := item ::ₘ (core s g).obPq}) ∨
    ((s.pushOb item).2 = some .nomem ∧ ∀ g, core (s.pushOb item).1 g = core s g) := by
  unfold pushOb pqPush
  split_ifs
  · exact .inl ⟨rfl,fun g => congrArg (fun q => {core s g with obPq := q}) (push_core s.obPq.q item)⟩
  · exact .inr ⟨rfl,fun g => rfl⟩
  · exact .inl ⟨rfl,fun g => congrArg (fun q => {core s g with obPq := q}) (push_core s.obPq.q item)⟩

theorem pushObSs_cases (s : Session) (item : OutboundItem) :
    ((s.pushObSs item).2 = none ∧
      ∀ g, core (s.pushObSs item).1 g = {core s g with obSsPq := item ::ₘ (core s g).obSsPq}) ∨
    ((s.pushObSs item).2 = some .nomem ∧ ∀ g, core (s.pushObSs item).1 g = core s g) := by
  unfold pushObSs pqPush
  split_ifs
  · exact .inl ⟨rfl,fun g => congrArg (fun q => {core s g with obSsPq := q}) (push_core s.obSsPq.q item)⟩
  · exact .inr ⟨rfl,fun g => rfl⟩
  · exact .inl ⟨rfl,fun g => congrArg (fun q => {core s g with obSsPq := q}) (push_core s.obSsPq.q item)⟩

theorem pushItem_cases (s : Session) (item : OutboundItem) :
    ((s.pushItem item).2 = none ∧ ∀ g, core (s.pushItem item).1 g = (core s g).enqueue item) ∨
    ((s.pushItem item).2 = some .nomem ∧ ∀ g, core (s.pushItem item).1 g = core s g) := by
  unfold pushItem Core.enqueue
  split_ifs with h
  · exact pushObSs_cases s item
  · exact pushOb_cases s item

theorem modifyStream_steps (s : Session) (streamId : Int) (f : Stream → Stream) (hf) (hr : Restates f) (g : Ghost) :
    Steps (core s g) (core (s.modifyStream streamId f hf) g) := (Act.restate (core s g) streamId f hr).steps

theorem markClosing_steps (s : Session) (frame : OutFrame) (g : Ghost) :
    Steps (core s g) (core (s.markClosing frame) g) := by
  unfold markClosing
  split
  · exact modifyStream_steps _ _ _ _ (by constructor <;> intro _ <;> rfl) g
  · exact .refl

@[simp] theorem markClosing_nextSeq (s : Session) (frame : OutFrame) : (s.markClosing frame).nextSeq = s.nextSeq := by
  unfold markClosing
  split <;> rfl

/-- An accepted frame becomes an item of its queue; without memory only a sequence
number may be used up. -/
theorem addFrame_steps (s : Session) (frame : OutFrame) (aux : Option DataProvider) (g : Ghost) :
    Steps (core s g) (core (s.addFrame frame aux).1 g) := by
  unfold addFrame
  split
  · have hm := markClosing_steps s frame g
    have hq : (s.newItem frame aux).seq = (core (s.markClosing frame) g).nextSeq := (markClosing_nextSeq s frame).symm
    -- the sequence number and the mark are set in different fields
    have hc : ∀ f, core (({s.malloc with nextSeq := s.nextSeq+1}).markClosing f) g =
        {core (s.markClosing f) g with nextSeq := (core (s.markClosing f) g).nextSeq+1} := by
      intro f
      unfold markClosing
      split <;> rfl
    dsimp only
    rcases pushItem_cases (({s.malloc with nextSeq := s.nextSeq+1}).markClosing frame) (s.newItem frame aux) with
      ⟨hr,he⟩ | ⟨hr,he⟩
    · rw [hr]
      refine hm.tail ?_
      have hx := Act.accept (core (s.markClosing frame) g) (s.newItem frame aux) hq
      rw [← hc,← he] at hx
      exact hx
    · rw [hr]
      refine hm.tail ?_
      have hx := Act.skipSeq (core (s.markClosing frame) g)
      rw [← hc,← he] at hx
      exact hx
  · exact .refl

theorem addCtrl_steps (s : Session) (f : Frame) (g : Ghost) : Steps (core s g) (core (s.addCtrl f).1 g) := by
  unfold addCtrl
  split
  · exact addFrame_steps s.malloc (.ctrl f) none g
  · exact .refl

/-! The only error of queueing is lack of memory. -/

theorem addFrame_error (s : Session) (frame : OutFrame) (aux : Option DataProvider) (e : Err)
    (h : (s.addFrame frame aux).2 = some e) : e = .nomem := by
  unfold addFrame at h
  split at h
  · dsimp only at h
    rcases pushItem_cases (({s.malloc with nextSeq := s.nextSeq+1}).markClosing frame) (s.newItem frame aux) with
      ⟨hr,-⟩ | ⟨hr,-⟩
    · rw [hr] at h
      cases h
    · rw [hr] at h
      cases h
      rfl
  · cases h
    rfl

theorem addCtrl_error (s : Session) (f : Frame) (e : Err) (h : (s.addCtrl f).2 = some e) : e = .nomem := by
  unfold addCtrl at h
  split at h
  · exact addFrame_error _ _ _ _ h
  · cases h
    rfl

/-! Streams. -/

theorem setState_steps (s : Session) (streamId : Int) (state : StreamState) (g : Ghost) :
    Steps (core s g) (core (s.setState streamId state) g) :=
  modifyStream_steps _ _ _ _ (by constructor <;> intro _ <;> rfl) g

theorem shutdownRd_steps (s : Session) (streamId : Int) (g : Ghost) :
    Steps (core s g) (core (s.shutdownRd streamId) g) :=
  modifyStream_steps _ _ _ _ (by constructor <;> intro _ <;> rfl) g

theorem shutdownWr_steps (s : Session) (streamId : Int) (g : Ghost) :
    Steps (core s g) (core (s.shutdownWr streamId) g) :=
  modifyStream_steps _ _ _ _ (by constructor <;> intro _ <;> rfl) g

theorem emit_steps (s : Session) (e : Event) (g : Ghost) (he : plain e = true) :
    Steps (core s g) (core (s.emit e) g) := (Act.note _ e he).steps

/-- A change made under a condition. -/
theorem ite_steps {s s' : Session} {g : Ghost} {p : Prop} [Decidable p] (h : Steps (core s g) (core s' g)) :
    Steps (core s g) (core (if p then s' else s) g) := by
  split
  · exact h
  · exact .refl

theorem closeStream_steps (s : Session) (streamId : Int) (statusCode : Nat) (g : Ghost) :
    Steps (core s g) (core (s.closeStream streamId statusCode).1 g) := by
  unfold closeStream
  split
  · rename_i st hst
    have hid : st.streamId = streamId := OrderedTable.find_key hst
    subst hid
    -- reporting the close and doing it are two moves
    have hclose : ∀ s' : Session, s'.streams = s.streams → Steps (core s' g)
        (core (({s'.countClosed st.streamId with
          streams := (s'.countClosed st.streamId).streams.remove st.streamId}).freeDeferred st) g) := by
      intro s' hs'
      have hf : (core s' g).streams.find st.streamId = some st := by
        change s'.streams.find st.streamId = some st
        rw [hs']
        exact hst
      have hx := (Act.close (core s' g) st.streamId st hf).steps
      have hcore : (core s' g).close st = core (({s'.countClosed st.streamId with
          streams := (s'.countClosed st.streamId).streams.remove st.streamId}).freeDeferred st) g := by
        unfold Core.close Core.freeDeferred freeDeferred Core.countClosed countClosed
        have hmine : Core.isMine (core s' g).server st.streamId = s'.isMyStreamId st.streamId := rfl
        rw [hmine]
        cases st.deferredData <;> cases s'.isMyStreamId st.streamId <;> rfl
      rwa [hcore] at hx
    dsimp only
    by_cases hi : st.state ≠ .initial
    · rw [if_pos hi]
      exact (emit_steps s (.streamClose st.streamId statusCode) g rfl).trans (hclose _ rfl)
    · rw [if_neg hi]
      exact hclose s rfl
  · exact .refl

theorem closeStreamIfShutRdwr_steps (s : Session) (streamId : Int) (g : Ghost) :
    Steps (core s g) (core (s.closeStreamIfShutRdwr streamId) g) := by
  unfold closeStreamIfShutRdwr
  split
  · split
    · exact closeStream_steps s streamId statusOk g
    · exact .refl
  · exact .refl

theorem closePushedStreams_steps (s : Session) (streamId : Int) (statusCode : Nat) (g : Ghost) :
    Steps (core s g) (core (s.closePushedStreams streamId statusCode) g) := by
  unfold closePushedStreams
  split
  · rename_i st hst
    clear hst
    generalize st.pushedStreams = ids
    induction ids generalizing s with
    | nil => exact .refl
    | cons id ids ih => exact (closeStream_steps s id statusCode g).trans (ih _)
  · exact .refl

/-! The submission functions. -/

@[simp] theorem core_mallocs (n : Nat) (s : Session) (g : Ghost) : core (mallocs n s).1 g = core s g := by
  induction n generalizing s with
  | zero => rfl
  | succ n ih =>
    unfold mallocs
    split
    · rw [ih]
      rfl
    · rfl

/-- Allocating for a frame and queueing it. -/
theorem mallocs_addFrame_steps (n : Nat) (s : Session) (frame : OutFrame) (aux : Option DataProvider) (g : Ghost) :
    Steps (core s g) (core ((mallocs n s).1.addFrame frame aux).1 g) := by
  have h := addFrame_steps (mallocs n s).1 frame aux g
  rwa [core_mallocs] at h

theorem mallocs_steps (n : Nat) (s : Session) (g : Ghost) : Steps (core s g) (core (mallocs n s).1 g) := by
  rw [core_mallocs]

theorem submitSynStreamShared_steps (P : Platform) (s : Session) (flags : Nat) (assocStreamId : Int) (pri : Nat)
    (nv : List Bytes) (dataPrd : Option DataProvider) (g : Ghost) :
    Steps (core s g) (core (s.submitSynStreamShared P flags assocStreamId pri nv dataPrd).1 g) := by
  unfold submitSynStreamShared
  dsimp only
  split_ifs
  any_goals exact .refl
  any_goals exact mallocs_addFrame_steps _ s _ _ g
  any_goals exact mallocs_steps _ s g

/-- The submissions of a list for a stream, which differ in the frame only. -/
theorem submitHeaderBlock_steps (nv : List Bytes) (n : Nat) (s : Session) (frame : OutFrame)
    (aux : Option DataProvider) (g : Ghost) :
    Steps (core s g) (core (if !frameNvCheckNull nv then (s,some Err.invalidArgument)
      else if (mallocs n s).2 then (mallocs n s).1.addFrame frame aux
      else ((mallocs n s).1,some .nomem)).1 g) := by
  split_ifs
  · exact .refl
  · exact mallocs_addFrame_steps n s frame aux g
  · exact mallocs_steps n s g

theorem submitSettings_steps (P : Platform) (s : Session) (flags : Nat) (iv : List SettingsEntry) (g : Ghost) :
    Steps (core s g) (core (s.submitSettings P flags iv).1 g) := by
  unfold submitSettings
  dsimp only
  split_ifs
  · exact .refl
  · have h := mallocs_addFrame_steps 2 s
      (.ctrl (.settings (frameSettingsInit s.version.num flags (frameIvSort P iv)))) none g
    split
    · exact h
    · exact h
  · exact mallocs_steps 2 s g

theorem submitData_steps (s : Session) (streamId : Int) (flags : Nat) (prd : DataProvider) (g : Ghost) :
    Steps (core s g) (core (s.submitData streamId flags prd).1 g) := by
  unfold submitData
  split
  · exact addFrame_steps s.malloc _ none g
  · exact .refl

theorem submitWindowUpdate_steps (s : Session) (streamId delta : Int) (g : Ghost) :
    Steps (core s g) (core (s.submitWindowUpdate streamId delta).1 g) := by
  unfold submitWindowUpdate
  split
  · exact .refl
  · split
    · exact (modifyStream_steps s streamId _ _ (by constructor <;> intro _ <;> rfl) g).trans (addCtrl_steps _ _ g)
    · exact .refl

/-- Putting a deferred item back into its queue, whoever asks for it. -/
theorem requeueDeferred_steps {s : Session} {streamId : Int} {st : Stream} {item : OutboundItem} (g : Ghost)
    (hst : s.getStream streamId = some st) (hitem : st.deferredData = some item)
    (hr : (s.pushOb item).2 = none) : Steps (core s g) (core ((s.pushOb item).1.detachDeferredData streamId) g) := by
  rcases pushOb_cases s item with ⟨-,he⟩ | ⟨hn,-⟩
  · have hx := (Act.resume (core s g) streamId st item hst hitem).steps
    have hc : core ((s.pushOb item).1.detachDeferredData streamId) g =
        (core (s.pushOb item).1 g).detach streamId := rfl
    rw [hc,he]
    exact hx
  · rw [hn] at hr
    cases hr

theorem resumeData_steps (s : Session) (streamId : Int) (g : Ghost) :
    Steps (core s g) (core (s.resumeData streamId).1 g) := by
  unfold resumeData
  split
  · rename_i st hst
    split
    · rename_i item hitem
      split
      · exact .refl
      · dsimp only
        rcases pushOb_cases s item with ⟨hr,-⟩ | ⟨hr,he⟩
        · rw [hr]
          exact requeueDeferred_steps g hst hitem hr
        · rw [hr]
          dsimp only
          rw [he]
    · exact .refl
  · exact .refl

end Spdylay.Machine
