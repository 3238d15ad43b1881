import Spdylay.Protocol.WriteOrder

/-! How often the close of a stream is reported. -/
namespace Spdylay.Protocol
open Library Session Conn

def ClosesStream (id : Int) : Event → Bool
  | .streamClose k _ => k = id
  | _ => false

/-- How often the close of the stream has been reported. -/
def closes (id : Int) (log : List Event) : Nat := log.countP (ClosesStream id)

/-- A stream is closed after it was opened, and once. -/
def ClosesOnce (pre : List Event) (e : Event) : Prop :=
  ∀ id, ClosesStream id e = true → Opened pre id ∧ ∀ x ∈ pre, ClosesStream id x = false

/-- `unopened` is about the SYN_STREAMs that are accepted and open no stream. -/
structure Closed (c : Conn) : Prop where
  opened : ∀ id l, c.streams id = some l → Opened c.log id
  closed : ∀ id x, x ∈ c.log → ClosesStream id x = true → c.Used id ∧ c.streams id = none
  unopened : ∀ f, .ctrlRecv (.synStream f) ∈ c.log → (flagFin f.hd.flags && flagUnidirectional f.hd.flags) = true →
    ∃ x ∈ c.log, ClosesStream f.streamId x = true
  once : Guarded ClosesOnce c.log

theorem streamClose_of_closesStream {id : Int} {x : Event} (h : ClosesStream id x = true) :
    ∃ statusCode, x = .streamClose id statusCode := by
  cases x with
  | streamClose k statusCode =>
    obtain rfl := of_decide_eq_true h
    exact ⟨statusCode,rfl⟩
  | _ => cases h

/-- No close of a stream comes before another one in one step. -/
theorem ahead_not_closes {id k : Int} {statusCode : Nat} {x : Event} (h : Ahead (.streamClose id statusCode) x) :
    ClosesStream k x = false := by
  cases x with
  | streamClose j n => cases h
  | _ => rfl

namespace Closed
variable {c c' : Conn} (hc : Closed c) (h : Step c c')
include hc h

theorem step_opened (id : Int) (l' : Life) (hl' : c'.streams id = some l') : Opened c'.log id := by
  rcases h.lives id l' hl' with ⟨-,-,hb⟩ | ⟨l,hl,-⟩
  · rcases hb with ⟨-,-,-,f,hid,-,hf⟩ | ⟨-,-,f,hid,-,hf⟩
    · exact .inl ⟨f,hid,hf⟩
    · exact .inr ⟨f,hid,hf⟩
  · exact (hc.opened id l hl).mono h.log_grows.subset

theorem step_closed (hr : Records c) (id : Int) (x : Event) (hx : x ∈ c'.log) (hk : ClosesStream id x = true) :
    c'.Used id ∧ c'.streams id = none := by
  rcases h.mem_log hx with hx | hx
  · obtain ⟨hu,hn⟩ := hc.closed id x hx hk
    exact ⟨h.later.used hu,hr.ids.gone h hu hn⟩
  · obtain ⟨statusCode,rfl⟩ := streamClose_of_closesStream hk
    rcases hx with ⟨l,hl,-,hn⟩ | ⟨hp,hlast,hs,-⟩
    · exact ⟨h.later.used (hr.ids.used id l hl),hn⟩
    · refine ⟨?_,?_⟩
      · unfold Conn.Used
        rw [h.later.isMine,hp.2.1,hlast]
        simp
      · rw [hs]
        cases hl : c.streams id with
        | none => rfl
        | some l => exact absurd (hr.ids.used id l hl) (newPeerId_fresh hp)

theorem step_unopened (f : SynStream) (hf : .ctrlRecv (.synStream f) ∈ c'.log)
    (hfu : (flagFin f.hd.flags && flagUnidirectional f.hd.flags) = true) :
    ∃ x ∈ c'.log, ClosesStream f.streamId x = true := by
  rcases h.mem_log hf with hf | ⟨-,-,-,-,hclose,-⟩
  · obtain ⟨x,hx,hk⟩ := hc.unopened f hf hfu
    exact ⟨x,h.log_grows.subset hx,hk⟩
  · exact ⟨_,hclose hfu,decide_eq_true rfl⟩

theorem step_once : Guarded ClosesOnce c'.log := by
  refine h.guarded hc.once ?_
  intro e es hm ha hrep id hk
  obtain ⟨statusCode,rfl⟩ := streamClose_of_closesStream hk
  have hold : ¬(c.Used id ∧ c.streams id = none) := by
    rintro ⟨hu,hn⟩
    rcases hm with ⟨l,hl,-⟩ | ⟨hp,-⟩
    · rw [hn] at hl
      cases hl
    · exact newPeerId_fresh hp hu
  refine ⟨?_,?_⟩
  · rcases hrep with hs | ⟨f,hid,hf⟩
    · obtain ⟨l,hl⟩ := Option.ne_none_iff_exists'.mp hs
      exact (hc.opened id l hl).mono (List.subset_append_left _ _)
    · exact .inr ⟨f,hid,List.mem_append_right _ hf⟩
  · intro x hx
    rcases List.mem_append.mp hx with hx | hx
    · exact Bool.eq_false_iff.mpr (fun hk => hold (hc.closed id x hx hk))
    · exact ahead_not_closes (ha x hx)

theorem step (hr : Records c) : Closed c' where
  opened := hc.step_opened h
  closed := hc.step_closed h hr
  unopened := hc.step_unopened h
  once := hc.step_once h

end Closed

theorem closed_invariant : Invariant (fun c => Records c ∧ Closed c) := by
  refine records_invariant.with ?_ ?_
  · intro P u
    have hlog : ∀ e, e ∉ (initialConn P u).log := fun e => List.not_mem_nil
    exact ⟨fun _ _ h => (by cases h),fun _ x hx => absurd hx (hlog x),fun _ hx => absurd hx (hlog _),guarded_nil⟩
  · exact fun c c' h hr _ hc => hc.step h hr

theorem Closed.closes_le {c : Conn} (hc : Closed c) (id : Int) : closes id c.log ≤ 1 :=
  (hc.once.imp (fun _ _ h hk => (h id hk).2)).countP_le_one (ClosesStream id)

theorem Closed.closes_eq_one {c : Conn} (hc : Closed c) {id : Int} {x : Event} (hx : x ∈ c.log)
    (hk : ClosesStream id x = true) : closes id c.log = 1 :=
  le_antisymm (hc.closes_le id) (List.countP_pos_iff.mpr ⟨x,hx,hk⟩)

theorem Closed.closes_eq_zero {c : Conn} (hc : Closed c) {id : Int} {l : Life} (hl : c.streams id = some l) :
    closes id c.log = 0 := by
  refine List.countP_eq_zero.mpr ?_
  intro x hx hk
  have hn := (hc.closed id x hx hk).2
  rw [hl] at hn
  cases hn

/-- A stream that is not in its first state any more is there until its close is
reported. -/
def Accounted (id : Int) (c : Conn) : Prop :=
  (∃ l, c.streams id = some l ∧ l.state ≠ .initial) ∨ ∃ x ∈ c.log, ClosesStream id x = true

theorem Accounted.step {c c' : Conn} {id : Int} (h : Step c c') (ha : Accounted id c) (hu : c.Used id) (hi : Ids c) :
    Accounted id c' := by
  rcases ha with ⟨l,hl,hs⟩ | ⟨x,hx,hk⟩
  · cases hl' : c'.streams id with
    | none =>
      obtain ⟨statusCode,hlog⟩ := h.removed hl hl'
      refine .inr ⟨.streamClose id statusCode,?_,decide_eq_true rfl⟩
      rw [hlog]
      refine List.mem_append_right _ ?_
      simp [closeEvents,hs]
    | some l' =>
      obtain ⟨l0,hl0,hg⟩ := hi.old h hu hl'
      rw [hl] at hl0
      cases hl0
      refine .inl ⟨l',hl',?_⟩
      rcases hg.state with hg | hg | ⟨-,-,hg⟩ | ⟨f,-,-,-,hg⟩ | ⟨f,-,-,-,hg⟩
      · rwa [hg]
      all_goals
        rw [hg]
        nofun
  · exact .inr ⟨x,h.log_grows.subset hx,hk⟩

/-- Every stream that has left its first state and is gone was reported once. -/
theorem Closed.reported {c c' : Conn} {id : Int} {l : Life} (h : Steps c c') (hc : Records c ∧ Closed c)
    (hl : c.streams id = some l) (hs : l.state ≠ .initial) (hn : c'.streams id = none) :
    closes id c.log = 0 ∧ closes id c'.log = 1 := by
  have hkeep : (Records c' ∧ Closed c') ∧ c'.Used id ∧ Accounted id c' := by
    refine keeps_of_steps (I := fun c => (Records c ∧ Closed c) ∧ c.Used id ∧ Accounted id c) ?_ h ⟨hc,hc.1.ids.used id l hl,.inl ⟨l,hl,hs⟩⟩
    rintro c1 c2 h12 ⟨h1,hu,ha⟩
    exact ⟨closed_invariant.step c1 c2 h12 h1,h12.later.used hu,ha.step h12 hu h1.1.ids⟩
  obtain ⟨⟨-,hc'⟩,-,ha⟩ := hkeep
  refine ⟨hc.2.closes_eq_zero hl,?_⟩
  rcases ha with ⟨l',hl',-⟩ | ⟨x,hx,hk⟩
  · rw [hn] at hl'
    cases hl'
  · exact hc'.closes_eq_one hx hk

/-- A stream in its first state is removed by a write only when its SYN_STREAM is
complete, and has left that state then. -/
theorem Closed.reported_write {s : Session} {item : OutboundItem} {id : Int} {st : Stream}
    (hc : Records (conn s none) ∧ Closed (conn s none)) (ha : s.aob.item = some item)
    (hst : s.getStream id = some st) (hn : (s.sendWrite item).1.getStream id = none) :
    closes id s.host.log = 0 ∧ closes id (s.sendWrite item).1.host.log = 1 := by
  have hl := conn_find none hst
  have hn' := conn_find_none none hn
  by_cases hs : st.state = .initial
  · obtain ⟨f,rfl,item0,ha0,hf⟩ := hc.1.initial id _ hl hs
    cases ha0.symm.trans ha
    rcases sendWrite_ctrl ha hf with hsame | ⟨bytes,hm⟩
    · rw [hsame,hl] at hn'
      cases hn'
    · have h1 := closed_invariant.step _ _ (.move (.side (.note (conn s none) (.sent bytes) rfl))) hc
      have h2 := closed_invariant.step _ _ (.move (.side (.complete _ item (.synStream f) ha hf))) h1
      refine ⟨hc.2.closes_eq_zero hl,(Closed.reported hm.steps h2 (l := {life st with
        state := .opening, shutWr := st.shutWr || flagFin f.hd.flags,
        shutRd := st.shutRd || flagUnidirectional f.hd.flags}) ?_ nofun hn').2⟩
      simp only [sent_streams,Conn.completed,Conn.note,Function.update_self,hl]
      rfl
  · exact Closed.reported (sendWrite_moves ha).steps hc hl hs hn'

/-- In every session that can come about the close of a stream is reported at most
once, and only after the stream was opened or its SYN_STREAM accepted. It is reported
once for a SYN_STREAM with FIN that is unidirectional, for every stream that is past
its first state and disappears, and for every stream that a write removes. -/
theorem streams_close_once (P : Platform) (u : Setup) (s : Session) (h : Reachable P u s) (id : Int) :
    closes id s.host.log ≤ 1 ∧
    (∀ pre statusCode post, s.host.log = pre ++ .streamClose id statusCode :: post → Opened pre id) ∧
    (∀ f, .ctrlRecv (.synStream f) ∈ s.host.log → f.streamId = id → flagFin f.hd.flags = true →
      flagUnidirectional f.hd.flags = true → closes id s.host.log = 1) ∧
    (∀ s' st, Turns P s s' → s.getStream id = some st → st.state ≠ .initial → s'.getStream id = none →
      closes id s.host.log = 0 ∧ closes id s'.host.log = 1) ∧
    ∀ item st, s.aob.item = some item → s.getStream id = some st → (s.sendWrite item).1.getStream id = none →
      closes id s.host.log = 0 ∧ closes id (s.sendWrite item).1.host.log = 1 := by
  have hc := closed_invariant.reachable h
  refine ⟨hc.2.closes_le id,?_,?_,?_,?_⟩
  · intro pre statusCode post hcut
    exact (hc.2.once pre _ post hcut id (decide_eq_true rfl)).1
  · rintro f hf rfl hfin huni
    obtain ⟨x,hx,hk⟩ := hc.2.unopened f hf (by rw [hfin,huni]; rfl)
    exact hc.2.closes_eq_one hx hk
  · intro s' st ht hst hs hn
    exact Closed.reported (turns_steps ht) hc (conn_find none hst) hs (conn_find_none none hn)
  · intro item st ha hst hn
    exact Closed.reported_write hc ha hst hn

/-- Answering the first request closes its stream. -/
theorem answered_request_closes_once : closes 1 answeredRequest.host.log = 1 ∧ closes 1 answeredRequest.host.log ≤ 1 :=
  ⟨by decide +kernel,(streams_close_once peerPlatform _ answeredRequest (run_reachable _ _ _) 1).1⟩

end Spdylay.Protocol
