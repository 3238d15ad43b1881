import Spdylay.Protocol.Inversion

/-! The streams of a session and what its log says of them. Ids are never used twice;
a stream is open only if its SYN_STREAM was sent or received, and its state tells
which frames were completed for it. -/
namespace Spdylay.Protocol
open Library Conn

/-! Ids. -/

structure Ids (c : Conn) : Prop where
  next : 0 < c.nextStreamId
  parity : c.nextStreamId % 2 = if c.server then 0 else 1
  used : ∀ id l, c.streams id = some l → c.Used id

theorem Ids.next_isMine {c : Conn} (h : Ids c) : c.isMine c.nextStreamId = true := by
  have h1 := h.next
  have h2 := h.parity
  have h3 : (c.nextStreamId : Int).tmod 2 = ((c.nextStreamId % 2 : Nat) : Int) := rfl
  unfold Conn.isMine
  rw [if_neg (by omega),h3,h2]
  cases c.server <;> rfl

theorem Ids.next_fresh {c : Conn} (h : Ids c) : ¬c.Used c.nextStreamId := by
  unfold Conn.Used
  rw [h.next_isMine]
  simp

theorem newPeerId_fresh {c : Conn} {id : Int} (h : c.NewPeerId id) : ¬c.Used id := by
  unfold Conn.Used
  rw [h.2.1]
  exact not_le.mpr h.2.2

theorem Born.fresh {c c' : Conn} {id : Int} {l : Life} (hi : Ids c) (h : Born c c' id l) : ¬c.Used id := by
  rcases h with ⟨rfl,-⟩ | ⟨h,-⟩
  · exact hi.next_fresh
  · exact newPeerId_fresh h

theorem Born.used {c c' : Conn} {id : Int} {l : Life} (hi : Ids c) (hl : Later c c') (h : Born c c' id l) :
    c'.Used id := by
  unfold Conn.Used
  rw [hl.isMine]
  rcases h with ⟨rfl,hn,-⟩ | ⟨hp,hn,-⟩
  · rw [hi.next_isMine,hn]
    simp
  · rw [hp.2.1,hn]
    simp

/-- A stream whose id was used before is an old one. -/
theorem Ids.old {c c' : Conn} (hi : Ids c) (h : Step c c') {id : Int} (hu : c.Used id) {l' : Life}
    (hl : c'.streams id = some l') : ∃ l, c.streams id = some l ∧ Grown c c' id l l' := by
  rcases h.lives id l' hl with ⟨-,-,hb⟩ | h
  · exact absurd hu (hb.fresh hi)
  · exact h

/-- A used id without a stream stays without. -/
theorem Ids.gone {c c' : Conn} (hi : Ids c) (h : Step c c') {id : Int} (hu : c.Used id) (hn : c.streams id = none) :
    c'.streams id = none := by
  cases hl : c'.streams id with
  | none => rfl
  | some l' =>
    obtain ⟨l,hl,-⟩ := hi.old h hu hl
    rw [hn] at hl
    cases hl

theorem Ids.step {c c' : Conn} (h : Step c c') (hi : Ids c) : Ids c' := by
  have hl := h.later
  refine ⟨lt_of_lt_of_le hi.next hl.next,by rw [hl.parity,hl.server]; exact hi.parity,?_⟩
  intro id l' hs
  rcases h.lives id l' hs with ⟨-,-,hb⟩ | ⟨l,hs,-⟩
  · exact hb.used hi hl
  · exact hl.used (hi.used id l hs)

theorem ids_invariant : Invariant Ids where
  start P u := by
    refine ⟨?_,?_,?_⟩
    · unfold initialConn
      dsimp only
      split <;> decide
    · unfold initialConn
      dsimp only
      split <;> rfl
    · intro id l h
      cases h
  step _ _ h hi := hi.step h

/-! The active item. -/

/-- The stream a frame belongs to is of the right side, and its id was used. -/
def Placed (c : Conn) : OutFrame → Prop
  | .ctrl (.synStream f) => c.isMine f.streamId = true ∧ c.Used f.streamId
  | .ctrl (.synReply f) => c.isMine f.streamId = false ∧ c.Used f.streamId
  | .ctrl (.headers f) => c.Used f.streamId
  | .ctrl (.windowUpdate f) => c.Used f.streamId
  | .data d => c.Used d.streamId
  | _ => True

theorem Placed.later {c c' : Conn} (h : Later c c') {x : OutFrame} (hp : Placed c x) : Placed c' x := by
  cases x with
  | data d => exact h.used hp
  | ctrl f =>
    cases f with
    | synStream f => exact ⟨(h.isMine _).trans hp.1,h.used hp.2⟩
    | synReply f => exact ⟨(h.isMine _).trans hp.1,h.used hp.2⟩
    | headers f => exact h.used hp
    | windowUpdate f => exact h.used hp
    | _ => trivial

theorem MayStart.placed {c : Conn} (hi : Ids c) {x : OutFrame} (h : c.MayStart x) : Placed c x := by
  cases x with
  | data d =>
    obtain ⟨l,hw,-⟩ := h
    exact hi.used _ l hw.1
  | ctrl f =>
    cases f with
    | synStream f => exact h.elim
    | synReply f =>
      obtain ⟨l,hl,-,hm,-⟩ := h
      exact ⟨hm,hi.used _ l hl⟩
    | headers f =>
      obtain ⟨l,hw⟩ := h
      exact hi.used _ l hw.1
    | windowUpdate f =>
      obtain ⟨l,hl,-⟩ := h
      exact hi.used _ l hl
    | _ => trivial

/-- The frame that a step begins. -/
theorem Meets.placed {c c' : Conn} (hi : Ids c) (hl : Later c c') {f : Frame} (h : Meets c c' (.beforeCtrlSend f)) :
    Placed c' (.ctrl f) := by
  cases f with
  | synStream f =>
    obtain ⟨-,-,hid,hn,-⟩ := h
    have hm : c'.isMine f.streamId = true := by
      rw [hl.isMine,hid]
      exact hi.next_isMine
    refine ⟨hm,?_⟩
    unfold Conn.Used
    rw [hm,if_pos rfl,hid,hn]
    omega
  | _ => exact (MayStart.placed hi h.2.1).later hl

structure Records (c : Conn) : Prop where
  ids : Ids c
  writes : ∀ x, c.Writes x → Placed c x
  begun : ∀ f, .beforeCtrlSend f ∈ c.log → Placed c (.ctrl f)
  completed : ∀ f, .ctrlSend f ∈ c.log → Placed c (.ctrl f)
  received : ∀ f, .ctrlRecv (.synStream f) ∈ c.log → c.isMine f.streamId = false ∧ c.Used f.streamId
  initial : ∀ id l, c.streams id = some l → l.state = .initial → ∃ f : SynStream, f.streamId = id ∧
    c.Writes (.ctrl (.synStream f))
  announced : ∀ f, .ctrlSend (.synStream f) ∈ c.log → ∀ l, c.streams f.streamId = some l → l.state ≠ .initial
  replied : ∀ f, .ctrlSend (.synReply f) ∈ c.log → ∀ l, c.streams f.streamId = some l →
    l.state = .opened ∨ l.state = .closing
  own : ∀ id l, c.streams id = some l → c.isMine id = true → l.state = .opening ∨ l.state = .opened →
    ∃ f : SynStream, f.streamId = id ∧ .ctrlSend (.synStream f) ∈ c.log
  peer : ∀ id l, c.streams id = some l → c.isMine id = false → ∃ f : SynStream, f.streamId = id ∧
    .ctrlRecv (.synStream f) ∈ c.log
  answered : ∀ id l, c.streams id = some l → c.isMine id = false → l.state = .opened →
    ∃ f : StreamHeaders, f.streamId = id ∧ .ctrlSend (.synReply f) ∈ c.log

namespace Records
variable {c c' : Conn} (hr : Records c) (h : Step c c')
include hr h

theorem step_writes (x : OutFrame) (hx : c'.Writes x) : Placed c' x := by
  obtain ⟨item,ha,rfl⟩ := hx
  cases h.acts with
  | same he => exact (hr.writes _ ⟨item,he ▸ ha,rfl⟩).later h.later
  | begins item0 _ hb hctrl hdata =>
    rw [hb] at ha
    cases ha
    cases hf : item.frame with
    | ctrl f => exact (hctrl f hf).2.placed hr.ids h.later
    | data d => exact (MayStart.placed hr.ids (hdata d hf)).later h.later
  | frees item0 _ hb =>
    rw [hb] at ha
    cases ha
  | data item0 d h0 hd hnext =>
    obtain ⟨d',hf,hid⟩ := hnext item ha
    rw [hf]
    refine h.later.used ?_
    rw [hid]
    exact hr.writes _ ⟨item0,h0,hd⟩

theorem step_begun (f : Frame) (hf : .beforeCtrlSend f ∈ c'.log) : Placed c' (.ctrl f) := by
  rcases h.mem_log hf with hf | hf
  · exact (hr.begun f hf).later h.later
  · exact hf.placed hr.ids h.later

theorem step_completed (f : Frame) (hf : .ctrlSend f ∈ c'.log) : Placed c' (.ctrl f) := by
  rcases h.mem_log hf with hf | hf
  · exact (hr.completed f hf).later h.later
  · exact (hr.writes _ hf.1).later h.later

theorem step_received (f : SynStream) (hf : .ctrlRecv (.synStream f) ∈ c'.log) :
    c'.isMine f.streamId = false ∧ c'.Used f.streamId := by
  rcases h.mem_log hf with hf | ⟨-,hn,hlast,-⟩
  · exact ⟨(h.later.isMine _).trans (hr.received f hf).1,h.later.used (hr.received f hf).2⟩
  · have hm : c'.isMine f.streamId = false := (h.later.isMine _).trans hn.2.1
    refine ⟨hm,?_⟩
    unfold Conn.Used
    rw [hm,hlast]
    simp

/-- The SYN_STREAM of a stream in its first state goes on being written. -/
theorem step_initial (id : Int) (l' : Life) (hs : c'.streams id = some l') (hl' : l'.state = .initial) :
    ∃ f : SynStream, f.streamId = id ∧ c'.Writes (.ctrl (.synStream f)) := by
  rcases h.lives id l' hs with ⟨-,-,hb⟩ | ⟨l,hs0,hg⟩
  · rcases hb with ⟨-,-,-,f,hid,hf,-⟩ | ⟨-,-,f,-,rfl,-⟩
    · exact ⟨f,hid,hf⟩
    · cases hl'
  · have hl : l.state = .initial := by
      rcases hg.state with hg | hg | ⟨-,-,hg⟩ | ⟨f,-,-,-,hg⟩ | ⟨f,-,-,-,hg⟩
      · exact hg ▸ hl'
      all_goals
        rw [hg] at hl'
        cases hl'
    obtain ⟨f,hid,item,ha,hf⟩ := hr.initial id l hs0 hl
    refine ⟨f,hid,item,?_,hf⟩
    cases h.acts with
    | same he => exact he.trans ha
    | begins item0 h0 =>
      rw [h0] at ha
      cases ha
    | frees item0 h0 _ _ _ hsent =>
      rw [h0] at ha
      cases ha
      exact absurd hl (hr.announced f (hsent _ hf) l (hid.symm ▸ hs0))
    | data item0 d h0 hd =>
      rw [h0] at ha
      cases ha
      rw [hd] at hf
      cases hf

theorem step_announced (f : SynStream) (hf : .ctrlSend (.synStream f) ∈ c'.log) (l' : Life)
    (hs : c'.streams f.streamId = some l') : l'.state ≠ .initial := by
  rcases h.mem_log hf with hf | ⟨-,-,-,he⟩
  · obtain ⟨l,hs0,hg⟩ := hr.ids.old h (hr.completed _ hf).2 hs
    have h0 := hr.announced f hf l hs0
    rcases hg.state with hg | hg | ⟨-,-,hg⟩ | ⟨f,-,-,-,hg⟩ | ⟨f,-,-,-,hg⟩
    · rwa [hg]
    all_goals
      rw [hg]
      nofun
  · rw [he] at hs
    simp only [Conn.completed,Function.update_self] at hs
    obtain ⟨l,-,rfl⟩ := Option.map_eq_some_iff.mp hs
    nofun

theorem step_replied (f : StreamHeaders) (hf : .ctrlSend (.synReply f) ∈ c'.log) (l' : Life)
    (hs : c'.streams f.streamId = some l') : l'.state = .opened ∨ l'.state = .closing := by
  rcases h.mem_log hf with hf | ⟨-,-,-,he⟩
  · obtain ⟨hm,hu⟩ := hr.completed _ hf
    obtain ⟨l,hs0,hg⟩ := hr.ids.old h hu hs
    rcases hg.state with hg | hg | ⟨hm',-⟩ | ⟨g,hid,hw,-⟩ | ⟨g,-,-,-,hg⟩
    · rw [hg]
      exact hr.replied f hf l hs0
    · exact .inr hg
    · rw [hm] at hm'
      cases hm'
    · have hp := (hr.writes _ hw).1
      rw [hid,hm] at hp
      cases hp
    · exact .inl hg
  · rw [he] at hs
    simp only [Conn.completed,Function.update_self] at hs
    obtain ⟨l,-,rfl⟩ := Option.map_eq_some_iff.mp hs
    exact .inl rfl

theorem step_own (id : Int) (l' : Life) (hs : c'.streams id = some l') (hm : c'.isMine id = true)
    (hst : l'.state = .opening ∨ l'.state = .opened) :
    ∃ f : SynStream, f.streamId = id ∧ .ctrlSend (.synStream f) ∈ c'.log := by
  rw [h.later.isMine] at hm
  have hold : ∀ l, c.streams id = some l → l.state = .opening ∨ l.state = .opened →
      ∃ f : SynStream, f.streamId = id ∧ .ctrlSend (.synStream f) ∈ c'.log := by
    intro l hl hls
    obtain ⟨f,hid,hf⟩ := hr.own id l hl hm hls
    exact ⟨f,hid,h.log_grows.subset hf⟩
  rcases h.lives id l' hs with ⟨-,-,hb⟩ | ⟨l,hs0,hg⟩
  · rcases hb with ⟨-,-,hb,-⟩ | ⟨hp,-⟩
    · rw [hb] at hst
      rcases hst with hst | hst <;> cases hst
    · rw [hp.2.1] at hm
      cases hm
  · rcases hg.state with hg | hg | ⟨-,hg,-⟩ | ⟨f,hid,-,hf,-⟩ | ⟨f,hid,hw,-⟩
    · exact hold l hs0 (hg ▸ hst)
    · rw [hg] at hst
      rcases hst with hst | hst <;> cases hst
    · exact hold l hs0 (.inl hg)
    · exact ⟨f,hid,hf ▸ List.mem_append_right _ (.head _)⟩
    · have hp := (hr.writes _ hw).1
      rw [hid,hm] at hp
      cases hp

theorem step_peer (id : Int) (l' : Life) (hs : c'.streams id = some l') (hm : c'.isMine id = false) :
    ∃ f : SynStream, f.streamId = id ∧ .ctrlRecv (.synStream f) ∈ c'.log := by
  rw [h.later.isMine] at hm
  rcases h.lives id l' hs with ⟨-,-,hb⟩ | ⟨l,hs0,-⟩
  · rcases hb with ⟨rfl,-⟩ | ⟨-,-,f,hid,-,hf⟩
    · rw [hr.ids.next_isMine] at hm
      cases hm
    · exact ⟨f,hid,hf⟩
  · obtain ⟨f,hid,hf⟩ := hr.peer id l hs0 hm
    exact ⟨f,hid,h.log_grows.subset hf⟩

theorem step_answered (id : Int) (l' : Life) (hs : c'.streams id = some l') (hm : c'.isMine id = false)
    (hst : l'.state = .opened) : ∃ f : StreamHeaders, f.streamId = id ∧ .ctrlSend (.synReply f) ∈ c'.log := by
  rw [h.later.isMine] at hm
  rcases h.lives id l' hs with ⟨-,-,hb⟩ | ⟨l,hs0,hg⟩
  · rcases hb with ⟨-,-,hb,-⟩ | ⟨-,-,f,-,rfl,-⟩
    · rw [hb] at hst
      cases hst
    · cases hst
  · rcases hg.state with hg | hg | ⟨hm',-⟩ | ⟨f,-,-,-,hg⟩ | ⟨f,hid,-,hf,-⟩
    · obtain ⟨f,hid,hf⟩ := hr.answered id l hs0 hm (hg ▸ hst)
      exact ⟨f,hid,h.log_grows.subset hf⟩
    · rw [hg] at hst
      cases hst
    · rw [hm] at hm'
      cases hm'
    · rw [hg] at hst
      cases hst
    · exact ⟨f,hid,hf ▸ List.mem_append_right _ (.head _)⟩

theorem step : Records c' where
  ids := hr.ids.step h
  writes := hr.step_writes h
  begun := hr.step_begun h
  completed := hr.step_completed h
  received := hr.step_received h
  initial := hr.step_initial h
  announced := hr.step_announced h
  replied := hr.step_replied h
  own := hr.step_own h
  peer := hr.step_peer h
  answered := hr.step_answered h

end Records

/-- Nothing has happened yet. -/
theorem Records.blank {c : Conn} (hi : Ids c) (hlog : c.log = []) (hs : ∀ id, c.streams id = none)
    (ha : c.active = none) : Records c := by
  have h1 : ∀ e, e ∉ c.log := by
    intro e
    rw [hlog]
    exact List.not_mem_nil
  have h2 : ∀ id l, c.streams id ≠ some l := by
    intro id l
    rw [hs]
    nofun
  refine ⟨hi,?_,fun _ h => absurd h (h1 _),fun _ h => absurd h (h1 _),fun _ h => absurd h (h1 _),
    fun _ _ h => absurd h (h2 _ _),fun _ h => absurd h (h1 _),fun _ h => absurd h (h1 _),
    fun _ _ h => absurd h (h2 _ _),fun _ _ h => absurd h (h2 _ _),fun _ _ h => absurd h (h2 _ _)⟩
  rintro x ⟨item,h,-⟩
  rw [ha] at h
  cases h

theorem records_invariant : Invariant Records where
  start P u := .blank (ids_invariant.start P u) rfl (fun _ => rfl) rfl
  step _ _ h hr := hr.step h

end Spdylay.Protocol
