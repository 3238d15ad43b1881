import Spdylay.Protocol.CloseOnce

/-! A stream for which an RST_STREAM is queued. -/
namespace Spdylay.Protocol
open Library Session Conn

/-- The stream whose SYN_STREAM or SYN_REPLY is complete. -/
def opensOf : Event → Option Int
  | .ctrlSend (.synStream f) => some f.streamId
  | .ctrlSend (.synReply f) => some f.streamId
  | _ => none

/-- The stream for which an RST_STREAM is queued. -/
def resetOf : Event → Option Int
  | .accepted item =>
    match item.frame with
    | .ctrl (.rstStream f) => some f.streamId
    | _ => none
  | _ => none

/-- An RST_STREAM was queued after the stream had been opened. -/
def Reset (log : List Event) (id : Int) : Prop := ∃ a e b, log = a ++ e :: b ∧ resetOf e = some id ∧ Opened a id

/-- Completing a SYN_STREAM or SYN_REPLY writes the state of its stream. -/
def NoLateOpening (pre : List Event) (e : Event) : Prop :=
  ∀ id, opensOf e = some id → Reset pre id → ∃ x ∈ pre, ClosesStream id x = true

def NotAfterReset (pre : List Event) (e : Event) : Prop := ∀ id, StartsAny id e = true → ¬Reset pre id

/-- Streams that are reset are closing or gone, and nothing is begun on them. -/
structure Absorbed (c : Conn) : Prop where
  state : ∀ id, Reset c.log id → ∀ l, c.streams id = some l → l.state = .closing
  order : Guarded NotAfterReset c.log

theorem Reset.used {c : Conn} (hr : Records c) {id : Int} (h : Reset c.log id) : c.Used id := by
  obtain ⟨a,e,b,hcut,-,ho⟩ := h
  exact (ho.mono (hcut ▸ List.subset_append_left _ _)).used hr

/-- The RST_STREAM is the last event of its step. -/
theorem Step.reset_cases {c c' : Conn} (h : Step c c') {id : Int} (hr : Reset c'.log id) :
    Reset c.log id ∨ ∃ item : OutboundItem, ∃ f : RstStream, item.frame = .ctrl (.rstStream f) ∧ f.streamId = id ∧
      c'.streams = marked c.streams item.frame := by
  obtain ⟨a,e,b,hcut,he,ho⟩ := hr
  rcases h.cut_log hcut with ⟨b',hcut'⟩ | ⟨hm,-⟩
  · exact .inl ⟨a,e,b',hcut',he,ho⟩
  · cases e with
    | accepted item =>
      unfold resetOf at he
      dsimp only at he
      split at he
      · rename_i f hf
        exact .inr ⟨item,f,hf,Option.some.inj he,hm.2.2.1⟩
      · cases he
    | _ => cases he

theorem reset_of_dull {log es : List Event} (hes : ∀ x ∈ es, dull x = true) {id : Int} (h : Reset (log ++ es) id) :
    Reset log id := by
  obtain ⟨a,e,b,hcut,he,ho⟩ := h
  rcases append_eq_append_cons hcut with ⟨b',-,hcut'⟩ | ⟨a',-,hcut'⟩
  · exact ⟨a,e,b',hcut',he,ho⟩
  · have hd := hes e (hcut' ▸ List.mem_append_right _ (.head _))
    cases e with
    | accepted item => cases hd
    | _ => cases he

/-- What is begun is begun on a stream that is not closing. -/
theorem Meets.not_closing {c c' : Conn} {id : Int} {e : Event} (hs : StartsAny id e = true) (hm : Meets c c' e) :
    begins e = true ∧ ∃ l, c.streams id = some l ∧ l.state ≠ .closing := by
  have hwritable : ∀ {k l}, c.Writable k l → l.state ≠ .closing := by
    rintro k l ⟨-,-,hst⟩
    split at hst
    · exact hst
    · rw [hst]
      nofun
  cases e with
  | beforeCtrlSend f =>
    refine ⟨rfl,?_⟩
    cases f with
    | synReply f =>
      obtain rfl := of_decide_eq_true hs
      obtain ⟨l,hl,-,-,hst⟩ := hm.2.1
      exact ⟨l,hl,by rw [hst]; nofun⟩
    | headers f =>
      obtain rfl := of_decide_eq_true hs
      obtain ⟨l,hw⟩ := hm.2.1
      exact ⟨l,hw.1,hwritable hw⟩
    | windowUpdate f =>
      obtain rfl := of_decide_eq_true hs
      obtain ⟨l,hl,hst⟩ := hm.2.1
      exact ⟨l,hl,hst⟩
    | _ => cases hs
  | read q k bytes =>
    obtain rfl := of_decide_eq_true hs
    obtain ⟨-,-,d,rfl,⟨l,hw,-⟩,-⟩ := hm
    exact ⟨rfl,l,hw.1,hwritable hw⟩
  | _ => cases hs

/-- The state is closing unless the SYN_STREAM or SYN_REPLY of the stream is completed. -/
theorem Grown.closing {c c' : Conn} {id : Int} {l l' : Life} (hg : Grown c c' id l l') (hs : l.state = .closing) :
    l'.state = .closing ∨ ∃ e, c'.log = c.log ++ [e] ∧ opensOf e = some id := by
  rcases hg.state with h | h | ⟨-,h,-⟩ | ⟨f,hid,-,hlog,-⟩ | ⟨f,hid,-,hlog,-⟩
  · exact .inl (h.trans hs)
  · exact .inl h
  · rw [hs] at h
    cases h
  · exact .inr ⟨_,hlog,congrArg some hid⟩
  · exact .inr ⟨_,hlog,congrArg some hid⟩

theorem Absorbed.step {c c' : Conn} (h : Step c c') (hr : Records c) (hc : Closed c) (ha : Absorbed c)
    (hlate : Guarded NoLateOpening c'.log) : Absorbed c' := by
  refine ⟨?_,?_⟩
  · intro id hreset l' hl'
    rcases h.reset_cases hreset with hold | ⟨item,f,hf,rfl,hs⟩
    · obtain ⟨l,hl,hg⟩ := hr.ids.old h (hold.used hr) hl'
      rcases hg.closing (ha.state id hold l hl) with hcl | ⟨e,hlog,he⟩
      · exact hcl
      · -- the stream would have been closed before
        rw [hlog] at hlate
        obtain ⟨x,hx,hk⟩ := (guarded_concat.mp hlate).2 id he hold
        rw [(hc.closed id x hx hk).2] at hl
        cases hl
    · rw [hs,hf] at hl'
      simp only [marked,Function.update_self] at hl'
      obtain ⟨l,-,rfl⟩ := Option.map_eq_some_iff.mp hl'
      rfl
  · refine h.guarded ha.order ?_
    intro e es hm hahead _ id hs hreset
    obtain ⟨hb,l,hl,hst⟩ := hm.not_closing hs
    exact hst (ha.state id (reset_of_dull (fun x hx => dull_of_ahead hb (hahead x hx)) hreset) l hl)

theorem absorbed_invariant : Invariant (fun c => (Records c ∧ Closed c) ∧ (Guarded NoLateOpening c.log → Absorbed c)) := by
  refine closed_invariant.with ?_ ?_
  · intro P u _
    exact ⟨fun _ _ _ h => (by cases h),guarded_nil⟩
  · intro c c' h hc _ ha hlate
    exact (ha (hlate.initial h.log_grows)).step h hc.1 hc.2 hlate

/-- An RST_STREAM that is queued for an open stream keeps it closing until it is
removed, and keeps its other frames from being begun. -/
def ClosingAbsorbs (s : Session) : Prop :=
  ∀ a item f b, s.host.log = a ++ .accepted item :: b → item.frame = .ctrl (.rstStream f) → Opened a f.streamId →
    (∀ st, s.getStream f.streamId = some st → st.state = .closing) ∧ ∀ e ∈ b, StartsAny f.streamId e = false

/-- In every session that can come about in which no SYN_STREAM or SYN_REPLY of a
stream has been completed between an RST_STREAM queued for the stream and its close. -/
theorem closing_absorbs (P : Platform) (u : Setup) (s : Session) (h : Reachable P u s)
    (hlate : Guarded NoLateOpening s.host.log) : ClosingAbsorbs s := by
  have ha := (absorbed_invariant.reachable h).2 hlate
  intro a item f b hcut hf ho
  have he : resetOf (.accepted item) = some f.streamId := by
    unfold resetOf
    dsimp only
    rw [hf]
  refine ⟨?_,?_⟩
  · intro st hst
    exact ha.state f.streamId ⟨a,_,b,hcut,he,ho⟩ _ (conn_find none hst)
  · intro e hmem
    obtain ⟨b1,b2,rfl⟩ := List.append_of_mem hmem
    have hcut' : s.host.log = (a ++ .accepted item :: b1) ++ e :: b2 := by
      rw [hcut]
      simp
    refine Bool.eq_false_iff.mpr ?_
    intro hs
    exact ha.order _ e b2 hcut' f.streamId hs ⟨a,_,b1,rfl,he,ho⟩

/-- A server that is about to reset the stream of its first request. -/
def pendingReset : Session :=
  ((sampleServer [] []).start peerPlatform).run peerPlatform [.memRecv (firstRequest 1 1),.submitRstStream 1 5]

theorem pending_reset_absorbs : (pendingReset.getStream 1).map Stream.state = some .closing ∧
    ClosingAbsorbs pendingReset := by
  have hnone : pendingReset.host.log.all (fun e => opensOf e = none) = true := by decide +kernel
  refine ⟨by decide +kernel,closing_absorbs peerPlatform _ pendingReset (run_reachable _ _ _) ?_⟩
  rw [← List.nil_append pendingReset.host.log]
  refine guarded_nil.append ?_
  intro e he pre id hid
  rw [of_decide_eq_true (List.all_eq_true.mp hnone e he)] at hid
  cases hid

/-- The first five bytes of the SYN_REPLY are written when the stream is reset. -/
def resetWhileReplying : Session :=
  ((sampleServer [.accept 5,.wouldblock,.accept 1000,.wouldblock] []).start peerPlatform).run peerPlatform
    [.memRecv (firstRequest 1 1),.submitResponse 1 [] (some 0),.submitHeaders 0 1 [],.send,.submitRstStream 1 5,.send]

/-- The complete SYN_REPLY makes the stream open again, and the HEADERS are begun. -/
theorem reset_while_replying_reopens : (resetWhileReplying.getStream 1).map Stream.state = some .opened ∧
    ¬ClosingAbsorbs resetWhileReplying := by
  refine ⟨by decide +kernel,?_⟩
  intro h
  have hreset := h (resetWhileReplying.host.log.take 8) ⟨.ctrl (.rstStream ⟨⟨3,0,8⟩,1,5⟩),none,0,2⟩ ⟨⟨3,0,8⟩,1,5⟩
    (resetWhileReplying.host.log.drop 9) (by decide +kernel) rfl
    (.inr ⟨⟨⟨3,1,26⟩,1,0,0,0,[]⟩,rfl,by decide +kernel⟩)
  cases hreset.2 (.beforeCtrlSend (.headers ⟨⟨3,0,12⟩,1,[]⟩)) (by decide +kernel)

end Spdylay.Protocol
