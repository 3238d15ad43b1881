import Spdylay.Protocol.Origins
import Spdylay.Protocol.WriteOrder

/-! The last good stream id of a GOAWAY and the streams that were accepted. -/
namespace Spdylay.Protocol
open Library Session Conn

/-- If the one event begins a GOAWAY and the other accepts a SYN_STREAM, then the
GOAWAY names an id that is not below the stream's. -/
def Names : Event → Event → Bool
  | .beforeCtrlSend (.goaway f), .ctrlRecv (.synStream g) => g.streamId ≤ f.lastGoodStreamId
  | _, _ => true

/-- Whatever GOAWAY was begun names every SYN_STREAM accepted before or after. -/
def GoawayNamesAll (log : List Event) : Prop := ∀ e ∈ log, ∀ x ∈ log, Names e x = true

/-- No SYN_STREAM is accepted after a GOAWAY that is begun was queued. -/
def NoneAfterGoaway (log : List Event) : Prop :=
  ∀ a item f b, log = a ++ .accepted item :: b → item.frame = .ctrl (.goaway f) → .beforeCtrlSend (.goaway f) ∈ b →
    ∀ g, .ctrlRecv (.synStream g) ∉ b

/-- A queued GOAWAY names the last id of its time. -/
structure Named (c : Conn) : Prop where
  received : ∀ g, .ctrlRecv (.synStream g) ∈ c.log → g.streamId ≤ c.lastRecvStreamId
  queued : ∀ a item f b, c.log = a ++ .accepted item :: b → item.frame = .ctrl (.goaway f) →
    f.lastGoodStreamId ≤ c.lastRecvStreamId ∧ (∀ g, .ctrlRecv (.synStream g) ∈ a → g.streamId ≤ f.lastGoodStreamId) ∧
      ∀ g, .ctrlRecv (.synStream g) ∈ b → f.lastGoodStreamId < g.streamId

theorem Named.step_received {c c' : Conn} (hn : Named c) (h : Step c c') (g : SynStream)
    (hg : .ctrlRecv (.synStream g) ∈ c'.log) : g.streamId ≤ c'.lastRecvStreamId := by
  rcases h.mem_log hg with hg | ⟨-,-,hlast,-⟩
  · exact (hn.received g hg).trans h.later.last
  · exact hlast.ge

theorem Named.step_queued {c c' : Conn} (hn : Named c) (h : Step c c') (a : List Event) (item : OutboundItem) (f : Goaway)
    (b : List Event) (hcut : c'.log = a ++ .accepted item :: b) (hf : item.frame = .ctrl (.goaway f)) :
    f.lastGoodStreamId ≤ c'.lastRecvStreamId ∧ (∀ g, .ctrlRecv (.synStream g) ∈ a → g.streamId ≤ f.lastGoodStreamId) ∧
      ∀ g, .ctrlRecv (.synStream g) ∈ b → f.lastGoodStreamId < g.streamId := by
  obtain ⟨es,hlog,hes⟩ := h.logs
  rw [hlog] at hcut
  rcases append_eq_append_cons hcut with ⟨b',rfl,hcut'⟩ | ⟨a',rfl,hcut'⟩
  · obtain ⟨h1,h2,h3⟩ := hn.queued a item f b' hcut' hf
    refine ⟨h1.trans h.later.last,h2,?_⟩
    intro g hg
    rcases List.mem_append.mp hg with hg | hg
    · exact h3 g hg
    · obtain ⟨pre,post,he⟩ := List.append_of_mem hg
      have hnew : c.NewPeerId g.streamId := (hes pre _ post he).1.2.1
      exact lt_of_le_of_lt h1 hnew.2.2
  · obtain ⟨⟨-,-,-,hlast,hgood⟩,hahead,-⟩ := hes a' _ b hcut'
    rw [hgood f hf]
    refine ⟨hlast.ge,?_,?_⟩
    · intro g hg
      rcases List.mem_append.mp hg with hg | hg
      · exact hn.received g hg
      · cases hahead _ hg
    · intro g hg
      -- nothing is logged after the item in its step
      obtain ⟨b1,b2,rfl⟩ := List.append_of_mem hg
      have hahead' := (hes (a' ++ .accepted item :: b1) (.ctrlRecv (.synStream g)) b2 (by rw [hcut']; simp)).2.1
      cases hahead' (.accepted item) (List.mem_append_right _ (.head _))

theorem named_invariant : Invariant Named where
  start P u := by
    refine ⟨fun g hg => absurd hg List.not_mem_nil,?_⟩
    intro a item f b hcut
    cases a <;> cases hcut
  step _ _ h hn := ⟨hn.step_received h,hn.step_queued h⟩

theorem goaway_of_sameFrame {x : OutFrame} {f : Goaway} (h : SameFrame x (.ctrl (.goaway f))) : x = .ctrl (.goaway f) := by
  cases x with
  | data d => cases h
  | ctrl f' =>
    cases f' with
    | goaway g =>
      cases h
      rfl
    | _ => cases h

theorem names_of {e x : Event} (h : ∀ f g, e = .beforeCtrlSend (.goaway f) → x = .ctrlRecv (.synStream g) →
    g.streamId ≤ f.lastGoodStreamId) : Names e x = true := by
  unfold Names
  split
  · exact decide_eq_true (h _ _ rfl rfl)
  · rfl

/-- In every session that can come about: the GOAWAY that was begun names every
SYN_STREAM that was accepted, before or after it, just if none was accepted after the
GOAWAY had been queued. -/
theorem goaway_names_all_iff (P : Platform) (u : Setup) (s : Session) (h : Reachable P u s) :
    GoawayNamesAll s.host.log ↔ NoneAfterGoaway s.host.log := by
  have hn := named_invariant.reachable h
  have ho := origins_invariant.reachable h
  constructor
  · intro hall a item f b hcut hf hbegun g hg
    have hmem : ∀ e ∈ b, e ∈ s.host.log := by
      intro e he
      rw [hcut]
      exact List.mem_append_right _ (.tail _ he)
    have hle := of_decide_eq_true (hall _ (hmem _ hbegun) _ (hmem _ hg))
    exact absurd ((hn.queued a item f b hcut hf).2.2 g hg) (not_lt.mpr hle)
  · intro hnone e he x hx
    refine names_of ?_
    rintro f g rfl rfl
    obtain ⟨pre,post,hcut⟩ := List.append_of_mem he
    obtain ⟨item,hitem,hsame⟩ := ho.begun pre _ post hcut (.goaway f) rfl
    have hf := goaway_of_sameFrame hsame
    obtain ⟨a,b,rfl⟩ := List.append_of_mem hitem
    have hcut' : s.host.log = a ++ .accepted item :: (b ++ .beforeCtrlSend (.goaway f) :: post) := by
      rw [hcut]
      simp
    rw [hcut'] at hx
    rcases List.mem_append.mp hx with hx | hx
    · exact (hn.queued _ _ _ _ hcut' hf).2.1 g hx
    · rcases List.mem_cons.mp hx with hx | hx
      · cases hx
      · exact absurd hx (hnone _ _ _ _ hcut' hf (List.mem_append_right _ (.head _)) g)

/-- A server that announces its end after its first request. -/
def goawayAfterRequest : Session :=
  ((sampleServer [.accept 1000] []).start peerPlatform).run peerPlatform
    [.memRecv (firstRequest 1 1),.submitGoaway 0,.send]

theorem goaway_names_first_request : goawayAfterRequest.host.log.any (fun e => !Names e (.ctrlRecv (.synStream
    ⟨⟨3,1,0⟩,3,0,0,0,[]⟩))) = true ∧ NoneAfterGoaway goawayAfterRequest.host.log := by
  refine ⟨by decide +kernel,(goaway_names_all_iff peerPlatform _ goawayAfterRequest (run_reachable _ _ _)).mp ?_⟩
  unfold GoawayNamesAll
  decide +kernel

/-- Its client opens a second stream before the GOAWAY is written. -/
def goawayBeforeRequest : Session :=
  ((sampleServer [.accept 1000] []).start peerPlatform).run peerPlatform
    [.memRecv (firstRequest 1 1),.submitGoaway 0,.memRecv (laterRequest 1 3),.send]

/-- The GOAWAY names stream 1, and stream 3 has been accepted. -/
theorem goaway_misses_second_request : ¬GoawayNamesAll goawayBeforeRequest.host.log := by
  unfold GoawayNamesAll
  decide +kernel

end Spdylay.Protocol
