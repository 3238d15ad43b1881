import Spdylay.Protocol.Shutdown
import Spdylay.Transport.Framing

/-! A session that has failed. Its GOAWAY stays in the queue or in the buffer until it
has been sent, but the flag that asks for it also keeps spdylay_session_want_write from
asking for writes once no stream is open. -/
namespace Spdylay.Transport
open Library Session

/-! The buffer never shrinks, so that a GOAWAY always has room. -/

theorem SendStep.framebufmax_le {P : Platform} {L : Prop} {w w' : SendSide} (h : SendStep P L w w') :
    w.aob.framebufmax ≤ w'.aob.framebufmax := by
  cases h with
  | reserve n hn => exact hn
  | _ => exact le_rfl

theorem SendSteps.framebufmax_le {P : Platform} {L : Prop} {w w' : SendSide} (h : SendSteps P L w w') :
    w.aob.framebufmax ≤ w'.aob.framebufmax := by
  induction h with
  | refl => exact le_rfl
  | tail _ hstep ih => exact ih.trans hstep.framebufmax_le

theorem reachable_framebufmax {P : Platform} {u : Setup} {s : Session} (h : Reachable P u s) :
    initialFramebufLength ≤ s.aob.framebufmax := by
  have hstart : (u.start P).sendSide.aob.framebufmax = initialFramebufLength := by
    unfold Setup.start
    split <;> rfl
  rw [← hstart]
  exact (reachable_sends h).1.framebufmax_le

theorem framePackGoaway_formed {P : Platform} {v : Version} {g : Goaway} (h : Formed P v (.ctrl (.goaway g))) :
    ∃ bytes, framePackGoaway g = .ok bytes ∧ bytes.length ≤ 16 := by
  obtain ⟨id,statusCode,rfl⟩ := h
  cases v with
  | spdy2 =>
    refine ⟨_,rfl,?_⟩
    change 12 ≤ 16
    decide
  | spdy3 =>
    refine ⟨_,rfl,?_⟩
    change 16 ≤ 16
    decide

/-- A GOAWAY taken from its queue becomes active, unless one has been sent. -/
theorem prepareNext_goaway {P : Platform} {s s1 : Session} {item : OutboundItem} {g : Goaway}
    (hpop : s.popNextObItem = some (item,s1)) (hg : item.frame = .ctrl (.goaway g))
    (hf : Formed P s.version (.ctrl (.goaway g))) (hmax : initialFramebufLength ≤ s.aob.framebufmax)
    (hsend : s.goawaySend = false) : (s.prepareNext P).aob.item = some item := by
  obtain ⟨bytes,hb,hlen⟩ := framePackGoaway_formed hf
  obtain ⟨-,pq,pq',rfl⟩ := Protocol.popNextObItem_same hpop
  obtain ⟨s2,hfix,-⟩ := prepFixed_ok (P := P) (s := {s with obPq := pq, obSsPq := pq'}) item bytes
    (.inr (hlen.trans (le_trans (by decide) hmax)))
  have hprep : prepFrame P {s with obPq := pq, obSsPq := pq'} item = ⟨s2,item,.ok bytes⟩ := by
    rw [prepFrame,hg]
    dsimp only
    rw [if_neg (by rw [hsend]; exact Bool.false_ne_true),hb]
    exact hfix
  rw [prepareNext,hpop]
  dsimp only
  rw [hprep]
  exact activate_active _ _ _

/-- A GOAWAY that is being written stays, or has been sent. -/
theorem sendWrite_goaway {s : Session} {item : OutboundItem} {g : Goaway} (ha : s.aob.item = some item)
    (hg : item.frame = .ctrl (.goaway g)) :
    (s.sendWrite item).1.aob.item = some item ∨ (s.sendWrite item).1.goawaySend = true := by
  unfold sendWrite
  dsimp only
  split
  · exact .inl ha
  · exact .inl ha
  · unfold sendAccepted
    dsimp only
    have hdebit : ∀ s1 : Session, s1.debit item = s1 := by
      intro s1
      unfold Session.debit
      rw [hg]
    rw [hdebit]
    split
    · refine .inr ?_
      unfold afterFrameSent
      simp [ha,hg,afterCtrlSent,activeReset,emit]
    · exact .inl ha

/-- A GOAWAY that was queued is in its queue or being written until one has been sent. -/
def GoawayKept (s : Session) : Prop :=
  ∀ x f, .accepted x ∈ s.host.log → x.frame = .ctrl (.goaway f) →
    s.goawaySend = true ∨ x ∈ s.obPq.q ∨ s.aob.item = some x

theorem isSynStream_goaway {x : OutboundItem} {f : Goaway} (h : x.frame = .ctrl (.goaway f)) : x.isSynStream = false := by
  rw [OutboundItem.isSynStream,h]

/-- Turns beside the send loop. -/
theorem GoawayKept.grows {s s' : Session} (h : GoawayKept s) (hg : Protocol.Grows s s')
    (ha : s'.aob.item = s.aob.item) (hsend : s.goawaySend = true → s'.goawaySend = true) : GoawayKept s' := by
  intro x f hx hf
  rcases hg.accepted hx (isSynStream_goaway hf) with hx | hx
  · rcases h x f hx hf with h | h | h
    · exact .inl (hsend h)
    · exact .inr (.inl (hg.subset h))
    · exact .inr (.inr (ha.trans h))
  · exact .inr (.inl hx)

theorem turn_goawayKept {P : Platform} {u : Setup} {s s' : Session} (hreach : Reachable P u s) (ht : Turn P s s')
    (h : GoawayKept s) : GoawayKept s' := by
  have hsend : s.goawaySend = true → s'.goawaySend = true := (Protocol.Steps.later (Protocol.turn_steps ht)).1
  cases ht with
  | prepare hn =>
    cases hpop : s.popNextObItem with
    | none =>
      rw [Protocol.prepareNext_none P hpop]
      exact h
    | some r =>
      obtain ⟨item,s1⟩ := r
      obtain ⟨hkeep,pq,pq',hs1⟩ := Protocol.popNextObItem_same hpop
      have hgrows : Protocol.Grows s1 (s.prepareNext P) :=
        (Protocol.prepFrame_grows P s1 item).trans (Protocol.prepareNext_same P hpop).1
      intro x f hx hf
      rcases hgrows.accepted hx (isSynStream_goaway hf) with hx | hx
      · have hx' : .accepted x ∈ s.host.log := by
          rw [hs1] at hx
          exact hx
        rcases h x f hx' hf with hs | hin | hin
        · exact .inl (hsend hs)
        · rcases hkeep x hin with rfl | hin
          · cases hgs : s.goawaySend with
            | true => exact .inl (hsend hgs)
            | false =>
              have hform := (reachable_sends hreach).2 x hx'
              rw [hf] at hform
              exact .inr (.inr (prepareNext_goaway hpop hf hform (reachable_framebufmax hreach) hgs))
          · exact .inr (.inl (hgrows.subset hin))
        · rw [hn] at hin
          cases hin
      · exact .inr (.inl hx)
  | write item hi =>
    intro x f hx hf
    rcases (Protocol.sendWrite_grows s item).accepted hx (isSynStream_goaway hf) with hx | hx
    · rcases h x f hx hf with hs | hin | hin
      · exact .inl (hsend hs)
      · exact .inr (.inl ((Protocol.sendWrite_grows s item).subset hin))
      · cases hi.symm.trans hin
        rcases sendWrite_goaway hi hf with ha | hs
        · exact .inr (.inr ha)
        · exact .inl hs
    · exact .inr (.inl hx)
  | recv input =>
    obtain ⟨g',hr⟩ := Machine.recvIter_reads P s input Machine.cleanGhost
    have ha : (s.recvIter P input).1.aob.item = s.aob.item := congrArg Prod.fst hr.steps.aob_eq
    exact h.grows ⟨hr.steps.grows.queue,hr.steps.grows.accepts⟩ ha hsend
  | submit op hs hr =>
    have hst := Machine.submission_steps P s op Machine.cleanGhost hs hr
    have ha : (s.call P op).1.aob.item = s.aob.item := congrArg Prod.fst hst.aob_eq
    exact h.grows hst.grows ha hsend
  | report e => exact h.grows (Protocol.Grows.emit s (.fatal e) nofun) rfl hsend

theorem reachable_goawayKept {P : Platform} {u : Setup} {s : Session} (h : Reachable P u s) : GoawayKept s := by
  induction h with
  | refl =>
    intro x f hx hf
    rw [Machine.log_start P u] at hx
    cases hx
  | tail h ht ih => exact turn_goawayKept h ht ih

end Spdylay.Transport

namespace Spdylay
open Transport

/-- The session has failed, and the GOAWAY has been queued and not written to its end. -/
structure FailPending (s : Session) (item : OutboundItem) : Prop where
  failed : s.goawayFailOnSend = true
  accepted : .accepted item ∈ s.host.log
  goaway : ∃ f, item.frame = .ctrl (.goaway f)
  unsent : .finished item.seq .sent ∉ s.host.log

/-- The GOAWAY of a failed session is asked for just as long as a stream is open and no
other GOAWAY has been sent. -/
theorem failed_session_wants_write_iff {P : Platform} {u : Setup} {s : Session} {item : OutboundItem}
    (h : Reachable P u s) (hp : FailPending s item) :
    s.wantWrite = true ↔ s.goawaySend = false ∧ 0 < s.streams.entries.length := by
  have hflags : s.goawayFlags = true := by
    rw [Session.goawayFlags,hp.failed,Bool.or_true]
  rw [Session.wantWrite,hp.failed,hflags,Bool.true_and]
  cases hsend : s.goawaySend with
  | true => exact iff_of_false Bool.false_ne_true (fun hx => Bool.noConfusion hx.1)
  | false =>
    have hwork : (s.aob.item.isSome || !pqEmpty s.obPq) = true := by
      obtain ⟨f,hf⟩ := hp.goaway
      rcases reachable_goawayKept h item f hp.accepted hf with hs | hy | hy
      · rw [hsend] at hs
        cases hs
      · rw [pqEmpty,List.isEmpty_eq_false_iff.mpr (List.ne_nil_of_mem hy),Bool.not_false,Bool.or_true]
      · rw [hy]
        rfl
    rw [if_neg Bool.false_ne_true,hwork,Bool.true_or,Bool.true_and,Bool.not_true,Bool.false_or,decide_eq_true_iff]
    exact (and_iff_right rfl).symm

def failureGoaway (lastGoodStreamId : Int) : OutboundItem := ⟨.ctrl (.goaway ⟨⟨3,0,8⟩,lastGoodStreamId,1⟩),none,7,0⟩

/-- A server with an open stream has received a PING of five bytes. -/
theorem failed_server_with_stream_wants_write :
    let s := ((sampleServer [] []).start peerPlatform).run peerPlatform
      [.memRecv (firstRequest 0 1),.memRecv [128,3,0,6,0,0,0,5,1,2,3,4,5]]
    s.wantWrite = true := by
  have hp : FailPending (((sampleServer [] []).start peerPlatform).run peerPlatform
      [.memRecv (firstRequest 0 1),.memRecv [128,3,0,6,0,0,0,5,1,2,3,4,5]]) (failureGoaway 1) :=
    ⟨by decide +kernel,by decide +kernel,⟨_,rfl⟩,by decide +kernel⟩
  exact (failed_session_wants_write_iff (run_reachable peerPlatform _ _) hp).mpr (by decide +kernel)

/-- Without a stream the GOAWAY stays where it is. -/
theorem failed_client_leaves_goaway :
    let s := ((sampleClient .int32 [] []).start samplePlatform).run samplePlatform
      [.memRecv [128,3,0,6,0,0,0,5,1,2,3,4,5]]
    Reachable samplePlatform (sampleClient .int32 [] []) s ∧ FailPending s (failureGoaway 0) ∧
      failureGoaway 0 ∈ s.obPq.q ∧ s.wantWrite = false := by
  refine ⟨run_reachable _ _ _,⟨by decide +kernel,by decide +kernel,⟨_,rfl⟩,by decide +kernel⟩,?_,?_⟩
  · decide +kernel
  · decide +kernel

end Spdylay
