import Spdylay.Protocol.WriteOrder

/-! The end of a session: after GOAWAY no stream is opened, and one GOAWAY is sent. -/
namespace Spdylay.Protocol
open Library Session Conn

/-- A SYN_STREAM is begun, or one is delivered. -/
def AnnouncesStream : Event → Bool
  | .beforeCtrlSend (.synStream _) | .ctrlRecv (.synStream _) => true
  | _ => false

def BeginsGoaway : Event → Bool
  | .beforeCtrlSend (.goaway _) => true
  | _ => false

/-- A GOAWAY has been sent completely, or one has been received. -/
def EndsSession : Event → Bool
  | .ctrlSend (.goaway _) | .ctrlRecv (.goaway _) => true
  | _ => false

structure Ended (c : Conn) : Prop where
  sent : ∀ f, .ctrlSend (.goaway f) ∈ c.log → c.goawaySend = true
  received : ∀ f, .ctrlRecv (.goaway f) ∈ c.log → c.goawayRecv = true
  begun : ∀ x ∈ c.log, BeginsGoaway x = true → c.goawaySend = true ∨ ∃ f, c.Writes (.ctrl (.goaway f))
  once : Guarded (fun pre e => BeginsGoaway e = true → ∀ x ∈ pre, BeginsGoaway x = false) c.log
  last : Guarded (fun pre e => AnnouncesStream e = true → ∀ x ∈ pre, EndsSession x = false) c.log

theorem goaway_of_begins {x : Event} (h : BeginsGoaway x = true) : ∃ f, x = .beforeCtrlSend (.goaway f) := by
  cases x with
  | beforeCtrlSend f =>
    cases f with
    | goaway f => exact ⟨f,rfl⟩
    | _ => cases h
  | _ => cases h

/-- Streams are announced only while the session is not shut down. -/
theorem Meets.not_shutDown {c c' : Conn} {e : Event} (h : AnnouncesStream e = true) (hm : Meets c c' e) :
    begins e = true ∧ c.shutDown = false := by
  cases e with
  | beforeCtrlSend f =>
    cases f with
    | synStream f => exact ⟨rfl,hm.2.1⟩
    | _ => cases h
  | ctrlRecv f =>
    cases f with
    | synStream f => exact ⟨rfl,hm.1⟩
    | _ => cases h
  | _ => cases h

theorem Ended.shutDown {c : Conn} (he : Ended c) {x : Event} (hx : x ∈ c.log) (h : EndsSession x = true) :
    c.shutDown = true := by
  unfold Conn.shutDown
  cases x with
  | ctrlSend f =>
    cases f with
    | goaway f => simp [he.sent f hx]
    | _ => cases h
  | ctrlRecv f =>
    cases f with
    | goaway f => simp [he.received f hx]
    | _ => cases h
  | _ => cases h

theorem notDull_of_ends {x : Event} (h : EndsSession x = true) : dull x = false := by
  cases x with
  | ctrlSend f => rfl
  | ctrlRecv f =>
    cases f with
    | goaway f => rfl
    | _ => cases h
  | _ => cases h

namespace Ended
variable {c c' : Conn} (he : Ended c) (h : Step c c')
include he h

theorem step_begun (x : Event) (hx : x ∈ c'.log) (hb : BeginsGoaway x = true) :
    c'.goawaySend = true ∨ ∃ f, c'.Writes (.ctrl (.goaway f)) := by
  rcases h.mem_log hx with hx | hm
  · rcases he.begun x hx hb with hs | ⟨f,hw⟩
    · exact .inl (h.later.goawaySend hs)
    · rcases h.still_writes hw with hw | ⟨hs,-⟩
      · exact .inr ⟨f,hw⟩
      · exact .inl (h.later.goawaySend (he.sent f hs))
  · obtain ⟨f,rfl⟩ := goaway_of_begins hb
    exact .inr ⟨f,hm.2.2.1⟩

theorem step_once : Guarded (fun pre e => BeginsGoaway e = true → ∀ x ∈ pre, BeginsGoaway x = false) c'.log := by
  refine h.guarded he.once ?_
  intro e es hm ha _ hb x hx
  obtain ⟨f,rfl⟩ := goaway_of_begins hb
  refine Bool.eq_false_iff.mpr ?_
  intro hb'
  have hx' : x ∈ c.log := by
    refine mem_of_dull (fun y hy => dull_of_ahead rfl (ha y hy)) hx ?_
    obtain ⟨g,rfl⟩ := goaway_of_begins hb'
    rfl
  rcases he.begun x hx' hb' with hs | ⟨g,item,hact,-⟩
  · have hstart : c.goawaySend = false := hm.2.1
    rw [hs] at hstart
    cases hstart
  · rw [hm.1] at hact
    cases hact

theorem step_last : Guarded (fun pre e => AnnouncesStream e = true → ∀ x ∈ pre, EndsSession x = false) c'.log := by
  refine h.guarded he.last ?_
  intro e es hm ha _ hs x hx
  obtain ⟨hb,hd⟩ := hm.not_shutDown hs
  refine Bool.eq_false_iff.mpr ?_
  intro hend
  have hx' : x ∈ c.log := mem_of_dull (fun y hy => dull_of_ahead hb (ha y hy)) hx (notDull_of_ends hend)
  rw [he.shutDown hx' hend] at hd
  cases hd

theorem step : Ended c' where
  sent f hf := by
    rcases h.mem_log hf with hf | hm
    · exact h.later.goawaySend (he.sent f hf)
    · exact hm.2.2.1 f rfl
  received f hf := by
    rcases h.mem_log hf with hf | hm
    · exact h.later.goawayRecv (he.received f hf)
    · exact hm
  begun := he.step_begun h
  once := he.step_once h
  last := he.step_last h

end Ended

theorem ended_invariant : Invariant Ended where
  start P u := by
    have hlog : ∀ e, e ∉ (initialConn P u).log := fun e => List.not_mem_nil
    exact ⟨fun _ hx => absurd hx (hlog _),fun _ hx => absurd hx (hlog _),fun x hx => absurd hx (hlog x),guarded_nil,
      guarded_nil⟩
  step _ _ h he := he.step h

/-- From a session that is shut down on nothing is announced or opened. -/
theorem Steps.after_shutDown {c c' : Conn} (h : Steps c c') (hd : c.shutDown = true) :
    c'.shutDown = true ∧ (∃ es, c'.log = c.log ++ es ∧ ∀ e ∈ es, AnnouncesStream e = false) ∧
      ∀ id, c.streams id = none → c'.streams id = none := by
  refine keeps_of_steps (I := fun c' => c'.shutDown = true ∧ (∃ es, c'.log = c.log ++ es ∧
    ∀ e ∈ es, AnnouncesStream e = false) ∧ ∀ id, c.streams id = none → c'.streams id = none) ?_ h
    ⟨hd,⟨[],(List.append_nil _).symm,List.forall_mem_nil _⟩,fun _ hn => hn⟩
  rintro c1 c2 h12 ⟨hd1,⟨es,hes,hquiet⟩,hnone⟩
  refine ⟨h12.later.shutDown hd1,?_,?_⟩
  · obtain ⟨es2,hes2,hg⟩ := h12.logs
    refine ⟨es ++ es2,by rw [hes2,hes,List.append_assoc],?_⟩
    intro e he
    rcases List.mem_append.mp he with he | he
    · exact hquiet e he
    · obtain ⟨pre,post,hcut⟩ := List.append_of_mem he
      refine Bool.eq_false_iff.mpr ?_
      intro ha
      have hn := ((hg pre e post hcut).1.not_shutDown ha).2
      rw [hd1] at hn
      cases hn
  · intro id hn
    cases hl : c2.streams id with
    | none => rfl
    | some l =>
      rcases h12.lives id l hl with ⟨-,hopen,-⟩ | ⟨l0,hl0,-⟩
      · rw [hd1] at hopen
        cases hopen
      · rw [hnone id hn] at hl0
        cases hl0

theorem Steps.later {c c' : Conn} (h : Steps c c') : (c.goawaySend = true → c'.goawaySend = true) ∧
    (c.goawayFailOnSend = true → c'.goawayFailOnSend = true) := by
  induction h with
  | refl => exact ⟨id,id⟩
  | tail _ h ih => exact ⟨fun hs => h.later.goawaySend (ih.1 hs),fun hs => h.later.goawayFailOnSend (ih.2 hs)⟩

theorem failSession_goawayFlags (s : Session) (statusCode : Nat) : (s.failSession statusCode).1.goawayFlags = true := by
  have hmoves := submitGoaway_moves {s with goawayFailOnSend := true} statusCode none
  have hfail : (s.failSession statusCode).1.goawayFailOnSend = true := (Steps.later hmoves.steps).2 rfl
  unfold goawayFlags
  rw [hfail]
  exact Bool.or_true _

/-- In every session that can come about: a GOAWAY sent completely, a GOAWAY received
and fail_session shut the session down; from then on no SYN_STREAM is begun, none is
delivered and no stream is opened. One GOAWAY is begun at most, and a failed session
that has sent its GOAWAY wants neither to read nor to write any more. -/
theorem shutdown_is_final (P : Platform) (u : Setup) (s : Session) (h : Reachable P u s) :
    (∀ x ∈ s.host.log, EndsSession x = true → s.goawayFlags = true) ∧
    (∀ statusCode, (s.failSession statusCode).1.goawayFlags = true) ∧
    (∀ pre e post, s.host.log = pre ++ e :: post → EndsSession e = true → ∀ x ∈ post, AnnouncesStream x = false) ∧
    (s.goawayFlags = true → ∀ s' es, Turns P s s' → s'.host.log = s.host.log ++ es →
      (∀ e ∈ es, AnnouncesStream e = false) ∧ ∀ id, s.getStream id = none → s'.getStream id = none) ∧
    s.host.log.countP BeginsGoaway ≤ 1 ∧
    (s.goawayFailOnSend = true → (∃ f, .ctrlSend (.goaway f) ∈ s.host.log) → ∀ s', Turns P s s' →
      s'.wantRead = false ∧ s'.wantWrite = false) := by
  have he := ended_invariant.reachable h
  refine ⟨fun x hx hend => he.shutDown hx hend,failSession_goawayFlags s,?_,?_,he.once.countP_le_one _,?_⟩
  · intro pre e post hcut hend x hx
    obtain ⟨b1,b2,rfl⟩ := List.append_of_mem hx
    refine Bool.eq_false_iff.mpr ?_
    intro ha
    have hcut' : s.host.log = (pre ++ e :: b1) ++ x :: b2 := by
      rw [hcut]
      simp
    rw [he.last _ x b2 hcut' ha e (List.mem_append_right _ (.head _))] at hend
    cases hend
  · intro hflags s' es ht hlog
    obtain ⟨-,⟨es',hes,hquiet⟩,hnone⟩ := Steps.after_shutDown (turns_steps ht) hflags
    have heq : es = es' := List.append_cancel_left (hlog.symm.trans hes)
    refine ⟨heq ▸ hquiet,?_⟩
    intro id hn
    exact Option.map_eq_none_iff.mp (hnone id (conn_find_none none hn))
  · rintro hfail ⟨f,hf⟩ s' ht
    have hlater := Steps.later (turns_steps ht)
    have h1 : s'.goawaySend = true := hlater.1 (he.sent f hf)
    have h2 : s'.goawayFailOnSend = true := hlater.2 hfail
    unfold wantRead wantWrite
    rw [h1,h2]
    exact ⟨rfl,rfl⟩

/-- A server whose client has opened a stream with an even id. -/
def failedServer : Session :=
  ((sampleServer [.accept 1000] []).start peerPlatform).run peerPlatform [.memRecv (firstRequest 1 2),.send]

theorem failed_server_wants_nothing : failedServer.goawayFailOnSend = true ∧ failedServer.wantRead = false ∧
    failedServer.wantWrite = false := by
  have hfail : failedServer.goawayFailOnSend = true := by decide +kernel
  refine ⟨hfail,(shutdown_is_final peerPlatform _ failedServer (run_reachable _ _ _)).2.2.2.2.2 hfail ?_
    failedServer .refl⟩
  exact ⟨⟨⟨3,0,8⟩,0,1⟩,by decide +kernel⟩

end Spdylay.Protocol
