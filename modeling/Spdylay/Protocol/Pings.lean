import Spdylay.Protocol.WriteOrder

/-! PINGs: the id of the last one sent tells a reply from a request. -/
namespace Spdylay.Protocol
open Library Session Conn

/-! What the field is. -/

/-- The id of the last PING sent, 0 once a PING with that id has come in. -/
def pendingStep (id : Nat) : Event → Nat
  | .ctrlSend (.ping f) => f.uniqueId
  | .ctrlRecv (.ping f) => if id = f.uniqueId then 0 else id
  | _ => id

def pendingPing (log : List Event) : Nat := log.foldl pendingStep 0

def pingFree : Event → Bool
  | .ctrlSend (.ping _) | .ctrlRecv (.ping _) => false
  | _ => true

theorem foldl_pingFree {es : List Event} (h : ∀ e ∈ es, pingFree e = true) (id : Nat) : es.foldl pendingStep id = id := by
  induction es with
  | nil => rfl
  | cons e es ih =>
    have he : pendingStep id e = id := by
      have hfree := h e (.head _)
      unfold pendingStep
      split
      · cases hfree
      · cases hfree
      · rfl
    rw [List.foldl_cons,he]
    exact ih (fun x hx => h x (.tail _ hx))

/-- The field of the next state is computed from the events of the step. -/
def Pinged (c c' : Conn) : Prop := ∃ es, c'.log = c.log ++ es ∧ c'.lastPingUniqueId = es.foldl pendingStep c.lastPingUniqueId

theorem Pinged.free {c c' : Conn} {l : List Event} (h1 : c'.log = c.log ++ l)
    (h2 : c'.lastPingUniqueId = c.lastPingUniqueId) (h3 : ∀ e ∈ l, pingFree e = true) : Pinged c c' :=
  ⟨l,h1,h2.trans (foldl_pingFree h3 _).symm⟩

theorem Pinged.silent {c c' : Conn} (h1 : c'.log = c.log) (h2 : c'.lastPingUniqueId = c.lastPingUniqueId) : Pinged c c' :=
  .free (l := []) (h1.trans (List.append_nil _).symm) h2 (List.forall_mem_nil _)

theorem Pinged.logged {c c' : Conn} {e : Event} (h1 : c'.log = c.log ++ [e])
    (h2 : c'.lastPingUniqueId = c.lastPingUniqueId) (h3 : pingFree e = true) : Pinged c c' :=
  .free h1 h2 (by simpa using h3)

theorem pingFree_of_quiet {e : Event} (h : quiet e = true) : pingFree e = true := by
  cases e with
  | ctrlRecv f =>
    cases f with
    | ping f => cases h
    | _ => rfl
  | ctrlSend f => cases h
  | _ => rfl

theorem pingFree_closeEvents {id : Int} {l : Life} {statusCode : Nat} :
    ∀ e ∈ closeEvents id l statusCode, pingFree e = true := by
  intro e he
  rcases mem_closeEvents he with rfl | ⟨seq,rfl⟩ <;> rfl

theorem pingFree_admitEvents {f : SynStream} : ∀ e ∈ admitEvents f, pingFree e = true := by
  intro e he
  rcases mem_admitEvents he with rfl | rfl | rfl <;> rfl

theorem Side.pinged {c c' : Conn} (h : Side c c') : Pinged c c' := by
  cases h with
  | note e he => exact .logged rfl rfl (pingFree_of_quiet he)
  | close id l statusCode h => exact .free rfl rfl pingFree_closeEvents
  | admitStream f h1 h2 h3 h4 => exact .free rfl rfl pingFree_admitEvents
  | admitUnopened f es h1 h2 h3 =>
    refine .free (l := es ++ admitEvents f) (by simp) rfl ?_
    intro e he
    rcases List.mem_append.mp he with he | he
    · exact pingFree_of_quiet (h3 e he)
    · exact pingFree_admitEvents e he
  | recvPing f h1 => exact ⟨[.ctrlRecv (.ping f)],rfl,(if_neg h1).symm⟩
  | recvPingReply f h1 h2 => exact ⟨[.ctrlRecv (.ping f)],rfl,(if_pos h1).symm⟩
  | complete item f h1 h2 =>
    refine ⟨[.ctrlSend f],by simp,?_⟩
    rw [sent_lastPing]
    cases f <;> rfl
  | refuse frame => exact .silent (by simp) (by simp)
  | recvSynReply | recvHeaders | recvData | recvRequest | recvGoaway | completeData => exact .logged rfl rfl rfl
  | resume | shutRd | read | seePeer | fail | resize | setOrigin | loseCredential | takeId => exact .silent rfl rfl

theorem Move.pinged {c c' : Conn} (h : Move c c') : Pinged c c' := by
  cases h with
  | side h => exact h.pinged
  | accept item ha => exact .logged (e := .accepted item) (by simp) (by simp) rfl
  | credential syn item => exact .logged (e := .accepted item) (by simp) (by simp) rfl
  | drop | finish => exact .logged rfl rfl rfl
  | start item f bytes => exact .free (l := [.prepared item.seq bytes,.beforeCtrlSend f]) rfl rfl (by simp [pingFree])
  | startOwn item f bytes =>
    exact .free (l := [.prepared item.seq bytes,.beforeCtrlSend (.synStream f)]) rfl rfl (by simp [pingFree])
  | startData item d bytes frame =>
    exact .free (l := [.read item.seq d.streamId bytes,.prepared item.seq frame]) rfl rfl (by simp [pingFree])
  | «continue» item item' d bytes frame =>
    exact .free (l := [.read item.seq d.streamId bytes,.prepared item.seq frame]) rfl rfl (by simp [pingFree])
  | pop | popSyn | retouch | requeue | defer | parkActive | requeueActive => exact .silent rfl rfl

theorem Step.pinged {c c' : Conn} (h : Step c c') : Pinged c c' := by
  cases h with
  | move h => exact h.pinged
  | chunk => exact .logged rfl rfl rfl

theorem pings_invariant : Invariant (fun c => c.lastPingUniqueId = pendingPing c.log) where
  start _ _ := rfl
  step c c' h hp := by
    obtain ⟨es,hlog,hnext⟩ := h.pinged
    rw [hnext,hp,hlog]
    exact (List.foldl_append).symm

/-! What the log says. -/

/-- A PING that this side initiates, and one that the peer does. -/
def ownPing (server : Bool) (id : Nat) : Bool := id ≠ 0 && if server then id % 2 = 0 else id % 2 = 1

def peerPing (server : Bool) (id : Nat) : Bool := id ≠ 0 && if server then id % 2 = 1 else id % 2 = 0

/-- The last PING sent has this id, and no PING with it has come in since. -/
def LastSent (log : List Event) (id : Nat) : Prop :=
  ∃ a f b, log = a ++ .ctrlSend (.ping f) :: b ∧ f.uniqueId = id ∧ (∀ g, .ctrlSend (.ping g) ∉ b) ∧
    ∀ g, .ctrlRecv (.ping g) ∈ b → g.uniqueId ≠ id

/-- The last PING of this side that was sent has the id. -/
def LastOwn (server : Bool) (log : List Event) (id : Nat) (since : List Event) : Prop :=
  ownPing server id = true ∧ ∃ a f, log = a ++ .ctrlSend (.ping f) :: since ∧ f.uniqueId = id ∧
    ∀ g, .ctrlSend (.ping g) ∈ since → ownPing server g.uniqueId = false

/-- No PING with the id has come in since. -/
def AwaitsReply (server : Bool) (log : List Event) (id : Nat) : Prop :=
  ∃ since, LastOwn server log id since ∧ ∀ g, .ctrlRecv (.ping g) ∈ since → g.uniqueId ≠ id

/-- An echo has been sent since. -/
def EchoSince (server : Bool) (log : List Event) (id : Nat) : Prop :=
  ∃ since, LastOwn server log id since ∧ ∃ g, .ctrlSend (.ping g) ∈ since

theorem pendingPing_concat (log : List Event) (e : Event) : pendingPing (log ++ [e]) = pendingStep (pendingPing log) e := by
  unfold pendingPing
  rw [List.foldl_append]
  rfl

/-- Later events that neither send a PING nor bring one with the id. -/
theorem foldl_pending {id : Nat} {b : List Event} (hs : ∀ g, .ctrlSend (.ping g) ∉ b)
    (hr : ∀ g, .ctrlRecv (.ping g) ∈ b → g.uniqueId ≠ id) : b.foldl pendingStep id = id := by
  induction b with
  | nil => rfl
  | cons e b ih =>
    have he : pendingStep id e = id := by
      unfold pendingStep
      split
      · exact absurd (.head _) (hs _)
      · exact if_neg (fun h => hr _ (.head _) h.symm)
      · rfl
    rw [List.foldl_cons,he]
    exact ih (fun g hg => hs g (.tail _ hg)) (fun g hg => hr g (.tail _ hg))

theorem LastSent.concat {log : List Event} {id : Nat} (h : LastSent log id) {e : Event}
    (hs : ∀ g, e ≠ .ctrlSend (.ping g)) (hr : ∀ g, e = .ctrlRecv (.ping g) → g.uniqueId ≠ id) : LastSent (log ++ [e]) id := by
  obtain ⟨a,f,b,rfl,hid,h1,h2⟩ := h
  refine ⟨a,f,b ++ [e],by simp,hid,?_,?_⟩
  · intro g hg
    rcases List.mem_append.mp hg with hg | hg
    · exact h1 g hg
    · exact hs g (List.mem_singleton.mp hg).symm
  · intro g hg
    rcases List.mem_append.mp hg with hg | hg
    · exact h2 g hg
    · exact hr g (List.mem_singleton.mp hg).symm

theorem pendingPing_eq_iff {log : List Event} {id : Nat} (h0 : id ≠ 0) : pendingPing log = id ↔ LastSent log id := by
  constructor
  · intro h
    induction log using List.reverseRecOn with
    | nil => exact absurd h.symm h0
    | append_singleton log e ih =>
      rw [pendingPing_concat] at h
      unfold pendingStep at h
      split at h
      · rename_i f
        exact ⟨log,f,[],rfl,h,nofun,nofun⟩
      · rename_i f
        split at h
        · exact absurd h.symm h0
        · rename_i hne
          refine (ih h).concat nofun ?_
          intro g hg hid
          cases hg
          exact hne (h.trans hid.symm)
      · rename_i hs hr
        exact (ih h).concat hs (fun g hg => absurd hg (hr g))
  · rintro ⟨a,f,b,rfl,rfl,h1,h2⟩
    unfold pendingPing
    rw [List.foldl_append]
    exact foldl_pending h1 h2

/-- After an echo the field holds no id of this side. -/
theorem foldl_not_own {server : Bool} {b : List Event}
    (hs : ∀ g, .ctrlSend (.ping g) ∈ b → ownPing server g.uniqueId = false) {n : Nat} (hn : ownPing server n = false) :
    ownPing server (b.foldl pendingStep n) = false := by
  induction b generalizing n with
  | nil => exact hn
  | cons e b ih =>
    refine ih (fun g hg => hs g (.tail _ hg)) ?_
    unfold pendingStep
    split
    · exact hs _ (.head _)
    · split
      · rfl
      · exact hn
    · exact hn

/-- The reply to the last PING of this side is recognised unless an echo was sent since. -/
theorem pendingPing_of_awaits {server : Bool} {log : List Event} {id : Nat} (h : AwaitsReply server log id) :
    pendingPing log = id ↔ ¬EchoSince server log id := by
  constructor
  · rintro hp ⟨since,⟨hown,a,f,rfl,hid,hecho⟩,g,hg⟩
    obtain ⟨b1,b2,rfl⟩ := List.append_of_mem hg
    have hnot : ownPing server (pendingPing (a ++ .ctrlSend (.ping f) :: (b1 ++ .ctrlSend (.ping g) :: b2))) = false := by
      unfold pendingPing
      rw [List.foldl_append,List.foldl_cons,List.foldl_append,List.foldl_cons]
      exact foldl_not_own (fun k hk => hecho k (List.mem_append_right _ (.tail _ hk))) (hecho g hg)
    rw [hp,hown] at hnot
    cases hnot
  · intro hno
    obtain ⟨since,hlast,hr⟩ := h
    have hnone : ∀ g, .ctrlSend (.ping g) ∉ since := fun g hg => hno ⟨since,hlast,g,hg⟩
    obtain ⟨-,a,f,rfl,rfl,-⟩ := hlast
    unfold pendingPing
    rw [List.foldl_append]
    exact foldl_pending hnone hr

/-! A PING arrives. -/

/-- Memory for a frame, its item and, where the queue is full, a larger array. -/
def roomForEcho (s : Session) : Bool :=
  s.mallocOk && s.malloc.mallocOk && (s.obPq.q.length < s.obPq.capacity || s.malloc.malloc.mallocOk)

theorem addPing_log (s : Session) (id : Nat) : (roomForEcho s = true ∧ ∃ item : OutboundItem,
      item.frame = .ctrl (.ping (framePingInit s.version.num id)) ∧
      (s.addPing id).1.host.log = s.host.log ++ [.accepted item]) ∨
    (roomForEcho s = false ∧ (s.addPing id).1.host.log = s.host.log) := by
  unfold roomForEcho addPing addCtrl addFrame
  cases h1 : s.mallocOk with
  | false => exact .inr ⟨rfl,rfl⟩
  | true =>
    cases h2 : s.malloc.mallocOk with
    | false =>
      refine .inr ⟨rfl,?_⟩
      rfl
    | true =>
      simp only [if_true,Bool.true_and]
      unfold pushItem Session.pushOb pqPush
      by_cases hfull : s.obPq.capacity ≤ s.obPq.q.length
      · cases h3 : s.malloc.malloc.mallocOk with
        | false =>
          refine .inr ⟨by simpa using hfull,?_⟩
          change s.malloc.malloc.host.mem.headD true = false at h3
          simp [OutboundItem.isSynStream,newItem,markClosing,malloc,setMem,hfull] at h3 ⊢
          simp [h3]
        | true =>
          refine .inl ⟨by simp,s.malloc.newItem (.ctrl (.ping (framePingInit s.version.num id))) none,rfl,?_⟩
          change s.malloc.malloc.host.mem.headD true = true at h3
          simp [OutboundItem.isSynStream,newItem,markClosing,malloc,setMem,hfull] at h3 ⊢
          simp [h3,emit]
      · refine .inl ⟨by simp [not_le.mp hfull],s.malloc.newItem (.ctrl (.ping (framePingInit s.version.num id))) none,rfl,?_⟩
        simp [OutboundItem.isSynStream,newItem,markClosing,malloc,setMem,hfull,emit]

/-- A PING of the peer is answered by one echo and reported; the reply to the last
PING of this side is reported and not answered. -/
structure PingExchange (s : Session) (f : Ping) : Prop where
  echoed : peerPing s.server f.uniqueId = true → ∃ item : OutboundItem,
    item.frame = .ctrl (.ping (framePingInit s.version.num f.uniqueId)) ∧
    (s.onPingReceived f).1.host.log = s.host.log ++ [.accepted item,.ctrlRecv (.ping f)]
  reported : AwaitsReply s.server s.host.log f.uniqueId →
    (s.onPingReceived f).1.host.log = s.host.log ++ [.ctrlRecv (.ping f)]

theorem peerPing_iff {s : Session} {id : Nat} (h0 : id ≠ 0) :
    (s.server = true ∧ id % 2 = 1) ∨ ((!s.server) = true ∧ id % 2 = 0) ↔ peerPing s.server id = true := by
  unfold peerPing
  cases s.server <;> simp [h0]

theorem not_peerPing_of_ownPing {server : Bool} {id : Nat} (h : ownPing server id = true) : peerPing server id = false := by
  unfold ownPing at h
  unfold peerPing
  cases server with
  | true =>
    simp only [if_true,Bool.and_eq_true,decide_eq_true_eq] at h
    simp [h.2]
  | false =>
    simp only [Bool.false_eq_true,if_false,Bool.and_eq_true,decide_eq_true_eq] at h
    simp [h.2]

/-- What the handler logs. -/
theorem onPingReceived_log {s : Session} {f : Ping} (hv : s.checkVersion f.hd.version = true) (h0 : f.uniqueId ≠ 0) :
    (s.onPingReceived f).1.host.log = if s.lastPingUniqueId = f.uniqueId then s.host.log ++ [.ctrlRecv (.ping f)]
      else if peerPing s.server f.uniqueId = true then (s.addPing f.uniqueId).1.host.log ++ [.ctrlRecv (.ping f)]
      else s.host.log := by
  unfold onPingReceived
  rw [if_neg (by simp [hv,h0])]
  split
  · rfl
  · simp only [peerPing_iff h0]
    split <;> rfl

/-- For a session whose field is what its log says. -/
theorem pingExchange_iff {s : Session} {f : Ping} (hlast : s.lastPingUniqueId = pendingPing s.host.log)
    (hv : s.checkVersion f.hd.version = true) (h0 : f.uniqueId ≠ 0) : PingExchange s f ↔
      (peerPing s.server f.uniqueId = true → ¬LastSent s.host.log f.uniqueId ∧ roomForEcho s = true) ∧
      (AwaitsReply s.server s.host.log f.uniqueId → ¬EchoSince s.server s.host.log f.uniqueId) := by
  have hlog := onPingReceived_log hv h0
  have hlen : ∀ (item : OutboundItem), s.host.log ++ [.ctrlRecv (.ping f)] ≠ s.host.log ++ [.accepted item,.ctrlRecv (.ping f)] := by
    intro item h
    cases List.append_cancel_left h
  by_cases hp : pendingPing s.host.log = f.uniqueId
  · -- the PING is taken for a reply
    rw [if_pos (hlast.trans hp)] at hlog
    constructor
    · intro hex
      refine ⟨?_,fun ha => (pendingPing_of_awaits ha).mp hp⟩
      intro hpeer
      obtain ⟨item,-,he⟩ := hex.echoed hpeer
      exact absurd (hlog.symm.trans he) (hlen item)
    · intro hc
      exact ⟨fun hpeer => absurd ((pendingPing_eq_iff h0).mp hp) (hc.1 hpeer).1,fun _ => hlog⟩
  · rw [if_neg (fun h => hp (hlast.symm.trans h))] at hlog
    have hnot : ¬LastSent s.host.log f.uniqueId := fun h => hp ((pendingPing_eq_iff h0).mpr h)
    cases hpeer : peerPing s.server f.uniqueId with
    | true =>
      rw [if_pos hpeer] at hlog
      have hawait : ¬AwaitsReply s.server s.host.log f.uniqueId := by
        rintro ⟨since,⟨hown,-⟩,-⟩
        rw [not_peerPing_of_ownPing hown] at hpeer
        cases hpeer
      rcases addPing_log s f.uniqueId with ⟨hroom,item,hf,hadd⟩ | ⟨hroom,hadd⟩
      · rw [hadd,List.append_assoc] at hlog
        exact ⟨fun _ => ⟨fun _ => ⟨hnot,hroom⟩,fun ha => absurd ha hawait⟩,
          fun _ => ⟨fun _ => ⟨item,hf,hlog⟩,fun ha => absurd ha hawait⟩⟩
      · rw [hadd] at hlog
        constructor
        · intro hex
          obtain ⟨item,-,he⟩ := hex.echoed hpeer
          exact absurd (hlog.symm.trans he) (hlen item)
        · intro hc
          rw [hroom] at hc
          cases (hc.1 rfl).2
    | false =>
      rw [if_neg (by rw [hpeer]; nofun)] at hlog
      constructor
      · intro hex
        refine ⟨nofun,?_⟩
        intro ha
        have he := hlog.symm.trans (hex.reported ha)
        exact absurd he.symm (by simp)
      · intro hc
        refine ⟨fun h => absurd h (by rw [hpeer]; nofun),?_⟩
        intro ha
        exact absurd ((pendingPing_of_awaits ha).mpr (hc.2 ha)) hp

theorem ownPing_zero (server : Bool) : ownPing server 0 = false := rfl

theorem peerPing_zero (server : Bool) : peerPing server 0 = false := rfl

/-- A PING of another version, or without an id, is dropped. -/
theorem onPingReceived_dropped {s : Session} {f : Ping} (h : s.checkVersion f.hd.version = false ∨ f.uniqueId = 0) :
    (s.onPingReceived f).1.host.log = s.host.log := by
  unfold onPingReceived
  rw [if_pos (by simpa using h)]

theorem pingExchange_dropped_iff {s : Session} {f : Ping} (h : s.checkVersion f.hd.version = false ∨ f.uniqueId = 0) :
    PingExchange s f ↔ peerPing s.server f.uniqueId = false ∧ ¬AwaitsReply s.server s.host.log f.uniqueId := by
  have hlog := onPingReceived_dropped h
  constructor
  · intro hex
    refine ⟨?_,?_⟩
    · rw [← Bool.not_eq_true]
      intro hpeer
      obtain ⟨item,-,he⟩ := hex.echoed hpeer
      exact absurd (hlog.symm.trans he).symm (by simp)
    · intro ha
      exact absurd (hlog.symm.trans (hex.reported ha)).symm (by simp)
  · rintro ⟨hpeer,hawait⟩
    refine ⟨?_,fun ha => absurd ha hawait⟩
    rw [hpeer]
    nofun

/-- In every session that can come about, whatever it is reading and whatever memory
it has: a PING of the peer is echoed just if it has the session's version, the last PING
sent does not have its id and there is memory, and the reply to the last PING of this side
is reported just if it has the session's version and no echo has been sent since. -/
theorem ping_exchange_iff (P : Platform) (u : Setup) (s : Session) (h : Reachable P u s) (fr : InboundFrame) (m : Mem)
    (f : Ping) :
    PingExchange {s with iframe := fr, host := {s.host with mem := m}} f ↔
      (peerPing s.server f.uniqueId = true → f.hd.version = s.version.num ∧ ¬LastSent s.host.log f.uniqueId ∧
        roomForEcho {s with iframe := fr, host := {s.host with mem := m}} = true) ∧
      (AwaitsReply s.server s.host.log f.uniqueId → f.hd.version = s.version.num ∧
        ¬EchoSince s.server s.host.log f.uniqueId) := by
  have hversion : s.checkVersion f.hd.version = true ↔ f.hd.version = s.version.num := by
    rw [checkVersion,decide_eq_true_eq]
    exact eq_comm
  by_cases h0 : f.uniqueId = 0
  · -- no side starts with the id 0
    have hpeer : peerPing s.server f.uniqueId = false := by
      rw [h0]
      exact peerPing_zero s.server
    have hawait : ¬AwaitsReply s.server s.host.log f.uniqueId := by
      rintro ⟨since,⟨hown,-⟩,-⟩
      rw [h0,ownPing_zero] at hown
      cases hown
    rw [pingExchange_dropped_iff (s := {s with iframe := fr, host := {s.host with mem := m}}) (.inr h0)]
    exact ⟨fun _ => ⟨by rw [hpeer]; nofun,fun ha => absurd ha hawait⟩,fun _ => ⟨hpeer,hawait⟩⟩
  · cases hv : s.checkVersion f.hd.version with
    | true =>
      rw [pingExchange_iff (s := {s with iframe := fr, host := {s.host with mem := m}}) (pings_invariant.reachable h) hv h0]
      simp only [hversion.mp hv,true_and]
    | false =>
      have hne : f.hd.version ≠ s.version.num := by
        intro he
        rw [hversion.mpr he] at hv
        cases hv
      rw [pingExchange_dropped_iff (s := {s with iframe := fr, host := {s.host with mem := m}}) (.inl hv)]
      simp only [hne,false_and,imp_false,Bool.not_eq_true]

/-- A server that has sent a PING. -/
def pingSent : Session :=
  ((sampleServer [.accept 1000] []).start peerPlatform).run peerPlatform [.submitPing,.send]

theorem reply_to_ping_sent : peerPing true 2 = false ∧ PingExchange pingSent ⟨⟨3,0,4⟩,2⟩ := by
  refine ⟨rfl,(ping_exchange_iff peerPlatform _ pingSent (run_reachable _ _ _) pingSent.iframe pingSent.host.mem
    ⟨⟨3,0,4⟩,2⟩).mpr ⟨nofun,?_⟩⟩
  intro ha
  exact ⟨rfl,(pendingPing_of_awaits ha).mp (by decide +kernel)⟩

/-- A server that has echoed a PING of its client. -/
def pingEchoed : Session :=
  ((sampleServer [.accept 1000] []).start peerPlatform).run peerPlatform
    [.memRecv [128,3,0,6,0,0,0,4,0,0,0,1],.send]

/-- A server that has echoed one after it has sent its own. -/
def pingOvertaken : Session :=
  ((sampleServer [.accept 1000,.accept 1000] []).start peerPlatform).run peerPlatform
    [.submitPing,.send,.memRecv [128,3,0,6,0,0,0,4,0,0,0,1],.send]

/-- The same PING again is not echoed, and the reply to the own PING is not reported. -/
theorem echo_taken_for_ping : ¬PingExchange pingEchoed ⟨⟨3,0,4⟩,1⟩ ∧ ¬PingExchange pingOvertaken ⟨⟨3,0,4⟩,2⟩ := by
  constructor
  · intro h
    obtain ⟨item,-,hlog⟩ := h.echoed rfl
    have hlen : (pingEchoed.onPingReceived ⟨⟨3,0,4⟩,1⟩).1.host.log.length = pingEchoed.host.log.length+1 := by
      decide +kernel
    rw [hlog,List.length_append] at hlen
    simp at hlen
  · intro h
    have hlen : (pingOvertaken.onPingReceived ⟨⟨3,0,4⟩,2⟩).1.host.log.length = pingOvertaken.host.log.length := by
      decide +kernel
    have hsince : (pingOvertaken.host.log.drop 5).all (fun e => match e with
        | .ctrlSend (.ping g) => !ownPing true g.uniqueId
        | .ctrlRecv (.ping g) => g.uniqueId ≠ 2
        | _ => true) = true := by decide +kernel
    have hcut : pingOvertaken.host.log = pingOvertaken.host.log.take 4 ++ .ctrlSend (.ping ⟨⟨3,0,4⟩,2⟩) ::
        pingOvertaken.host.log.drop 5 := by decide +kernel
    rw [h.reported ⟨pingOvertaken.host.log.drop 5,⟨rfl,_,_,hcut,rfl,?_⟩,?_⟩] at hlen
    · simp at hlen
    · intro g hg
      have hserver : pingOvertaken.server = true := by decide +kernel
      have hown := List.all_eq_true.mp hsince _ hg
      rw [hserver]
      simpa using hown
    · intro g hg
      have hne := List.all_eq_true.mp hsince _ hg
      simpa using hne

end Spdylay.Protocol
