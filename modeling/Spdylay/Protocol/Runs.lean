import Spdylay.Protocol.Sending

/-! Every turn of a session is a sequence of steps of the protocol, so that what the
steps keep holds in every session that can come about. -/
namespace Spdylay.Protocol
open Library Session Conn

theorem recvIter_steps (P : Platform) (s : Session) (input : Bytes) :
    Steps (conn s none) (conn (s.recvIter P input).1 none) := by
  obtain ⟨f,c,hc,hm⟩ := recvIter_moves P s input
  have hread := (Side.read (conn s none) f).moves.steps
  rcases hc with rfl | ⟨flags,id,data,hd,-,rfl⟩
  · exact hread.trans hm.steps
  · exact (hread.tail (.chunk _ flags id data hd)).trans hm.steps

theorem turn_steps {P : Platform} {s s' : Session} (h : Turn P s s') : Steps (conn s none) (conn s' none) := by
  cases h with
  | prepare ha => exact (prepareNext_moves P ha).steps
  | write item ha => exact (sendWrite_moves ha).steps
  | recv input => exact recvIter_steps P s input
  | submit op hs hr => exact (submission_moves P s op hs hr).steps
  | report e => exact (note_moves s (.fatal e) none rfl).steps

theorem turns_steps {P : Platform} {s s' : Session} (h : Turns P s s') : Steps (conn s none) (conn s' none) := by
  induction h with
  | refl => exact .refl
  | tail _ ht ih => exact ih.trans (turn_steps ht)

/-- The protocol side of a new session. -/
def initialConn (P : Platform) (u : Setup) : Conn where
  server := u.server
  nextStreamId := if u.server then 2 else 1
  lastRecvStreamId := 0
  nextSeq := 0
  streams := fun _ => none
  obPq := []
  obSsPq := []
  active := none
  hand := none
  goawaySend := false
  goawayRecv := false
  goawayFailOnSend := false
  lastPingUniqueId := 0
  cliCertvec := .init (if u.server then 0 else initialClientCertVectorLength)
  iframe := (u.start P).iframe
  log := []

theorem conn_start (P : Platform) (u : Setup) : conn (u.start P) none = initialConn P u := by
  unfold initialConn Setup.start
  cases u.server <;> rfl

/-- What holds of every new session and is kept by every step. -/
structure Invariant (I : Conn → Prop) : Prop where
  start : ∀ (P : Platform) (u : Setup), I (initialConn P u)
  step : ∀ c c', Step c c' → I c → I c'

theorem Invariant.reachable {I : Conn → Prop} (h : Invariant I) {P : Platform} {u : Setup} {s : Session}
    (hs : Reachable P u s) : I (conn s none) := by
  have h0 : I (conn (u.start P) none) := by
    rw [conn_start]
    exact h.start P u
  exact keeps_of_steps h.step (turns_steps hs) h0

/-- With an invariant at hand. -/
theorem Invariant.with {I J : Conn → Prop} (hI : Invariant I) (h0 : ∀ (P : Platform) (u : Setup), J (initialConn P u))
    (hs : ∀ c c', Step c c' → I c → I c' → J c → J c') : Invariant (fun c => I c ∧ J c) := by
  refine ⟨fun P u => ⟨hI.start P u,h0 P u⟩,fun c c' h hc => ?_⟩
  have hi := hI.step c c' h hc.1
  exact ⟨hi,hs c c' h hc.1 hi hc.2⟩

end Spdylay.Protocol
