import Spdylay.Proxy.ChunkedUploads

/-! Connections to the backend. Each one is known by what it has carried; it is attached to
one request or lies in the pool of its client's handler, from which the next request takes
any one of them. -/
namespace Spdylay
namespace Shrpx

/-- How far one exchange on a connection has come: the request has been written to its end,
and what was read last is the end of a message with a final status. -/
structure Exchange where
  requestEnded : Bool := false
  responseEnded : Bool := false
  deriving DecidableEq, Repr

def Exchange.Complete (e : Exchange) : Prop := e.requestEnded = true ∧ e.responseEnded = true

/-- The exchanges of a connection, the latest one last. -/
abbrev History := List Exchange

def Clean (h : History) : Prop := ∀ e ∈ h, e.Complete

structure ConnectionPool where
  idle : List History := []
  /-- The connections taken from the pool so far, as they were then. -/
  reused : List History := []
  deriving DecidableEq, Repr

namespace ConnectionPool

def poolDownstreamConnection (p : ConnectionPool) (h : History) : ConnectionPool := { p with idle := h :: p.idle }

def removeDownstreamConnection (p : ConnectionPool) (i : Nat) : ConnectionPool := { p with idle := p.idle.eraseIdx i }

/-- Which idle connection comes first depends on its address. A new one has no history, and
is not connected yet. -/
def getDownstreamConnection (p : ConnectionPool) (pick : Nat) : Option History × ConnectionPool :=
  match p.idle[pick % p.idle.length]? with
  | some h => (some h,{ idle := p.idle.eraseIdx (pick % p.idle.length), reused := p.reused ++ [h] })
  | none => (none,p)

def AllClean (p : ConnectionPool) : Prop := ∀ h ∈ p.idle, Clean h

theorem AllClean.poolDownstreamConnection {p : ConnectionPool} (h : p.AllClean) {c : History} (hc : Clean c) :
    (p.poolDownstreamConnection c).AllClean :=
  List.forall_mem_cons.mpr ⟨hc,h⟩

theorem AllClean.removeDownstreamConnection {p : ConnectionPool} (h : p.AllClean) (i : Nat) :
    (p.removeDownstreamConnection i).AllClean :=
  fun c hc => h c (List.mem_of_mem_eraseIdx hc)

theorem AllClean.getDownstreamConnection {p : ConnectionPool} (h : p.AllClean) (hr : ∀ c ∈ p.reused, Clean c)
    (pick : Nat) : (p.getDownstreamConnection pick).2.AllClean ∧
      (∀ c ∈ (p.getDownstreamConnection pick).2.reused, Clean c) ∧
      ∀ c ∈ (p.getDownstreamConnection pick).1, Clean c := by
  rw [ConnectionPool.getDownstreamConnection]
  cases hpick : p.idle[pick % p.idle.length]? with
  | none => exact ⟨h,hr,nofun⟩
  | some c =>
    have hc : Clean c := h c (List.mem_of_getElem? hpick)
    refine ⟨fun c' hc' => h c' (List.mem_of_mem_eraseIdx hc'),?_,fun c' hc' => Option.mem_some.mp hc' ▸ hc⟩
    intro c' hc'
    obtain hc' | hc' := List.mem_append.mp hc'
    · exact hr c' hc'
    · rw [List.mem_singleton.mp hc']
      exact hc

theorem getDownstreamConnection_pool (p : ConnectionPool) (c : History) :
    (p.poolDownstreamConnection c).getDownstreamConnection 0 = (some c,{ p with reused := p.reused ++ [c] }) := by
  rw [ConnectionPool.getDownstreamConnection,Nat.zero_mod]
  rfl

end ConnectionPool

/-! A request together with its response and its connection. -/

inductive ResponseState
  | initial
  | headerComplete
  | msgComplete
  deriving DecidableEq, Repr

structure ProxiedRequest extends Downstream where
  responseState : ResponseState := .initial
  responseHttpStatus : Nat := 0
  responseConnectionClose : Bool := false
  /-- Between the head and the end of a message. -/
  responseInMessage : Bool := false
  /-- The response parser stays in an error state. -/
  responseFailed : Bool := false
  /-- A message has ended on which one side wants the connection closed. -/
  closeWanted : Bool := false
  /-- What the attached connection has carried before, and of this request. -/
  past : History := []
  current : Exchange := {}
  deriving DecidableEq, Repr

inductive ResponseCallback
  | hdrsComplete (status : Nat) (shouldKeepAlive : Bool)
  | body (data : Bytes)
  | msgComplete
  | fail
  deriving DecidableEq, Repr

inductive BackendEvent
  | eof
  | error
  | timeout
  deriving DecidableEq, Repr

namespace ProxiedRequest

/-- Of the callbacks of the response parser only those are made that are in their place. -/
def responseCallback (d : ProxiedRequest) : ResponseCallback → ProxiedRequest
  | .hdrsComplete status shouldKeepAlive =>
    if d.responseInMessage then d
    else
      { d with
        responseHttpStatus := status
        responseConnectionClose := !shouldKeepAlive
        responseState := .headerComplete
        responseInMessage := true
        current := { d.current with responseEnded := false } }
  | .body _ => d
  | .msgComplete =>
    if d.responseInMessage then
      { d with
        responseState := .msgComplete
        responseInMessage := false
        closeWanted := d.closeWanted || d.requestConnectionClose || d.responseConnectionClose
        current := { d.current with responseEnded := 200 ≤ d.responseHttpStatus } }
    else d
  | .fail => { d with responseFailed := true }

def parseHttpResponse (d : ProxiedRequest) : List ResponseCallback → ProxiedRequest
  | [] => d
  | callback :: callbacks =>
    if d.responseFailed then d else (d.responseCallback callback).parseHttpResponse callbacks

def tunnelEstablished (d : ProxiedRequest) : Bool :=
  d.requestMethod = str "CONNECT" && decide (200 ≤ d.responseHttpStatus ∧ d.responseHttpStatus < 300)

/-- The attached connection as it would lie in the pool. -/
def history (d : ProxiedRequest) : History := d.past ++ [d.current]

/-- Detached or deleted. -/
def setNoConnection (d : ProxiedRequest) : ProxiedRequest := { d with dconn := false }

/-- Parsing changes neither the request nor what is known of its connection before. -/
theorem responseCallback_frame (d : ProxiedRequest) (cb : ResponseCallback) :
    (d.responseCallback cb).toDownstream = d.toDownstream ∧ (d.responseCallback cb).past = d.past ∧
      (d.responseCallback cb).current.requestEnded = d.current.requestEnded := by
  cases cb with
  | hdrsComplete status shouldKeepAlive =>
    rw [responseCallback]
    split <;> exact ⟨rfl,rfl,rfl⟩
  | body data => exact ⟨rfl,rfl,rfl⟩
  | msgComplete =>
    rw [responseCallback]
    split <;> exact ⟨rfl,rfl,rfl⟩
  | fail => exact ⟨rfl,rfl,rfl⟩

theorem parseHttpResponse_frame (d : ProxiedRequest) (cbs : List ResponseCallback) :
    (d.parseHttpResponse cbs).toDownstream = d.toDownstream ∧ (d.parseHttpResponse cbs).past = d.past ∧
      (d.parseHttpResponse cbs).current.requestEnded = d.current.requestEnded := by
  induction cbs generalizing d with
  | nil => exact ⟨rfl,rfl,rfl⟩
  | cons cb cbs ih =>
    rw [parseHttpResponse]
    split
    · exact ⟨rfl,rfl,rfl⟩
    · obtain ⟨h1,h2,h3⟩ := ih (d.responseCallback cb)
      obtain ⟨g1,g2,g3⟩ := responseCallback_frame d cb
      exact ⟨h1.trans g1,h2.trans g2,h3.trans g3⟩

/-- What the response parser knows of its message tells whether the response has ended. -/
def Tracks (d : ProxiedRequest) : Prop :=
  d.current.responseEnded = (!d.responseInMessage && decide (200 ≤ d.responseHttpStatus))

theorem Tracks.responseCallback {d : ProxiedRequest} (h : d.Tracks) (cb : ResponseCallback) : (d.responseCallback cb).Tracks := by
  cases cb with
  | hdrsComplete status shouldKeepAlive =>
    rw [ProxiedRequest.responseCallback]
    split
    · exact h
    · rfl
  | body data => exact h
  | msgComplete =>
    rw [ProxiedRequest.responseCallback]
    split
    · rfl
    · exact h
  | fail => exact h

theorem Tracks.parseHttpResponse {d : ProxiedRequest} (h : d.Tracks) (cbs : List ResponseCallback) :
    (d.parseHttpResponse cbs).Tracks := by
  induction cbs generalizing d with
  | nil => exact h
  | cons cb cbs ih =>
    rw [ProxiedRequest.parseHttpResponse]
    split
    · exact h
    · exact ih (h.responseCallback cb)

end ProxiedRequest

end Shrpx
end Spdylay
