import Spdylay.Proxy.ConnectionPool

/-! The HTTP front end of one client: its request parser, the request it is working on and
the pool of backend connections. Appending to a buffer succeeds, and assertions are on. -/
namespace Spdylay
namespace Shrpx

inductive ParserErrno
  | ok
  | paused
  | failed
  deriving DecidableEq, Repr

inductive ParserPhase
  | idle
  | headers
  | body
  | trailer
  deriving DecidableEq, Repr

def ParserPhase.pastHead : ParserPhase → Bool
  | .idle | .headers => false
  | .body | .trailer => true

structure HttpsUpstream where
  errno : ParserErrno := .ok
  phase : ParserPhase := .idle
  currentHeaderLength : Nat := 0
  downstream : Option ProxiedRequest := none
  /-- The reasons for which reading from the client is paused. -/
  noBuffer : Bool := false
  msgBlock : Bool := false
  shouldCloseAfterWrite : Bool := false
  pool : ConnectionPool := {}
  deriving DecidableEq, Repr

/-- What is dereferenced although it is missing, or an assertion that does not hold. -/
inductive Crash
  | dconn
  | downstream
  | assertion
  deriving DecidableEq, Repr

/-- `closed` is after the handler of the client has been deleted. What ends leaves the pool as
it was. -/
inductive HttpsOutcome
  | running (s : HttpsUpstream)
  | closed (pool : ConnectionPool)
  | crashed (why : Crash) (pool : ConnectionPool)
  deriving DecidableEq, Repr

def HttpsOutcome.pool : HttpsOutcome → ConnectionPool
  | .running s => s.pool
  | .closed pool => pool
  | .crashed _ pool => pool

structure RequestHead where
  method : Bytes := []
  path : Bytes := []
  httpMajor : Nat := 1
  httpMinor : Nat := 1
  shouldKeepAlive : Bool := true
  fields : CutFields := {}
  deriving DecidableEq, Repr

/-- For a head, which idle connection comes first and what connecting a new one returns. -/
inductive RequestCallback
  | msgBegin
  | hdrsComplete (head : RequestHead) (pick : Nat) (connect : Int)
  | body (data : Bytes)
  | trailer (c : HeaderCallback)
  | msgComplete
  | fail
  deriving DecidableEq, Repr

/-- Behind it there is no more of the body. -/
def RequestCallback.endsBody : RequestCallback → Bool
  | .trailer _ | .msgComplete | .fail => true
  | _ => false

/-- Client data that the parser takes, and whether the backend's output buffer is then full. -/
structure ReadInput where
  callbacks : List RequestCallback
  nread : Nat
  outputBufferFull : Bool := false
  deriving DecidableEq, Repr

inductive PauseReason
  | noBuffer
  | msgBlock
  deriving DecidableEq, Repr

def maxHeaderLength : Nat := 65536

/-- Nothing is left of it when there is no connection to write to. -/
def Downstream.writeRequestHeaders (config : Config) (ipaddr : Bytes) (d : Downstream) : Option Downstream :=
  if d.dconn then some (d.pushRequestHeaders config ipaddr) else none

/-- The request as the parser has it at the end of its head. -/
def RequestHead.request (head : RequestHead) : Downstream :=
  let d : Downstream :=
    { requestMethod := head.method, requestPath := head.path, requestMajor := head.httpMajor,
      requestMinor := head.httpMinor, requestConnectionClose := !head.shouldKeepAlive }
  d.setHeaderFields (requestFields head.fields)

namespace HttpsUpstream

def deleteDownstream (s : HttpsUpstream) : HttpsUpstream := { s with downstream := none }

def errorReply (s : HttpsUpstream) : HttpsUpstream :=
  { s with downstream := s.downstream.map (fun d => { d with responseState := .msgComplete }) }

def pauseRead (s : HttpsUpstream) : PauseReason → HttpsUpstream
  | .noBuffer => { s with noBuffer := true }
  | .msgBlock => { s with msgBlock := true }

/-! The request parser. A callback out of its place is never made. -/

section
variable (config : Config) (ipaddr : Bytes)

def htpHdrsComplete (s : HttpsUpstream) (d : ProxiedRequest) (head : RequestHead) (pick : Nat) (connect : Int) :
    HttpsOutcome :=
  let r := s.pool.getDownstreamConnection pick
  let s := { s with pool := r.2 }
  if r.1 = none ∧ connect ≠ 0 then
    .running { s with
      errno := .failed
      downstream := some { d with toDownstream := head.request.setRequestState .connectFail } }
  else
    match { head.request with dconn := true }.writeRequestHeaders config ipaddr with
    | some request =>
      .running { s with
        phase := .body
        downstream := some { d with
          toDownstream := request.setRequestState .headerComplete, past := r.1.getD [] } }
    | none => .crashed .dconn s.pool

def htpBody (s : HttpsUpstream) (d : ProxiedRequest) (data : Bytes) : HttpsUpstream :=
  let r := htpBodycb d.toDownstream data
  { s with
    downstream := some { d with toDownstream := r.1 }
    errno := if r.2 = 0 then s.errno else .failed }

/-- A field behind the body. -/
def htpTrailer (s : HttpsUpstream) (d : ProxiedRequest) (c : HeaderCallback) : HttpsUpstream :=
  { s with
    phase := .trailer
    downstream := some { d with toDownstream := d.toDownstream.requestHdrcb c } }

/-- The parser is paused, so that the next request has to wait. -/
def htpMsgComplete (s : HttpsUpstream) (d : ProxiedRequest) : HttpsOutcome :=
  match d.toDownstream.endUploadData with
  | some request =>
    .running { s with
      phase := .idle
      errno := .paused
      downstream := some { d with
        toDownstream := request.setRequestState .msgComplete
        current := { d.current with requestEnded := d.current.requestEnded || d.dconn } } }
  | none => .crashed .dconn s.pool

def callback (s : HttpsUpstream) : RequestCallback → HttpsOutcome
  | .msgBegin =>
    if s.phase ≠ .idle then .running s
    else if s.downstream = none then
      .running { s with phase := .headers, currentHeaderLength := 0, downstream := some {} }
    else .crashed .assertion s.pool
  | .hdrsComplete head pick connect =>
    if s.phase ≠ .headers then .running s
    else
      match s.downstream with
      | some d => htpHdrsComplete config ipaddr s d head pick connect
      | none => .crashed .downstream s.pool
  | .body data =>
    if s.phase ≠ .body then .running s
    else
      match s.downstream with
      | some d => .running (s.htpBody d data)
      | none => .crashed .downstream s.pool
  | .trailer c =>
    if s.phase.pastHead then
      match s.downstream with
      | some d => .running (s.htpTrailer d c)
      | none => .crashed .downstream s.pool
    else .running s
  | .msgComplete =>
    if s.phase.pastHead then
      match s.downstream with
      | some d => s.htpMsgComplete d
      | none => .crashed .downstream s.pool
    else .running s
  | .fail => .running { s with errno := .failed }

def httpParserExecute (s : HttpsUpstream) : List RequestCallback → HttpsOutcome
  | [] => .running s
  | cb :: cbs =>
    if s.errno = .ok then
      match s.callback config ipaddr cb with
      | .running s => httpParserExecute s cbs
      | outcome => outcome
    else .running s

/-- The rest of `on_read`, behind the call of the parser. -/
def afterExecute (s : HttpsUpstream) (outputBufferFull : Bool) : HttpsOutcome :=
  match s.errno with
  | .paused =>
    match s.downstream with
    | some d =>
      if d.requestState = .connectFail then .running { s with shouldCloseAfterWrite := true }.errorReply
      else if d.requestState ≠ .msgComplete then .crashed .assertion s.pool
      else if d.dconn then .running (s.pauseRead .msgBlock)
      else if d.responseState ≠ .msgComplete then .crashed .assertion s.pool
      else .running s.deleteDownstream
    | none => .crashed .downstream s.pool
  | .ok =>
    match s.downstream with
    | some d =>
      if d.requestState = .initial ∧ maxHeaderLength < s.currentHeaderLength then
        .running { s with shouldCloseAfterWrite := true }.errorReply
      else if d.dconn ∧ outputBufferFull then .running (s.pauseRead .noBuffer)
      else .running s
    | none => .running s
  | .failed => .running { s with shouldCloseAfterWrite := true }.errorReply

/-- Without input nothing happens. -/
def onRead (s : HttpsUpstream) : Option ReadInput → HttpsOutcome
  | none => .running s
  | some input =>
    match s.httpParserExecute config ipaddr input.callbacks with
    | .running s =>
      { s with currentHeaderLength := s.currentHeaderLength+input.nread }.afterExecute input.outputBufferFull
    | outcome => outcome

def clearReason (s : HttpsUpstream) : PauseReason → HttpsUpstream
  | .noBuffer => { s with noBuffer := false }
  | .msgBlock => { s with msgBlock := false }

/-- The parser cannot be resumed from an error. -/
def resumeRead (s : HttpsUpstream) (reason : PauseReason) (input : Option ReadInput) : HttpsOutcome :=
  let s := s.clearReason reason
  if s.noBuffer = false ∧ s.msgBlock = false then
    if s.errno = .failed then .crashed .assertion s.pool
    else { s with errno := .ok }.onRead config ipaddr input
  else .running s

/-! Callbacks of the backend connection. -/

/-- The end of a request, where the next one is processed. -/
def finish (s : HttpsUpstream) (d : ProxiedRequest) (input : Option ReadInput) : HttpsOutcome :=
  if d.requestState = .msgComplete then s.deleteDownstream.resumeRead config ipaddr .msgBlock input else .running s

/-- Closed or detached, as the response asks for. -/
def releaseConnection (s : HttpsUpstream) (d : ProxiedRequest) : HttpsUpstream :=
  { s with
    downstream := some d.setNoConnection
    pool := if d.responseConnectionClose then s.pool else s.pool.poolDownstreamConnection d.history }

def downstreamReadcb (s : HttpsUpstream) (d : ProxiedRequest) (callbacks : List ResponseCallback) (nothingPending : Bool)
    (input : Option ReadInput) : HttpsOutcome :=
  let d := d.parseHttpResponse callbacks
  let s := { s with downstream := some d, shouldCloseAfterWrite := s.shouldCloseAfterWrite || d.closeWanted }
  if d.responseFailed then
    if d.responseState = .headerComplete then .closed s.pool else s.errorReply.finish config ipaddr d input
  else if d.responseState = .msgComplete then
    if d.requestState = .msgComplete ∧ s.shouldCloseAfterWrite ∧ nothingPending then .closed s.pool
    else (s.releaseConnection d).finish config ipaddr d input
  else .running s

def downstreamEventcb (s : HttpsUpstream) (d : ProxiedRequest) (event : BackendEvent) (nothingPending : Bool)
    (input : Option ReadInput) : HttpsOutcome :=
  match event, d.responseState with
  | .eof, .headerComplete =>
    let s := { s with
      downstream := some { d with responseState := .msgComplete }
      shouldCloseAfterWrite := s.shouldCloseAfterWrite || d.requestConnectionClose || d.responseConnectionClose }
    if s.shouldCloseAfterWrite ∧ nothingPending then .closed s.pool else s.finish config ipaddr d input
  | _, .initial => s.errorReply.finish config ipaddr d input
  | _, _ => s.finish config ipaddr d input

end

inductive Event
  | clientRead (input : ReadInput)
  | clientWrite
  | clientClosed
  | backendRead (callbacks : List ResponseCallback) (nothingPending : Bool) (input : Option ReadInput)
  | backendWrite (input : Option ReadInput)
  | backendEvent (event : BackendEvent) (nothingPending : Bool) (input : Option ReadInput)
  | idleEvent (i : Nat)
  deriving DecidableEq, Repr

/-- The backend's callbacks are those of the attached connection. -/
def step (config : Config) (ipaddr : Bytes) (s : HttpsUpstream) : Event → HttpsOutcome
  | .clientRead input =>
    if s.noBuffer = false ∧ s.msgBlock = false then s.onRead config ipaddr (some input) else .running s
  | .clientWrite => if s.shouldCloseAfterWrite then .closed s.pool else .running s
  | .clientClosed => .closed s.pool
  | .backendRead callbacks nothingPending input =>
    match s.downstream with
    | some d =>
      if d.dconn then s.downstreamReadcb config ipaddr d callbacks nothingPending input else .running s
    | none => .running s
  | .backendWrite input =>
    match s.downstream with
    | some d => if d.dconn then s.resumeRead config ipaddr .noBuffer input else .running s
    | none => .running s
  | .backendEvent event nothingPending input =>
    match s.downstream with
    | some d => if d.dconn then s.downstreamEventcb config ipaddr d event nothingPending input else .running s
    | none => .running s
  | .idleEvent i => .running { s with pool := s.pool.removeDownstreamConnection i }

def run (config : Config) (ipaddr : Bytes) (s : HttpsUpstream) : List Event → HttpsOutcome
  | [] => .running s
  | e :: es =>
    match s.step config ipaddr e with
    | .running s => run config ipaddr s es
    | outcome => outcome

/-! What holds of each branch holds of the outcome. -/

section Rules
variable {config : Config} {ipaddr : Bytes} {s : HttpsUpstream} {P : HttpsOutcome → Prop}

theorem callback_holds {cb : RequestCallback} (hout : (s.phase.pastHead = true → cb.endsBody = false) → P (.running s))
    (hcrash : ∀ why, why ≠ .dconn → P (.crashed why s.pool))
    (hbegin : s.phase = .idle → s.downstream = none →
      P (.running { s with phase := .headers, currentHeaderLength := 0, downstream := some {} }))
    (hhead : ∀ d head pick connect, s.phase = .headers → s.downstream = some d →
      P (s.htpHdrsComplete config ipaddr d head pick connect))
    (hbody : ∀ d data, cb = .body data → s.phase = .body → s.downstream = some d → P (.running (s.htpBody d data)))
    (htrailer : ∀ d c, cb = .trailer c → s.phase.pastHead = true → s.downstream = some d →
      P (.running (s.htpTrailer d c)))
    (hend : ∀ d, cb = .msgComplete → s.phase.pastHead = true → s.downstream = some d → P (s.htpMsgComplete d))
    (hfail : P (.running { s with errno := .failed })) : P (s.callback config ipaddr cb) := by
  cases cb with
  | msgBegin =>
    rw [callback]
    split
    · exact hout (fun _ => rfl)
    · rename_i hidle
      split
      · rename_i hd
        exact hbegin (not_not.mp hidle) hd
      · exact hcrash .assertion nofun
  | hdrsComplete head pick connect =>
    rw [callback]
    split
    · exact hout (fun _ => rfl)
    · rename_i hheaders
      split
      · rename_i d hd
        exact hhead d head pick connect (not_not.mp hheaders) hd
      · exact hcrash .downstream nofun
  | body data =>
    rw [callback]
    split
    · exact hout (fun _ => rfl)
    · rename_i hphase
      split
      · rename_i d hd
        exact hbody d data rfl (not_not.mp hphase) hd
      · exact hcrash .downstream nofun
  | trailer c =>
    rw [callback]
    split
    · rename_i hphase
      split
      · rename_i d hd
        exact htrailer d c rfl hphase hd
      · exact hcrash .downstream nofun
    · rename_i hphase
      exact hout (fun h => absurd h hphase)
  | msgComplete =>
    rw [callback]
    split
    · rename_i hphase
      split
      · rename_i d hd
        exact hend d rfl hphase hd
      · exact hcrash .downstream nofun
    · rename_i hphase
      exact hout (fun h => absurd h hphase)
  | fail => exact hfail

theorem httpParserExecute_holds (hcallback : ∀ s : HttpsUpstream, s.errno = .ok → P (.running s) →
    ∀ cb, P (s.callback config ipaddr cb)) (h : P (.running s)) (cbs : List RequestCallback) :
    P (s.httpParserExecute config ipaddr cbs) := by
  induction cbs generalizing s with
  | nil => exact h
  | cons cb cbs ih =>
    rw [httpParserExecute]
    split
    · rename_i hok
      have hcb := hcallback s hok h cb
      cases hrun : s.callback config ipaddr cb with
      | running s' =>
        rw [hrun] at hcb
        exact ih hcb
      | closed pool =>
        rw [hrun] at hcb
        exact hcb
      | crashed why pool =>
        rw [hrun] at hcb
        exact hcb
    · exact h

theorem afterExecute_holds (hcrash : ∀ why, why ≠ .dconn → P (.crashed why s.pool)) (h : P (.running s))
    (hreply : P (.running { s with shouldCloseAfterWrite := true }.errorReply))
    (hpause : ∀ reason, P (.running (s.pauseRead reason))) (hdelete : P (.running s.deleteDownstream))
    (outputBufferFull : Bool) : P (s.afterExecute outputBufferFull) := by
  rw [afterExecute]
  split
  · split
    · split_ifs
      · exact hreply
      · exact hcrash .assertion nofun
      · exact hpause .msgBlock
      · exact hcrash .assertion nofun
      · exact hdelete
    · exact hcrash .downstream nofun
  · split
    · split_ifs
      · exact hreply
      · exact hpause .noBuffer
      · exact h
    · exact h
  · exact hreply

theorem onRead_holds (h : P (.running s)) {input : Option ReadInput}
    (hexecute : ∀ i, input = some i → P (s.httpParserExecute config ipaddr i.callbacks))
    (hafter : ∀ (s : HttpsUpstream) length outputBufferFull, P (.running s) →
      P ({ s with currentHeaderLength := length }.afterExecute outputBufferFull)) : P (s.onRead config ipaddr input) := by
  cases input with
  | none => exact h
  | some input =>
    rw [onRead]
    have hrun := hexecute input rfl
    cases hexec : s.httpParserExecute config ipaddr input.callbacks with
    | running s' =>
      rw [hexec] at hrun
      exact hafter s' _ _ hrun
    | closed pool =>
      rw [hexec] at hrun
      exact hrun
    | crashed why pool =>
      rw [hexec] at hrun
      exact hrun

/-- The callbacks of the backend find the request and its connection. -/
theorem step_holds {e : Event} (h : P (.running s)) (hclosed : P (.closed s.pool))
    (hclient : ∀ input, e = .clientRead input → s.noBuffer = false → s.msgBlock = false →
      P (s.onRead config ipaddr (some input)))
    (hread : ∀ d callbacks nothingPending input, e = .backendRead callbacks nothingPending input →
      s.downstream = some d → d.dconn = true → P (s.downstreamReadcb config ipaddr d callbacks nothingPending input))
    (hwrite : ∀ d input, s.downstream = some d → d.dconn = true → P (s.resumeRead config ipaddr .noBuffer input))
    (hevent : ∀ d event nothingPending input, s.downstream = some d → d.dconn = true →
      P (s.downstreamEventcb config ipaddr d event nothingPending input))
    (hidle : ∀ i, P (.running { s with pool := s.pool.removeDownstreamConnection i })) :
    P (s.step config ipaddr e) := by
  cases e with
  | clientRead input =>
    rw [step]
    split
    · rename_i hopen
      exact hclient input rfl hopen.1 hopen.2
    · exact h
  | clientWrite =>
    rw [step]
    split
    · exact hclosed
    · exact h
  | clientClosed => exact hclosed
  | backendRead callbacks nothingPending input =>
    rw [step]
    split
    · rename_i d hd
      split
      · rename_i hconn
        exact hread d callbacks nothingPending input rfl hd hconn
      · exact h
    · exact h
  | backendWrite input =>
    rw [step]
    split
    · rename_i d hd
      split
      · rename_i hconn
        exact hwrite d input hd hconn
      · exact h
    · exact h
  | backendEvent event nothingPending input =>
    rw [step]
    split
    · rename_i d hd
      split
      · rename_i hconn
        exact hevent d event nothingPending input hd hconn
      · exact h
    · exact h
  | idleEvent i => exact hidle i

end Rules

end HttpsUpstream

end Shrpx
end Spdylay
