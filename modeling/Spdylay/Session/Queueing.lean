import Spdylay.Session.State

/-! Queueing frames, opening and closing streams. A function returning `int`
returns `none` for 0 and the error otherwise. -/
namespace Spdylay
open Library
namespace Session

/-! The script and the log. -/

def emit (s : Session) (e : Event) : Session := {s with host := {s.host with log := s.host.log ++ [e]}}

def setMem (s : Session) (m : Mem) : Session := {s with host := {s.host with mem := m}}

/-- Outcome of the next allocation, and the state after it. -/
def mallocOk (s : Session) : Bool := s.host.mem.headD true
def malloc (s : Session) : Session := s.setMem s.host.mem.tail

/-! Streams. -/

def getStream (s : Session) (streamId : Int) : Option Stream := s.streams.find streamId

/-- Change a stream in place, as the code does through its pointer. -/
def modifyStream (s : Session) (streamId : Int) (f : Stream → Stream)
    (hf : ∀ st, (f st).streamId = st.streamId := by intro _; rfl) : Session :=
  {s with streams := s.streams.modify streamId f hf}

/-- C's remainder keeps the sign of the dividend. -/
def isMyStreamId (s : Session) (streamId : Int) : Bool :=
  if streamId = 0 then false
  else if s.server then streamId.tmod 2 = 0 else streamId.tmod 2 = 1

def isOutgoingConcurrentStreamsMax (s : Session) : Bool :=
  s.remoteSettings settingsMaxConcurrentStreams ≤ s.numOutgoingStreams

def isIncomingConcurrentStreamsMax (s : Session) : Bool :=
  s.localSettings settingsMaxConcurrentStreams ≤ s.numIncomingStreams

def goawayFlags (s : Session) : Bool := s.goawaySend || s.goawayRecv || s.goawayFailOnSend

def getPriLowest (s : Session) : Nat :=
  match s.version with
  | .spdy2 => 3
  | .spdy3 => 7

/-! Queueing. -/

def pushOb (s : Session) (item : OutboundItem) : Session × Option Err :=
  match pqPush s.host.mem s.obPq item with
  | (m, some pq) => ({s.setMem m with obPq := pq},none)
  | (m, none) => (s.setMem m,some .nomem)

def pushObSs (s : Session) (item : OutboundItem) : Session × Option Err :=
  match pqPush s.host.mem s.obSsPq item with
  | (m, some pq) => ({s.setMem m with obSsPq := pq},none)
  | (m, none) => (s.setMem m,some .nomem)

def streamPri (s : Session) (streamId : Int) : Int :=
  match s.getStream streamId with
  | some st => st.pri
  | none => s.getPriLowest

def itemPri (s : Session) : OutFrame → Int
  | .ctrl (.synStream f) => f.pri
  | .ctrl (.synReply f) => s.streamPri f.streamId
  | .ctrl (.rstStream f) => s.streamPri f.streamId
  | .ctrl (.settings _) => -1
  | .ctrl (.ping _) => obPriPing
  | .ctrl (.goaway _) => s.getPriLowest
  | .ctrl (.headers f) => s.streamPri f.streamId
  | .ctrl (.windowUpdate f) => s.streamPri f.streamId
  | .ctrl (.credential _) => obPriCredential
  | .data f => s.streamPri f.streamId

/-- Queueing an RST_STREAM marks its stream. -/
def markClosing (s : Session) : OutFrame → Session
  | .ctrl (.rstStream f) => s.modifyStream f.streamId (fun st => {st with state := .closing})
  | _ => s

/-- The item an accepted frame becomes. -/
def newItem (s : Session) (frame : OutFrame) (aux : Option DataProvider) : OutboundItem :=
  ⟨frame,aux,s.itemPri frame,s.nextSeq⟩

def pushItem (s : Session) (item : OutboundItem) : Session × Option Err :=
  if item.isSynStream then s.pushObSs item else s.pushOb item

def addFrame (s : Session) (frame : OutFrame) (aux : Option DataProvider) : Session × Option Err :=
  if s.mallocOk then
    let item := s.newItem frame aux
    let r := (({s.malloc with nextSeq := s.nextSeq+1}).markClosing frame).pushItem item
    match r.2 with
    | none => (r.1.emit (.accepted item),none)
    | some e => (r.1,some e)
  else (s.malloc,some .nomem)

/-- Allocate a control frame and queue it; the frame is freed on failure. -/
def addCtrl (s : Session) (f : Frame) : Session × Option Err :=
  if s.mallocOk then s.malloc.addFrame (.ctrl f) none else (s.malloc,some .nomem)

def addRstStream (s : Session) (streamId : Int) (statusCode : Nat) : Session × Option Err :=
  s.addCtrl (.rstStream (frameRstStreamInit s.version.num streamId statusCode))

def addPing (s : Session) (uniqueId : Nat) : Session × Option Err :=
  s.addCtrl (.ping (framePingInit s.version.num uniqueId))

def addGoaway (s : Session) (lastGoodStreamId : Int) (statusCode : Nat) : Session × Option Err :=
  s.addCtrl (.goaway (frameGoawayInit s.version.num lastGoodStreamId statusCode))

def addWindowUpdate (s : Session) (streamId deltaWindowSize : Int) : Session × Option Err :=
  s.addCtrl (.windowUpdate (frameWindowUpdateInit s.version.num streamId deltaWindowSize))

/-! Opening and closing. -/

def countOpened (s : Session) (streamId : Int) : Session :=
  if s.isMyStreamId streamId then {s with numOutgoingStreams := s.numOutgoingStreams+1}
  else {s with numIncomingStreams := s.numIncomingStreams+1}

def countClosed (s : Session) (streamId : Int) : Session :=
  if s.isMyStreamId streamId then {s with numOutgoingStreams := s.numOutgoingStreams-1}
  else {s with numIncomingStreams := s.numIncomingStreams-1}

/-- The counter is raised whether or not the insertion succeeds. The result
tells whether a stream is returned. -/
def openStream (s : Session) (streamId : Int) (flags pri : Nat) (initialState : StreamState) : Session × Bool :=
  if s.mallocOk then
    let st := streamInit streamId flags pri initialState
      (s.windowArith.store (toInt32 (s.remoteSettings settingsInitialWindowSize)))
    match s.streams.insert st with
    | some streams => (({s.malloc with streams := streams}).countOpened streamId,true)
    | none => ((s.malloc.emit (.insertFailed streamId)).countOpened streamId,false)
  else (s.malloc,false)

/-- Freeing a stream frees the DATA item deferred in it. -/
def freeDeferred (s : Session) (st : Stream) : Session :=
  match st.deferredData with
  | some item => s.emit (.finished item.seq (.streamClosed st.streamId))
  | none => s

def closeStream (s : Session) (streamId : Int) (statusCode : Nat) : Session × Option Err :=
  match s.getStream streamId with
  | some st =>
    let s1 := if st.state ≠ .initial then s.emit (.streamClose streamId statusCode) else s
    let s2 := s1.countClosed streamId
    (({s2 with streams := s2.streams.remove streamId}).freeDeferred st,none)
  | none => (s,some .invalidArgument)

def closeStreamIfShutRdwr (s : Session) (streamId : Int) : Session :=
  match s.getStream streamId with
  | some st => if st.shutRd && st.shutWr then (s.closeStream streamId statusOk).1 else s
  | none => s

def closePushedStreams (s : Session) (streamId : Int) (statusCode : Nat) : Session :=
  match s.getStream streamId with
  | some st => st.pushedStreams.foldl (fun s id => (s.closeStream id statusCode).1) s
  | none => s

def shutdownRd (s : Session) (streamId : Int) : Session :=
  s.modifyStream streamId (fun st => {st with shutRd := true})

def shutdownWr (s : Session) (streamId : Int) : Session :=
  s.modifyStream streamId (fun st => {st with shutWr := true})

def setState (s : Session) (streamId : Int) (state : StreamState) : Session :=
  s.modifyStream streamId (fun st => {st with state := state})

/-- Asserts that nothing is deferred yet. -/
def deferData (s : Session) (st : Stream) (item : OutboundItem) (flowControl : Bool) : Session × Option Err :=
  if st.deferredData.isSome then (s,some (.assertion .deferredDataEmpty))
  else (s.modifyStream st.streamId
    (fun st => {st with deferredData := some item, deferredFlowControl := flowControl}),none)

def detachDeferredData (s : Session) (streamId : Int) : Session :=
  s.modifyStream streamId (fun st => {st with deferredData := none, deferredFlowControl := false})

end Session
end Spdylay
