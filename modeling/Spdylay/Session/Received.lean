import Spdylay.Session.Submit

/-! What a complete received frame does to the session. -/
namespace Spdylay
open Library
namespace Session

def isNewPeerStreamId (s : Session) (streamId : Int) : Bool :=
  if streamId = 0 then false
  else if s.server then streamId.tmod 2 = 1 ∧ s.lastRecvStreamId < streamId
  else streamId.tmod 2 = 0 ∧ s.lastRecvStreamId < streamId

def checkVersion (s : Session) (version : Nat) : Bool := s.version.num = version

/-- The status code of the refusal, 0 for a valid frame. -/
def validateSynStream (s : Session) (f : SynStream) : Nat :=
  if !s.checkVersion f.hd.version then statusUnsupportedVersion
  else if s.server ∧ f.assocStreamId ≠ 0 then protocolError
  else if !s.server ∧ f.assocStreamId = 0 then invalidStream
  else if !s.server ∧ (!flagUnidirectional f.hd.flags ∨ f.assocStreamId.tmod 2 = 0 ∨
      s.getStream f.assocStreamId = none) then protocolError
  else if s.isIncomingConcurrentStreamsMax then refusedStream
  else 0

def handleInvalidStream (s : Session) (streamId : Int) (f : Frame) (statusCode : Nat) : Session × Option Err :=
  let r := s.addRstStream streamId statusCode
  match r.2 with
  | some e => (r.1,some e)
  | none => (r.1.emit (.invalidCtrlRecv f statusCode),none)

/-- A unidirectional SYN_STREAM with FIN is closed without having been opened. -/
def openReceived (s : Session) (f : SynStream) : Session :=
  if flagFin f.hd.flags && flagUnidirectional f.hd.flags then s
  else
    let o := s.openStream f.streamId f.hd.flags f.pri .opening
    if o.2 then
      let s := if flagFin f.hd.flags then o.1.shutdownRd f.streamId else o.1
      if flagUnidirectional f.hd.flags then s.shutdownWr f.streamId else s
    else o.1

def acceptSynStream (s : Session) (f : SynStream) : Session :=
  let s := (s.openReceived f).emit (.ctrlRecv (.synStream f))
  if flagFin f.hd.flags then
    let s := s.emit (.requestRecv f.streamId)
    if flagUnidirectional f.hd.flags then s.emit (.streamClose f.streamId statusOk) else s
  else s

def onSynStreamReceived (s : Session) (f : SynStream) : Session × Option Err :=
  if s.goawayFlags then (s,none)
  else if s.lastRecvStreamId = f.streamId then s.handleInvalidStream f.streamId (.synStream f) protocolError
  else if !s.isNewPeerStreamId f.streamId then
    (s.emit (.invalidCtrlRecv (.synStream f) protocolError)).failSession goawayProtocolError
  else
    let s := {s with lastRecvStreamId := f.streamId}
    let statusCode := s.validateSynStream f
    if statusCode = 0 then (s.acceptSynStream f,none)
    else s.handleInvalidStream f.streamId (.synStream f) statusCode

def finReceived (s : Session) (streamId : Int) : Session :=
  (s.shutdownRd streamId).closeStreamIfShutRdwr streamId

def onSynReplyReceived (s : Session) (f : StreamHeaders) : Session × Option Err :=
  let invalid (statusCode : Nat) := s.handleInvalidStream f.streamId (.synReply f) statusCode
  if !s.checkVersion f.hd.version then (s,none)
  else
    match s.getStream f.streamId with
    | none => invalid protocolError
    | some st =>
      if st.shutRd ∨ !s.isMyStreamId f.streamId then invalid protocolError
      else
        match st.state with
        | .opening =>
          let s := (s.setState f.streamId .opened).emit (.ctrlRecv (.synReply f))
          (if flagFin f.hd.flags then s.finReceived f.streamId else s,none)
        | .closing => (s,none)
        | _ => invalid (if s.version = .spdy3 then streamInUse else protocolError)

def onRstStreamReceived (s : Session) (f : RstStream) : Session × Option Err :=
  if !s.checkVersion f.hd.version then (s,none)
  else
    let s := s.emit (.ctrlRecv (.rstStream f))
    let s := if s.server ∧ !s.isMyStreamId f.streamId ∧ f.statusCode = cancel then
        s.closePushedStreams f.streamId f.statusCode
      else s
    ((s.closeStream f.streamId f.statusCode).1,none)

/-! Flow control of the sending direction. -/

/-- Put the item that waits for the window back into the queue once the window
is positive. -/
def releaseDeferred (s : Session) (streamId : Int) : Session × Option Err :=
  match s.getStream streamId with
  | none => (s,none)
  | some st =>
    match st.deferredData with
    | none => (s,none)
    | some item =>
      if 0 < st.windowSize ∧ st.deferredFlowControl then
        let r := s.pushOb item
        match r.2 with
        | none => (r.1.detachDeferredData streamId,none)
        | some e => (r.1,some (assertFatal e))
      else (s,none)

def streamUpdateInitialWindowSize (arith : WindowArith) (new old : Int) (st : Stream) : Stream :=
  {st with windowSize := arith.store (new-arith.store (old-st.windowSize))}

/-- The streams in the order of their ids, up to the first failure. -/
def updateInitialWindowSizeLoop (new old : Int) : List Int → Session → Session × Option Err
  | [], s => (s,none)
  | id :: ids, s =>
    let r := (s.modifyStream id (streamUpdateInitialWindowSize s.windowArith new old)).releaseDeferred id
    match r.2 with
    | none => updateInitialWindowSizeLoop new old ids r.1
    | some e => (r.1,some e)

def updateInitialWindowSize (s : Session) (newInitialWindowSize : Int) : Session × Option Err :=
  updateInitialWindowSizeLoop newInitialWindowSize (toInt32 (s.remoteSettings settingsInitialWindowSize))
    (s.streams.entries.map Stream.streamId) s

/-- One entry, with its value as stored and reported. -/
def applySettingsEntry (s : Session) (e : SettingsEntry) : Session × SettingsEntry × Option Err :=
  let put (s : Session) (v : Nat) := {s with remoteSettings := Function.update s.remoteSettings e.settingsId v}
  if e.settingsId = settingsInitialWindowSize ∧ s.flowControl then
    if e.value < 2147483648 then
      let r := s.updateInitialWindowSize e.value
      match r.2 with
      | none => (put r.1 e.value,e,none)
      | some err => (r.1,e,some err)
    else (put s e.value,e,none)
  else if e.settingsId = settingsClientCertificateVectorSize ∧ !s.server then
    let value := min e.value maxClientCertVectorLength
    let e := {e with value := value}
    match s.cliCertvec.resize s.host.mem value with
    | (m, .ok v) => (put {s.setMem m with cliCertvec := v} value,e,none)
    | (m, .error err) => (s.setMem m,e,some err)
  else (put s e.value,e,none)

/-- Only the first value of an id counts. -/
def settingsLoop : List SettingsEntry → List Nat → List SettingsEntry → Session →
    Session × List SettingsEntry × Option Err
  | [], _, done, s => (s,done,none)
  | e :: rest, check, done, s =>
    if settingsMax < e.settingsId ∨ e.settingsId = 0 ∨ e.settingsId ∈ check then
      settingsLoop rest check (done ++ [e]) s
    else
      let r := s.applySettingsEntry e
      match r.2.2 with
      | none => settingsLoop rest (e.settingsId :: check) (done ++ [r.2.1]) r.1
      | some err => (r.1,done ++ r.2.1 :: rest,some err)

def onSettingsReceived (s : Session) (f : Settings) : Session × Option Err :=
  if !s.checkVersion f.hd.version then (s,none)
  else
    let r := settingsLoop f.iv [] [] s
    match r.2.2 with
    | some e => (r.1,some e)
    | none => (r.1.emit (.ctrlRecv (.settings {f with iv := r.2.1})),none)

def raiseWindow (s : Session) (streamId delta : Int) : Session :=
  (s.modifyStream streamId (fun st => {st with windowSize := s.windowArith.store (st.windowSize+delta)})).emit
    (.windowRaised streamId delta)

def onWindowUpdateReceived (s : Session) (f : WindowUpdate) : Session × Option Err :=
  if !s.checkVersion f.hd.version ∨ !s.flowControl then (s,none)
  else
    match s.getStream f.streamId with
    | none => (s,none)
    | some st =>
      if int32Max-f.deltaWindowSize < st.windowSize then
        s.handleInvalidStream f.streamId (.windowUpdate f) flowControlError
      else
        let r := (s.raiseWindow f.streamId f.deltaWindowSize).releaseDeferred f.streamId
        match r.2 with
        | some e => (r.1,some e)
        | none => (r.1.emit (.ctrlRecv (.windowUpdate f)),none)

/-! The other control frames. -/

def onPingReceived (s : Session) (f : Ping) : Session × Option Err :=
  if !s.checkVersion f.hd.version ∨ f.uniqueId = 0 then (s,none)
  else if s.lastPingUniqueId = f.uniqueId then
    (({s with lastPingUniqueId := 0}).emit (.ctrlRecv (.ping f)),none)
  else if (s.server ∧ f.uniqueId % 2 = 1) ∨ (!s.server ∧ f.uniqueId % 2 = 0) then
    -- the callback is called whether or not the answer could be queued
    let r := s.addPing f.uniqueId
    (r.1.emit (.ctrlRecv (.ping f)),r.2)
  else (s,none)

def onGoawayReceived (s : Session) (f : Goaway) : Session × Option Err :=
  if !s.checkVersion f.hd.version then (s,none)
  else (({s with lastGoodStreamId := f.lastGoodStreamId, goawayRecv := true}).emit (.ctrlRecv (.goaway f)),none)

def onCredentialReceived (s : Session) (f : Credential) : Session × Option Err :=
  if !s.checkVersion f.hd.version then (s,none) else (s.emit (.ctrlRecv (.credential f)),none)

def onHeadersReceived (s : Session) (f : StreamHeaders) : Session × Option Err :=
  let invalid := s.handleInvalidStream f.streamId (.headers f) protocolError
  let fin := flagFin f.hd.flags
  if !s.checkVersion f.hd.version then (s,none)
  else
    match s.getStream f.streamId with
    | none => invalid
    | some st =>
      if st.shutRd then invalid
      else if s.isMyStreamId f.streamId then
        match st.state with
        | .opened =>
          let s := s.emit (.ctrlRecv (.headers f))
          (if fin then s.finReceived f.streamId else s,none)
        | .closing => (s,none)
        | _ => invalid
      else if st.state = .closing then (s,none)
      else
        let s := s.emit (.ctrlRecv (.headers f))
        (if fin then (s.emit (.requestRecv f.streamId)).finReceived f.streamId else s,none)

def onDataReceived (s : Session) (flags length : Nat) (streamId : Int) : Session × Option Err :=
  let fin := flagFin flags
  match s.getStream streamId with
  | none => s.addRstStream streamId invalidStream
  | some st =>
    if st.shutRd then s.addRstStream streamId protocolError
    else if s.isMyStreamId streamId then
      match st.state with
      | .opened =>
        let s := s.emit (.dataRecv flags streamId length)
        (if fin then s.finReceived streamId else s,none)
      | .closing => (s,none)
      | _ => s.addRstStream streamId protocolError
    else if st.state = .closing then (s,none)
    else
      let s := s.emit (.dataRecv flags streamId length)
      (if fin then (s.emit (.requestRecv streamId)).finReceived streamId else s,none)

end Session
end Spdylay
