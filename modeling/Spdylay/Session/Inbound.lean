import Spdylay.Session.Received

/-! Reading frames from received bytes: the receive loop. -/
namespace Spdylay

def InboundFrame.reset (f : InboundFrame) : InboundFrame :=
  {f with state := .head, headbuf := [], buflen := 0, payloadlen := 0, off := 0,
          inflatebuf := bufferReset f.inflatebuf, errorCode := none}

def InboundFrame.isCtrl (f : InboundFrame) : Bool := frameIsCtrlFrame (f.headbuf.getD 0 0)

/-- Bytes of the payload before its name/value block. -/
def InboundFrame.payloadNvOffset (f : InboundFrame) : Option Nat :=
  match FrameType.ofNum (getUint16 (f.headbuf.drop 2)) with
  | some type => (frameNvOffset type (getUint16 f.headbuf % 32768)).map (· - headLen)
  | none => none

namespace Session

/-! A complete frame. -/

def handleParseError (s : Session) (type : Nat) (e : Err) : Session :=
  s.emit (.ctrlRecvParseError type s.iframe.headbuf (s.iframe.buf.take s.iframe.buflen) e)

/-- A frame that cannot be parsed fails the session; a fatal error is passed on. -/
def handleUnparsed (s : Session) (type : Nat) (e : Err) : Session × Option Err :=
  if isNonFatal e then (s.handleParseError type e).failSession goawayProtocolError else (s,some e)

def getStatusCodeFromErrorCode : Err → Nat
  | .frameTooLarge => statusFrameTooLarge
  | _ => protocolError

/-- A frame with a name/value block whose parsing failed. -/
def handleHeadersError (s : Session) (type : Nat) (streamId : Int) (f : Frame) (e : Err) : Session × Option Err :=
  if e = .invalidHeaderBlock ∨ e = .frameTooLarge then
    s.handleInvalidStream streamId f (getStatusCodeFromErrorCode e)
  else s.handleUnparsed type e

/-- SPDY/2 names become SPDY/3 names. -/
def receivedNv (s : Session) (nv : Nv) : Nv :=
  match s.version with
  | .spdy2 => frameNv2to3 nv
  | .spdy3 => nv

/-- With an error other than FRAME_TOO_LARGE the frame is not parsed at all. -/
def parseSynStream (P : Platform) (s : Session) : Session × SynStream × Option Err :=
  let f := s.iframe
  match f.errorCode with
  | none =>
    let u := frameUnpackSynStream P.qsort s.host.mem f.headbuf f.buf f.buflen f.inflatebuf.bytes
    (s.setMem u.1,u.2.1,u.2.2)
  | some .frameTooLarge =>
    let u := frameUnpackSynStreamWithoutNv f.headbuf f.buf f.buflen
    (s,u.1,some (u.2.getD .frameTooLarge))
  | some e => (s,⟨frameUnpackCtrlHd f.headbuf,0,0,0,0,[]⟩,some e)

def parseStreamHeaders (P : Platform) (s : Session) (type : FrameType) : Session × StreamHeaders × Option Err :=
  let f := s.iframe
  match f.errorCode with
  | none =>
    let u := unpackStreamHeaders type P.qsort s.host.mem f.headbuf f.buf f.buflen f.inflatebuf.bytes
    (s.setMem u.1,u.2.1,u.2.2)
  | some .frameTooLarge =>
    let u := unpackStreamHeadersWithoutNv type f.headbuf f.buf f.buflen
    (s,u.1,some (u.2.getD .frameTooLarge))
  | some e => (s,⟨frameUnpackCtrlHd f.headbuf,0,[]⟩,some e)

def processSynStream (P : Platform) (s : Session) : Session × Option Err :=
  let u := s.parseSynStream P
  match u.2.2 with
  | none => u.1.onSynStreamReceived {u.2.1 with nv := s.receivedNv u.2.1.nv}
  | some e => u.1.handleHeadersError FrameType.synStream.num u.2.1.streamId (.synStream u.2.1) e

def processSynReply (P : Platform) (s : Session) : Session × Option Err :=
  let u := s.parseStreamHeaders P .synReply
  match u.2.2 with
  | none => u.1.onSynReplyReceived {u.2.1 with nv := s.receivedNv u.2.1.nv}
  | some e => u.1.handleHeadersError FrameType.synReply.num u.2.1.streamId (.synReply u.2.1) e

def processHeaders (P : Platform) (s : Session) : Session × Option Err :=
  let u := s.parseStreamHeaders P .headers
  match u.2.2 with
  | none => u.1.onHeadersReceived {u.2.1 with nv := s.receivedNv u.2.1.nv}
  | some e => u.1.handleHeadersError FrameType.headers.num u.2.1.streamId (.headers u.2.1) e

/-- A frame without a name/value block. -/
def processPlain {α : Type} (s : Session) (type : FrameType) (onReceived : Session → α → Session × Option Err) :
    Except Err α → Session × Option Err
  | .ok f => onReceived s f
  | .error e => s.handleUnparsed type.num e

def dispatchCtrlFrame (P : Platform) (s : Session) : Session × Option Err :=
  let f := s.iframe
  match FrameType.ofNum (getUint16 (f.headbuf.drop 2)) with
  | some .synStream => s.processSynStream P
  | some .synReply => s.processSynReply P
  | some .rstStream => s.processPlain .rstStream onRstStreamReceived (frameUnpackRstStream f.headbuf f.buf f.buflen)
  | some .settings =>
    let u := frameUnpackSettings s.host.mem f.headbuf f.buf f.buflen
    (s.setMem u.1).processPlain .settings onSettingsReceived u.2
  | some .noop => (s,none)
  | some .ping => s.processPlain .ping onPingReceived (frameUnpackPing f.headbuf f.buf f.buflen)
  | some .goaway => s.processPlain .goaway onGoawayReceived (frameUnpackGoaway f.headbuf f.buf f.buflen)
  | some .headers => s.processHeaders P
  | some .windowUpdate =>
    s.processPlain .windowUpdate onWindowUpdateReceived (frameUnpackWindowUpdate f.headbuf f.buf f.buflen)
  | some .credential =>
    let u := frameUnpackCredential s.host.mem f.headbuf f.buf f.buflen
    (s.setMem u.1).processPlain .credential onCredentialReceived u.2
  | none => (s.emit (.unknownCtrlRecv f.headbuf (f.buf.take f.buflen)),none)

/-- Only fatal errors leave the processing of a frame. -/
def onlyFatal (r : Session × Option Err) : Session × Option Err :=
  match r.2 with
  | some e => (r.1,if isFatal e then some e else none)
  | none => (r.1,none)

theorem onlyFatal_fst (r : Session × Option Err) : (onlyFatal r).1 = r.1 := by
  rw [onlyFatal]
  split <;> rfl

def processCtrlFrame (P : Platform) (s : Session) : Session × Option Err := onlyFatal (s.dispatchCtrlFrame P)

def processDataFrame (s : Session) : Session × Option Err :=
  let head := s.iframe.headbuf
  onlyFatal (s.onDataReceived (head.getD 4 0).toNat (getUint32 (head.drop 4) % 16777216) (getStreamId head))

/-! The header. -/

def checkDataRecvAllowed (s : Session) (streamId : Int) : Bool :=
  match s.getStream streamId with
  | none => false
  | some st =>
    if st.shutRd then false
    else if s.isMyStreamId streamId then st.state = .opened
    else st.state ≠ .closing

/-- Where the payload of a control frame goes: the state, the length of the part
to buffer and the error code. -/
def ctrlPayload (s : Session) (f : InboundFrame) (len : Nat) : InboundState × Nat × Option Err :=
  let tooLarge := s.maxRecvCtrlFrameBuf < len
  match f.payloadNvOffset with
  | none => if tooLarge then (.payloadIgn,0,some .frameTooLarge) else (.payload,len,f.errorCode)
  | some offset =>
    -- a frame that ends before its block is buffered and found malformed later
    if offset < len then (.payloadPreNv,offset,if tooLarge then some .frameTooLarge else f.errorCode)
    else (.payload,offset,f.errorCode)

/-- Growing the buffer does not keep its contents. -/
def reserveIframeBuf (P : Platform) (s : Session) (n : Nat) : Session × Option Err :=
  if s.iframe.bufmax < n then
    let max := (n+4095)/4096*4096
    if s.mallocOk then ({s.malloc with iframe := {s.iframe with buf := P.freshBuffer max, bufmax := max}},none)
    else (s.malloc,some .nomem)
  else (s,none)

def startPayload (P : Platform) (s : Session) : Session × Option Err :=
  let f := s.iframe
  let len := getUint32 (f.headbuf.drop 4) % 16777216
  if f.isCtrl then
    let p := s.ctrlPayload f len
    let s := {s with iframe := {f with state := p.1, payloadlen := len, buflen := p.2.1, errorCode := p.2.2}}
    s.reserveIframeBuf P p.2.1
  else
    let state : InboundState := if s.checkDataRecvAllowed (getUint32 f.headbuf) then .payload else .payloadIgn
    ({s with iframe := {f with state := state, payloadlen := len}},none)

def takeHead (s : Session) (bytes : Bytes) : Session :=
  {s with iframe := {s.iframe with headbuf := s.iframe.headbuf ++ bytes}}

/-- Third component: `none` where the iteration goes on with the payload, else the
result the loop ends with. -/
def recvHead (P : Platform) (s : Session) (input : Bytes) : Session × Bytes × Option (Option Err) :=
  if input = [] then (s,input,some none)
  else
    let readlen := min (headLen-s.iframe.headbuf.length) input.length
    let s := s.takeHead (input.take readlen)
    let input := input.drop readlen
    if s.iframe.headbuf.length = headLen then
      let r := s.startPayload P
      match r.2 with
      | none => (r.1,input,none)
      | some e => (r.1,input,some (some (assertFatal e)))
    else (s,input,some none)

/-! The payload. -/

/-- Copy the part before the name/value block; the input and the length left. -/
def recvPreNv (s : Session) (input : Bytes) (readlen : Nat) : Session × Bytes × Nat :=
  let f := s.iframe
  if f.state = .payloadPreNv then
    let pnvlen := f.payloadNvOffset.getD 0
    let n := min (pnvlen-f.off) readlen
    let f := {f with buf := memcpy f.buf f.off (input.take n), off := f.off+n}
    let f := if f.off = pnvlen then {f with state := .payloadNv} else f
    ({s with iframe := f},input.drop n,readlen-n)
  else (s,input,readlen)

/-- Feed compressed bytes. Once the frame is too large the output is thrown away
before each call, which keeps the inflater in step. -/
def inflateChunk (P : Platform) (s : Session) (chunk : Bytes) : Session :=
  let f := s.iframe
  if f.errorCode = none ∨ f.errorCode = some .frameTooLarge then
    let buf := if f.errorCode = some .frameTooLarge then bufferReset f.inflatebuf else f.inflatebuf
    let r := inflateHd P.toZlib s.version s.host.mem s.hdInflater buf chunk
    let errorCode := match r.error with
      | some e => some e
      | none => if s.maxRecvCtrlFrameBuf < bufferLength r.buf then some .frameTooLarge else f.errorCode
    {s.setMem r.mem with hdInflater := r.inflater, iframe := {f with inflatebuf := r.buf, errorCode := errorCode}}
  else s

def recvChunk (P : Platform) (s : Session) (chunk : Bytes) : Session :=
  let f := s.iframe
  let s :=
    if f.state = .payloadNv then s.inflateChunk P chunk
    else if f.isCtrl then
      if f.state = .payloadIgn then s
      else {s with iframe := {f with buf := memcpy f.buf f.off chunk}}
    else if f.state = .payloadIgn then s
    else s.emit (.dataChunkRecv (f.headbuf.getD 4 0).toNat (getStreamId f.headbuf) chunk)
  {s with iframe := {s.iframe with off := s.iframe.off+chunk.length}}

/-- The window is compared in 64-bit unsigned arithmetic. -/
def updateRecvWindowSize (s : Session) (streamId : Int) (deltaSize : Nat) : Session × Option Err :=
  match s.getStream streamId with
  | none => (s,none)
  | some st =>
    let size := if int32Max-deltaSize < st.recvWindowSize then int32Max else st.recvWindowSize+deltaSize
    let s := s.modifyStream streamId (fun st => {st with recvWindowSize := size})
    if !s.noAutoWindowUpdate ∧
        (s.localSettings settingsInitialWindowSize : Int) ≤ size*2 % 18446744073709551616 then
      let r := s.addWindowUpdate streamId size
      match r.2 with
      | none => (r.1.modifyStream streamId (fun st => {st with recvWindowSize := 0}),none)
      | some e => (r.1,some e)
    else (s,none)

/-- The last chunk of a stream needs no new window. -/
def creditChunk (s : Session) (readlen : Nat) : Session × Option Err :=
  let f := s.iframe
  if s.flowControl ∧ f.state ≠ .payloadIgn ∧ !f.isCtrl ∧ 0 < readlen ∧
      (f.payloadlen ≠ f.off ∨ !flagFin (f.headbuf.getD 4 0).toNat) then
    s.updateRecvWindowSize (getStreamId f.headbuf) readlen
  else (s,none)

/-- Process the frame if its last byte has been read. Nothing comes after an inflate
that does not return. -/
def endFrame (P : Platform) (s : Session) : Session × Option Err :=
  if s.iframe.errorCode = some .endless then (s,some .endless)
  else if s.iframe.payloadlen = s.iframe.off then
    let r := if s.iframe.isCtrl then s.processCtrlFrame P else s.processDataFrame
    match r.2 with
    | none => ({r.1 with iframe := r.1.iframe.reset}.emit .frameDone,none)
    | some e => (r.1,some e)
  else (s,none)

def recvPayload (P : Platform) (s : Session) (input : Bytes) : Session × Bytes × Option (Option Err) :=
  let rempayloadlen := s.iframe.payloadlen-s.iframe.off
  if 0 < rempayloadlen ∧ input = [] then (s,input,some none)
  else
    let p := s.recvPreNv input (min input.length rempayloadlen)
    let chunk := p.2.1.take p.2.2
    let input := p.2.1.drop p.2.2
    let c := (p.1.recvChunk P chunk).creditChunk chunk.length
    match c.2 with
    | some e => (c.1,input,some (some (assertFatal e)))
    | none =>
      let r := c.1.endFrame P
      match r.2 with
      | some e => (r.1,input,some (some (assertFatal e)))
      | none => (r.1,input,none)

/-! The loop. -/

def recvIter (P : Platform) (s : Session) (input : Bytes) : Session × Bytes × Option (Option Err) :=
  if s.iframe.state = .head then
    let h := s.recvHead P input
    match h.2.2 with
    | some r => (h.1,h.2.1,some r)
    | none => h.1.recvPayload P h.2.1
  else s.recvPayload P input

def recvLoop (P : Platform) (s : Session) : Nat → Bytes → Session × Option Err
  | 0, _ => (s,none)
  | fuel+1, input =>
    let i := s.recvIter P input
    match i.2.2 with
    | some r => (i.1,r)
    | none => i.1.recvLoop P fuel i.2.1

/-- Each iteration but the first reads a byte or ends the loop. -/
def recvFuel (input : Bytes) : Nat := input.length+2

/-- Without an error the whole input has been read. -/
def memRecv (P : Platform) (s : Session) (input : Bytes) : Session × Option Err :=
  s.recvLoop P (recvFuel input) input

end Session
end Spdylay
