import Spdylay.Session.Submit

/-! Preparing, writing and completing outbound frames: the send loop. -/
namespace Spdylay
namespace Session

/-! When a frame may be sent. -/

def predicateStreamForSend : Option Stream → Option Err
  | none => some .streamClosed
  | some st => if st.shutWr then some .streamShutWr else none

def predicateSynStreamSend (s : Session) (f : SynStream) : Option Err :=
  if s.goawayFlags then some .synStreamNotAllowed
  else if int32Max < s.nextStreamId then some .streamIdNotAvailable
  else if f.assocStreamId ≠ 0 ∧ s.getStream f.assocStreamId = none then some .streamClosed
  else none

def predicateSynReplySend (s : Session) (streamId : Int) : Option Err :=
  match s.getStream streamId with
  | none => some .streamClosed
  | some st =>
    if st.shutWr then some .streamShutWr
    else if s.isMyStreamId streamId then some .invalidStreamId
    else
      match st.state with
      | .opening => none
      | .closing => some .streamClosing
      | _ => some .invalidStreamState

/-- The state part of the check for HEADERS and DATA. -/
def predicateState (s : Session) (streamId : Int) (st : Stream) : Option Err :=
  if s.isMyStreamId streamId then if st.state ≠ .closing then none else some .streamClosing
  else
    match st.state with
    | .opened => none
    | .closing => some .streamClosing
    | _ => some .invalidStreamState

def predicateHeadersSend (s : Session) (streamId : Int) : Option Err :=
  match s.getStream streamId with
  | none => some .streamClosed
  | some st => if st.shutWr then some .streamShutWr else s.predicateState streamId st

def predicateWindowUpdateSend (s : Session) (streamId : Int) : Option Err :=
  match s.getStream streamId with
  | none => some .streamClosed
  | some st => if st.state ≠ .closing then none else some .streamClosing

def predicateDataSend (s : Session) (streamId : Int) : Option Err :=
  match s.getStream streamId with
  | none => some .streamClosed
  | some st =>
    if st.shutWr then some .streamShutWr
    else if st.deferredData.isSome then some .deferredDataExist
    else s.predicateState streamId st

def nextDataRead (s : Session) (st : Stream) : Nat :=
  if !s.flowControl then dataPayloadLength
  else if 0 < st.windowSize then min st.windowSize.toNat dataPayloadLength
  else 0

/-! Client certificates. -/

/-- Queue a CREDENTIAL for a new origin: the frame, the origin, the proof, the
array of certificates and each certificate are allocated in turn. -/
def queueCredential (s : Session) (origin : Origin) (answer : CredentialAnswer) : Session × Except Err Nat :=
  if !s.mallocOk then (s.malloc,.error .nomem)
  else
    let s := s.malloc
    -- without memory for the origin the code returns the 0 left in its result variable
    if !s.mallocOk then (s.malloc,.ok 0)
    else
      let p := s.cliCertvec.put origin
      let s := {s.malloc with cliCertvec := p.1}
      let r := mallocs (answer.certs.length+2) s
      if r.2 then
        let a := r.1.addFrame (.ctrl (.credential
          (frameCredentialInit s.version.num p.2 answer.proof answer.certs))) none
        match a.2 with
        | some e => (a.1,.error e)
        | none => (a.1,.error .credentialPending)
      else (r.1,.error .nomem)

def prepCredential (s : Session) (f : SynStream) : Session × Except Err Nat :=
  if s.cliCertvec.size = 0 then (s,.ok 0)
  else
    match frameNvSetOrigin f.nv with
    | none => (s,.ok 0)
    | some origin =>
      let slot := s.cliCertvec.find origin
      if slot ≠ 0 then (s,.ok slot)
      else
        match s.host.credentials with
        | [] => (s,.ok 0)
        | answer :: rest =>
          let s := {s with host := {s.host with credentials := rest}}
          if answer.certs = [] then (s,.ok 0) else s.queueCredential origin answer

/-! Packing. -/

def reserved (cap n : Nat) : Nat := if cap < n then (n+4095)/4096*4096 else cap

def reserveFramebuf (s : Session) (n : Nat) : Session × Option Err :=
  if s.aob.framebufmax < n then
    if s.mallocOk then ({s.malloc with aob := {s.aob with framebufmax := reserved s.aob.framebufmax n}},none)
    else (s.malloc,some .nomem)
  else (s,none)

def reserveNvbuf (s : Session) (n : Nat) : Session × Option Err :=
  if s.nvbuflen < n then
    if s.mallocOk then ({s.malloc with nvbuflen := reserved s.nvbuflen n},none)
    else (s.malloc,some .nomem)
  else (s,none)

/-- The compressed block of a name/value list. -/
def frameAllocPackNv (P : Platform) (s : Session) (nv : Nv) (nvOffset lenSize : Nat) : Session × Except Err Bytes :=
  let nvspace := frameCountNvSpace nv lenSize
  let r := s.reserveNvbuf nvspace
  if r.2.isSome then (r.1,.error .nomem)
  else
    let f := r.1.reserveFramebuf (nvOffset+P.deflateBound s.hdDeflater nvspace)
    if f.2.isSome then (f.1,.error .nomem)
    else
      let block := (framePackNv nv lenSize).take nvspace
      let s' := {f.1 with hdDeflater := s.hdDeflater ++ [block]}
      match P.deflate s.hdDeflater block with
      | none => (s',.error .zlib)
      | some out =>
        if lengthMask < nvOffset+out.length-headLen then (s',.error .frameTooLarge) else (s',.ok out)

/-- SPDY/2 sends the old names and the application keeps the new ones. -/
def wireNv (P : Platform) (s : Session) (nv : Nv) : Nv :=
  match s.version with
  | .spdy2 => frameNvSort P.qsort (frameNv3to2 nv)
  | .spdy3 => nv

def appNv (P : Platform) (s : Session) (nv : Nv) : Nv :=
  match s.version with
  | .spdy2 => frameNvSort P.qsort (frameNv2to3 nv)
  | .spdy3 => nv

/-- Outcome of a preparation: the state, the item as changed, the frame's bytes. -/
structure Prep where
  ses : Session
  item : OutboundItem
  result : Except Err Bytes

/-- Assign the next id, pack and open the stream. -/
def prepSynStreamPack (P : Platform) (s : Session) (item : OutboundItem) (f : SynStream) : Prep :=
  let streamId : Int := s.nextStreamId
  let s1 := {s with nextStreamId := s.nextStreamId+2}
  let nv := s.wireNv P f.nv
  let f1 := {f with streamId := streamId, nv := s.appNv P nv}
  let lenSize := frameGetLenSize f.hd.version
  if lenSize = 0 then ⟨s1,{item with frame := .ctrl (.synStream f1)},.error .unsupportedVersion⟩
  else
    let r := s1.frameAllocPackNv P nv synStreamNvOffset lenSize
    match r.2 with
    | .error e => ⟨r.1,{item with frame := .ctrl (.synStream f1)},.error e⟩
    | .ok block =>
      let f2 := {f1 with hd := {f.hd with length := synStreamNvOffset-headLen+block.length}}
      let item2 := {item with frame := .ctrl (.synStream f2)}
      let o := r.1.openStream streamId f.hd.flags f.pri .initial
      if o.2 then ⟨o.1,item2,.ok (framePackSynStream f2 block)⟩ else ⟨o.1,item2,.error .nomem⟩

def prepSynStream (P : Platform) (s : Session) (item : OutboundItem) (f : SynStream) : Prep :=
  match s.predicateSynStreamSend f with
  | some e => ⟨s,item,.error e⟩
  | none =>
    if s.version = .spdy3 ∧ s.credentialCallbacks ∧ !s.server then
      let c := s.prepCredential f
      match c.2 with
      | .error .credentialPending =>
        -- the item goes back to its queue, behind the CREDENTIAL by priority
        let item' := {item with pri := obPriAfterCredential}
        let p := c.1.pushObSs item'
        match p.2 with
        | none => ⟨p.1,item',.error .credentialPending⟩
        | some e => ⟨p.1,item',.error e⟩
      | .error e => prepSynStreamPack P c.1 item {f with slot := (e.code % 256).toNat}
      | .ok slot => prepSynStreamPack P c.1 item {f with slot := slot % 256}
    else prepSynStreamPack P s item f

/-- SYN_REPLY and HEADERS once they may be sent. -/
def prepStreamHeaders (P : Platform) (s : Session) (item : OutboundItem) (type : FrameType)
    (wrap : StreamHeaders → Frame) (f : StreamHeaders) : Prep :=
  let nv := s.wireNv P f.nv
  let f1 := {f with nv := s.appNv P nv}
  let item1 := {item with frame := .ctrl (wrap f1)}
  let lenSize := frameGetLenSize f.hd.version
  if lenSize = 0 then ⟨s,item1,.error .unsupportedVersion⟩
  else
    match frameNvOffset type f.hd.version with
    | none => ⟨s,item1,.error (.assertion .nvOffset)⟩
    | some nvOffset =>
      let r := s.frameAllocPackNv P nv nvOffset lenSize
      match r.2 with
      | .error e => ⟨r.1,item1,.error e⟩
      | .ok block =>
        let f2 := {f1 with hd := {f.hd with length := nvOffset-headLen+block.length}}
        ⟨r.1,{item with frame := .ctrl (wrap f2)},.ok (framePackStreamHeaders type nvOffset f2 block)⟩

/-- Frames of fixed layout need room in the frame buffer only. -/
def prepFixed (s : Session) (item : OutboundItem) (bytes : Bytes) : Prep :=
  let r := s.reserveFramebuf bytes.length
  match r.2 with
  | none => ⟨r.1,item,.ok bytes⟩
  | some e => ⟨r.1,item,.error e⟩

def prepPacked (s : Session) (item : OutboundItem) : Except Err Bytes → Prep
  | .ok bytes => s.prepFixed item bytes
  | .error e => ⟨s,item,.error e⟩

def dataHead (streamId : Int) (length : Nat) (fin : Bool) : Bytes :=
  putUint32be (toUint32 streamId) ++ (if fin then 1 else 0) :: (putUint32be length).tail

/-- Read the next chunk and put the DATA header before it. -/
def packData (s : Session) (seq : Nat) (d : DataFrame) (datamax : Nat) : Session × DataFrame × Except Err Bytes :=
  let r := s.reserveFramebuf (datamax+8)
  match r.2 with
  | some e => (r.1,d,.error e)
  | none =>
    let answer := r.1.host.reads.headD .deferred
    let s1 := {r.1 with host := {r.1.host with reads := r.1.host.reads.tail}}
    match answer with
    | .deferred => (s1,d,.error .deferred)
    | .temporalFailure => (s1,d,.error .temporalCallbackFailure)
    | .failure => (s1,d,.error .callbackFailure)
    | .data bytes eof =>
      if datamax < bytes.length then (s1,d,.error .callbackFailure)
      else
        (s1.emit (.read seq d.streamId bytes),{d with eof := d.eof || eof},
          .ok (dataHead d.streamId bytes.length (eof && flagFin d.flags) ++ bytes))

def prepData (s : Session) (item : OutboundItem) (d : DataFrame) : Prep :=
  match s.predicateDataSend d.streamId with
  | some e => ⟨s,item,.error e⟩
  | none =>
    match s.getStream d.streamId with
    | none => ⟨s,item,.error (.assertion .streamPresent)⟩
    | some st =>
      let readmax := s.nextDataRead st
      if readmax = 0 then
        let r := s.deferData st item true
        ⟨r.1,item,.error (r.2.getD .deferred)⟩
      else
        let p := s.packData item.seq d readmax
        let item' := {item with frame := .data p.2.1}
        match p.2.2 with
        | .ok bytes => ⟨p.1,item',.ok bytes⟩
        | .error .deferred =>
          let r := p.1.deferData st item' false
          ⟨r.1,item',.error (r.2.getD .deferred)⟩
        | .error .temporalCallbackFailure =>
          let r := p.1.addRstStream d.streamId internalError
          ⟨r.1,item',.error (r.2.getD .temporalCallbackFailure)⟩
        | .error e => ⟨p.1,item',.error e⟩

def prepFrame (P : Platform) (s : Session) (item : OutboundItem) : Prep :=
  match item.frame with
  | .ctrl (.synStream f) => prepSynStream P s item f
  | .ctrl (.synReply f) =>
    match s.predicateSynReplySend f.streamId with
    | some e => ⟨s,item,.error e⟩
    | none => prepStreamHeaders P s item .synReply .synReply f
  | .ctrl (.rstStream f) => s.prepFixed item (framePackRstStream f)
  | .ctrl (.settings f) => s.prepPacked item (framePackSettings f)
  | .ctrl (.ping f) => s.prepFixed item (framePackPing f)
  | .ctrl (.headers f) =>
    match s.predicateHeadersSend f.streamId with
    | some e => ⟨s,item,.error e⟩
    | none => prepStreamHeaders P s item .headers .headers f
  | .ctrl (.windowUpdate f) =>
    match s.predicateWindowUpdateSend f.streamId with
    | some e => ⟨s,item,.error e⟩
    | none => s.prepFixed item (framePackWindowUpdate f)
  | .ctrl (.goaway f) =>
    if s.goawaySend then ⟨s,item,.error .goawayAlreadySent⟩ else s.prepPacked item (framePackGoaway f)
  | .ctrl (.credential f) => s.prepFixed item (framePackCredential f)
  | .data d => s.prepData item d

/-! The next item. -/

def getNextObItem (s : Session) : Option OutboundItem :=
  match pqTop s.obPq, pqTop s.obSsPq with
  | none, none => none
  | none, some syn => if s.isOutgoingConcurrentStreamsMax then none else some syn
  | some item, none => some item
  | some item, some syn =>
    if s.isOutgoingConcurrentStreamsMax ∨ item.pri < syn.pri ∨ (item.pri = syn.pri ∧ item.seq < syn.seq) then
      some item
    else some syn

/-- With items in both queues the SYN_STREAM is taken; the comparison that the
source has after that return is never reached. -/
def popNextObItem (s : Session) : Option (OutboundItem × Session) :=
  match pqTop s.obPq, pqTop s.obSsPq with
  | none, none => none
  | none, some syn =>
    if s.isOutgoingConcurrentStreamsMax then none else some (syn,{s with obSsPq := pqPop s.obSsPq})
  | some item, none => some (item,{s with obPq := pqPop s.obPq})
  | some _, some syn => some (syn,{s with obSsPq := pqPop s.obSsPq})

/-! A frame is complete. -/

/-- The active item is freed. The cause is for the log only. -/
def activeReset (s : Session) (cause : Finish) : Session :=
  let s1 := match s.aob.item with
    | some item => s.emit (.finished item.seq cause)
    | none => s
  {s1 with aob := {s1.aob with item := none, framebuf := [], framebufoff := 0}}

/-- Queue the body that was submitted together with a SYN_STREAM or SYN_REPLY.
A failure is asserted to be fatal and leaves the item active. -/
def submitBody (s : Session) (streamId : Int) : Option DataProvider → Session × Option Err
  | none => (s,none)
  | some prd =>
    let r := s.submitData streamId 1 prd
    match r.2 with
    | none => (r.1,none)
    | some e => (r.1,some (assertFatal e))

def afterSynStreamSent (s : Session) (item : OutboundItem) (f : SynStream) : Session × Option Err :=
  match s.getStream f.streamId with
  | none => (s,none)
  | some _ =>
    let s := s.setState f.streamId .opening
    let s := if flagFin f.hd.flags then s.shutdownWr f.streamId else s
    let s := if flagUnidirectional f.hd.flags then s.shutdownRd f.streamId else s
    (s.closeStreamIfShutRdwr f.streamId).submitBody f.streamId item.aux

def afterSynReplySent (s : Session) (item : OutboundItem) (f : StreamHeaders) : Session × Option Err :=
  match s.getStream f.streamId with
  | none => (s,none)
  | some _ =>
    let s := s.setState f.streamId .opened
    let s := if flagFin f.hd.flags then s.shutdownWr f.streamId else s
    (s.closeStreamIfShutRdwr f.streamId).submitBody f.streamId item.aux

def afterRstStreamSent (s : Session) (f : RstStream) : Session :=
  let s := if !s.server ∧ s.isMyStreamId f.streamId ∧ f.statusCode = cancel then
      s.closePushedStreams f.streamId f.statusCode
    else s
  (s.closeStream f.streamId f.statusCode).1

def afterHeadersSent (s : Session) (f : StreamHeaders) : Session :=
  match s.getStream f.streamId with
  | none => s
  | some _ =>
    let s := if flagFin f.hd.flags then s.shutdownWr f.streamId else s
    s.closeStreamIfShutRdwr f.streamId

def afterCtrlSent (s : Session) (item : OutboundItem) : Frame → Session × Option Err
  | .synStream f => s.afterSynStreamSent item f
  | .synReply f => s.afterSynReplySent item f
  | .rstStream f => (s.afterRstStreamSent f,none)
  | .settings _ => (s,none)
  | .ping f => ({s with lastPingUniqueId := f.uniqueId},none)
  | .goaway _ => ({s with goawaySend := true},none)
  | .headers f => (s.afterHeadersSent f,none)
  | .windowUpdate _ => (s,none)
  | .credential _ => (s,none)

/-- The last frame of a DATA item with FIN shuts the stream for writing. -/
def afterDataFin (s : Session) (d : DataFrame) : Session :=
  if d.eof ∧ flagFin d.flags then
    match s.getStream d.streamId with
    | some _ => (s.shutdownWr d.streamId).closeStreamIfShutRdwr d.streamId
    | none => s
  else s

/-- The item leaves the active slot without being freed. -/
def activeTake (s : Session) : Session := {s with aob := {s.aob with item := none, framebuf := [], framebufoff := 0}}

/-- Pack the next frame of the active DATA item. -/
def continueData (s : Session) (item : OutboundItem) (d : DataFrame) (st : Stream) : Session × Option Err :=
  let readmax := s.nextDataRead st
  if readmax = 0 then
    let r := s.deferData st item true
    match r.2 with
    | none => (r.1.activeTake,none)
    | some e => (r.1,some e)
  else
    let p := s.packData item.seq d readmax
    let item' := {item with frame := .data p.2.1}
    match p.2.2 with
    | .ok bytes =>
      ({p.1.emit (.prepared item.seq bytes) with
        aob := {p.1.aob with item := some item', framebuf := bytes, framebufoff := 0}},none)
    | .error .deferred =>
      let r := p.1.deferData st item' false
      match r.2 with
      | none => (r.1.activeTake,none)
      | some e => (r.1,some e)
    | .error .temporalCallbackFailure =>
      let r := p.1.addRstStream d.streamId internalError
      (r.1.activeReset (.failed .temporalCallbackFailure),r.2)
    | .error e => (p.1.activeReset (.failed e),some e)

/-- No item that waits goes before the active one. -/
def keepsTurn (s : Session) (item : OutboundItem) : Bool :=
  match s.getNextObItem with
  | none => true
  | some next => item.pri ≤ next.pri

def afterDataSent (s : Session) (item : OutboundItem) (d : DataFrame) : Session × Option Err :=
  let s := s.emit (.dataSend (if d.eof then d.flags else 0) d.streamId (s.aob.framebuf.length-headLen))
  let s := s.afterDataFin d
  if d.eof ∨ (s.predicateDataSend d.streamId).isSome then (s.activeReset (if d.eof then .sent else .refused),none)
  else
    if s.keepsTurn item then
      match s.getStream d.streamId with
      | none => (s,some (.assertion .streamPresent))
      | some st => s.continueData item d st
    else
      let r := s.pushOb item
      match r.2 with
      | none => (r.1.activeTake,none)
      | some e => (r.1.activeReset (.failed e),some (assertFatal e))

def afterFrameSent (s : Session) : Session × Option Err :=
  match s.aob.item with
  | none => (s,none)
  | some item =>
    match item.frame with
    | .ctrl f =>
      let r := (s.emit (.ctrlSend f)).afterCtrlSent item f
      match r.2 with
      | none => (r.1.activeReset .sent,none)
      | some e => (r.1,some e)
    | .data d => s.afterDataSent item d

/-! The send loop. The second component is `none` while the loop goes on. -/

/-- The window is lowered by the raw second word of the frame on every write. -/
def debit (s : Session) (item : OutboundItem) : Session :=
  match item.frame with
  | .data d =>
    if s.flowControl then
      s.modifyStream d.streamId (fun st => {st with
        windowSize := s.windowArith.store (st.windowSize-getUint32 (s.aob.framebuf.drop 4))})
    else s
  | .ctrl _ => s

def sendAccepted (s : Session) (item : OutboundItem) (n : Nat) : Session × Option (Option Err) :=
  let sentlen := min n (s.aob.framebuf.length-s.aob.framebufoff)
  let s := s.emit (.sent ((s.aob.framebuf.drop s.aob.framebufoff).take sentlen))
  let s := {s with aob := {s.aob with framebufoff := s.aob.framebufoff+sentlen}}
  let s := s.debit item
  if s.aob.framebufoff = s.aob.framebuf.length then
    let r := s.afterFrameSent
    match r.2 with
    | none => (r.1,none)
    | some e => (r.1,some (some (assertFatal e)))
  else (s,none)

def sendWrite (s : Session) (item : OutboundItem) : Session × Option (Option Err) :=
  let answer := s.host.sends.headD .wouldblock
  let s := {s with host := {s.host with sends := s.host.sends.tail}}
  match answer with
  | .wouldblock => (s,some none)
  | .failure => (s,some (some .callbackFailure))
  | .accept n => s.sendAccepted item n

/-- An item that cannot be sent is reported, unless it is a WINDOW_UPDATE, and freed. -/
def dropItem (s : Session) (item : OutboundItem) (e : Err) : Session :=
  let s := match item.frame with
    | .ctrl (.windowUpdate _) => s
    | .ctrl f => if isNonFatal e then s.emit (.ctrlNotSend f e) else s
    | .data _ => s
  s.emit (.finished item.seq (.dropped e))

def activate (s : Session) (item : OutboundItem) (bytes : Bytes) : Session :=
  let s := {s.emit (.prepared item.seq bytes) with aob := {s.aob with item := some item, framebuf := bytes}}
  match item.frame with
  | .ctrl f => s.emit (.beforeCtrlSend f)
  | .data _ => s

def sendIter (P : Platform) (s : Session) : Session × Option (Option Err) :=
  match s.aob.item with
  | some item => s.sendWrite item
  | none =>
    match s.popNextObItem with
    | none => (s,some none)
    | some (item, s1) =>
      let p := prepFrame P s1 item
      match p.result with
      | .ok bytes => (p.ses.activate p.item bytes).sendWrite p.item
      | .error .deferred => (p.ses,none)
      | .error .credentialPending => (p.ses,none)
      | .error e => (p.ses.dropItem p.item e,if isFatal e then some (some e) else none)

def sendLoop (P : Platform) : Nat → Session → Session × Option Err
  | 0, s => (s,none)
  | fuel+1, s =>
    match sendIter P s with
    | (s', some r) => (s',r)
    | (s', none) => sendLoop P fuel s'

/-- Iterations the loop can need: each one uses up an answer of a callback, after
which a few frames may have been queued, or takes an item from a queue. -/
def sendFuel (s : Session) : Nat :=
  s.obPq.q.length+s.obSsPq.q.length+
    4*(s.host.sends.length+s.host.reads.length+s.host.credentials.length)+2

def send (P : Platform) (s : Session) : Session × Option Err := sendLoop P s.sendFuel s

end Session
end Spdylay
