import Spdylay.Library.BinaryHeap
import Spdylay.Library.OrderedTable
import Spdylay.Session.ClientCertVector

/-! The state of a session. What the program takes from outside (allocation,
the answers of the application's callbacks) is scripted in the state, and what
it shows outside (the callbacks it calls, the bytes it writes) is logged there.
Callbacks return without calling the library. -/
namespace Spdylay
open Library

/-- Handle of a data source with its read callback. -/
abbrev DataProvider := Nat

structure DataFrame where
  streamId : Int
  flags : Nat
  eof : Bool
  dataPrd : DataProvider
  deriving DecidableEq, Repr

inductive OutFrame
  | ctrl (f : Frame)
  | data (f : DataFrame)
  deriving DecidableEq, Repr

/-- `aux` is the data provider of a SYN_STREAM or SYN_REPLY. -/
structure OutboundItem where
  frame : OutFrame
  aux : Option DataProvider
  pri : Int
  seq : Nat
  deriving DecidableEq, Repr

def obPriPing : Int := -10
def obPriCredential : Int := -2
def obPriAfterCredential : Int := -1

def OutboundItem.isSynStream (it : OutboundItem) : Bool :=
  match it.frame with
  | .ctrl (.synStream _) => true
  | _ => false

def outboundItemCompar (lhs rhs : OutboundItem) : Int :=
  if lhs.pri = rhs.pri then if lhs.seq < rhs.seq then -1 else if rhs.seq < lhs.seq then 1 else 0
  else lhs.pri-rhs.pri

/-! Streams. -/

inductive StreamState
  | initial
  | opening
  | opened
  | closing
  deriving DecidableEq, Repr

structure Stream where
  streamId : Int
  state : StreamState
  flags : Nat
  pri : Nat
  shutRd : Bool
  shutWr : Bool
  pushedStreams : List Int
  deferredData : Option OutboundItem
  deferredFlowControl : Bool
  windowSize : Int
  recvWindowSize : Int
  deriving DecidableEq, Repr

def streamInit (streamId : Int) (flags pri : Nat) (initialState : StreamState) (initialWindow : Int) : Stream :=
  ⟨streamId,initialState,flags,pri,false,false,[],none,false,initialWindow,0⟩

/-- How a store to `window_size` is read: as the machine's int32_t, or as an
unbounded integer. -/
inductive WindowArith
  | int32
  | unbounded
  deriving DecidableEq, Repr

def WindowArith.store : WindowArith → Int → Int
  | .int32, n => toInt32 n
  | .unbounded, n => n

/-! Outbound queues. -/

structure Pq where
  capacity : Nat
  q : List OutboundItem
  deriving DecidableEq, Repr

def pqInit : Pq := ⟨4096,[]⟩

/-- The array is doubled when it is full; without memory nothing changes. -/
def pqPush (m : Mem) (pq : Pq) (item : OutboundItem) : Mem × Option Pq :=
  if pq.capacity ≤ pq.q.length then
    if m.headD true then
      (m.tail,some ⟨pq.capacity*2,BinaryHeap.push outboundItemCompar pq.q item⟩)
    else (m.tail,none)
  else (m,some {pq with q := BinaryHeap.push outboundItemCompar pq.q item})

def pqTop (pq : Pq) : Option OutboundItem := BinaryHeap.top pq.q

def pqPop (pq : Pq) : Pq := {pq with q := BinaryHeap.pop outboundItemCompar pq.q}

def pqEmpty (pq : Pq) : Bool := pq.q.isEmpty

/-! The frame being written, and the frame being read. -/

structure ActiveOutboundItem where
  item : Option OutboundItem
  framebuf : Bytes
  framebufmax : Nat
  framebufoff : Nat
  deriving DecidableEq, Repr

inductive InboundState
  | head
  | payload
  | payloadIgn
  | payloadPreNv
  | payloadNv
  deriving DecidableEq, Repr

/-- `headbuf` holds the header bytes received so far, `buf` the memory for the
payload before the name/value block. -/
structure InboundFrame where
  state : InboundState
  headbuf : Bytes
  buf : Bytes
  bufmax : Nat
  buflen : Nat
  payloadlen : Nat
  off : Nat
  inflatebuf : Buffer
  errorCode : Option Err
  deriving DecidableEq, Repr

/-! The application and the network. -/

/-- Answers of send_callback; an accepted count is at most the offered length. -/
inductive SendAnswer
  | accept (n : Nat)
  | wouldblock
  | failure
  deriving DecidableEq, Repr

inductive ReadAnswer
  | data (bytes : Bytes) (eof : Bool)
  | deferred
  | temporalFailure
  | failure
  deriving DecidableEq, Repr

/-- Answers of the credential callbacks for one origin; no certificate is a
chain of length 0. -/
structure CredentialAnswer where
  proof : Bytes
  certs : List Bytes
  deriving DecidableEq, Repr

/-- Why an item is freed: its last frame has been written; a DATA frame of it has been
written and its stream takes no other, or the next one cannot be made; it cannot be sent
at all; the stream that keeps it is closed; or the session is deleted. -/
inductive Finish
  | sent
  | refused
  | failed (e : Err)
  | dropped (e : Err)
  | streamClosed (streamId : Int)
  | deleted
  deriving DecidableEq, Repr

/-- An item whose frame has been written is freed for one of these reasons. -/
def Finish.afterWriting : Finish → Bool
  | .sent | .refused | .failed _ => true
  | _ => false

/-- Callback calls, writes and, for the statements about runs, the moments at
which an item is accepted, prepared or freed, a window is raised, a stream
cannot be inserted, an inbound frame ends and a call returns a fatal error. -/
inductive Event
  | ctrlRecv (f : Frame)
  | invalidCtrlRecv (f : Frame) (statusCode : Nat)
  | ctrlRecvParseError (type : Nat) (head payload : Bytes) (e : Err)
  | unknownCtrlRecv (head payload : Bytes)
  | dataChunkRecv (flags : Nat) (streamId : Int) (data : Bytes)
  | dataRecv (flags : Nat) (streamId : Int) (length : Nat)
  | requestRecv (streamId : Int)
  | streamClose (streamId : Int) (statusCode : Nat)
  | beforeCtrlSend (f : Frame)
  | ctrlSend (f : Frame)
  | ctrlNotSend (f : Frame) (e : Err)
  | dataSend (flags : Nat) (streamId : Int) (length : Nat)
  | read (seq : Nat) (streamId : Int) (bytes : Bytes)
  | sent (bytes : Bytes)
  | accepted (item : OutboundItem)
  | prepared (seq : Nat) (frame : Bytes)
  | finished (seq : Nat) (cause : Finish)
  | windowRaised (streamId : Int) (delta : Int)
  | insertFailed (streamId : Int)
  | frameDone
  | fatal (e : Err)
  deriving DecidableEq, Repr

/-- The bytes that send_callback has accepted. -/
def sentBytes (log : List Event) : Bytes := log.flatMap (fun | .sent bytes => bytes | _ => [])

theorem sentBytes_append (log log' : List Event) : sentBytes (log ++ log') = sentBytes log ++ sentBytes log' :=
  List.flatMap_append

structure Host where
  mem : Mem
  sends : List SendAnswer
  reads : List ReadAnswer
  credentials : List CredentialAnswer
  log : List Event
  deriving DecidableEq, Repr

/-- Code outside the repository: zlib, qsort and the contents of fresh memory. -/
structure Platform extends Zlib where
  qsort : Qsort
  fresh : Nat → Nat → UInt8

def Platform.freshBuffer (P : Platform) (n : Nat) : Bytes := (List.range n).map (P.fresh n)

structure Session where
  version : Version
  server : Bool
  windowArith : WindowArith
  /-- get_credential_proof, _cert and _ncerts are set. -/
  credentialCallbacks : Bool
  nextStreamId : Nat
  lastRecvStreamId : Int
  nextUniqueId : Nat
  nextSeq : Nat
  streams : OrderedTable Stream Stream.streamId
  numOutgoingStreams : Nat
  numIncomingStreams : Nat
  obPq : Pq
  obSsPq : Pq
  aob : ActiveOutboundItem
  iframe : InboundFrame
  nvbuflen : Nat
  /-- Blocks passed to the deflater so far. -/
  hdDeflater : List Bytes
  hdInflater : Inflater
  lastPingUniqueId : Nat
  goawaySend : Bool
  goawayRecv : Bool
  goawayFailOnSend : Bool
  lastGoodStreamId : Int
  flowControl : Bool
  remoteSettings : Nat → Nat
  localSettings : Nat → Nat
  noAutoWindowUpdate : Bool
  maxRecvCtrlFrameBuf : Nat
  cliCertvec : ClientCertVector
  host : Host

def initialSettings : Nat → Nat := fun id =>
  if id = settingsMaxConcurrentStreams then initialMaxConcurrentStreams
  else if id = settingsInitialWindowSize then initialWindowSize
  else 0

/-- A new session with all allocations done. -/
def sessionNew (P : Platform) (version : Version) (arith : WindowArith) (server credentialCallbacks : Bool)
    (cliCertvecLength firstId : Nat) (host : Host) : Session where
  version := version
  server := server
  windowArith := arith
  credentialCallbacks := credentialCallbacks
  nextStreamId := firstId
  lastRecvStreamId := 0
  nextUniqueId := firstId
  nextSeq := 0
  streams := .empty
  numOutgoingStreams := 0
  numIncomingStreams := 0
  obPq := pqInit
  obSsPq := pqInit
  aob := ⟨none,[],initialFramebufLength,0⟩
  iframe := ⟨.head,[],P.freshBuffer initialFramebufLength,initialFramebufLength,0,0,0,bufferInit 4096,none⟩
  nvbuflen := initialNvBufferLength
  hdDeflater := []
  hdInflater := ⟨[],false⟩
  lastPingUniqueId := 0
  goawaySend := false
  goawayRecv := false
  goawayFailOnSend := false
  lastGoodStreamId := 0
  flowControl := version = .spdy3
  remoteSettings := initialSettings
  localSettings := initialSettings
  noAutoWindowUpdate := false
  maxRecvCtrlFrameBuf := 16777215
  cliCertvec := .init cliCertvecLength
  host := host

def sessionClientNew (P : Platform) (version : Version) (arith : WindowArith) (credentialCallbacks : Bool)
    (host : Host) : Session :=
  sessionNew P version arith false credentialCallbacks initialClientCertVectorLength 1 host

def sessionServerNew (P : Platform) (version : Version) (arith : WindowArith) (credentialCallbacks : Bool)
    (host : Host) : Session :=
  sessionNew P version arith true credentialCallbacks 0 2 host

end Spdylay
