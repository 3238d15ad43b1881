import Spdylay.Machine.DequeueOrder

/-! The protocol side of a session as a machine: the life of each stream, the order
in which items leave the queues, the flags of GOAWAY, PINGs and certificates. Where
the machine of the books keeps quantities, this one says under which conditions each
event of the log can happen. Windows, buffers and memory do not occur in it. -/
namespace Spdylay.Protocol
open Library

/-- What the protocol knows of a stream. -/
structure Life where
  state : StreamState
  flags : Nat
  shutRd : Bool
  shutWr : Bool
  deferred : Option OutboundItem

/-- `hand` is the item that send has taken from a queue and not placed yet. -/
structure Conn where
  server : Bool
  nextStreamId : Nat
  lastRecvStreamId : Int
  nextSeq : Nat
  streams : Int → Option Life
  obPq : List OutboundItem
  obSsPq : List OutboundItem
  active : Option OutboundItem
  hand : Option OutboundItem
  goawaySend : Bool
  goawayRecv : Bool
  goawayFailOnSend : Bool
  lastPingUniqueId : Nat
  cliCertvec : ClientCertVector
  iframe : InboundFrame
  log : List Event

def life (st : Stream) : Life := ⟨st.state,st.flags,st.shutRd,st.shutWr,st.deferredData⟩

/-- The protocol side of a session. -/
def conn (s : Session) (hand : Option OutboundItem) : Conn where
  server := s.server
  nextStreamId := s.nextStreamId
  lastRecvStreamId := s.lastRecvStreamId
  nextSeq := s.nextSeq
  streams := fun id => (s.getStream id).map life
  obPq := s.obPq.q
  obSsPq := s.obSsPq.q
  active := s.aob.item
  hand := hand
  goawaySend := s.goawaySend
  goawayRecv := s.goawayRecv
  goawayFailOnSend := s.goawayFailOnSend
  lastPingUniqueId := s.lastPingUniqueId
  cliCertvec := s.cliCertvec
  iframe := s.iframe
  log := s.host.log

namespace Conn

def isMine (c : Conn) (id : Int) : Bool :=
  if id = 0 then false else if c.server then id.tmod 2 = 0 else id.tmod 2 = 1

def shutDown (c : Conn) : Bool := c.goawaySend || c.goawayRecv || c.goawayFailOnSend

def note (c : Conn) (e : Event) : Conn := {c with log := c.log ++ [e]}

def notes (c : Conn) (es : List Event) : Conn := {c with log := c.log ++ es}

def setStream (c : Conn) (id : Int) (l : Option Life) : Conn := {c with streams := Function.update c.streams id l}

def modify (c : Conn) (id : Int) (f : Life → Life) : Conn := c.setStream id ((c.streams id).map f)

/-- An RST_STREAM that is being queued marks its stream. -/
def mark (c : Conn) : OutFrame → Conn
  | .ctrl (.rstStream f) => c.modify f.streamId (fun l => {l with state := .closing})
  | _ => c

def pushOb (c : Conn) (item : OutboundItem) : Conn := {c with obPq := BinaryHeap.push outboundItemCompar c.obPq item}

def pushObSs (c : Conn) (item : OutboundItem) : Conn :=
  {c with obSsPq := BinaryHeap.push outboundItemCompar c.obSsPq item}

def push (c : Conn) (item : OutboundItem) : Conn := if item.isSynStream then c.pushObSs item else c.pushOb item

def skipSeq (c : Conn) : Conn := {c with nextSeq := c.nextSeq+1}

/-- A frame becomes an item of a queue. -/
def accept (c : Conn) (item : OutboundItem) : Conn :=
  ((c.skipSeq.mark item.frame).push item).note (.accepted item)

def take (c : Conn) : Conn := {c with active := none}

def hold (c : Conn) (item : Option OutboundItem) : Conn := {c with hand := item}

/-- What the close of a stream writes to the log before its deferred item. -/
def closeEvents (id : Int) (l : Life) (statusCode : Nat) : List Event :=
  (if l.state ≠ .initial then [.streamClose id statusCode] else []) ++
    (l.deferred.map (fun item => Event.finished item.seq (.streamClosed id))).toList

def close (c : Conn) (id : Int) (l : Life) (statusCode : Nat) : Conn :=
  (c.setStream id none).notes (closeEvents id l statusCode)

/-- What an accepted SYN_STREAM reports. -/
def admitEvents (f : SynStream) : List Event :=
  .ctrlRecv (.synStream f) :: if flagFin f.hd.flags then
    .requestRecv f.streamId :: if flagUnidirectional f.hd.flags then [.streamClose f.streamId statusOk] else []
  else []

/-- The life a peer's SYN_STREAM begins. -/
def admitted (f : SynStream) : Life :=
  ⟨.opening,f.hd.flags,flagFin f.hd.flags,flagUnidirectional f.hd.flags,none⟩

/-- An id the peer may open a stream with. -/
def NewPeerId (c : Conn) (id : Int) : Prop := id ≠ 0 ∧ c.isMine id = false ∧ c.lastRecvStreamId < id

/-- A control frame has been sent completely. -/
def sent (c : Conn) (f : Frame) : Conn :=
  let c := c.note (.ctrlSend f)
  match f with
  | .synStream f => c.modify f.streamId (fun l => {l with
      state := .opening, shutWr := l.shutWr || flagFin f.hd.flags, shutRd := l.shutRd || flagUnidirectional f.hd.flags})
  | .synReply f => c.modify f.streamId (fun l => {l with
      state := .opened, shutWr := l.shutWr || flagFin f.hd.flags})
  | .headers f => c.modify f.streamId (fun l => {l with shutWr := l.shutWr || flagFin f.hd.flags})
  | .ping f => {c with lastPingUniqueId := f.uniqueId}
  | .goaway _ => {c with goawaySend := true}
  | _ => c

/-- A DATA frame has been sent completely. -/
def sentData (c : Conn) (d : DataFrame) (length : Nat) : Conn :=
  (c.note (.dataSend (if d.eof then d.flags else 0) d.streamId length)).modify d.streamId
    (fun l => {l with shutWr := l.shutWr || (d.eof && flagFin d.flags)})

/-- The stream may carry HEADERS and DATA of this side. -/
def Writable (c : Conn) (id : Int) (l : Life) : Prop :=
  c.streams id = some l ∧ l.shutWr = false ∧ if c.isMine id then l.state ≠ .closing else l.state = .opened

/-- When a frame may be begun, SYN_STREAMs apart. -/
def MayStart (c : Conn) : OutFrame → Prop
  | .ctrl (.synStream _) => False
  | .ctrl (.synReply f) => ∃ l, c.streams f.streamId = some l ∧ l.shutWr = false ∧ c.isMine f.streamId = false ∧
      l.state = .opening
  | .ctrl (.headers f) => ∃ l, c.Writable f.streamId l
  | .ctrl (.windowUpdate f) => ∃ l, c.streams f.streamId = some l ∧ l.state ≠ .closing
  | .ctrl (.goaway _) => c.goawaySend = false
  | .data d => ∃ l, c.Writable d.streamId l ∧ l.deferred = none
  | _ => True

/-- A frame that may be queued: SYN_STREAMs by submission only, a GOAWAY naming the
last id seen, and a CREDENTIAL not without its origin. -/
def Admits (c : Conn) (item : OutboundItem) : Prop :=
  item.seq = c.nextSeq ∧ match item.frame with
    | .ctrl (.synStream f) => c.hand = none ∧ item.pri = f.pri
    | .ctrl (.goaway f) => f.lastGoodStreamId = c.lastRecvStreamId
    | .ctrl (.credential _) => False
    | _ => True

end Conn

/-- Two versions of a frame: what the preparation fills in may differ. -/
def SameFrame : OutFrame → OutFrame → Prop
  | .ctrl (.synStream _), .ctrl (.synStream _) => True
  | .ctrl (.synReply f), .ctrl (.synReply f') => f'.streamId = f.streamId
  | .ctrl (.headers f), .ctrl (.headers f') => f'.streamId = f.streamId
  | .data d, .data d' => d'.streamId = d.streamId
  | x, y => y = x

/-- Events that may happen at any time. -/
def quiet : Event → Bool
  | .invalidCtrlRecv _ _ | .ctrlRecvParseError _ _ _ _ | .unknownCtrlRecv _ _ | .ctrlNotSend _ _ | .sent _
  | .windowRaised _ _ | .insertFailed _ | .frameDone | .fatal _ => true
  | .ctrlRecv (.rstStream _) | .ctrlRecv (.settings _) | .ctrlRecv (.windowUpdate _)
  | .ctrlRecv (.credential _) => true
  | _ => false

open Conn in
/-- Moves beside the way of the outbound items: what is received and reported, the
streams, the flags, the certificates and the completion of the active item. -/
inductive Side : Conn → Conn → Prop
  | note (c) (e : Event) : quiet e = true → Side c (c.note e)
  /-- A frame for which there is no memory has already marked its stream. -/
  | refuse (c) (frame : OutFrame) : Side c (c.skipSeq.mark frame)
  | close (c) (id : Int) (l : Life) (statusCode : Nat) : c.streams id = some l → Side c (c.close id l statusCode)
  | resume (c) (id : Int) (l : Life) (item : OutboundItem) : c.streams id = some l → l.deferred = some item →
      Side c ((c.pushOb item).setStream id (some {l with deferred := none}))
  | shutRd (c) (id : Int) : Side c (c.modify id (fun l => {l with shutRd := true}))
  | read (c) (f : InboundFrame) : Side c {c with iframe := f}
  | seePeer (c) (id : Int) : c.shutDown = false → c.NewPeerId id → Side c {c with lastRecvStreamId := id}
  | admitStream (c) (f : SynStream) : c.shutDown = false → c.NewPeerId f.streamId → c.streams f.streamId = none →
      (flagFin f.hd.flags && flagUnidirectional f.hd.flags) = false →
      Side c ((({c with lastRecvStreamId := f.streamId}).setStream f.streamId (some (admitted f))).notes (admitEvents f))
  | admitUnopened (c) (f : SynStream) (es : List Event) : c.shutDown = false → c.NewPeerId f.streamId →
      (∀ e ∈ es, quiet e = true) →
      Side c ((({c with lastRecvStreamId := f.streamId}).notes es).notes (admitEvents f))
  | recvSynReply (c) (f : StreamHeaders) (l : Life) : c.streams f.streamId = some l → c.isMine f.streamId = true →
      l.shutRd = false → l.state = .opening →
      Side c ((c.setStream f.streamId (some {l with state := .opened})).note (.ctrlRecv (.synReply f)))
  | recvHeaders (c) (f : StreamHeaders) (l : Life) : c.streams f.streamId = some l → l.shutRd = false →
      Side c (c.note (.ctrlRecv (.headers f)))
  | recvData (c) (flags : Nat) (id : Int) (length : Nat) (l : Life) : c.streams id = some l → l.shutRd = false →
      Side c (c.note (.dataRecv flags id length))
  | recvRequest (c) (id : Int) (l : Life) : c.streams id = some l → Side c (c.note (.requestRecv id))
  | recvPing (c) (f : Ping) : c.lastPingUniqueId ≠ f.uniqueId → Side c (c.note (.ctrlRecv (.ping f)))
  | recvPingReply (c) (f : Ping) : c.lastPingUniqueId = f.uniqueId → f.uniqueId ≠ 0 →
      Side c ({c with lastPingUniqueId := 0}.note (.ctrlRecv (.ping f)))
  | recvGoaway (c) (f : Goaway) : Side c ({c with goawayRecv := true}.note (.ctrlRecv (.goaway f)))
  | fail (c) : Side c {c with goawayFailOnSend := true}
  | resize (c) (m m' : Mem) (size : Nat) (v : ClientCertVector) : c.cliCertvec.resize m size = (m',.ok v) →
      Side c {c with cliCertvec := v}
  | setOrigin (c) (origin : Origin) : c.cliCertvec.lastSlot = 0 →
      Side c {c with cliCertvec := (c.cliCertvec.put origin).1}
  /-- The origin has its slot, and its CREDENTIAL cannot be queued. -/
  | loseCredential (c) (item : OutboundItem) (f : SynStream) (origin : Origin) : c.hand = some item →
      item.frame = .ctrl (.synStream f) → Side c {c with cliCertvec := (c.cliCertvec.put origin).1}
  | takeId (c) : (c.nextStreamId : Int) ≤ int32Max → Side c {c with nextStreamId := c.nextStreamId+2}
  | complete (c) (item : OutboundItem) (f : Frame) : c.active = some item → item.frame = .ctrl f → Side c (c.sent f)
  | completeData (c) (item : OutboundItem) (d : DataFrame) (length : Nat) : c.active = some item →
      item.frame = .data d → Side c (c.sentData d length)

open Conn in
/-- The way of the items: into a queue, into the hand, to the active slot and out. -/
inductive Move : Conn → Conn → Prop
  | side {c c' : Conn} : Side c c' → Move c c'
  | accept (c) (item : OutboundItem) : c.Admits item → Move c (c.accept item)
  | credential (c) (syn item : OutboundItem) (f : Credential) (origin : Origin) : c.hand = some syn →
      c.cliCertvec.find origin = 0 → item.seq = c.nextSeq → item.frame = .ctrl (.credential f) →
      item.pri = obPriCredential → f.slot = (c.cliCertvec.put origin).2 →
      Move c (({c with cliCertvec := (c.cliCertvec.put origin).1}).accept item)
  | pop (c) (item : OutboundItem) : c.active = none → c.hand = none → BinaryHeap.top c.obPq = some item →
      c.obSsPq = [] → Move c ({c with obPq := BinaryHeap.pop outboundItemCompar c.obPq}.hold (some item))
  | popSyn (c) (item : OutboundItem) : c.active = none → c.hand = none → BinaryHeap.top c.obSsPq = some item →
      Move c ({c with obSsPq := BinaryHeap.pop outboundItemCompar c.obSsPq}.hold (some item))
  | retouch (c) (item item' : OutboundItem) : c.hand = some item → item'.seq = item.seq →
      SameFrame item.frame item'.frame → Move c (c.hold (some item'))
  | drop (c) (item : OutboundItem) (e : Err) : c.hand = some item →
      Move c ((c.note (.finished item.seq (.dropped e))).hold none)
  | requeue (c) (item : OutboundItem) : c.hand = some item → item.isSynStream = true →
      item.pri = obPriAfterCredential → Move c ((c.pushObSs item).hold none)
  | defer (c) (item : OutboundItem) (d : DataFrame) (l : Life) : c.hand = some item → item.frame = .data d →
      c.streams d.streamId = some l → l.deferred = none →
      Move c ((c.setStream d.streamId (some {l with deferred := some item})).hold none)
  | start (c) (item : OutboundItem) (f : Frame) (bytes : Bytes) : c.hand = some item → c.active = none →
      item.frame = .ctrl f → c.MayStart (.ctrl f) →
      Move c ((({c with active := some item}).notes [.prepared item.seq bytes,.beforeCtrlSend f]).hold none)
  /-- A SYN_STREAM takes the next id and opens its stream. -/
  | startOwn (c) (item : OutboundItem) (f : SynStream) (bytes : Bytes) : c.hand = some item → c.active = none →
      item.frame = .ctrl (.synStream f) → f.streamId = c.nextStreamId → c.streams f.streamId = none →
      c.shutDown = false → (c.nextStreamId : Int) ≤ int32Max →
      Move c ((({c with nextStreamId := c.nextStreamId+2, active := some item}.setStream f.streamId
        (some ⟨.initial,f.hd.flags,false,false,none⟩)).notes
        [.prepared item.seq bytes,.beforeCtrlSend (.synStream f)]).hold none)
  | startData (c) (item : OutboundItem) (d : DataFrame) (bytes frame : Bytes) : c.hand = some item →
      c.active = none → item.frame = .data d → c.MayStart (.data d) →
      Move c ((({c with active := some item}).notes [.read item.seq d.streamId bytes,.prepared item.seq frame]).hold none)
  /-- A control frame is freed when it is complete, and the stream of an RST_STREAM
  has been closed by then. -/
  | finish (c) (item : OutboundItem) (cause : Finish) : c.active = some item →
      (∀ f, item.frame = .ctrl f → .ctrlSend f ∈ c.log) →
      (∀ f, item.frame = .ctrl (.rstStream f) → c.streams f.streamId = none) →
      Move c (c.note (.finished item.seq cause)).take
  | parkActive (c) (item item' : OutboundItem) (d : DataFrame) (l : Life) : c.active = some item →
      item'.seq = item.seq → SameFrame item.frame item'.frame → item'.frame = .data d →
      c.streams d.streamId = some l → l.deferred = none →
      Move c (c.setStream d.streamId (some {l with deferred := some item'})).take
  | requeueActive (c) (item : OutboundItem) (d : DataFrame) : c.active = some item → item.frame = .data d →
      Move c (c.pushOb item).take
  | continue (c) (item item' : OutboundItem) (d : DataFrame) (bytes frame : Bytes) : c.active = some item →
      item'.seq = item.seq → SameFrame item.frame item'.frame → item'.frame = .data d → c.MayStart (.data d) →
      Move c (({c with active := some item'}).notes [.read item.seq d.streamId bytes,.prepared item.seq frame])

abbrev Moves : Conn → Conn → Prop := Relation.ReflTransGen Move

theorem Move.moves {c c' : Conn} (h : Move c c') : Moves c c' := .single h

theorem Side.moves {c c' : Conn} (h : Side c c') : Moves c c' := .single (.side h)

/-- The payload of a DATA frame for the stream is being read and not ignored. -/
def Delivers (f : InboundFrame) (id : Int) : Prop :=
  f.isCtrl = false ∧ f.state ≠ .payloadNv ∧ f.state ≠ .payloadIgn ∧ getStreamId f.headbuf = id

/-- A move, or a chunk of a DATA frame. The stream of the chunk is not looked up. -/
inductive Step : Conn → Conn → Prop
  | move {c c' : Conn} : Move c c' → Step c c'
  | chunk (c : Conn) (flags : Nat) (id : Int) (data : Bytes) : Delivers c.iframe id →
      Step c (c.note (.dataChunkRecv flags id data))

abbrev Steps : Conn → Conn → Prop := Relation.ReflTransGen Step

theorem Moves.steps {c c' : Conn} (h : Moves c c') : Steps c c' := Relation.ReflTransGen.mono (fun _ _ => .move) _ _ h

end Spdylay.Protocol
