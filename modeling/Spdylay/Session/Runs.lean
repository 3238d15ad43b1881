import Spdylay.Session.Inbound
import Spdylay.Session.Outbound

/-! Runs of a session: calls of the application interface in any order, over any
script of callback answers and allocations. -/
namespace Spdylay
open Session

/-- Calls that can change a session. -/
inductive Op
  | submitSynStream (flags : Nat) (assocStreamId : Int) (pri : Nat) (nv : List Bytes)
  | submitServerPush (assocStreamId : Int) (nv : List Bytes) (dataPrd : Option DataProvider)
  | submitRequest (pri : Nat) (nv : List Bytes) (dataPrd : Option DataProvider)
  | submitSynReply (flags : Nat) (streamId : Int) (nv : List Bytes)
  | submitHeaders (flags : Nat) (streamId : Int) (nv : List Bytes)
  | submitResponse (streamId : Int) (nv : List Bytes) (dataPrd : Option DataProvider)
  | submitData (streamId : Int) (flags : Nat) (dataPrd : DataProvider)
  | submitPing
  | submitRstStream (streamId : Int) (statusCode : Nat)
  | submitGoaway (statusCode : Nat)
  | submitSettings (flags : Nat) (iv : List SettingsEntry)
  | submitWindowUpdate (streamId deltaWindowSize : Int)
  | resumeData (streamId : Int)
  | setNoAutoWindowUpdate (on : Bool)
  | setMaxRecvCtrlFrameBuffer (n : Nat)
  | setInitialClientCertOrigin (scheme host : Bytes) (port : Nat)
  | send
  | memRecv (input : Bytes)

namespace Session

def call (P : Platform) (s : Session) : Op → Session × Option Err
  | .submitSynStream flags assocStreamId pri nv => s.submitSynStream P flags assocStreamId pri nv
  | .submitServerPush assocStreamId nv dataPrd => s.submitServerPush P assocStreamId nv dataPrd
  | .submitRequest pri nv dataPrd => s.submitRequest P pri nv dataPrd
  | .submitSynReply flags streamId nv => s.submitSynReply P flags streamId nv
  | .submitHeaders flags streamId nv => s.submitHeaders P flags streamId nv
  | .submitResponse streamId nv dataPrd => s.submitResponse P streamId nv dataPrd
  | .submitData streamId flags dataPrd => s.submitData streamId flags dataPrd
  | .submitPing => s.submitPing
  | .submitRstStream streamId statusCode => s.submitRstStream streamId statusCode
  | .submitGoaway statusCode => s.submitGoaway statusCode
  | .submitSettings flags iv => s.submitSettings P flags iv
  | .submitWindowUpdate streamId deltaWindowSize => s.submitWindowUpdate streamId deltaWindowSize
  | .resumeData streamId => s.resumeData streamId
  | .setNoAutoWindowUpdate on => (s.setNoAutoWindowUpdate on,none)
  | .setMaxRecvCtrlFrameBuffer n => s.setMaxRecvCtrlFrameBuffer n
  | .setInitialClientCertOrigin scheme host port => s.setInitialClientCertOrigin scheme host port
  | .send => s.send P
  | .memRecv input => s.memRecv P input

/-- A call, with a fatal result recorded. Nothing keeps a caller from going on. -/
def step (P : Platform) (s : Session) (op : Op) : Session :=
  let r := s.call P op
  match r.2 with
  | some e => if isFatal e then r.1.emit (.fatal e) else r.1
  | none => r.1

def run (P : Platform) (s : Session) (ops : List Op) : Session := ops.foldl (step P) s

/-! What the application asks between the calls. -/

def wantRead (s : Session) : Bool :=
  if s.goawayFailOnSend && s.goawaySend then false else !s.goawayFlags || 0 < s.streams.entries.length

def wantWrite (s : Session) : Bool :=
  if s.goawayFailOnSend && s.goawaySend then false
  else (s.aob.item.isSome || !pqEmpty s.obPq || (!pqEmpty s.obSsPq && !s.isOutgoingConcurrentStreamsMax)) &&
    (!s.goawayFlags || 0 < s.streams.entries.length)

end Session

/-- What a new session is made with; the host's log starts empty. -/
structure Setup where
  server : Bool
  version : Version
  arith : WindowArith
  credentialCallbacks : Bool
  host : Host

def Setup.start (u : Setup) (P : Platform) : Session :=
  if u.server then sessionServerNew P u.version u.arith u.credentialCallbacks {u.host with log := []}
  else sessionClientNew P u.version u.arith u.credentialCallbacks {u.host with log := []}

/-! For concrete runs. -/

/-- zlib's answers for one empty SPDY/3 list to compress and one stored block to
inflate, and zeroed memory. -/
def samplePlatform : Platform where
  deflate blocks block :=
    if blocks = [] ∧ block = [0,0,0,0] then some [56,234,227,198,167,194,2,166,35,6,0,0,0,0,255,255] else none
  deflateBound _ n := n+(n+7)/8+(n+63)/64+15
  inflate hist b := if hist.length < 7 then .output [] else .output [b]
  inflateSetDictionary _ _ := true
  qsort _ compar l := l.insertionSort (fun x y => compar x y ≤ 0)
  fresh _ _ := 0

/-- A SPDY/3 client whose allocations all succeed. -/
def sampleClient (arith : WindowArith) (sends : List SendAnswer) (reads : List ReadAnswer) : Setup :=
  ⟨false,.spdy3,arith,false,⟨[],sends,reads,[],[]⟩⟩

end Spdylay
