import Spdylay.Wire.NameValueBlock

/-! The proxy between a SPDY client and an HTTP/1.1 backend: the request that a SYN_STREAM
opens and the bytes that its DATA frames add to it. Strings are their bytes, none of which
is NUL. The client's address, the result of attaching the connection to the backend and the
calls that give window back come from the rest of the proxy. -/
namespace Spdylay
namespace Shrpx

def str (s : String) : Bytes := s.toList.map (fun c => UInt8.ofNat c.toNat)

/-! Comparisons without regard to case. -/

def lowcase (c : UInt8) : UInt8 := if 65 ≤ c ∧ c ≤ 90 then c+32 else c

def strieq : Bytes → Bytes → Bool
  | [], [] => true
  | a :: as, b :: bs => lowcase a = lowcase b && strieq as bs
  | _, _ => false

def istartsWith : Bytes → Bytes → Bool
  | _, [] => true
  | [], _ :: _ => false
  | a :: as, b :: bs => lowcase a = lowcase b && istartsWith as bs

def strifind : Bytes → Bytes → Bool
  | [], _ => false
  | a :: as, b => istartsWith (a :: as) b || strifind as b

theorem strieq_iff (a b : Bytes) : strieq a b = true ↔ a.map lowcase = b.map lowcase := by
  induction a generalizing b with
  | nil => cases b <;> simp [strieq]
  | cons c a ih =>
    cases b with
    | nil => simp [strieq]
    | cons d b => simp [strieq,ih]

/-- A string is equal to one of two different names at most. -/
theorem strieq_eq_false {a b c : Bytes} (h : strieq a b = true) (hbc : strieq b c = false) : strieq a c = false := by
  rw [Bool.eq_false_iff] at hbc ⊢
  rw [ne_eq,strieq_iff] at hbc ⊢
  rw [(strieq_iff a b).mp h]
  exact hbc

/-! The request towards the backend. -/

structure Config where
  spdyProxy : Bool
  addXForwardedFor : Bool
  deriving DecidableEq, Repr

inductive RequestState
  | initial
  | headerComplete
  | msgComplete
  | connectFail
  deriving DecidableEq, Repr

structure Downstream where
  requestState : RequestState := .initial
  requestMethod : Bytes := []
  requestPath : Bytes := []
  requestHeaders : Nv := []
  /-- Whether the name of the last header can still grow. -/
  requestHeaderKeyPrev : Bool := false
  requestMajor : Nat := 1
  requestMinor : Nat := 1
  chunkedRequest : Bool := false
  requestExpect100Continue : Bool := false
  requestConnectionClose : Bool := false
  recvWindowSize : Int := 0
  /-- Whether a connection to the backend is attached. -/
  dconn : Bool := false
  /-- What was added to the output buffer of that connection. -/
  output : Bytes := []
  /-- Status codes of the RST_STREAMs submitted for the stream. -/
  rstStream : List Nat := []
  deriving DecidableEq, Repr

namespace Downstream

def setRequestMethod (d : Downstream) (method : Bytes) : Downstream := { d with requestMethod := method }

def setRequestPath (d : Downstream) (path : Bytes) : Downstream := { d with requestPath := path }

/-- Unlike `set_last_request_header_value` it looks neither for a transfer coding nor for an
expectation. -/
def addRequestHeader (d : Downstream) (name value : Bytes) : Downstream :=
  { d with requestHeaderKeyPrev := true, requestHeaders := d.requestHeaders ++ [(name,value)] }

def setRequestState (d : Downstream) (state : RequestState) : Downstream := { d with requestState := state }

def createViaHeaderValue (major minor : Nat) : Bytes :=
  [UInt8.ofNat (major+48)] ++ str "." ++ [UInt8.ofNat (minor+48)] ++ str " shrpx"

/-- The text of the head so far, and the values that the loop keeps for later. -/
structure Head where
  hdrs : Bytes
  viaValue : Bytes := []
  xffValue : Bytes := []
  deriving DecidableEq, Repr

def headStep (a : Head) (i : Bytes × Bytes) : Head :=
  if strieq i.1 (str "X-Forwarded-Proto") || strieq i.1 (str "keep-alive") || strieq i.1 (str "connection") ||
      strieq i.1 (str "proxy-connection") then a
  else if strieq i.1 (str "via") then { a with viaValue := i.2 }
  else if strieq i.1 (str "x-forwarded-for") then { a with xffValue := i.2 }
  else if strieq i.1 (str "expect") && strifind i.2 (str "100-continue") then a
  else { a with hdrs := a.hdrs ++ i.1 ++ str ": " ++ i.2 ++ str "\r\n" }

def requestHead (config : Config) (ipaddr : Bytes) (d : Downstream) : Bytes :=
  let a := d.requestHeaders.foldl headStep
    { hdrs := d.requestMethod ++ str " " ++ d.requestPath ++ str " " ++ str "HTTP/1.1\r\n" }
  let hdrs := if d.requestConnectionClose then a.hdrs ++ str "Connection: close\r\n" else a.hdrs
  let hdrs :=
    if config.addXForwardedFor then
      hdrs ++ str "X-Forwarded-For: " ++ (if a.xffValue ≠ [] then a.xffValue ++ str ", " else []) ++ ipaddr ++
        str "\r\n"
    else if a.xffValue ≠ [] then hdrs ++ str "X-Forwarded-For: " ++ a.xffValue ++ str "\r\n"
    else hdrs
  let hdrs :=
    if d.requestMethod ≠ str "CONNECT" then
      hdrs ++ str "X-Forwarded-Proto: " ++ (if istartsWith d.requestPath (str "http:") then str "http" else str "https") ++
        str "\r\n"
    else hdrs
  hdrs ++ str "Via: " ++ a.viaValue ++ (if a.viaValue ≠ [] then str ", " else []) ++
    createViaHeaderValue d.requestMajor d.requestMinor ++ str "\r\n" ++ str "\r\n"

def pushRequestHeaders (config : Config) (ipaddr : Bytes) (d : Downstream) : Downstream :=
  { d with output := d.output ++ requestHead config ipaddr d }

/-- A size as `%X` prints an unsigned int. -/
def chunkSizeHex (datalen : Nat) : Bytes :=
  (Nat.toDigits 16 (datalen % 4294967296)).map (fun c => UInt8.ofNat c.toUpper.toNat) ++ str "\r\n"

/-- What is returned counts the framing of a chunk and not its data. -/
def pushUploadDataChunk (d : Downstream) (data : Bytes) : Downstream × Int :=
  if d.dconn then
    if d.chunkedRequest then
      let hex := chunkSizeHex data.length
      ({ d with output := d.output ++ hex ++ data ++ str "\r\n" },hex.length+2)
    else ({ d with output := d.output ++ data },0)
  else (d,0)

def incRecvWindowSize (d : Downstream) (amount : Int) : Downstream :=
  { d with recvWindowSize := d.recvWindowSize+amount }

def setRecvWindowSize (d : Downstream) (size : Int) : Downstream := { d with recvWindowSize := size }

def submitRstStream (d : Downstream) (statusCode : Nat) : Downstream :=
  { d with rstStream := d.rstStream ++ [statusCode] }

end Downstream

/-! Callbacks of the session with the client. -/

structure SpdyUpstream where
  flowControl : Bool
  initialWindowSize : Int
  deriving DecidableEq, Repr

/-- What the scan of a header list has found. -/
structure Scan where
  path : Option Bytes := none
  scheme : Option Bytes := none
  host : Option Bytes := none
  method : Option Bytes := none
  downstream : Downstream := {}
  deriving DecidableEq, Repr

def scanStep (s : Scan) (i : Bytes × Bytes) : Scan :=
  if i.1 = str ":path" then { s with path := some i.2 }
  else if i.1 = str ":scheme" then { s with scheme := some i.2 }
  else if i.1 = str ":method" then
    { s with method := some i.2, downstream := s.downstream.setRequestMethod i.2 }
  else if i.1 = str ":host" then { s with host := some i.2 }
  else if i.1.head? ≠ some 58 then { s with downstream := s.downstream.addRequestHeader i.1 i.2 }
  else s

/-- The path that the request line gets. -/
def requestPath (config : Config) (scheme : Option Bytes) (host path : Bytes) : Bytes :=
  match scheme with
  | some scheme =>
    if config.spdyProxy ∧ path.head? = some 47 then scheme ++ str "://" ++ host ++ path else path
  | none => path

/-- The request of a SYN_STREAM, given what attaching a connection returned. -/
def onCtrlRecvCallback (config : Config) (ipaddr : Bytes) (attachDownstream : Int) (fin : Bool) (nv : Nv) : Downstream :=
  let s := nv.foldl scanStep {}
  match s.path, s.host, s.method with
  | some path, some host, some _ =>
    let d := s.downstream.setRequestPath (requestPath config s.scheme host path)
    let d := d.addRequestHeader (str "host") host
    let d := if config.spdyProxy then d else d.addRequestHeader (str "X-Forwarded-Spdy") (str "true")
    if attachDownstream ≠ 0 then (d.submitRstStream internalError).setRequestState .connectFail
    else
      let d := Downstream.pushRequestHeaders config ipaddr { d with dconn := true }
      let d := d.setRequestState .headerComplete
      if fin then d.setRequestState .msgComplete else d
  | _, _, _ => s.downstream.submitRstStream internalError

def onDataChunkRecvCallback (upstream : SpdyUpstream) (d : Downstream) (fin : Bool) (data : Bytes) : Downstream :=
  let r := d.pushUploadDataChunk data
  if r.2 ≠ 0 then r.1.submitRstStream internalError
  else
    let d := if upstream.flowControl then r.1.incRecvWindowSize data.length else r.1
    if upstream.flowControl ∧ upstream.initialWindowSize < d.recvWindowSize then d.submitRstStream flowControlError
    else if fin then d.setRequestState .msgComplete
    else d

inductive Event
  | dataChunk (fin : Bool) (data : Bytes)
  | windowUpdate
  deriving DecidableEq, Repr

def handle (upstream : SpdyUpstream) (d : Downstream) : Event → Downstream
  | .dataChunk fin data => onDataChunkRecvCallback upstream d fin data
  | .windowUpdate => d.setRecvWindowSize 0

def run (upstream : SpdyUpstream) (d : Downstream) (events : List Event) : Downstream :=
  events.foldl (handle upstream) d

/-! The bytes of the body. -/

def Event.data : Event → Bytes
  | .dataChunk _ data => data
  | .windowUpdate => []

@[simp] theorem output_setRequestState (d : Downstream) (state : RequestState) :
    (d.setRequestState state).output = d.output := rfl

/-- Data goes to the backend as it is. -/
def Raw (d : Downstream) : Prop := d.dconn = true ∧ d.chunkedRequest = false

theorem Raw.pushUploadDataChunk {d : Downstream} (h : Raw d) (data : Bytes) :
    d.pushUploadDataChunk data = ({ d with output := d.output ++ data },0) := by
  rw [Downstream.pushUploadDataChunk,if_pos h.1,if_neg (ne_true_of_eq_false h.2)]

theorem Raw.onDataChunkRecvCallback {d : Downstream} (h : Raw d) (upstream : SpdyUpstream) (fin : Bool)
    (data : Bytes) : Raw (onDataChunkRecvCallback upstream d fin data) ∧
      (Shrpx.onDataChunkRecvCallback upstream d fin data).output = d.output ++ data := by
  rw [Shrpx.onDataChunkRecvCallback,h.pushUploadDataChunk]
  dsimp only
  rw [if_neg (not_not.mpr rfl)]
  split_ifs <;> exact ⟨h,rfl⟩

theorem Raw.handle {d : Downstream} (h : Raw d) (upstream : SpdyUpstream) (e : Event) :
    Raw (handle upstream d e) ∧ (Shrpx.handle upstream d e).output = d.output ++ e.data := by
  cases e with
  | dataChunk fin data => exact h.onDataChunkRecvCallback upstream fin data
  | windowUpdate => exact ⟨h,(List.append_nil _).symm⟩

theorem Raw.run_output {d : Downstream} (h : Raw d) (upstream : SpdyUpstream) (events : List Event) :
    (run upstream d events).output = d.output ++ events.flatMap Event.data := by
  induction events generalizing d with
  | nil => exact (List.append_nil _).symm
  | cons e events ih =>
    obtain ⟨hraw,hout⟩ := h.handle upstream e
    rw [run,List.foldl_cons,← run,ih hraw,hout,List.flatMap_cons,List.append_assoc]

end Shrpx
end Spdylay
