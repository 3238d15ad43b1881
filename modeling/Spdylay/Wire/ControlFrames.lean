import Spdylay.Wire.NameValueBlock

/-! Control frames: their fields, constructors, wire form and parsers. The type
number of a header is the constructor of `Frame`. -/
namespace Spdylay

structure CtrlHd where
  version : Nat
  flags : Nat
  length : Nat
  deriving DecidableEq, Repr

structure SynStream where
  hd : CtrlHd
  streamId : Int
  assocStreamId : Int
  pri : Nat
  slot : Nat
  nv : Nv
  deriving DecidableEq, Repr

/-- SYN_REPLY and HEADERS have the same fields. -/
structure StreamHeaders where
  hd : CtrlHd
  streamId : Int
  nv : Nv
  deriving DecidableEq, Repr

structure RstStream where
  hd : CtrlHd
  streamId : Int
  statusCode : Nat
  deriving DecidableEq, Repr

structure SettingsEntry where
  settingsId : Nat
  flags : Nat
  value : Nat
  deriving DecidableEq, Repr

structure Settings where
  hd : CtrlHd
  iv : List SettingsEntry
  deriving DecidableEq, Repr

structure Ping where
  hd : CtrlHd
  uniqueId : Nat
  deriving DecidableEq, Repr

structure Goaway where
  hd : CtrlHd
  lastGoodStreamId : Int
  statusCode : Nat
  deriving DecidableEq, Repr

structure WindowUpdate where
  hd : CtrlHd
  streamId : Int
  deltaWindowSize : Int
  deriving DecidableEq, Repr

structure Credential where
  hd : CtrlHd
  slot : Nat
  proof : Bytes
  certs : List Bytes
  deriving DecidableEq, Repr

inductive Frame
  | synStream (f : SynStream)
  | synReply (f : StreamHeaders)
  | rstStream (f : RstStream)
  | settings (f : Settings)
  | ping (f : Ping)
  | goaway (f : Goaway)
  | headers (f : StreamHeaders)
  | windowUpdate (f : WindowUpdate)
  | credential (f : Credential)
  deriving DecidableEq, Repr

def flagFin (flags : Nat) : Bool := flags.testBit 0

def flagUnidirectional (flags : Nat) : Bool := flags.testBit 1

/-! Frames of the local side. -/

def frameSynStreamInit (version flags : Nat) (streamId assocStreamId : Int) (pri : Nat) (nv : Nv) : SynStream :=
  ⟨⟨version,flags,0⟩,streamId,assocStreamId,pri,0,nv⟩

def frameSynReplyInit (version flags : Nat) (streamId : Int) (nv : Nv) : StreamHeaders :=
  ⟨⟨version,flags,0⟩,streamId,nv⟩

def frameHeadersInit (version flags : Nat) (streamId : Int) (nv : Nv) : StreamHeaders :=
  ⟨⟨version,flags,0⟩,streamId,nv⟩

def framePingInit (version uniqueId : Nat) : Ping := ⟨⟨version,0,4⟩,uniqueId⟩

def frameGoawayInit (version : Nat) (lastGoodStreamId : Int) (statusCode : Nat) : Goaway :=
  if version = 2 then ⟨⟨version,0,4⟩,lastGoodStreamId,0⟩
  else if version = 3 then ⟨⟨version,0,8⟩,lastGoodStreamId,statusCode⟩
  else ⟨⟨version,0,0⟩,lastGoodStreamId,0⟩

def frameRstStreamInit (version : Nat) (streamId : Int) (statusCode : Nat) : RstStream :=
  ⟨⟨version,0,8⟩,streamId,statusCode⟩

def frameWindowUpdateInit (version : Nat) (streamId deltaWindowSize : Int) : WindowUpdate :=
  ⟨⟨version,0,8⟩,streamId,deltaWindowSize⟩

def frameSettingsInit (version flags : Nat) (iv : List SettingsEntry) : Settings :=
  ⟨⟨version,flags,4+iv.length*8⟩,iv⟩

def frameCredentialInit (version slot : Nat) (proof : Bytes) (certs : List Bytes) : Credential :=
  ⟨⟨version,0,2+4+proof.length+(certs.map (fun c => 4+c.length)).sum⟩,slot,proof,certs⟩

/-! Packing. The flags replace the top byte of the length word. -/

def framePackCtrlHd (type : FrameType) (hd : CtrlHd) : Bytes :=
  putUint16be (hd.version ||| 32768) ++ putUint16be type.num ++
    UInt8.ofNat hd.flags :: (putUint32be hd.length).tail

def framePackSynStream (f : SynStream) (block : Bytes) : Bytes :=
  framePackCtrlHd .synStream {f.hd with length := synStreamNvOffset-headLen+block.length} ++
    putUint32be (toUint32 f.streamId) ++ putUint32be (toUint32 f.assocStreamId) ++
    [UInt8.ofNat (f.pri*64),if f.hd.version = 3 then UInt8.ofNat f.slot else 0] ++ block

def framePackStreamHeaders (type : FrameType) (nvOffset : Nat) (f : StreamHeaders) (block : Bytes) : Bytes :=
  framePackCtrlHd type {f.hd with length := nvOffset-headLen+block.length} ++
    putUint32be (toUint32 f.streamId) ++ List.replicate (nvOffset-12) 0 ++ block

def framePackPing (f : Ping) : Bytes := framePackCtrlHd .ping f.hd ++ putUint32be f.uniqueId

def framePackGoaway (f : Goaway) : Except Err Bytes :=
  if f.hd.version = 2 then
    .ok (framePackCtrlHd .goaway f.hd ++ putUint32be (toUint32 f.lastGoodStreamId))
  else if f.hd.version = 3 then
    .ok (framePackCtrlHd .goaway f.hd ++ putUint32be (toUint32 f.lastGoodStreamId) ++ putUint32be f.statusCode)
  else .error .unsupportedVersion

def framePackRstStream (f : RstStream) : Bytes :=
  framePackCtrlHd .rstStream f.hd ++ putUint32be (toUint32 f.streamId) ++ putUint32be f.statusCode

def framePackWindowUpdate (f : WindowUpdate) : Bytes :=
  framePackCtrlHd .windowUpdate f.hd ++ putUint32be (toUint32 f.streamId) ++
    putUint32be (toUint32 f.deltaWindowSize)

/-- SPDY/2 peers expect the id in little endian order before the flags. -/
def packSettingsEntry (version : Nat) (e : SettingsEntry) : Bytes :=
  if version = 2 then
    [UInt8.ofNat e.settingsId,UInt8.ofNat (e.settingsId/256),UInt8.ofNat (e.settingsId/65536),
      UInt8.ofNat e.flags] ++ putUint32be e.value
  else UInt8.ofNat e.flags :: (putUint32be e.settingsId).tail ++ putUint32be e.value

def framePackSettings (f : Settings) : Except Err Bytes :=
  if f.hd.version = 2 ∨ f.hd.version = 3 then
    .ok (framePackCtrlHd .settings f.hd ++ putUint32be f.iv.length ++
      f.iv.flatMap (packSettingsEntry f.hd.version))
  else .error .unsupportedVersion

def framePackCredential (f : Credential) : Bytes :=
  framePackCtrlHd .credential f.hd ++ putUint16be f.slot ++
    putUint32be f.proof.length ++ f.proof ++
    f.certs.flatMap (fun c => putUint32be c.length ++ c)

/-! Parsing. `payload` is the memory the payload was copied to and `payloadlen`
the length the caller states. -/

def frameUnpackCtrlHd (head : Bytes) : CtrlHd :=
  ⟨getUint16 head % 32768,(head.getD 4 0).toNat,getUint32 (head.drop 4) % 16777216⟩

def frameIsCtrlFrame (firstByte : UInt8) : Bool := 128 ≤ firstByte

def getStreamId (data : Bytes) : Int := (getUint32 data % streamIdMask : Nat)

def frameUnpackSynStreamWithoutNv (head payload : Bytes) (payloadlen : Nat) : SynStream × Option Err :=
  let hd := frameUnpackCtrlHd head
  if headLen+payloadlen ≠ synStreamNvOffset then (⟨hd,0,0,0,0,[]⟩,some .invalidFrame)
  else
    (⟨hd,getStreamId payload,getStreamId (payload.drop 4),(payload.getD 8 0).toNat/64,
      if hd.version = 3 then (payload.getD 9 0).toNat else 0,[]⟩,none)

def frameUnpackSynStream (qsort : Qsort) (m : Mem) (head payload : Bytes) (payloadlen : Nat)
    (inflated : Bytes) : Mem × SynStream × Option Err :=
  let r := frameUnpackSynStreamWithoutNv head payload payloadlen
  let lenSize := frameGetLenSize r.1.hd.version
  if lenSize = 0 then (m,r.1,some .unsupportedVersion)
  else
    match r.2 with
    | some e => (m,r.1,some e)
    | none =>
      let u := frameUnpackNv qsort m inflated lenSize
      (u.1,{r.1 with nv := u.2.1},u.2.2)

/-- The common parser of SYN_REPLY and HEADERS, which asserts that the version
of the frame has a known offset. -/
def unpackStreamHeadersWithoutNv (type : FrameType) (head payload : Bytes) (payloadlen : Nat) :
    StreamHeaders × Option Err :=
  let hd := frameUnpackCtrlHd head
  match frameNvOffset type hd.version with
  | none => (⟨hd,0,[]⟩,some (.assertion .nvOffset))
  | some nvOffset =>
    if headLen+payloadlen ≠ nvOffset then (⟨hd,0,[]⟩,some .invalidFrame)
    else (⟨hd,getStreamId payload,[]⟩,none)

def frameUnpackSynReplyWithoutNv := unpackStreamHeadersWithoutNv .synReply

def frameUnpackHeadersWithoutNv := unpackStreamHeadersWithoutNv .headers

def unpackStreamHeaders (type : FrameType) (qsort : Qsort) (m : Mem) (head payload : Bytes)
    (payloadlen : Nat) (inflated : Bytes) : Mem × StreamHeaders × Option Err :=
  let r := unpackStreamHeadersWithoutNv type head payload payloadlen
  match r.2 with
  | some e => (m,r.1,some e)
  | none =>
    let lenSize := frameGetLenSize r.1.hd.version
    if lenSize = 0 then (m,r.1,some .unsupportedVersion)
    else
      let u := frameUnpackNv qsort m inflated lenSize
      (u.1,{r.1 with nv := u.2.1},u.2.2)

def frameUnpackSynReply := unpackStreamHeaders .synReply

def frameUnpackHeaders := unpackStreamHeaders .headers

def frameUnpackPing (head payload : Bytes) (payloadlen : Nat) : Except Err Ping :=
  if payloadlen ≠ 4 then .error .invalidFrame else .ok ⟨frameUnpackCtrlHd head,getUint32 payload⟩

def frameUnpackGoaway (head payload : Bytes) (payloadlen : Nat) : Except Err Goaway :=
  let hd := frameUnpackCtrlHd head
  if hd.version = 2 then
    if payloadlen ≠ 4 then .error .invalidFrame else .ok ⟨hd,getStreamId payload,0⟩
  else if hd.version = 3 then
    if payloadlen ≠ 8 then .error .invalidFrame
    else .ok ⟨hd,getStreamId payload,getUint32 (payload.drop 4)⟩
  else .error .unsupportedVersion

def frameUnpackRstStream (head payload : Bytes) (payloadlen : Nat) : Except Err RstStream :=
  if payloadlen ≠ 8 then .error .invalidFrame
  else .ok ⟨frameUnpackCtrlHd head,getStreamId payload,getUint32 (payload.drop 4)⟩

def frameUnpackWindowUpdate (head payload : Bytes) (payloadlen : Nat) : Except Err WindowUpdate :=
  if payloadlen ≠ 8 then .error .invalidFrame
  else .ok ⟨frameUnpackCtrlHd head,getStreamId payload,getStreamId (payload.drop 4)⟩

def unpackSettingsEntry (version : Nat) (p : Bytes) : SettingsEntry :=
  if version = 2 then
    ⟨(p.getD 0 0).toNat+(p.getD 1 0).toNat*256+(p.getD 2 0).toNat*65536,(p.getD 3 0).toNat,
      getUint32 (p.drop 4)⟩
  else ⟨getUint32 p % 16777216,(p.getD 0 0).toNat,getUint32 (p.drop 4)⟩

/-- The entry count is checked against the payload length before the entries
are allocated and read. -/
def frameUnpackSettings (m : Mem) (head payload : Bytes) (payloadlen : Nat) : Mem × Except Err Settings :=
  let hd := frameUnpackCtrlHd head
  if payloadlen < 4 then (m,.error .invalidFrame)
  else if hd.version ≠ 2 ∧ hd.version ≠ 3 then (m,.error .unsupportedVersion)
  else
    let niv := getUint32 payload
    if payloadlen ≠ 4+niv*8 then (m,.error .invalidFrame)
    else if m.headD true then
      (m.tail,.ok ⟨hd,(List.range niv).map (fun i => unpackSettingsEntry hd.version (payload.drop (4+i*8)))⟩)
    else (m.tail,.error .nomem)

/-- Certificates from `offset` on; `fuel` bounds their number, each one taking at
least four bytes. -/
def countUnpackCertLoop (payload : Bytes) (payloadlen : Nat) : Nat → Nat → Except Err (List Bytes)
  | 0, _ => .error .invalidFrame
  | fuel+1, offset =>
    if payloadlen < offset+4 then .error .invalidFrame
    else
      let len := getUint32 (payload.drop offset)
      if payloadlen < len ∨ payloadlen < offset+4+len then .error .invalidFrame
      else
        let cert := (payload.drop (offset+4)).take len
        if offset+4+len = payloadlen then .ok [cert]
        else
          match countUnpackCertLoop payload payloadlen fuel (offset+4+len) with
          | .ok rest => .ok (cert :: rest)
          | .error e => .error e

/-- Allocation of an array and of each of its `n` elements; the elements already
allocated are freed again at the first failure. -/
def mallocEach : Nat → Mem → Mem × Bool
  | 0, m => (m,true)
  | n+1, m => if m.headD true then mallocEach n m.tail else (m.tail,false)

def frameUnpackCredential (m : Mem) (head payload : Bytes) (payloadlen : Nat) : Mem × Except Err Credential :=
  if payloadlen < 10 then (m,.error .invalidFrame)
  else
    let prooflen := getUint32 (payload.drop 2)
    if payloadlen < prooflen ∨ payloadlen < 6+prooflen then (m,.error .invalidFrame)
    else if m.headD true then
      let offset := 6+prooflen
      match countUnpackCertLoop (payload.drop offset) (payloadlen-offset) payloadlen 0 with
      | .error e => (m.tail,.error e)
      | .ok certs =>
        let r := mallocEach (certs.length+1) m.tail
        if r.2 then
          (r.1,.ok ⟨frameUnpackCtrlHd head,getUint16 payload,(payload.drop 6).take prooflen,certs⟩)
        else (r.1,.error .nomem)
    else (m.tail,.error .nomem)

end Spdylay
