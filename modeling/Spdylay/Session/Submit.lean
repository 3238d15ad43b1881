import Spdylay.Session.Queueing

/-! The submission functions of the application interface. -/
namespace Spdylay.Session

/-- The flags a SYN_STREAM keeps. -/
def keepFlags (flags : Nat) : Nat := (if flagFin flags then 1 else 0)+(if flagUnidirectional flags then 2 else 0)

/-- The flags every other frame keeps. -/
def keepFin (flags : Nat) : Nat := if flagFin flags then 1 else 0

/-- Allocations in a row, stopping at the first failure. -/
def mallocs : Nat → Session → Session × Bool
  | 0, s => (s,true)
  | n+1, s => if s.mallocOk then mallocs n s.malloc else (s.malloc,false)

def submitSynStreamShared (P : Platform) (s : Session) (flags : Nat) (assocStreamId : Int) (pri : Nat)
    (nv : List Bytes) (dataPrd : Option DataProvider) : Session × Option Err :=
  if s.getPriLowest < pri then (s,some .invalidArgument)
  else if assocStreamId ≠ 0 ∧ s.server ∧ s.isMyStreamId assocStreamId then (s,some .invalidArgument)
  else if !frameNvCheckNull nv then (s,some .invalidArgument)
  else
    let assoc := if s.server then assocStreamId else 0
    -- copies of the provider if there is one, of the auxiliary data, the frame and the list
    let r := mallocs (if dataPrd.isSome then 4 else 3) s
    if r.2 then
      r.1.addFrame (.ctrl (.synStream (frameSynStreamInit s.version.num (keepFlags flags) 0 assoc pri
        (frameNvNormCopy P.qsort nv)))) dataPrd
    else (r.1,some .nomem)

def submitSynStream (P : Platform) (s : Session) (flags : Nat) (assocStreamId : Int) (pri : Nat)
    (nv : List Bytes) : Session × Option Err :=
  submitSynStreamShared P s flags assocStreamId pri nv none

def submitServerPush (P : Platform) (s : Session) (assocStreamId : Int) (nv : List Bytes)
    (dataPrd : Option DataProvider) : Session × Option Err :=
  submitSynStreamShared P s 2 assocStreamId 3 nv dataPrd

def submitRequest (P : Platform) (s : Session) (pri : Nat) (nv : List Bytes) (dataPrd : Option DataProvider) :
    Session × Option Err :=
  submitSynStreamShared P s (if dataPrd.isNone then 1 else 0) 0 pri nv dataPrd

def submitSynReply (P : Platform) (s : Session) (flags : Nat) (streamId : Int) (nv : List Bytes) :
    Session × Option Err :=
  if !frameNvCheckNull nv then (s,some .invalidArgument)
  else
    let r := mallocs 2 s
    if r.2 then
      r.1.addFrame (.ctrl (.synReply (frameSynReplyInit s.version.num (keepFin flags) streamId
        (frameNvNormCopy P.qsort nv)))) none
    else (r.1,some .nomem)

def submitHeaders (P : Platform) (s : Session) (flags : Nat) (streamId : Int) (nv : List Bytes) :
    Session × Option Err :=
  if !frameNvCheckNull nv then (s,some .invalidArgument)
  else
    let r := mallocs 2 s
    if r.2 then
      r.1.addFrame (.ctrl (.headers (frameHeadersInit s.version.num (keepFin flags) streamId
        (frameNvNormCopy P.qsort nv)))) none
    else (r.1,some .nomem)

def submitResponse (P : Platform) (s : Session) (streamId : Int) (nv : List Bytes)
    (dataPrd : Option DataProvider) : Session × Option Err :=
  if !frameNvCheckNull nv then (s,some .invalidArgument)
  else
    let r := mallocs (if dataPrd.isSome then 3 else 2) s
    if r.2 then
      r.1.addFrame (.ctrl (.synReply (frameSynReplyInit s.version.num (if dataPrd.isNone then 1 else 0) streamId
        (frameNvNormCopy P.qsort nv)))) dataPrd
    else (r.1,some .nomem)

def submitData (s : Session) (streamId : Int) (flags : Nat) (dataPrd : DataProvider) : Session × Option Err :=
  if s.mallocOk then s.malloc.addFrame (.data ⟨streamId,keepFin flags,false,dataPrd⟩) none
  else (s.malloc,some .nomem)

/-- Unique ids of PINGs wrap to the first id of the role. -/
def getNextUniqueId (s : Session) : Session × Nat :=
  let id := if maxUniqueId < s.nextUniqueId then (if s.server then 2 else 1) else s.nextUniqueId
  ({s with nextUniqueId := id+2},id)

def submitPing (s : Session) : Session × Option Err :=
  let r := s.getNextUniqueId
  r.1.addPing r.2

def submitRstStream (s : Session) (streamId : Int) (statusCode : Nat) : Session × Option Err :=
  s.addRstStream streamId statusCode

def submitGoaway (s : Session) (statusCode : Nat) : Session × Option Err :=
  s.addGoaway s.lastRecvStreamId statusCode

def failSession (s : Session) (statusCode : Nat) : Session × Option Err :=
  ({s with goawayFailOnSend := true}).submitGoaway statusCode

/-- Every id is known and none is repeated. -/
def settingsUnique : List SettingsEntry → Bool
  | [] => true
  | e :: rest => 0 < e.settingsId && e.settingsId ≤ settingsMax &&
      rest.all (fun e' => e'.settingsId ≠ e.settingsId) && settingsUnique rest

def updateLocalSettings (s : Session) (iv : List SettingsEntry) : Session :=
  {s with localSettings := iv.foldl (fun f e => Function.update f e.settingsId e.value) s.localSettings}

def frameIvSort (P : Platform) (iv : List SettingsEntry) : List SettingsEntry :=
  P.qsort SettingsEntry (fun l r => (l.settingsId : Int)-r.settingsId) iv

def submitSettings (P : Platform) (s : Session) (flags : Nat) (iv : List SettingsEntry) : Session × Option Err :=
  if !settingsUnique iv then (s,some .invalidArgument)
  else
    let r := mallocs 2 s
    if r.2 then
      let ivCopy := frameIvSort P iv
      let a := r.1.addFrame (.ctrl (.settings (frameSettingsInit s.version.num flags ivCopy))) none
      match a.2 with
      | none => (a.1.updateLocalSettings ivCopy,none)
      | some e => (a.1,some e)
    else (r.1,some .nomem)

def submitWindowUpdate (s : Session) (streamId deltaWindowSize : Int) : Session × Option Err :=
  if deltaWindowSize ≤ 0 then (s,some .invalidArgument)
  else
    match s.getStream streamId with
    | some _ =>
      (s.modifyStream streamId (fun st => {st with
        recvWindowSize := st.recvWindowSize-min deltaWindowSize st.recvWindowSize})).addWindowUpdate
          streamId deltaWindowSize
    | none => (s,some .streamClosed)

def resumeData (s : Session) (streamId : Int) : Session × Option Err :=
  match s.getStream streamId with
  | some st =>
    match st.deferredData with
    | some item =>
      if st.deferredFlowControl then (s,some .invalidArgument)
      else
        let r := s.pushOb item
        match r.2 with
        | none => (r.1.detachDeferredData streamId,none)
        | some e => (r.1,some e)
    | none => (s,some .invalidArgument)
  | none => (s,some .invalidArgument)

def setNoAutoWindowUpdate (s : Session) (on : Bool) : Session := {s with noAutoWindowUpdate := on}

def setMaxRecvCtrlFrameBuffer (s : Session) (n : Nat) : Session × Option Err :=
  if 8192 ≤ n ∧ n < 16777216 then ({s with maxRecvCtrlFrameBuf := n},none) else (s,some .invalidArgument)

def setInitialClientCertOrigin (s : Session) (scheme host : Bytes) (port : Nat) : Session × Option Err :=
  if maxScheme < (cstr scheme).length ∨ maxHostname < (cstr host).length then (s,some .invalidArgument)
  else if s.server ∨ s.cliCertvec.size = 0 ∨ s.cliCertvec.lastSlot ≠ 0 then (s,some .invalidState)
  else if s.mallocOk then
    ({s.malloc with cliCertvec := (s.cliCertvec.put ⟨cstr scheme,cstr host,port⟩).1},none)
  else (s.malloc,some .nomem)

end Spdylay.Session
