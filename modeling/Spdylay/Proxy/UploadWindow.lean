import Spdylay.Library.CreditLoop
import Spdylay.Proxy.OneRequest

/-! A SPDY/3 client that uploads, the proxy, and the frames between them. The client starts
with the default window and keeps to what it has been told; the proxy counts what it receives
against the window it has announced. Windows have at most 30 bits, so that no count leaves the
range of an int32_t. -/
namespace Spdylay
namespace Shrpx
open Library (CreditLoop)

inductive ClientFrame
  | synStream (streamId : Nat) (fin : Bool) (nv : Nv)
  | data (streamId : Nat) (fin : Bool) (data : Bytes)
  deriving DecidableEq, Repr

inductive ServerFrame
  | settings (initialWindowSize : Int)
  | windowUpdate (streamId : Nat) (deltaWindowSize : Int)
  | rstStream (streamId : Nat) (statusCode : Nat)
  deriving DecidableEq, Repr

/-- Both ends, and the frames on their way in either direction. -/
structure Uploads where
  /-- The client's window for a stream it opens, and those of its streams. -/
  initialWindow : Int
  window : Nat → Option Int
  toServer : List ClientFrame
  toClient : List ServerFrame
  downstream : Nat → Option Downstream
  /-- RST_STREAMs that have reached the client. -/
  resets : List (Nat × Nat)

inductive UploadEvent
  | openStream (streamId : Nat) (fin : Bool) (nv : Nv)
  | sendData (streamId : Nat) (fin : Bool) (data : Bytes)
  /-- The first frame reaches the proxy; without a value the session refuses the stream. -/
  | recvSynStream (attachDownstream : Option Int)
  /-- The next bytes of the first frame do, and the session may ignore them. -/
  | recvData (len : Nat) (ignored : Bool)
  /-- The backend has taken what was written to it; the session may drop the WINDOW_UPDATE. -/
  | backendWrite (streamId : Nat) (dropped : Bool)
  | backendConnection (streamId : Nat) (attached : Bool)
  | rstStream (streamId : Nat)
  | sendRstStream (streamId : Nat) (statusCode : Nat)
  | closeStream (streamId : Nat)
  | clientRecv
  deriving DecidableEq, Repr

def defaultWindow : Int := 65536

/-- SPDYLAY_INBOUND_BUFFER_LENGTH, the most that one chunk of DATA can hold. -/
def inboundBufferLength : Nat := 16384

def SpdyUpstream.spdy3 (windowBits : Nat) : SpdyUpstream := ⟨true,2^windowBits⟩

/-- After the constructor of `SpdyUpstream` has sent its SETTINGS. -/
def Uploads.start (windowBits : Nat) : Uploads where
  initialWindow := defaultWindow
  window := fun _ => none
  toServer := []
  toClient := [.settings (SpdyUpstream.spdy3 windowBits).initialWindowSize]
  downstream := fun _ => none
  resets := []

namespace Uploads

def setDownstream (s : Uploads) (streamId : Nat) (d : Downstream) : Uploads :=
  { s with downstream := Function.update s.downstream streamId (some d) }

/-- The bytes of a DATA frame that one chunk takes from the wire. -/
def consume (s : Uploads) (streamId : Nat) (fin : Bool) (data : Bytes) (rest : List ClientFrame)
    (len : Nat) : Uploads :=
  { s with toServer := if len < data.length then .data streamId fin (data.drop len) :: rest else rest }

def sendWindowUpdate (s : Uploads) (streamId : Nat) (delta : Int) : Uploads :=
  { s with toClient := s.toClient ++ [.windowUpdate streamId delta] }

/-- What a frame changes at the client. -/
def clientRecv (s : Uploads) : ServerFrame → Uploads
  | .settings size =>
    { s with
      initialWindow := size
      window := fun id => (s.window id).map (fun w => w+(size-s.initialWindow)) }
  | .windowUpdate streamId delta =>
    { s with window := Function.update s.window streamId ((s.window streamId).map (fun w => w+delta)) }
  | .rstStream streamId statusCode => { s with resets := s.resets ++ [(streamId,statusCode)] }

def step (config : Config) (ipaddr : Bytes) (upstream : SpdyUpstream) (s : Uploads) : UploadEvent → Option Uploads
  | .openStream streamId fin nv =>
    if s.window streamId = none then
      some { s with
        window := Function.update s.window streamId (some s.initialWindow)
        toServer := s.toServer ++ [.synStream streamId fin nv] }
    else none
  | .sendData streamId fin data =>
    match s.window streamId with
    | some w =>
      if (data.length : Int) ≤ w then
        some { s with
          window := Function.update s.window streamId (some (w-data.length))
          toServer := s.toServer ++ [.data streamId fin data] }
      else none
    | none => none
  | .recvSynStream attachDownstream =>
    match s.toServer with
    | .synStream streamId fin nv :: rest =>
      let s := { s with toServer := rest }
      match attachDownstream with
      | some rv => some (s.setDownstream streamId (onCtrlRecvCallback config ipaddr rv fin nv))
      | none => some s
    | _ => none
  | .recvData len ignored =>
    match s.toServer with
    | .data streamId fin data :: rest =>
      if len ≤ inboundBufferLength then
        let s := s.consume streamId fin data rest len
        match s.downstream streamId with
        | some d =>
          if ignored then some s
          else some (s.setDownstream streamId (onDataChunkRecvCallback upstream d fin (data.take len)))
        | none => some s
      else none
    | _ => none
  | .backendWrite streamId dropped =>
    (s.downstream streamId).map (fun d =>
      if upstream.initialWindowSize/2 ≤ d.recvWindowSize then
        let s := s.setDownstream streamId (d.setRecvWindowSize 0)
        if dropped then s else s.sendWindowUpdate streamId d.recvWindowSize
      else s)
  | .backendConnection streamId attached =>
    (s.downstream streamId).map (fun d => s.setDownstream streamId { d with dconn := attached })
  | .rstStream streamId =>
    (s.downstream streamId).map (fun d => s.setDownstream streamId (d.submitRstStream internalError))
  | .sendRstStream streamId statusCode =>
    match s.downstream streamId with
    | some d =>
      if statusCode ∈ d.rstStream then some { s with toClient := s.toClient ++ [.rstStream streamId statusCode] }
      else none
    | none => none
  | .closeStream streamId => some { s with downstream := Function.update s.downstream streamId none }
  | .clientRecv =>
    match s.toClient with
    | frame :: rest => some ({ s with toClient := rest }.clientRecv frame)
    | [] => none

/-! One stream as a credit loop. -/

def bytesInFlight (streamId : Nat) : List ClientFrame → Int
  | [] => 0
  | .synStream _ _ _ :: rest => bytesInFlight streamId rest
  | .data id _ data :: rest => (if streamId = id then (data.length : Int) else 0)+bytesInFlight streamId rest

/-- SETTINGS grant the difference to the value before. -/
def creditInFlight (streamId : Nat) : Int → List ServerFrame → Int
  | _, [] => 0
  | w, .settings size :: rest => size-w+creditInFlight streamId size rest
  | w, .windowUpdate id delta :: rest => (if streamId = id then delta else 0)+creditInFlight streamId w rest
  | w, .rstStream _ _ :: rest => creditInFlight streamId w rest

/-- No frame takes credit away. -/
def Grants : Int → List ServerFrame → Prop
  | _, [] => True
  | w, .settings size :: rest => w ≤ size ∧ Grants size rest
  | w, .windowUpdate _ delta :: rest => 0 ≤ delta ∧ Grants w rest
  | w, .rstStream _ _ :: rest => Grants w rest

def recvWindow (s : Uploads) (streamId : Nat) : Int := ((s.downstream streamId).map Downstream.recvWindowSize).getD 0

def loop (s : Uploads) (streamId : Nat) : CreditLoop where
  window := (s.window streamId).getD s.initialWindow
  inFlight := bytesInFlight streamId s.toServer
  counted := s.recvWindow streamId
  granted := creditInFlight streamId s.initialWindow s.toClient

theorem bytesInFlight_append (streamId : Nat) (a b : List ClientFrame) :
    bytesInFlight streamId (a ++ b) = bytesInFlight streamId a+bytesInFlight streamId b := by
  induction a with
  | nil => exact (zero_add _).symm
  | cons frame a ih =>
    cases frame with
    | synStream id fin nv => exact ih
    | data id fin data =>
      rw [List.cons_append,bytesInFlight,bytesInFlight,ih,add_assoc]

theorem bytesInFlight_nonneg (streamId : Nat) (frames : List ClientFrame) : 0 ≤ bytesInFlight streamId frames := by
  induction frames with
  | nil => exact le_rfl
  | cons frame frames ih =>
    cases frame with
    | synStream id fin nv => exact ih
    | data id fin data =>
      rw [bytesInFlight]
      split <;> omega

theorem Grants.creditInFlight_nonneg {w : Int} {frames : List ServerFrame} (h : Grants w frames) (streamId : Nat) :
    0 ≤ creditInFlight streamId w frames := by
  induction frames generalizing w with
  | nil => exact le_rfl
  | cons frame frames ih =>
    cases frame with
    | settings size =>
      have := ih h.2
      have := h.1
      rw [creditInFlight]
      omega
    | windowUpdate id delta =>
      have := ih h.2
      have := h.1
      rw [creditInFlight]
      split <;> omega
    | rstStream id statusCode => exact ih h

theorem creditInFlight_windowUpdate (streamId id : Nat) (w delta : Int) (frames : List ServerFrame) :
    creditInFlight streamId w (frames ++ [.windowUpdate id delta]) =
      creditInFlight streamId w frames+(if streamId = id then delta else 0) := by
  induction frames generalizing w with
  | nil => exact add_comm _ _
  | cons frame frames ih =>
    cases frame <;> simp only [List.cons_append,creditInFlight,ih,add_assoc]

theorem creditInFlight_rstStream (streamId id statusCode : Nat) (w : Int) (frames : List ServerFrame) :
    creditInFlight streamId w (frames ++ [.rstStream id statusCode]) = creditInFlight streamId w frames := by
  induction frames generalizing w with
  | nil => rfl
  | cons frame frames ih => cases frame <;> simp only [List.cons_append,creditInFlight,ih]

theorem Grants.append_windowUpdate {w delta : Int} {frames : List ServerFrame} (h : Grants w frames) (h0 : 0 ≤ delta)
    (id : Nat) : Grants w (frames ++ [.windowUpdate id delta]) := by
  induction frames generalizing w with
  | nil => exact ⟨h0,trivial⟩
  | cons frame frames ih =>
    cases frame with
    | settings size => exact ⟨h.1,ih h.2⟩
    | windowUpdate id delta => exact ⟨h.1,ih h.2⟩
    | rstStream id statusCode => exact ih (w := w) h

theorem Grants.append_rstStream {w : Int} {frames : List ServerFrame} (h : Grants w frames) (id statusCode : Nat) :
    Grants w (frames ++ [.rstStream id statusCode]) := by
  induction frames generalizing w with
  | nil => trivial
  | cons frame frames ih =>
    cases frame with
    | settings size => exact ⟨h.1,ih h.2⟩
    | windowUpdate id delta => exact ⟨h.1,ih h.2⟩
    | rstStream id statusCode => exact ih (w := w) h

end Uploads

/-! What the callbacks do to the count. -/

theorem onCtrlRecvCallback_fresh (config : Config) (ipaddr : Bytes) (rv : Int) (fin : Bool) (nv : Nv) :
    (onCtrlRecvCallback config ipaddr rv fin nv).recvWindowSize = 0 ∧
      flowControlError ∉ (onCtrlRecvCallback config ipaddr rv fin nv).rstStream := by
  have hne : flowControlError ∉ [internalError] := by decide
  rw [onCtrlRecvCallback,scan_downstream]
  dsimp only
  split
  · split_ifs <;> first | exact ⟨rfl,hne⟩ | exact ⟨rfl,List.not_mem_nil⟩
  · exact ⟨rfl,hne⟩

/-- The data is counted unless it could not be passed on, and the stream is reset for it only
above the announced window. -/
theorem onDataChunkRecvCallback_window {upstream : SpdyUpstream} (hflow : upstream.flowControl = true) (d : Downstream)
    (fin : Bool) (data : Bytes) :
    let d' := onDataChunkRecvCallback upstream d fin data
    (¬Raw d ∧ d'.recvWindowSize = d.recvWindowSize ∧ d'.rstStream = d.rstStream ++ [internalError]) ∨
      (d'.recvWindowSize = d.recvWindowSize+data.length ∧
        (d'.rstStream = d.rstStream ∧ d'.recvWindowSize ≤ upstream.initialWindowSize ∨
          d'.rstStream = d.rstStream ++ [flowControlError] ∧ upstream.initialWindowSize < d'.recvWindowSize)) := by
  have hrecv : (d.pushUploadDataChunk data).1.recvWindowSize = d.recvWindowSize := by
    rw [Downstream.pushUploadDataChunk]
    split_ifs <;> rfl
  have hrst : (d.pushUploadDataChunk data).1.rstStream = d.rstStream := by
    rw [Downstream.pushUploadDataChunk]
    split_ifs <;> rfl
  have hcount : ((d.pushUploadDataChunk data).1.incRecvWindowSize data.length).recvWindowSize =
      d.recvWindowSize+data.length := congrArg (fun n => n+(data.length : Int)) hrecv
  rw [onDataChunkRecvCallback,if_pos hflow]
  dsimp only
  by_cases hrv : (d.pushUploadDataChunk data).2 = 0
  · rw [if_neg (not_not.mpr hrv)]
    right
    by_cases hover : upstream.initialWindowSize < d.recvWindowSize+data.length
    · rw [if_pos ⟨hflow,hcount.symm ▸ hover⟩]
      exact ⟨hcount,.inr ⟨congrArg (fun l => l ++ [flowControlError]) hrst,hcount.symm ▸ hover⟩⟩
    · rw [if_neg (fun h => hover (hcount ▸ h.2))]
      split_ifs <;> exact ⟨hcount,.inl ⟨hrst,hcount.symm ▸ not_lt.mp hover⟩⟩
  · rw [if_pos hrv]
    refine .inl ⟨fun hraw => hrv ?_,hrecv,congrArg (fun l => l ++ [internalError]) hrst⟩
    rw [hraw.pushUploadDataChunk]

/-! Each step is a step of every stream's loop. -/

namespace Uploads
open Library.CreditLoop (Step)
open Relation (ReflTransGen)

variable {s : Uploads} {streamId id : Nat}

theorem recvWindow_of_none (h : s.downstream id = none) : s.recvWindow id = 0 := by
  rw [recvWindow,h]
  rfl

theorem recvWindow_of_some {d : Downstream} (h : s.downstream id = some d) : s.recvWindow id = d.recvWindowSize := by
  rw [recvWindow,h]
  rfl

theorem downstream_setDownstream (d : Downstream) : (s.setDownstream streamId d).downstream streamId = some d := by
  rw [setDownstream]
  dsimp only
  rw [Function.update_self]

theorem recvWindow_setDownstream (d : Downstream) :
    (s.setDownstream streamId d).recvWindow id = if id = streamId then d.recvWindowSize else s.recvWindow id := by
  rw [recvWindow,setDownstream]
  dsimp only
  rw [Function.update_apply]
  split <;> rfl

/-- A stream whose request is replaced. -/
theorem loop_setDownstream (d : Downstream) : (s.setDownstream streamId d).loop id =
    { s.loop id with counted := if id = streamId then d.recvWindowSize else s.recvWindow id } :=
  CreditLoop.ext rfl rfl (recvWindow_setDownstream d) rfl

theorem loop_setDownstream_same {d d' : Downstream} (h : s.downstream streamId = some d)
    (hrecv : d'.recvWindowSize = d.recvWindowSize) : (s.setDownstream streamId d').loop id = s.loop id := by
  refine CreditLoop.ext rfl rfl ((recvWindow_setDownstream d').trans ?_) rfl
  split
  · rename_i he
    rw [he,hrecv]
    exact (recvWindow_of_some h).symm
  · rfl

/-- A count that starts again. -/
theorem loop_setDownstream_zero {d : Downstream} (hrecv : d.recvWindowSize = 0) :
    ReflTransGen Step (s.loop id) ((s.setDownstream streamId d).loop id) := by
  rw [loop_setDownstream]
  split
  · rw [hrecv]
    exact .single Step.forget
  · exact .refl

theorem loop_openStream (h : s.window streamId = none) (fin : Bool) (nv : Nv) :
    loop { s with
      window := Function.update s.window streamId (some s.initialWindow)
      toServer := s.toServer ++ [.synStream streamId fin nv] } id = s.loop id := by
  refine CreditLoop.ext ?_ ?_ rfl rfl
  · rw [loop,loop]
    dsimp only
    rw [Function.update_apply]
    split
    · rename_i he
      rw [he,h]
      rfl
    · rfl
  · exact (bytesInFlight_append id s.toServer _).trans (add_zero _)

theorem loop_sendData {w : Int} (h : s.window streamId = some w) {data : Bytes} (hw : (data.length : Int) ≤ w)
    (fin : Bool) :
    ReflTransGen Step (s.loop id) (loop { s with
      window := Function.update s.window streamId (some (w-data.length))
      toServer := s.toServer ++ [.data streamId fin data] } id) := by
  have hbytes := bytesInFlight_append id s.toServer [.data streamId fin data]
  rw [bytesInFlight,bytesInFlight,add_zero] at hbytes
  by_cases hid : id = streamId
  · subst hid
    have hwindow : (s.loop id).window = w := by
      rw [loop,h]
      rfl
    have hstep := Step.send (l := s.loop id) (n := data.length) (Int.natCast_nonneg _) (hwindow.symm ▸ hw)
    convert ReflTransGen.single hstep using 1
    refine CreditLoop.ext ?_ ?_ rfl rfl
    · rw [hwindow,loop]
      dsimp only
      rw [Function.update_self]
      rfl
    · rw [if_pos rfl] at hbytes
      exact hbytes
  · rw [if_neg hid,add_zero] at hbytes
    have hsame : loop { s with
        window := Function.update s.window streamId (some (w-data.length))
        toServer := s.toServer ++ [.data streamId fin data] } id = s.loop id := by
      refine CreditLoop.ext ?_ hbytes rfl rfl
      rw [loop,loop]
      dsimp only
      rw [Function.update_of_ne hid]
    rw [hsame]

/-- Bytes that leave the wire. -/
theorem loop_consume {len : Nat} {fin : Bool} {data : Bytes} {rest : List ClientFrame}
    (h : s.toServer = .data streamId fin data :: rest) : (s.consume streamId fin data rest len).loop id =
      { s.loop id with
        inFlight := (s.loop id).inFlight-(if id = streamId then ((data.take len).length : Int) else 0) } := by
  refine CreditLoop.ext rfl ?_ rfl rfl
  rw [loop,loop,h,consume]
  dsimp only
  rw [bytesInFlight,List.length_take]
  split
  · rw [bytesInFlight,List.length_drop]
    split <;> omega
  · split <;> omega

theorem taken_le_inFlight {fin : Bool} {data : Bytes} {rest : List ClientFrame}
    (h : s.toServer = .data streamId fin data :: rest) (len : Nat) :
    (if id = streamId then ((data.take len).length : Int) else 0) ≤ (s.loop id).inFlight := by
  have hrest := bytesInFlight_nonneg id rest
  rw [loop,h]
  dsimp only
  rw [bytesInFlight,List.length_take]
  split <;> omega

theorem loop_consume_run {fin : Bool} {data : Bytes} {rest : List ClientFrame}
    (h : s.toServer = .data streamId fin data :: rest) (len : Nat) :
    ReflTransGen Step (s.loop id) ((s.consume streamId fin data rest len).loop id) := by
  rw [loop_consume h]
  apply ReflTransGen.single
  apply Step.lose
  · split <;> omega
  · exact taken_le_inFlight h len

theorem loop_recvData {upstream : SpdyUpstream} (hflow : upstream.flowControl = true) {fin : Bool} {data : Bytes}
    {rest : List ClientFrame} (h : s.toServer = .data streamId fin data :: rest) {d : Downstream}
    (hd : s.downstream streamId = some d) (len : Nat) : ReflTransGen Step (s.loop id)
      (((s.consume streamId fin data rest len).setDownstream streamId
        (onDataChunkRecvCallback upstream d fin (data.take len))).loop id) := by
  have hlost : ReflTransGen Step (s.loop id) _ := loop_consume_run h len
  have hd' : (s.consume streamId fin data rest len).downstream streamId = some d := hd
  obtain ⟨-,hsame,-⟩ | ⟨hmore,-⟩ := onDataChunkRecvCallback_window hflow d fin (data.take len)
  · rw [loop_setDownstream_same hd' hsame]
    exact hlost
  by_cases hid : id = streamId
  · subst hid
    have hle : (if id = id then ((data.take len).length : Int) else 0) ≤ _ := taken_le_inFlight h len
    rw [if_pos rfl] at hle
    have hstep := Step.count (Int.natCast_nonneg _) hle
    rw [loop_setDownstream,loop_consume h,if_pos rfl,if_pos rfl,hmore,← recvWindow_of_some hd]
    exact .single hstep
  · rw [loop_setDownstream,if_neg hid]
    exact hlost

theorem loop_backendWrite {d : Downstream} (hd : s.downstream streamId = some d) :
    ReflTransGen Step (s.loop id)
      (((s.setDownstream streamId (d.setRecvWindowSize 0)).sendWindowUpdate streamId d.recvWindowSize).loop id) := by
  have hgranted := creditInFlight_windowUpdate id streamId s.initialWindow d.recvWindowSize s.toClient
  have hcounted : (s.setDownstream streamId _).recvWindow id = _ := recvWindow_setDownstream (d.setRecvWindowSize 0)
  by_cases hid : id = streamId
  · subst hid
    rw [if_pos rfl,← recvWindow_of_some hd] at hgranted
    rw [if_pos rfl] at hcounted
    have hstep := Step.giveBack (l := s.loop id)
    convert ReflTransGen.single hstep using 1
    rw [← recvWindow_of_some hd]
    exact CreditLoop.ext rfl rfl hcounted hgranted
  · rw [if_neg hid,add_zero] at hgranted
    rw [if_neg hid] at hcounted
    have hsame : ((s.setDownstream streamId (d.setRecvWindowSize 0)).sendWindowUpdate streamId
        d.recvWindowSize).loop id = s.loop id := CreditLoop.ext rfl rfl hcounted hgranted
    rw [hsame]

theorem loop_closeStream : ReflTransGen Step (s.loop id)
    (loop { s with downstream := Function.update s.downstream streamId none } id) := by
  by_cases hid : id = streamId
  · subst hid
    have hstep := Step.forget (l := s.loop id)
    convert ReflTransGen.single hstep using 1
    exact CreditLoop.ext rfl rfl (recvWindow_of_none (Function.update_self id none s.downstream)) rfl
  · have hcounted : recvWindow { s with downstream := Function.update s.downstream streamId none } id =
        s.recvWindow id := by
      rw [recvWindow,recvWindow]
      dsimp only
      rw [Function.update_of_ne hid]
    have hsame : loop { s with downstream := Function.update s.downstream streamId none } id = s.loop id :=
      CreditLoop.ext rfl rfl hcounted rfl
    rw [hsame]

/-- The announced window moves every window that is open. -/
theorem loop_recvSettings {size : Int} {rest : List ServerFrame} (h : s.toClient = .settings size :: rest)
    (hle : s.initialWindow ≤ size) (hrest : 0 ≤ creditInFlight id size rest) :
    ReflTransGen Step (s.loop id) (({ s with toClient := rest }.clientRecv (.settings size)).loop id) := by
  have hgranted : (s.loop id).granted = size-s.initialWindow+creditInFlight id size rest := by
    rw [loop,h]
    rfl
  have hstep := Step.collect (l := s.loop id) (n := size-s.initialWindow) (by omega) (by omega)
  convert ReflTransGen.single hstep using 1
  refine CreditLoop.ext ?_ rfl rfl ?_
  · rw [loop,loop,clientRecv]
    dsimp only
    cases s.window id with
    | none => exact (add_sub_cancel s.initialWindow size).symm
    | some w => rfl
  · rw [hgranted,add_sub_cancel_left]
    rfl

/-- Credit for a closed stream is lost. -/
theorem loop_recvWindowUpdate {delta : Int} {rest : List ServerFrame}
    (h : s.toClient = .windowUpdate streamId delta :: rest) (hle : 0 ≤ delta)
    (hrest : 0 ≤ creditInFlight id s.initialWindow rest) :
    ReflTransGen Step (s.loop id)
      (({ s with toClient := rest }.clientRecv (.windowUpdate streamId delta)).loop id) := by
  have hgranted : (s.loop id).granted =
      (if id = streamId then delta else 0)+creditInFlight id s.initialWindow rest := by
    rw [loop,h]
    rfl
  by_cases hid : id = streamId
  · subst hid
    rw [if_pos rfl] at hgranted
    cases hw : s.window id with
    | none =>
      have hstep := Step.lapse (l := s.loop id) (n := delta) hle (by omega)
      convert ReflTransGen.single hstep using 1
      refine CreditLoop.ext ?_ rfl rfl ?_
      · rw [loop,loop,clientRecv]
        dsimp only
        rw [Function.update_self,hw]
        rfl
      · rw [hgranted,add_sub_cancel_left]
        rfl
    | some w =>
      have hstep := Step.collect (l := s.loop id) (n := delta) hle (by omega)
      convert ReflTransGen.single hstep using 1
      refine CreditLoop.ext ?_ rfl rfl ?_
      · rw [loop,loop,clientRecv]
        dsimp only
        rw [Function.update_self,hw]
        rfl
      · rw [hgranted,add_sub_cancel_left]
        rfl
  · rw [if_neg hid,zero_add] at hgranted
    have hsame : ({ s with toClient := rest }.clientRecv (.windowUpdate streamId delta)).loop id = s.loop id := by
      refine CreditLoop.ext ?_ rfl rfl hgranted.symm
      rw [loop,loop,clientRecv]
      dsimp only
      rw [Function.update_of_ne hid]
    rw [hsame]

/-- A frame reaches the client, whose window it can only make larger. -/
theorem loop_clientRecv {frame : ServerFrame} {rest : List ServerFrame} (h : s.toClient = frame :: rest)
    (hgrants : Grants s.initialWindow s.toClient) :
    ReflTransGen Step (s.loop id) (({ s with toClient := rest }.clientRecv frame).loop id) := by
  rw [h] at hgrants
  cases frame with
  | settings size => exact loop_recvSettings h hgrants.1 (hgrants.2.creditInFlight_nonneg id)
  | windowUpdate streamId delta => exact loop_recvWindowUpdate h hgrants.1 (hgrants.2.creditInFlight_nonneg id)
  | rstStream streamId statusCode =>
    have hsame : ({ s with toClient := rest }.clientRecv (.rstStream streamId statusCode)).loop id = s.loop id := by
      refine CreditLoop.ext rfl rfl rfl ?_
      rw [loop,loop,h]
      rfl
    rw [hsame]

/-! Runs in which the client's windows only grow. -/

def Unflagged (s : Uploads) : Prop := ∀ id d, s.downstream id = some d → flowControlError ∉ d.rstStream

structure Safe (windowBits : Nat) (s : Uploads) : Prop where
  credit : ∀ id, (s.loop id).Within (2^windowBits)
  grants : Grants s.initialWindow s.toClient
  unflagged : s.Unflagged
  frames : ∀ id, .rstStream id flowControlError ∉ s.toClient
  resets : ∀ id, (id,flowControlError) ∉ s.resets

theorem Unflagged.setDownstream (h : s.Unflagged) {d : Downstream} (hd : flowControlError ∉ d.rstStream)
    (streamId : Nat) :
    (s.setDownstream streamId d).Unflagged := by
  intro id d' hd'
  rw [Uploads.setDownstream] at hd'
  dsimp only at hd'
  rw [Function.update_apply] at hd'
  split at hd'
  · cases hd'
    exact hd
  · exact h id d' hd'

theorem Unflagged.closeStream (h : s.Unflagged) (streamId : Nat) :
    Unflagged { s with downstream := Function.update s.downstream streamId none } := by
  intro id d' hd'
  dsimp only at hd'
  rw [Function.update_apply] at hd'
  split at hd'
  · cases hd'
  · exact h id d' hd'

variable {windowBits : Nat} {s' : Uploads}

/-- A step that the client does not see. -/
theorem Safe.of_server (h : Safe windowBits s) (hloop : ∀ id, ReflTransGen Step (s.loop id) (s'.loop id))
    (hinitial : s'.initialWindow = s.initialWindow) (hclient : s'.toClient = s.toClient)
    (hresets : s'.resets = s.resets) (hunflagged : s'.Unflagged) : Safe windowBits s' where
  credit := fun id => CreditLoop.within_run (hloop id) (h.credit id)
  grants := by
    rw [hinitial,hclient]
    exact h.grants
  unflagged := hunflagged
  frames := by
    rw [hclient]
    exact h.frames
  resets := by
    rw [hresets]
    exact h.resets

/-- What is left of the loop's bound for the count itself. -/
theorem Safe.recvWindow_le (h : ∀ id, (s.loop id).Within (2^windowBits)) (id : Nat) : s.recvWindow id ≤ 2^windowBits :=
  (h id).counted_le

theorem Safe.recvData (h : Safe windowBits s) {fin : Bool} {data : Bytes} {rest : List ClientFrame}
    (hwire : s.toServer = .data streamId fin data :: rest) {d : Downstream} (hd : s.downstream streamId = some d)
    (len : Nat) : Safe windowBits ((s.consume streamId fin data rest len).setDownstream streamId
      (onDataChunkRecvCallback (.spdy3 windowBits) d fin (data.take len))) := by
  have hloop : ∀ id, ReflTransGen Step (s.loop id) (((s.consume streamId fin data rest len).setDownstream streamId
      (onDataChunkRecvCallback (.spdy3 windowBits) d fin (data.take len))).loop id) :=
    fun id => loop_recvData rfl hwire hd len
  apply h.of_server hloop rfl rfl rfl
  apply Unflagged.setDownstream (s := s.consume streamId fin data rest len) h.unflagged
  have hne : flowControlError ∉ [internalError] := by decide
  have hd0 := h.unflagged streamId d hd
  have hflow : (SpdyUpstream.spdy3 windowBits).flowControl = true := rfl
  obtain ⟨-,-,hrst⟩ | ⟨-,⟨hrst,-⟩ | ⟨-,hover⟩⟩ := onDataChunkRecvCallback_window hflow d fin (data.take len)
  · rw [hrst,List.mem_append]
    exact not_or_intro hd0 hne
  · rw [hrst]
    exact hd0
  · -- the count of the loop cannot pass the announced window
    have hle := Safe.recvWindow_le (fun id => CreditLoop.within_run (hloop id) (h.credit id)) streamId
    rw [recvWindow_setDownstream,if_pos rfl] at hle
    exact absurd hle hover.not_ge

theorem Safe.setDownstream (h : Safe windowBits s) {d d' : Downstream} (hd : s.downstream streamId = some d)
    (hrecv : d'.recvWindowSize = d.recvWindowSize) (hd' : flowControlError ∉ d'.rstStream) :
    Safe windowBits (s.setDownstream streamId d') :=
  h.of_server (fun id => by rw [loop_setDownstream_same hd hrecv]) rfl rfl rfl (h.unflagged.setDownstream hd' streamId)

theorem Safe.backendWrite (h : Safe windowBits s) {d : Downstream} (hd : s.downstream streamId = some d) :
    Safe windowBits ((s.setDownstream streamId (d.setRecvWindowSize 0)).sendWindowUpdate streamId d.recvWindowSize) where
  credit := fun id => CreditLoop.within_run (loop_backendWrite hd) (h.credit id)
  grants := by
    have hcounted := (h.credit streamId).counted
    apply h.grants.append_windowUpdate
    rw [← recvWindow_of_some hd]
    exact hcounted
  unflagged := h.unflagged.setDownstream (d := d.setRecvWindowSize 0) (h.unflagged streamId d hd) streamId
  frames := by
    intro id hmem
    obtain hmem | hmem := List.mem_append.mp hmem
    · exact h.frames id hmem
    · exact nomatch List.mem_singleton.mp hmem
  resets := h.resets

theorem Safe.sendRstStream (h : Safe windowBits s) {d : Downstream} (hd : s.downstream streamId = some d)
    {statusCode : Nat} (hcode : statusCode ∈ d.rstStream) :
    Safe windowBits { s with toClient := s.toClient ++ [.rstStream streamId statusCode] } where
  credit := by
    intro id
    have hgranted := creditInFlight_rstStream id streamId statusCode s.initialWindow s.toClient
    have hsame : loop { s with toClient := s.toClient ++ [.rstStream streamId statusCode] } id = s.loop id :=
      CreditLoop.ext rfl rfl rfl hgranted
    rw [hsame]
    exact h.credit id
  grants := h.grants.append_rstStream streamId statusCode
  unflagged := h.unflagged
  frames := by
    intro id hmem
    obtain hmem | hmem := List.mem_append.mp hmem
    · exact h.frames id hmem
    · cases List.mem_singleton.mp hmem
      exact h.unflagged streamId d hd hcode
  resets := h.resets

theorem Safe.clientRecv (h : Safe windowBits s) {frame : ServerFrame} {rest : List ServerFrame}
    (hwire : s.toClient = frame :: rest) : Safe windowBits ({ s with toClient := rest }.clientRecv frame) := by
  have hcredit : ∀ id, (({ s with toClient := rest }.clientRecv frame).loop id).Within (2^windowBits) :=
    fun id => CreditLoop.within_run (loop_clientRecv hwire h.grants) (h.credit id)
  have hgrants := h.grants
  have hframes := h.frames
  rw [hwire] at hgrants hframes
  have hrest : ∀ id, .rstStream id flowControlError ∉ rest :=
    fun id hmem => hframes id (List.mem_cons_of_mem frame hmem)
  cases frame with
  | settings size => exact ⟨hcredit,hgrants.2,h.unflagged,hrest,h.resets⟩
  | windowUpdate streamId delta => exact ⟨hcredit,hgrants.2,h.unflagged,hrest,h.resets⟩
  | rstStream streamId statusCode =>
    refine ⟨hcredit,hgrants,h.unflagged,hrest,?_⟩
    intro id hmem
    obtain hmem | hmem := List.mem_append.mp hmem
    · exact h.resets id hmem
    · cases List.mem_singleton.mp hmem
      exact hframes streamId List.mem_cons_self

section
variable {config : Config} {ipaddr : Bytes}

/-- A new request has counted nothing. -/
theorem Safe.recvSynStream (h : Safe windowBits s) {attachDownstream : Option Int}
    (hs : s.step config ipaddr (.spdy3 windowBits) (.recvSynStream attachDownstream) = some s') : Safe windowBits s' := by
  rw [Uploads.step] at hs
  split at hs
  · rename_i streamId fin nv rest hwire
    have hrest : ∀ id, loop { s with toServer := rest } id = s.loop id := by
      intro id
      refine CreditLoop.ext rfl ?_ rfl rfl
      rw [loop,loop,hwire]
      rfl
    split at hs
    · rename_i rv
      cases hs
      obtain ⟨hzero,hfresh⟩ := onCtrlRecvCallback_fresh config ipaddr rv fin nv
      refine h.of_server (fun id => ?_) rfl rfl rfl (Unflagged.setDownstream (s := { s with toServer := rest })
        h.unflagged hfresh streamId)
      rw [← hrest id]
      exact loop_setDownstream_zero hzero
    · cases hs
      exact h.of_server (fun id => by rw [hrest id]) rfl rfl rfl h.unflagged
  · cases hs

/-- Data is counted, unless it is ignored or its stream is unknown. -/
theorem Safe.recvDataFrame (h : Safe windowBits s) {len : Nat} {ignored : Bool}
    (hs : s.step config ipaddr (.spdy3 windowBits) (.recvData len ignored) = some s') : Safe windowBits s' := by
  rw [Uploads.step] at hs
  split at hs
  · rename_i streamId fin data rest hwire
    have hignored : Safe windowBits (s.consume streamId fin data rest len) :=
      h.of_server (fun id => loop_consume_run hwire len) rfl rfl rfl h.unflagged
    split at hs
    · dsimp only at hs
      split at hs
      · rename_i d hd
        split at hs
        · cases hs
          exact hignored
        · cases hs
          exact h.recvData hwire hd len
      · cases hs
        exact hignored
    · cases hs
  · cases hs

theorem Safe.step (h : Safe windowBits s) {e : UploadEvent}
    (hs : s.step config ipaddr (.spdy3 windowBits) e = some s') : Safe windowBits s' := by
  cases e with
  | openStream streamId fin nv =>
    rw [Uploads.step] at hs
    split at hs
    · rename_i hnew
      cases hs
      exact h.of_server (fun id => by rw [loop_openStream hnew]) rfl rfl rfl h.unflagged
    · cases hs
  | sendData streamId fin data =>
    rw [Uploads.step] at hs
    split at hs
    · rename_i w hw
      split at hs
      · rename_i hfits
        cases hs
        exact h.of_server (fun id => loop_sendData hw hfits fin) rfl rfl rfl h.unflagged
      · cases hs
    · cases hs
  | recvSynStream attachDownstream => exact h.recvSynStream hs
  | recvData len ignored => exact h.recvDataFrame hs
  | backendWrite streamId dropped =>
    rw [Uploads.step] at hs
    obtain ⟨d,hd,rfl⟩ := Option.map_eq_some_iff.mp hs
    split
    · split
      · exact h.of_server (fun id => loop_setDownstream_zero rfl) rfl rfl rfl
          (h.unflagged.setDownstream (d := d.setRecvWindowSize 0) (h.unflagged streamId d hd) streamId)
      · exact h.backendWrite hd
    · exact h
  | backendConnection streamId attached =>
    rw [Uploads.step] at hs
    obtain ⟨d,hd,rfl⟩ := Option.map_eq_some_iff.mp hs
    exact Safe.setDownstream h hd rfl (h.unflagged streamId d hd)
  | rstStream streamId =>
    rw [Uploads.step] at hs
    obtain ⟨d,hd,rfl⟩ := Option.map_eq_some_iff.mp hs
    have hne : flowControlError ∉ (d.submitRstStream internalError).rstStream := by
      rw [Downstream.submitRstStream]
      exact fun hmem => (List.mem_append.mp hmem).elim (h.unflagged streamId d hd) (by decide)
    exact h.setDownstream hd rfl hne
  | sendRstStream streamId statusCode =>
    rw [Uploads.step] at hs
    split at hs
    · rename_i d hd
      split at hs
      · rename_i hcode
        cases hs
        exact h.sendRstStream hd hcode
      · cases hs
    · cases hs
  | closeStream streamId =>
    cases hs
    exact h.of_server (fun id => loop_closeStream) rfl rfl rfl (h.unflagged.closeStream streamId)
  | clientRecv =>
    rw [Uploads.step] at hs
    split at hs
    · rename_i frame rest hwire
      cases hs
      exact h.clientRecv hwire
    · cases hs

end

section
variable (config : Config) (ipaddr : Bytes) (windowBits : Nat)

/-- Every interleaving of the two ends' events. -/
def Reachable : Uploads → Prop :=
  ReflTransGen (fun s s' => ∃ e, s.step config ipaddr (.spdy3 windowBits) e = some s') (start windowBits)

def NeverReset : Prop := ∀ s, Reachable config ipaddr windowBits s → ∀ id, (id,flowControlError) ∉ s.resets

end

theorem start_safe (h : 16 ≤ windowBits) : Safe windowBits (start windowBits) where
  credit := by
    intro id
    have hle : (2 : Int)^16 ≤ 2^windowBits := pow_le_pow_right₀ (by decide) h
    have hloop : (start windowBits).loop id = ⟨65536,0,0,2^windowBits-65536+0⟩ := rfl
    rw [hloop]
    exact ⟨by dsimp only; omega,le_rfl,le_rfl,by dsimp only; omega,by dsimp only; omega⟩
  grants := by
    have hle : (2 : Int)^16 ≤ 2^windowBits := pow_le_pow_right₀ (by decide) h
    exact ⟨hle,trivial⟩
  unflagged := nofun
  frames := nofun
  resets := nofun

theorem Reachable.safe {config : Config} {ipaddr : Bytes} (h : 16 ≤ windowBits)
    (hs : Reachable config ipaddr windowBits s) : Safe windowBits s := by
  induction hs with
  | refl => exact start_safe h
  | tail _ hstep ih =>
    obtain ⟨e,he⟩ := hstep
    exact ih.step he

/-! An upload of single bytes before the SETTINGS arrive. -/

def uploadRequest : Nv := [(str ":method",str "POST"),(str ":path",str "/"),(str ":host",str "h")]

/-- So many bytes have been sent and counted. -/
structure Uploaded (windowBits k : Nat) (s : Uploads) : Prop where
  window : s.window 1 = some (defaultWindow-k)
  toServer : s.toServer = []
  toClient : s.toClient = [.settings (2^windowBits)]
  resets : s.resets = []
  downstream : ∃ d, s.downstream 1 = some d ∧ Raw d ∧ d.recvWindowSize = k ∧
    d.rstStream = if k ≤ 2^windowBits then [] else [flowControlError]

theorem uploaded_zero (config : Config) (ipaddr : Bytes) (windowBits : Nat) :
    ∃ s, Reachable config ipaddr windowBits s ∧ Uploaded windowBits 0 s := by
  have hraw : Raw (onCtrlRecvCallback config ipaddr 0 false uploadRequest) :=
    (onCtrlRecvCallback_output rfl rfl rfl (by decide) config ipaddr false).1
  have hrecv := (onCtrlRecvCallback_fresh config ipaddr 0 false uploadRequest).1
  have hrst : (onCtrlRecvCallback config ipaddr 0 false uploadRequest).rstStream = [] := by
    obtain ⟨spdyProxy,addXForwardedFor⟩ := config
    cases spdyProxy <;> rfl
  exact ⟨_,.tail (.single ⟨.openStream 1 false uploadRequest,rfl⟩) ⟨.recvSynStream (some 0),rfl⟩,
    rfl,rfl,rfl,rfl,_,rfl,hraw,hrecv,hrst.trans (if_pos (Nat.zero_le _)).symm⟩

/-- One more byte is sent, arrives and is counted; above the announced window it resets the
stream. -/
theorem Uploaded.succ {config : Config} {ipaddr : Bytes} {k : Nat} (hk : k ≤ 2^windowBits) (hwindow : k < 65536)
    (hs : Reachable config ipaddr windowBits s) (h : Uploaded windowBits k s) :
    ∃ s', Reachable config ipaddr windowBits s' ∧ Uploaded windowBits (k+1) s' := by
  obtain ⟨d,hd,hraw,hrecv,hrst⟩ := h.downstream
  rw [if_pos hk] at hrst
  let sent : Uploads := { s with
    window := Function.update s.window 1 (some (defaultWindow-k-1)), toServer := [.data 1 false [0]] }
  have hsend : s.step config ipaddr (.spdy3 windowBits) (.sendData 1 false [0]) = some sent := by
    rw [Uploads.step,h.window,h.toServer]
    exact if_pos (show (1 : Int) ≤ 65536-k by omega)
  have hcount : sent.step config ipaddr (.spdy3 windowBits) (.recvData 1 false) =
      some ((sent.consume 1 false [0] [] 1).setDownstream 1
        (onDataChunkRecvCallback (.spdy3 windowBits) d false [0])) := by
    have hd' : (sent.consume 1 false [0] [] 1).downstream 1 = some d := hd
    rw [Uploads.step]
    dsimp only [sent]
    rw [if_pos (by decide),hd']
    rfl
  refine ⟨_,(hs.tail ⟨_,hsend⟩).tail ⟨_,hcount⟩,?_,rfl,h.toClient,h.resets,
    onDataChunkRecvCallback (.spdy3 windowBits) d false [0],downstream_setDownstream _,
    (hraw.onDataChunkRecvCallback _ false [0]).1,?_⟩
  · have hwindow' : defaultWindow-k-1 = defaultWindow-(k+1 : Nat) := by
      push_cast
      omega
    have hself : sent.window 1 = some (defaultWindow-k-1) := by
      dsimp only [sent]
      rw [Function.update_self]
    rw [← hwindow']
    exact hself
  · have hflow : (SpdyUpstream.spdy3 windowBits).flowControl = true := rfl
    obtain ⟨hnot,-⟩ | ⟨hmore,hflag⟩ := onDataChunkRecvCallback_window hflow d false [0]
    · exact absurd hraw hnot
    · have hcounted : (onDataChunkRecvCallback (.spdy3 windowBits) d false [0]).recvWindowSize = (k+1 : Nat) := by
        rw [hmore,hrecv]
        rfl
      refine ⟨hcounted,?_⟩
      rw [hrst,hcounted] at hflag
      obtain ⟨hflag,hle⟩ | ⟨hflag,hlt⟩ := hflag
      · have hle' : ((k+1 : Nat) : Int) ≤ 2^windowBits := hle
        rw [hflag,if_pos (by exact_mod_cast hle')]
      · have hlt' : 2^windowBits < ((k+1 : Nat) : Int) := hlt
        rw [hflag,if_neg (Nat.not_le.mpr (by exact_mod_cast hlt'))]
        rfl

theorem uploaded (config : Config) (ipaddr : Bytes) {windowBits k : Nat} (hk : k ≤ 2^windowBits+1)
    (hwindow : k ≤ 65536) : ∃ s, Reachable config ipaddr windowBits s ∧ Uploaded windowBits k s := by
  induction k with
  | zero => exact uploaded_zero config ipaddr windowBits
  | succ k ih =>
    obtain ⟨s,hs,hup⟩ := ih (by omega) (by omega)
    exact hup.succ (by omega) (by omega) hs

/-- A client that uses up its default window before it hears of the smaller one. -/
theorem upload_reset (config : Config) (ipaddr : Bytes) {windowBits : Nat} (h : windowBits < 16) :
    ∃ s, Reachable config ipaddr windowBits s ∧ (1,flowControlError) ∈ s.resets := by
  have hle : 2^windowBits ≤ 2^15 := Nat.pow_le_pow_right (by decide) (by omega)
  obtain ⟨s,hs,hup⟩ := uploaded config ipaddr (le_refl (2^windowBits+1)) (by omega)
  obtain ⟨d,hd,-,-,hrst⟩ := hup.downstream
  rw [if_neg (by omega)] at hrst
  let queued : Uploads := { s with toClient := [.settings (2^windowBits),.rstStream 1 flowControlError] }
  have hqueue : s.step config ipaddr (.spdy3 windowBits) (.sendRstStream 1 flowControlError) = some queued := by
    rw [Uploads.step,hd]
    dsimp only
    rw [if_pos (by rw [hrst]; exact List.mem_cons_self),hup.toClient]
    rfl
  refine ⟨_,((hs.tail ⟨_,hqueue⟩).tail ⟨.clientRecv,rfl⟩).tail ⟨.clientRecv,rfl⟩,?_⟩
  exact List.mem_append_right s.resets List.mem_cons_self

/-- No uploader that keeps to its windows is reset, exactly when the announced window is not
below the default one. -/
theorem never_reset_iff (config : Config) (ipaddr : Bytes) (windowBits : Nat) :
    NeverReset config ipaddr windowBits ↔ 16 ≤ windowBits := by
  constructor
  · intro h
    by_contra hsmall
    obtain ⟨s,hs,hreset⟩ := upload_reset config ipaddr (Nat.not_le.mp hsmall)
    exact h s hs 1 hreset
  · intro h s hs id
    exact (hs.safe h).resets id

/-- 15 bits, so that 32769 bytes are too many. -/
theorem small_window_reset : ¬NeverReset ⟨false,false⟩ [] 15 := by
  intro h
  obtain ⟨s,hs,hreset⟩ := upload_reset ⟨false,false⟩ [] (by decide : 15 < 16)
  exact h s hs 1 hreset

end Uploads

end Shrpx
end Spdylay
