import Spdylay.Library.ChunkedCoding
import Spdylay.Proxy.HeaderFields

/-! The body of an HTTP/1.1 request on its way to the backend. The parser hands over the fields
behind a body in chunks as it does those of the head. Appending to a buffer succeeds. -/
namespace Spdylay
namespace Shrpx
open Library.Http

/-! Callbacks of the request parser. -/

namespace Downstream

def headerFields (d : Downstream) : HeaderFields RequestFlags :=
  ⟨d.requestHeaders,d.requestHeaderKeyPrev,⟨d.chunkedRequest,d.requestExpect100Continue⟩⟩

def setHeaderFields (d : Downstream) (h : HeaderFields RequestFlags) : Downstream :=
  { d with
    requestHeaders := h.headers
    requestHeaderKeyPrev := h.keyPrev
    chunkedRequest := h.flags.chunkedRequest
    requestExpect100Continue := h.flags.requestExpect100Continue }

def requestHdrcb (d : Downstream) (c : HeaderCallback) : Downstream := d.setHeaderFields (Shrpx.requestHdrcb d.headerFields c)

/-- The fields behind the body. -/
def readTrailer (d : Downstream) (callbacks : List HeaderCallback) : Downstream := callbacks.foldl requestHdrcb d

theorem readTrailer_frame (d : Downstream) (callbacks : List HeaderCallback) :
    (d.readTrailer callbacks).output = d.output ∧ (d.readTrailer callbacks).dconn = d.dconn ∧
      (d.readTrailer callbacks).requestState = d.requestState ∧
      (d.readTrailer callbacks).headerFields = callbacks.foldl Shrpx.requestHdrcb d.headerFields := by
  induction callbacks generalizing d with
  | nil => exact ⟨rfl,rfl,rfl,rfl⟩
  | cons c callbacks ih => exact ih (d.requestHdrcb c)

end Downstream

/-- The request when its head is complete, given what attaching a connection returned. -/
def htpHdrsCompletecb (config : Config) (ipaddr : Bytes) (attachDownstream : Int) (method path : Bytes)
    (httpMajor httpMinor : Nat) (shouldKeepAlive : Bool) (h : HeaderFields RequestFlags) : Downstream × Int :=
  let d : Downstream :=
    { requestMethod := method, requestPath := path, requestMajor := httpMajor, requestMinor := httpMinor,
      requestConnectionClose := !shouldKeepAlive }
  let d := d.setHeaderFields h
  if attachDownstream ≠ 0 then (d.setRequestState .connectFail,-1)
  else ((Downstream.pushRequestHeaders config ipaddr { d with dconn := true }).setRequestState .headerComplete,0)

/-- Anything but zero stops the parser. -/
def htpBodycb (d : Downstream) (data : Bytes) : Downstream × Int :=
  let r := d.pushUploadDataChunk data
  (r.1,if r.2 ≠ 0 then -1 else 0)

/-- Nothing is left of it when there is no connection to write to. -/
def Downstream.endUploadData (d : Downstream) : Option Downstream :=
  if d.chunkedRequest then
    if d.dconn then some { d with output := d.output ++ str "0\r\n\r\n" } else none
  else some d

/-- The pieces of a body, up to a callback that fails. -/
def parseBody (d : Downstream) : List Bytes → Option Downstream
  | [] => some d
  | data :: datas =>
    let r := htpBodycb d data
    if r.2 = 0 then parseBody r.1 datas else none

/-- A body, the fields behind it and the end. -/
def upload (d : Downstream) (datas : List Bytes) (trailer : List HeaderCallback) : Option Downstream :=
  (parseBody d datas).bind (fun d => (d.readTrailer trailer).endUploadData)

/-- All callbacks succeed, and what they append is the chunked coding of the body. -/
def Relayed (d : Downstream) (datas : List Bytes) (trailer : List HeaderCallback) : Prop :=
  ∃ d' coded, upload d datas trailer = some d' ∧ d'.output = d.output ++ coded ∧ decode coded = some (datas.flatten,[])

/-! What is returned for a piece. -/

theorem htpBodycb_chunked {d : Downstream} (hconn : d.dconn = true) (hchunked : d.chunkedRequest = true) (data : Bytes) :
    (htpBodycb d data).2 = -1 := by
  have hne : ((Downstream.chunkSizeHex data.length).length : Int)+2 ≠ 0 := by omega
  rw [htpBodycb,Downstream.pushUploadDataChunk,if_pos hconn,if_pos hchunked]
  dsimp only
  rw [if_pos hne]

theorem parseBody_chunked {d : Downstream} (hconn : d.dconn = true) (hchunked : d.chunkedRequest = true) (data : Bytes)
    (datas : List Bytes) : parseBody d (data :: datas) = none := by
  rw [parseBody,htpBodycb_chunked hconn hchunked]
  rfl

theorem parseBody_raw {d : Downstream} (hraw : Raw d) (datas : List Bytes) :
    parseBody d datas = some { d with output := d.output ++ datas.flatten } := by
  induction datas generalizing d with
  | nil =>
    rw [List.flatten_nil,List.append_nil]
    rfl
  | cons data datas ih =>
    have hcb : htpBodycb d data = ({ d with output := d.output ++ data },0) := by
      rw [htpBodycb,hraw.pushUploadDataChunk]
      rfl
    have hraw' : Raw { d with output := d.output ++ data } := ⟨hraw.1,hraw.2⟩
    rw [parseBody,hcb]
    dsimp only
    rw [if_pos rfl,ih hraw',List.flatten_cons,← List.append_assoc]

/-- Behind data that went out as it is, the last chunk follows when the flag is set. -/
theorem endTrailer_output {d : Downstream} (hconn : d.dconn = true) (trailer : List HeaderCallback) :
    ∃ d', (d.readTrailer trailer).endUploadData = some d' ∧
      d'.output = d.output ++ if (d.readTrailer trailer).chunkedRequest then lastChunk else [] := by
  have hzero : str "0\r\n\r\n" = lastChunk := by decide
  obtain ⟨hout,hdconn,-,-⟩ := d.readTrailer_frame trailer
  rw [Downstream.endUploadData]
  cases hchunked : (d.readTrailer trailer).chunkedRequest with
  | true =>
    rw [if_pos rfl,if_pos (hdconn.trans hconn),if_pos rfl,hzero]
    exact ⟨_,rfl,congrArg (· ++ lastChunk) hout⟩
  | false =>
    rw [if_neg Bool.false_ne_true,if_neg Bool.false_ne_true]
    exact ⟨_,rfl,hout.trans (List.append_nil _).symm⟩

theorem relayed_of_parseBody {d d' : Downstream} (hconn : d.dconn = true) {datas : List Bytes} (trailer : List HeaderCallback)
    (hbody : parseBody d datas = some d') (hd' : d' = { d with output := d.output ++ datas.flatten }) :
    Relayed d datas trailer ↔ (d'.readTrailer trailer).chunkedRequest = true ∧ datas.flatten = [] := by
  have hconn' : d'.dconn = true := by
    rw [hd']
    exact hconn
  have hout : d'.output = d.output ++ datas.flatten := by
    rw [hd']
  obtain ⟨d'',hend,hlast⟩ := endTrailer_output hconn' trailer
  rw [hout,List.append_assoc] at hlast
  have hupload : upload d datas trailer = some d'' := by
    rw [upload,hbody,Option.bind_some,hend]
  rw [← decode_raw_iff]
  constructor
  · rintro ⟨x,coded,hx,hcoded,hdec⟩
    cases hupload.symm.trans hx
    rw [List.append_cancel_left (hlast.symm.trans hcoded)]
    exact hdec
  · exact fun hdec => ⟨d'',_,hupload,hlast,hdec⟩

/-- A body is relayed only when it is empty and the flag is set at its end. Once the flag is
set the first piece is refused, an empty one, too. -/
theorem relayed_iff {d : Downstream} (hconn : d.dconn = true) (datas : List Bytes) (trailer : List HeaderCallback) :
    Relayed d datas trailer ↔ (d.readTrailer trailer).chunkedRequest = true ∧ datas.flatten = [] ∧
      (d.chunkedRequest = true → datas = []) := by
  have hflag : ∀ output : Bytes, ({ d with output := output }.readTrailer trailer).chunkedRequest =
      (d.readTrailer trailer).chunkedRequest := by
    intro output
    obtain ⟨-,-,-,h1⟩ := d.readTrailer_frame trailer
    obtain ⟨-,-,-,h2⟩ := Downstream.readTrailer_frame { d with output := output } trailer
    have hsame := h2.trans h1.symm
    exact congrArg (fun h => h.flags.chunkedRequest) hsame
  by_cases hchunked : d.chunkedRequest = true
  · cases datas with
    | nil =>
      have hnone : d = { d with output := d.output ++ ([] : List Bytes).flatten } := by
        rw [List.flatten_nil,List.append_nil]
      rw [relayed_of_parseBody hconn trailer rfl hnone]
      simp
    | cons data datas =>
      refine iff_of_false ?_ (fun h => absurd (h.2.2 hchunked) (List.cons_ne_nil _ _))
      rintro ⟨d',coded,hup,-⟩
      rw [upload,parseBody_chunked hconn hchunked] at hup
      cases hup
  · rw [relayed_of_parseBody hconn trailer (parseBody_raw ⟨hconn,Bool.eq_false_of_not_eq_true hchunked⟩ datas) rfl,hflag]
    simp [hchunked]

/-! A request. -/

section
variable (config : Config) (ipaddr method path : Bytes) (httpMajor httpMinor : Nat) (shouldKeepAlive : Bool)

theorem htpHdrsCompletecb_attached (h : HeaderFields RequestFlags) :
    (htpHdrsCompletecb config ipaddr 0 method path httpMajor httpMinor shouldKeepAlive h).1.dconn = true ∧
      (htpHdrsCompletecb config ipaddr 0 method path httpMajor httpMinor shouldKeepAlive h).1.headerFields = h := by
  rw [htpHdrsCompletecb,if_neg (not_not.mpr rfl)]
  exact ⟨rfl,rfl⟩

/-- Of the requests whose body comes in chunks, those are relayed that have no body and whose
transfer coding is named in the first piece of a value, in the head or behind the body. -/
theorem chunked_upload_relayed_iff (head : CutFields) (datas : List Bytes) (trailer : CutFields) :
    Relayed (htpHdrsCompletecb config ipaddr 0 method path httpMajor httpMinor shouldKeepAlive
        (requestFields head)).1 datas trailer.callbacks ↔
      mentions (str "transfer-encoding") (str "chunked") CutField.firstValue (head.append trailer).fields = true ∧
        datas.flatten = [] ∧
        (mentions (str "transfer-encoding") (str "chunked") CutField.firstValue head.fields = true → datas = []) := by
  obtain ⟨hconn,hfields⟩ := htpHdrsCompletecb_attached config ipaddr method path httpMajor httpMinor shouldKeepAlive
    (requestFields head)
  rw [relayed_iff hconn]
  generalize (htpHdrsCompletecb config ipaddr 0 method path httpMajor httpMinor shouldKeepAlive (requestFields head)).1 = d
    at hfields
  obtain ⟨-,-,-,htrailer⟩ := d.readTrailer_frame trailer.callbacks
  rw [hfields,requestFields,← List.foldl_append,← CutFields.callbacks_append,← requestFields] at htrailer
  have hhead := congrArg (fun h => h.flags.chunkedRequest) hfields
  have hend := congrArg (fun h => h.flags.chunkedRequest) htrailer
  dsimp only [Downstream.headerFields] at hhead hend
  rw [hhead,hend,requestFields_flags,requestFields_flags]

end

/-- A body of one piece is refused. -/
theorem chunked_upload_refused :
    ¬Relayed (htpHdrsCompletecb ⟨false,false⟩ [] 0 (str "POST") (str "/") 1 1 true
      (requestFields ⟨[{ firstName := str "Transfer-Encoding", firstValue := str "chunked" }],[]⟩)).1 [str "hello"] [] := by
  rw [relayed_iff (htpHdrsCompletecb_attached ⟨false,false⟩ [] (str "POST") (str "/") 1 1 true _).1]
  rintro ⟨-,h,-⟩
  cases h

end Shrpx
end Spdylay
