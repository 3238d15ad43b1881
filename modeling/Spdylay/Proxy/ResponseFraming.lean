import Spdylay.Library.ChunkedCoding
import Spdylay.Proxy.HeaderFields

/-! The response of a backend on its way to an HTTP/1.1 client. Appending to a buffer
succeeds. -/
namespace Spdylay
namespace Shrpx
open Library.Http

/-! What the response parser hands over. -/

def shrpxReadWarterMark : Nat := 65536

/-- Data of one body callback: the parser has marked some of the bytes it was given, and no
more than the read buffer can hold. -/
structure BodyPiece where
  data : Bytes
  ne_nil : data ≠ []
  bounded : data.length ≤ shrpxReadWarterMark
  deriving DecidableEq, Repr

/-- A response and what is known of its request. -/
structure ResponseMessage where
  requestMethod : Bytes
  requestMajor : Nat := 1
  requestMinor : Nat := 1
  requestConnectionClose : Bool := false
  statusCode : Nat
  httpMajor : Nat := 1
  httpMinor : Nat := 1
  shouldKeepAlive : Bool := true
  fields : CutFields
  /-- Whether the parser has met an Upgrade field: what follows is then body up to the end
  of the connection, whatever the callback for the head returns. -/
  upgrade : Bool := false
  /-- Whether the parser reads a body in chunks, with `trailer` behind it. -/
  chunked : Bool := false
  pieces : List BodyPiece
  trailer : CutFields := {}
  deriving DecidableEq, Repr

/-- What `htp_hdrs_completecb` returns to the parser. -/
def skipsBody (requestMethod : Bytes) (status : Nat) : Bool :=
  requestMethod = str "HEAD" || (100 ≤ status && status ≤ 199) || status = 204 || status = 304

/-- The body as the parser delivers it. -/
def ResponseMessage.delivered (m : ResponseMessage) : List BodyPiece :=
  if m.upgrade then m.pieces
  else if skipsBody m.requestMethod m.statusCode then []
  else m.pieces

/-- The fields behind the body as the parser delivers them. -/
def ResponseMessage.deliveredTrailer (m : ResponseMessage) : CutFields :=
  if m.upgrade then {}
  else if skipsBody m.requestMethod m.statusCode then {}
  else if m.chunked then m.trailer
  else {}

/-! The head. -/

def statusStrings : List (Nat × String) :=
  [(100,"100 Continue"),(101,"101 Switching Protocols"),(200,"200 OK"),(201,"201 Created"),(202,"202 Accepted"),
    (203,"203 Non-Authoritative Information"),(204,"204 No Content"),(205,"205 Reset Content"),
    (206,"206 Partial Content"),(300,"300 Multiple Choices"),(301,"301 Moved Permanently"),(302,"302 Found"),
    (303,"303 See Other"),(304,"304 Not Modified"),(305,"305 Use Proxy"),(307,"307 Temporary Redirect"),
    (400,"400 Bad Request"),(401,"401 Unauthorized"),(402,"402 Payment Required"),(403,"403 Forbidden"),
    (404,"404 Not Found"),(405,"405 Method Not Allowed"),(406,"406 Not Acceptable"),
    (407,"407 Proxy Authentication Required"),(408,"408 Request Timeout"),(409,"409 Conflict"),(410,"410 Gone"),
    (411,"411 Length Required"),(412,"412 Precondition Failed"),(413,"413 Request Entity Too Large"),
    (414,"414 Request-URI Too Long"),(415,"415 Unsupported Media Type"),(416,"416 Requested Range Not Satisfiable"),
    (417,"417 Expectation Failed"),(500,"500 Internal Server Error"),(501,"501 Not Implemented"),(502,"502 Bad Gateway"),
    (503,"503 Service Unavailable"),(504,"504 Gateway Timeout"),(505,"505 HTTP Version Not Supported")]

def getStatusString (statusCode : Nat) : Bytes := str ((statusStrings.lookup statusCode).getD "")

/-- A version number as `%d` prints it. -/
def decimalText (n : Nat) : Bytes := str (toString n)

/-- Fields that go no further. -/
def isHopByHop (name : Bytes) : Bool :=
  strieq (cstr name) (str "keep-alive") || strieq (cstr name) (str "connection") ||
    strieq (cstr name) (str "proxy-connection")

def forwardsResponseField (i : Bytes × Bytes) : Bool := !isHopByHop i.1 && !strieq (cstr i.1) (str "via")

def forwardedHeaders (headers : Nv) : Nv := headers.filter forwardsResponseField

/-- The text of the head so far, and the last Via value. -/
def responseHeadStep (a : Bytes × Bytes) (i : Bytes × Bytes) : Bytes × Bytes :=
  if isHopByHop i.1 then a
  else if strieq (cstr i.1) (str "via") then (a.1,i.2)
  else (a.1 ++ i.1 ++ str ": " ++ i.2 ++ str "\r\n",a.2)

def onDownstreamHeaderComplete (m : ResponseMessage) (headers : Nv) : Bytes :=
  let a := headers.foldl responseHeadStep
    (str "HTTP/" ++ decimalText m.requestMajor ++ str "." ++ decimalText m.requestMinor ++ str " " ++
      getStatusString m.statusCode ++ str "\r\n",[])
  let hdrs :=
    if !m.requestConnectionClose && m.shouldKeepAlive then
      if m.requestMajor = 0 ∨ m.requestMinor = 0 then a.1 ++ str "Connection: Keep-Alive\r\n" else a.1
    else a.1 ++ str "Connection: close\r\n"
  hdrs ++ str "Via: " ++ a.2 ++ (if a.2 ≠ [] then str ", " else []) ++
    Downstream.createViaHeaderValue m.httpMajor m.httpMinor ++ str "\r\n" ++ str "\r\n"

/-! The body. -/

/-- The flag of the response and what was written to the client. -/
structure Reply where
  chunkedResponse : Bool
  output : Bytes
  shouldCloseAfterWrite : Bool := false
  deriving DecidableEq, Repr

def onDownstreamBody (r : Reply) (data : Bytes) : Reply :=
  if r.chunkedResponse then
    { r with output := r.output ++ Downstream.chunkSizeHex data.length ++ data ++ str "\r\n" }
  else { r with output := r.output ++ data }

def onDownstreamBodyComplete (m : ResponseMessage) (r : Reply) : Reply :=
  let r := if r.chunkedResponse then { r with output := r.output ++ str "0\r\n\r\n" } else r
  if m.requestConnectionClose || !m.shouldKeepAlive then { r with shouldCloseAfterWrite := true } else r

/-- The reply when its head is written. -/
def startReply (m : ResponseMessage) : Reply where
  chunkedResponse := (responseFields m.fields).flags
  output := onDownstreamHeaderComplete m (responseFields m.fields).headers

/-- The fields behind the body are not written, but they can set the flag. -/
def readResponseTrailer (m : ResponseMessage) (r : Reply) : Reply :=
  { r with chunkedResponse := (m.deliveredTrailer.callbacks.foldl responseHdrcb (responseFields m.fields)).flags }

/-- From the head to the end of the message. -/
def relayResponse (m : ResponseMessage) : Reply :=
  onDownstreamBodyComplete m
    (readResponseTrailer m ((m.delivered.map BodyPiece.data).foldl onDownstreamBody (startReply m)))

/-! What the body callbacks write. -/

theorem chunkSizeHex_eq {n : Nat} (h : n < 4294967296) : Downstream.chunkSizeHex n = numeral 16 n ++ [13,10] := by
  have hcrlf : str "\r\n" = [13,10] := by decide
  rw [Downstream.chunkSizeHex,Nat.mod_eq_of_lt h,hcrlf,numeral]

theorem onDownstreamBody_chunked {r : Reply} (h : r.chunkedResponse = true) (p : BodyPiece) :
    onDownstreamBody r p.data = { r with output := r.output ++ chunk p.data } := by
  have hcrlf : str "\r\n" = [13,10] := by decide
  have hlen : p.data.length < 4294967296 := lt_of_le_of_lt p.bounded (by decide)
  rw [onDownstreamBody,if_pos h,chunkSizeHex_eq hlen,hcrlf,chunk]
  simp

theorem onDownstreamBody_raw {r : Reply} (h : r.chunkedResponse = false) (data : Bytes) :
    onDownstreamBody r data = { r with output := r.output ++ data } :=
  if_neg (ne_true_of_eq_false h)

/-- The pieces as they are written. -/
def codedPieces (chunked : Bool) (pieces : List BodyPiece) : Bytes :=
  if chunked then (pieces.map BodyPiece.data).flatMap chunk else (pieces.map BodyPiece.data).flatten

theorem foldl_onDownstreamBody (pieces : List BodyPiece) (r : Reply) :
    (pieces.map BodyPiece.data).foldl onDownstreamBody r =
      { r with output := r.output ++ codedPieces r.chunkedResponse pieces } := by
  induction pieces generalizing r with
  | nil => cases r with | mk chunked => cases chunked <;> simp [codedPieces]
  | cons p pieces ih =>
    rw [List.map_cons,List.foldl_cons]
    cases h : r.chunkedResponse with
    | true =>
      rw [onDownstreamBody_chunked h,ih]
      simp [codedPieces,h]
    | false =>
      rw [onDownstreamBody_raw h,ih]
      simp [codedPieces,h]

/-- The flag when the message ends. -/
def chunkedAtEnd (m : ResponseMessage) : Bool :=
  (m.deliveredTrailer.callbacks.foldl responseHdrcb (responseFields m.fields)).flags

/-- What follows the head. -/
def bodyOutput (m : ResponseMessage) : Bytes :=
  codedPieces (responseFields m.fields).flags m.delivered ++ (if chunkedAtEnd m then lastChunk else [])

theorem relayResponse_output (m : ResponseMessage) :
    (relayResponse m).output = onDownstreamHeaderComplete m (responseFields m.fields).headers ++ bodyOutput m := by
  have hzero : str "0\r\n\r\n" = lastChunk := by decide
  rw [relayResponse,foldl_onDownstreamBody,readResponseTrailer,onDownstreamBodyComplete,bodyOutput,startReply,← chunkedAtEnd]
  dsimp only
  cases chunkedAtEnd m with
  | true =>
    rw [if_pos rfl,if_pos rfl,hzero]
    split <;> exact List.append_assoc _ _ _
  | false =>
    rw [if_neg Bool.false_ne_true,if_neg Bool.false_ne_true,List.append_nil]
    split <;> rfl

/-! Framing. -/

def forwardsChunked (m : ResponseMessage) : Bool :=
  (forwardedHeaders (responseFields m.fields).headers).any
    (fun i => strieq (cstr i.1) (str "transfer-encoding") && strifind (cstr i.2) (str "chunked"))

/-- Nothing follows the head of a response without a body. The body of another one follows
in chunks if the forwarded fields announce them, and else as it is. -/
def Framed (m : ResponseMessage) : Prop :=
  ∃ rest, (relayResponse m).output = onDownstreamHeaderComplete m (responseFields m.fields).headers ++ rest ∧
    if skipsBody m.requestMethod m.statusCode then rest = []
    else if forwardsChunked m then decode rest = some ((m.delivered.map BodyPiece.data).flatten,[])
    else rest = (m.delivered.map BodyPiece.data).flatten

theorem framed_iff_bodyOutput (m : ResponseMessage) : Framed m ↔
    if skipsBody m.requestMethod m.statusCode then bodyOutput m = []
    else if forwardsChunked m then decode (bodyOutput m) = some ((m.delivered.map BodyPiece.data).flatten,[])
    else bodyOutput m = (m.delivered.map BodyPiece.data).flatten := by
  rw [Framed,relayResponse_output]
  constructor
  · rintro ⟨rest,hout,h⟩
    rw [List.append_cancel_left hout]
    exact h
  · intro h
    exact ⟨bodyOutput m,rfl,h⟩

/-- The transfer coding is forwarded. -/
theorem forwardsChunked_eq (m : ResponseMessage) :
    forwardsChunked m = mentions (str "transfer-encoding") (str "chunked") CutField.value m.fields.fields := by
  have hbare : ∀ b : Bool, (forwardsResponseField (m.fields.bareName.flatten,[]) && (b && strifind (cstr []) (str "chunked"))) =
      false := by
    intro b
    have hno : strifind (cstr []) (str "chunked") = false := rfl
    rw [hno,Bool.and_false,Bool.and_false]
  rw [forwardsChunked,responseFields_eq,mentions,forwardedHeaders,List.any_filter,CutFields.headers,List.any_append,
    List.any_map]
  have hlast : (if m.fields.bareName = [] then [] else [(m.fields.bareName.flatten,[])]).any (fun i =>
      forwardsResponseField i && (strieq (cstr i.1) (str "transfer-encoding") && strifind (cstr i.2) (str "chunked"))) =
      false := by
    split
    · rfl
    · rw [List.any_cons,List.any_nil,Bool.or_false]
      exact hbare _
  rw [hlast,Bool.or_false]
  congr 1
  funext f
  rw [Function.comp]
  cases h : strieq (cstr f.name) (str "transfer-encoding") with
  | false => rw [Bool.false_and,Bool.and_false]
  | true =>
    -- none of the fields that stay behind has this name
    rw [forwardsResponseField,isHopByHop,strieq_eq_false h (c := str "keep-alive") (by decide),
      strieq_eq_false h (c := str "connection") (by decide),strieq_eq_false h (c := str "proxy-connection") (by decide),
      strieq_eq_false h (c := str "via") (by decide)]
    rfl

theorem codedPieces_eq_nil_iff (chunked : Bool) (pieces : List BodyPiece) : codedPieces chunked pieces = [] ↔ pieces = [] := by
  cases pieces with
  | nil => cases chunked <;> exact iff_of_true rfl rfl
  | cons p pieces =>
    refine iff_of_false ?_ nofun
    cases chunked with
    | true => simp [codedPieces,chunk]
    | false => simp [codedPieces,p.ne_nil]

theorem decode_codedPieces (pieces : List BodyPiece) :
    decode (codedPieces true pieces ++ lastChunk) = some ((pieces.map BodyPiece.data).flatten,[]) := by
  apply decode_chunks
  intro data hdata
  obtain ⟨p,-,rfl⟩ := List.mem_map.mp hdata
  exact p.ne_nil

/-- Without a body nothing is written just where the parser delivers nothing and the flag is off
at the end. -/
theorem bodyOutput_eq_nil_iff (m : ResponseMessage) : bodyOutput m = [] ↔ chunkedAtEnd m = false ∧ m.delivered = [] := by
  rw [bodyOutput,List.append_eq_nil_iff,codedPieces_eq_nil_iff,and_comm]
  cases chunkedAtEnd m with
  | true => exact iff_of_false (fun h => absurd h.1 (by decide)) (by rintro ⟨⟨⟩,-⟩)
  | false => exact and_congr_left fun _ => iff_of_true rfl rfl

theorem delivered_of_skipped {m : ResponseMessage} (h : skipsBody m.requestMethod m.statusCode = true) :
    m.delivered = [] ↔ (m.upgrade = true → m.pieces = []) := by
  rw [ResponseMessage.delivered,if_pos h]
  cases m.upgrade <;> simp

theorem chunkedAtEnd_eq (m : ResponseMessage) : chunkedAtEnd m =
    mentions (str "transfer-encoding") (str "chunked") CutField.firstValue (m.fields.append m.deliveredTrailer).fields := by
  rw [chunkedAtEnd,responseFields,← List.foldl_append,← CutFields.callbacks_append,← responseFields,responseFields_eq]

theorem chunkedAtEnd_of_skipped {m : ResponseMessage} (h : skipsBody m.requestMethod m.statusCode = true) :
    chunkedAtEnd m = (responseFields m.fields).flags := by
  rw [chunkedAtEnd,ResponseMessage.deliveredTrailer,if_pos h,ite_self]
  rfl

theorem flatten_pieces_eq_nil_iff (pieces : List BodyPiece) : (pieces.map BodyPiece.data).flatten = [] ↔ pieces = [] := by
  rw [← codedPieces_eq_nil_iff false pieces,codedPieces,if_neg Bool.false_ne_true]

/-- A response keeps its framing just where: without a body it announces no chunks and, if
it asks for an upgrade, nothing comes behind it; with a body, its head announces chunks in the
first piece of a value, or does not announce them and the fields behind the body do not either,
or announces them past the first piece, the body is empty and the fields behind it announce
them again. -/
theorem framed_iff (m : ResponseMessage) : Framed m ↔
    if skipsBody m.requestMethod m.statusCode then
      mentions (str "transfer-encoding") (str "chunked") CutField.firstValue m.fields.fields = false ∧
        (m.upgrade = true → m.pieces = [])
    else
      mentions (str "transfer-encoding") (str "chunked") CutField.firstValue m.fields.fields = true ∨
        if mentions (str "transfer-encoding") (str "chunked") CutField.value m.fields.fields then
          mentions (str "transfer-encoding") (str "chunked") CutField.firstValue
            (m.fields.append m.deliveredTrailer).fields = true ∧ m.pieces = []
        else
          mentions (str "transfer-encoding") (str "chunked") CutField.firstValue
            (m.fields.append m.deliveredTrailer).fields = false := by
  have hflag : (responseFields m.fields).flags =
      mentions (str "transfer-encoding") (str "chunked") CutField.firstValue m.fields.fields := by
    rw [responseFields_eq]
  rw [framed_iff_bodyOutput,forwardsChunked_eq]
  split
  · rename_i hskip
    rw [bodyOutput_eq_nil_iff,delivered_of_skipped hskip,chunkedAtEnd_of_skipped hskip,hflag]
  · rename_i hskip
    have hdelivered : m.delivered = m.pieces := by
      rw [ResponseMessage.delivered,if_neg hskip,ite_self]
    rw [bodyOutput,hdelivered,hflag]
    by_cases hfirst : mentions (str "transfer-encoding") (str "chunked") CutField.firstValue m.fields.fields = true
    · have hend : chunkedAtEnd m = true := by
        rw [chunkedAtEnd_eq]
        exact mentions_append hfirst _
      rw [if_pos (mentions_of_first hfirst),hfirst,hend,if_pos rfl]
      exact iff_of_true (decode_codedPieces _) (.inl rfl)
    · rw [Bool.eq_false_of_not_eq_true hfirst,codedPieces,if_neg Bool.false_ne_true,← chunkedAtEnd_eq]
      refine Iff.trans ?_ (or_iff_right Bool.false_ne_true).symm
      split
      · rw [decode_raw_iff,flatten_pieces_eq_nil_iff]
      · -- nothing may follow the body
        cases chunkedAtEnd m with
        | true => exact iff_of_false (fun h => absurd (List.append_right_eq_self.mp h) (by decide)) (by rintro ⟨⟩)
        | false => exact iff_of_true (List.append_nil _) rfl

/-- The response to HEAD of a resource that is sent in chunks ends with the last chunk. -/
theorem head_response_not_framed :
    ¬Framed { requestMethod := str "HEAD", statusCode := 200, chunked := true, pieces := [],
              fields := ⟨[{ firstName := str "Transfer-Encoding", firstValue := str "chunked" }],[]⟩ } := by
  rw [framed_iff_bodyOutput,if_pos (by decide)]
  decide

end Shrpx
end Spdylay
