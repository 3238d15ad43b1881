import Spdylay.Library.HttpMessage
import Spdylay.Proxy.Request
import Spdylay.Wire.HeaderBlocks

/-! What the backend reads of a SPDY request by the rules of HTTP/1.1. -/
namespace Spdylay
namespace Shrpx
open Library.Http

/-! The scan of a header list. -/

/-- The value of the last pair of a name. -/
def lastValue (name : Bytes) (nv : Nv) : Option Bytes :=
  nv.foldl (fun v i => if i.1 = name then some i.2 else v) none

/-- The pairs that are request headers. -/
def headersOf (nv : Nv) : Nv := nv.filter (fun i => i.1.head? ≠ some 58)

theorem scan_path (nv : Nv) : (nv.foldl scanStep {}).path = lastValue (str ":path") nv := by
  refine (List.foldl_hom Scan.path ?_).symm
  intro s i
  rw [scanStep]
  split_ifs <;> rfl

theorem scan_scheme (nv : Nv) : (nv.foldl scanStep {}).scheme = lastValue (str ":scheme") nv := by
  refine (List.foldl_hom Scan.scheme ?_).symm
  intro s i
  rw [scanStep]
  by_cases h : i.1 = str ":scheme"
  · have h1 : str ":scheme" ≠ str ":path" := by decide
    rw [h,if_neg h1]
    rfl
  · rw [if_neg h,if_neg h]
    split_ifs <;> rfl

theorem scan_method (nv : Nv) : (nv.foldl scanStep {}).method = lastValue (str ":method") nv := by
  refine (List.foldl_hom Scan.method ?_).symm
  intro s i
  rw [scanStep]
  by_cases h : i.1 = str ":method"
  · have h1 : str ":method" ≠ str ":path" := by decide
    have h2 : str ":method" ≠ str ":scheme" := by decide
    rw [h,if_neg h1,if_neg h2]
    rfl
  · rw [if_neg h,if_neg h]
    split_ifs <;> rfl

theorem scan_host (nv : Nv) : (nv.foldl scanStep {}).host = lastValue (str ":host") nv := by
  refine (List.foldl_hom Scan.host ?_).symm
  intro s i
  rw [scanStep]
  by_cases h : i.1 = str ":host"
  · have h1 : str ":host" ≠ str ":path" := by decide
    have h2 : str ":host" ≠ str ":scheme" := by decide
    have h3 : str ":host" ≠ str ":method" := by decide
    rw [h,if_neg h1,if_neg h2,if_neg h3]
    rfl
  · rw [if_neg h,if_neg h]
    split_ifs <;> rfl

/-- The request is empty but for the method and the headers. -/
theorem scanStep_downstream {s : Scan} {headers : Nv}
    (h : s.downstream =
      { requestMethod := s.method.getD [], requestHeaders := headers, requestHeaderKeyPrev := !headers.isEmpty })
    (i : Bytes × Bytes) : (scanStep s i).downstream =
      { requestMethod := (scanStep s i).method.getD []
        requestHeaders := headers ++ headersOf [i]
        requestHeaderKeyPrev := !(headers ++ headersOf [i]).isEmpty } := by
  have hnil : headers = headers ++ [] := (List.append_nil _).symm
  by_cases hc : i.1.head? = some 58
  · have hno : headersOf [i] = [] := by
      simp [headersOf,hc]
    rw [hno,← hnil,scanStep]
    split_ifs
    · exact h
    · exact h
    · rw [h]
      rfl
    · exact h
    · exact absurd hc ‹_›
    · exact h
  · have hone : headersOf [i] = [i] := by
      simp [headersOf,hc]
    have hne : ∀ name : Bytes, name.head? = some 58 → i.1 ≠ name := by
      rintro name hname rfl
      exact hc hname
    rw [hone,scanStep,if_neg (hne _ (by decide)),if_neg (hne _ (by decide)),if_neg (hne _ (by decide)),
      if_neg (hne _ (by decide)),if_pos hc,h]
    simp [Downstream.addRequestHeader]

theorem scan_downstream (nv : Nv) : (nv.foldl scanStep {}).downstream =
    { requestMethod := (nv.foldl scanStep {}).method.getD []
      requestHeaders := headersOf nv
      requestHeaderKeyPrev := !(headersOf nv).isEmpty } := by
  induction nv using List.reverseRecOn with
  | nil => rfl
  | append_singleton nv i ih =>
    rw [List.foldl_concat,scanStep_downstream ih,headersOf,headersOf,headersOf,List.filter_append]

/-! The head. -/

/-- The headers that are copied. -/
def forwards (i : Bytes × Bytes) : Bool :=
  !(strieq i.1 (str "X-Forwarded-Proto") || strieq i.1 (str "keep-alive") || strieq i.1 (str "connection") ||
    strieq i.1 (str "proxy-connection")) && !strieq i.1 (str "via") && !strieq i.1 (str "x-forwarded-for") &&
    !(strieq i.1 (str "expect") && strifind i.2 (str "100-continue"))

/-- The value of the last header of a name in any case, empty without one. -/
def lastHeader (name : Bytes) (headers : Nv) : Bytes :=
  headers.foldl (fun v i => if strieq i.1 name then i.2 else v) []

theorem headStep_hdrs (a : Downstream.Head) (i : Bytes × Bytes) :
    (Downstream.headStep a i).hdrs = a.hdrs ++ (if forwards i then fieldLine i else []) := by
  have hcolon : str ": " = [58,32] := by decide
  have hcrlf : str "\r\n" = [13,10] := by decide
  rw [Downstream.headStep]
  split_ifs <;> simp_all [forwards,fieldLine]

theorem head_hdrs (a : Downstream.Head) (headers : Nv) :
    (headers.foldl Downstream.headStep a).hdrs = a.hdrs ++ (headers.filter forwards).flatMap fieldLine := by
  induction headers generalizing a with
  | nil => exact (List.append_nil _).symm
  | cons i headers ih =>
    rw [List.foldl_cons,ih,headStep_hdrs,List.filter_cons,List.append_assoc]
    split <;> rfl

theorem head_via (hdrs : Bytes) (headers : Nv) :
    (headers.foldl Downstream.headStep { hdrs := hdrs }).viaValue = lastHeader (str "via") headers := by
  refine (List.foldl_hom Downstream.Head.viaValue ?_).symm
  intro a i
  rw [Downstream.headStep]
  by_cases h : strieq i.1 (str "via") = true
  · rw [if_pos h,strieq_eq_false h (c := str "X-Forwarded-Proto") (by decide),
      strieq_eq_false h (c := str "keep-alive") (by decide),strieq_eq_false h (c := str "connection") (by decide),
      strieq_eq_false h (c := str "proxy-connection") (by decide),h]
    rfl
  · rw [if_neg h,if_neg h]
    split_ifs <;> rfl

theorem head_xff (hdrs : Bytes) (headers : Nv) :
    (headers.foldl Downstream.headStep { hdrs := hdrs }).xffValue = lastHeader (str "x-forwarded-for") headers := by
  refine (List.foldl_hom Downstream.Head.xffValue ?_).symm
  intro a i
  rw [Downstream.headStep]
  by_cases h : strieq i.1 (str "x-forwarded-for") = true
  · rw [if_pos h,strieq_eq_false h (c := str "X-Forwarded-Proto") (by decide),
      strieq_eq_false h (c := str "keep-alive") (by decide),strieq_eq_false h (c := str "connection") (by decide),
      strieq_eq_false h (c := str "proxy-connection") (by decide),strieq_eq_false h (c := str "via") (by decide),h]
    rfl
  · rw [if_neg h,if_neg h]
    split_ifs <;> rfl

/-! The fields behind the copied ones. -/

def xForwardedFor (config : Config) (ipaddr xff : Bytes) : Nv :=
  if config.addXForwardedFor then
    [(str "X-Forwarded-For",(if xff ≠ [] then xff ++ str ", " else []) ++ ipaddr)]
  else if xff ≠ [] then [(str "X-Forwarded-For",xff)]
  else []

def xForwardedProto (target : Bytes) : Bytes × Bytes :=
  (str "X-Forwarded-Proto",if istartsWith target (str "http:") then str "http" else str "https")

def viaField (via : Bytes) : Bytes × Bytes :=
  (str "Via",via ++ (if via ≠ [] then str ", " else []) ++ str "1.1 shrpx")

theorem requestHead_eq (config : Config) (ipaddr : Bytes) {d : Downstream} (hclose : d.requestConnectionClose = false)
    (hmajor : d.requestMajor = 1) (hminor : d.requestMinor = 1) (hconnect : d.requestMethod ≠ str "CONNECT") :
    d.requestHead config ipaddr = writeHead d.requestMethod d.requestPath (d.requestHeaders.filter forwards ++
      (xForwardedFor config ipaddr (lastHeader (str "x-forwarded-for") d.requestHeaders) ++
        [xForwardedProto d.requestPath,viaField (lastHeader (str "via") d.requestHeaders)])) := by
  have hcrlf : str "\r\n" = [13,10] := by decide
  have hspace : str " " = [32] := by decide
  have hversion : str "HTTP/1.1\r\n" = httpVersion ++ [13,10] := by decide
  have hxff : str "X-Forwarded-For: " = str "X-Forwarded-For" ++ [58,32] := by decide
  have hproto : str "X-Forwarded-Proto: " = str "X-Forwarded-Proto" ++ [58,32] := by decide
  have hvia : str "Via: " = str "Via" ++ [58,32] := by decide
  have hshrpx : Downstream.createViaHeaderValue 1 1 = str "1.1 shrpx" := by decide
  rw [Downstream.requestHead,head_hdrs,head_via,head_xff,if_neg (ne_true_of_eq_false hclose),hmajor,hminor,
    if_pos hconnect,hxff,hproto,hvia,hcrlf,hspace,hversion,hshrpx,xForwardedFor,xForwardedProto,viaField,writeHead]
  split_ifs <;> simp [fieldLine]

/-! The request of a stream. -/

def xForwardedSpdy (config : Config) : Nv :=
  if config.spdyProxy then [] else [(str "X-Forwarded-Spdy",str "true")]

/-- The pairs that are added behind the Host field. -/
def addedFields (config : Config) (ipaddr target : Bytes) (headers : Nv) : Nv :=
  xForwardedSpdy config ++ (xForwardedFor config ipaddr (lastHeader (str "x-forwarded-for") headers) ++
    [xForwardedProto target,viaField (lastHeader (str "via") headers)])

/-- The pairs that are forwarded or added, in the order in which they are sent. -/
def sentFields (config : Config) (ipaddr target host : Bytes) (headers : Nv) : Nv :=
  headers.filter forwards ++ (str "host",host) :: addedFields config ipaddr target headers

theorem filter_forwards_own (config : Config) (host : Bytes) (headers : Nv) :
    (headers ++ (str "host",host) :: xForwardedSpdy config).filter forwards =
      headers.filter forwards ++ (str "host",host) :: xForwardedSpdy config := by
  have hhost : forwards (str "host",host) = true := by
    have h : strieq (str "host") (str "expect") = false := by decide
    rw [forwards,h]
    rfl
  rw [List.filter_append,List.filter_cons,if_pos hhost,xForwardedSpdy]
  split <;> rfl

theorem lastHeader_own (config : Config) (host : Bytes) (headers : Nv) {name : Bytes}
    (hhost : strieq (str "host") name = false) (hspdy : strieq (str "X-Forwarded-Spdy") name = false) :
    lastHeader name (headers ++ (str "host",host) :: xForwardedSpdy config) = lastHeader name headers := by
  rw [lastHeader,List.foldl_append,List.foldl_cons,if_neg (ne_true_of_eq_false hhost),xForwardedSpdy]
  split
  · rfl
  · rw [List.foldl_cons,if_neg (ne_true_of_eq_false hspdy)]
    rfl

/-- The request when its connection is attached. -/
def requestOf (config : Config) (method target host : Bytes) (headers : Nv) : Downstream where
  requestMethod := method
  requestPath := target
  requestHeaders := headers ++ (str "host",host) :: xForwardedSpdy config
  requestHeaderKeyPrev := true
  dconn := true

theorem requestHead_requestOf (config : Config) (ipaddr target host : Bytes) (headers : Nv) {method : Bytes}
    (hconnect : method ≠ str "CONNECT") : (requestOf config method target host headers).requestHead config ipaddr =
      writeHead method target (sentFields config ipaddr target host headers) := by
  have hhead := requestHead_eq (d := requestOf config method target host headers) config ipaddr rfl rfl rfl hconnect
  rw [requestOf] at hhead ⊢
  rw [hhead,filter_forwards_own,lastHeader_own config host _ (by decide) (by decide),
    lastHeader_own config host _ (by decide) (by decide),sentFields,addedFields,List.append_assoc,List.cons_append]

section
variable {nv : Nv} {path host method : Bytes} (hpath : lastValue (str ":path") nv = some path)
  (hhost : lastValue (str ":host") nv = some host) (hmethod : lastValue (str ":method") nv = some method)
  (hconnect : method ≠ str "CONNECT")
include hpath hhost hmethod hconnect

theorem onCtrlRecvCallback_output (config : Config) (ipaddr : Bytes) (fin : Bool) :
    Raw (onCtrlRecvCallback config ipaddr 0 fin nv) ∧ (onCtrlRecvCallback config ipaddr 0 fin nv).output =
      writeHead method (requestPath config (lastValue (str ":scheme") nv) host path)
        (sentFields config ipaddr (requestPath config (lastValue (str ":scheme") nv) host path) host (headersOf nv)) := by
  have hd : onCtrlRecvCallback config ipaddr 0 fin nv =
      ((requestOf config method (requestPath config (lastValue (str ":scheme") nv) host path) host
        (headersOf nv)).pushRequestHeaders config ipaddr).setRequestState
          (if fin then .msgComplete else .headerComplete) := by
    rw [onCtrlRecvCallback,scan_path,scan_host,scan_scheme,scan_downstream,scan_method,hpath,hhost,hmethod]
    dsimp only
    rw [if_neg (not_not.mpr rfl)]
    cases fin <;> cases hc : config.spdyProxy <;>
      simp [requestOf,xForwardedSpdy,hc,Downstream.setRequestPath,Downstream.addRequestHeader,
        Downstream.setRequestState,Downstream.pushRequestHeaders]
  rw [hd]
  refine ⟨⟨rfl,rfl⟩,?_⟩
  rw [output_setRequestState,Downstream.pushRequestHeaders,requestHead_requestOf _ _ _ _ _ hconnect]
  rfl

/-- The head and behind it the data as it came. -/
theorem request_output (config : Config) (upstream : SpdyUpstream) (ipaddr : Bytes) (fin : Bool) (events : List Event) :
    (run upstream (onCtrlRecvCallback config ipaddr 0 fin nv) events).output =
      writeHead method (requestPath config (lastValue (str ":scheme") nv) host path)
        (sentFields config ipaddr (requestPath config (lastValue (str ":scheme") nv) host path) host (headersOf nv)) ++
      events.flatMap Event.data := by
  obtain ⟨hraw,hout⟩ := onCtrlRecvCallback_output hpath hhost hmethod hconnect config ipaddr fin
  rw [hraw.run_output,hout]

end

/-! One request. -/

/-- The bytes are a request with nothing behind it: the method and the target, one Host
field, the fields in their order, and the body. -/
def IsOneRequest (bytes method target host : Bytes) (fields : Nv) (body : Bytes) : Prop :=
  ∃ r : Library.Http.Request, readRequest bytes = some (r,[]) ∧ r.method = method ∧ r.target = target ∧
    valuesOf (str "host") r.fields = [host] ∧ r.fields = fields.map trimmed ∧ r.body = body

instance (bytes method target host : Bytes) (fields : Nv) (body : Bytes) :
    Decidable (IsOneRequest bytes method target host fields body) :=
  decidable_of_iff (∃ p ∈ readRequest bytes, p.2 = [] ∧ p.1.method = method ∧ p.1.target = target ∧
      valuesOf (str "host") p.1.fields = [host] ∧ p.1.fields = fields.map trimmed ∧ p.1.body = body) (by
    constructor
    · rintro ⟨⟨r,rest⟩,hr,rfl,h⟩
      exact ⟨r,hr,h⟩
    · rintro ⟨r,hr,h⟩
      exact ⟨(r,[]),hr,rfl,h⟩)

theorem validField_trimmed (f : Bytes × Bytes) : ValidField (trimmed f) ↔ ValidField f := by
  rw [ValidField,ValidField,trimmed,all_trim_iff]

theorem writeHead_isOneRequest_iff (method target host : Bytes) (fields : Nv) (body : Bytes) :
    IsOneRequest (writeHead method target fields ++ body) method target host fields body ↔
      isToken method = true ∧ isTarget target = true ∧ (∀ f ∈ fields, ValidField f) ∧
        valuesOf (str "host") (fields.map trimmed) = [host] ∧ valuesOf transferEncoding (fields.map trimmed) = [] ∧
        LengthIs (valuesOf contentLength (fields.map trimmed)) body.length := by
  rw [← readBody_all_iff]
  constructor
  · rintro ⟨r,hr,rfl,rfl,hhost,hfields,rfl⟩
    -- what was read passed the reader's own tests
    obtain ⟨hm,ht,hf⟩ := readRequest_valid hr
    have hvalid : ∀ f ∈ fields, ValidField f := by
      intro f hmem
      rw [← validField_trimmed]
      apply hf
      rw [hfields]
      exact List.mem_map_of_mem hmem
    rw [readRequest_write hm ht hvalid] at hr
    obtain ⟨p,hp,he⟩ := Option.map_eq_some_iff.mp hr
    rw [hfields] at hhost
    have hbody : p.1 = r.body := congrArg (fun q => q.1.body) he
    have hrest : p.2 = [] := congrArg Prod.snd he
    refine ⟨hm,ht,hvalid,hhost,hp.trans ?_⟩
    rw [← hbody,← hrest]
  · rintro ⟨hm,ht,hvalid,hhost,hbody⟩
    refine ⟨⟨method,target,fields.map trimmed,body⟩,?_,rfl,rfl,hhost,rfl,rfl⟩
    rw [readRequest_write hm ht hvalid,hbody]
    rfl

/-! The fields that the proxy adds. -/

theorem addedFields_name {config : Config} {ipaddr target : Bytes} {headers : Nv} {f : Bytes × Bytes}
    (h : f ∈ addedFields config ipaddr target headers) :
    f.1 ∈ [str "X-Forwarded-Spdy",str "X-Forwarded-For",str "X-Forwarded-Proto",str "Via"] := by
  rw [addedFields,List.mem_append,List.mem_append] at h
  rcases h with h | h | h
  · rw [xForwardedSpdy] at h
    split at h
    · cases h
    · rw [List.mem_singleton.mp h]
      exact List.mem_cons_self
  · have hf : f.1 = str "X-Forwarded-For" := by
      rw [xForwardedFor] at h
      split_ifs at h
      · rw [List.mem_singleton.mp h]
      · rw [List.mem_singleton.mp h]
      · rw [List.mem_singleton.mp h]
      · cases h
    rw [hf]
    decide
  · rcases List.mem_pair.mp h with rfl | rfl
    · rw [xForwardedProto]
      exact List.mem_cons_of_mem _ (List.mem_cons_of_mem _ List.mem_cons_self)
    · rw [viaField]
      exact List.mem_cons_of_mem _ (List.mem_cons_of_mem _ (List.mem_cons_of_mem _ List.mem_cons_self))

/-- None of them is named as one that the reader looks at. -/
theorem valuesOf_addedFields (config : Config) (ipaddr target : Bytes) (headers : Nv) {name : Bytes}
    (hname : ∀ n ∈ [str "X-Forwarded-Spdy",str "X-Forwarded-For",str "X-Forwarded-Proto",str "Via"], n.map lower ≠ name) :
    valuesOf name ((addedFields config ipaddr target headers).map trimmed) = [] := by
  rw [valuesOf_eq_nil_iff]
  intro f hf
  obtain ⟨g,hg,rfl⟩ := List.mem_map.mp hf
  exact hname g.1 (addedFields_name hg)

theorem validField_mk_iff {name value : Bytes} (hname : isToken name = true) :
    ValidField (name,value) ↔ value.all isFieldByte = true := and_iff_right hname

theorem validField_xForwardedFor_iff (config : Config) {ipaddr : Bytes} (hip : ipaddr.all isVchar = true) (xff : Bytes) :
    (∀ f ∈ xForwardedFor config ipaddr xff, ValidField f) ↔ xff.all isFieldByte = true := by
  have hname : isToken (str "X-Forwarded-For") = true := by decide
  have hcomma : (str ", ").all isFieldByte = true := by decide
  have hbyte : ∀ c, isVchar c = true → isFieldByte c = true := by
    intro c hc
    simp only [isVchar,isFieldByte,Bool.and_eq_true,Bool.or_eq_true,decide_eq_true_iff] at hc ⊢
    right
    refine ⟨UInt8.le_trans (show 32 ≤ 33 by decide) hc.1,?_⟩
    rintro rfl
    exact absurd hc.2 (by decide)
  have haddr : ipaddr.all isFieldByte = true := by
    rw [List.all_eq_true] at hip ⊢
    exact fun c hc => hbyte c (hip c hc)
  rw [xForwardedFor]
  split_ifs with ha hx hx
  · rw [List.forall_mem_singleton,validField_mk_iff hname,List.all_append,List.all_append,haddr,hcomma,Bool.and_true,
      Bool.and_true]
  · rw [not_not] at hx
    rw [List.forall_mem_singleton,validField_mk_iff hname,hx,List.nil_append,haddr]
    rfl
  · rw [List.forall_mem_singleton,validField_mk_iff hname]
  · rw [not_not] at hx
    rw [hx]
    exact iff_of_true (fun f hf => absurd hf List.not_mem_nil) rfl

theorem validField_viaField_iff (via : Bytes) : ValidField (viaField via) ↔ via.all isFieldByte = true := by
  have hname : isToken (str "Via") = true := by decide
  have hcomma : (str ", ").all isFieldByte = true := by decide
  have hshrpx : (str "1.1 shrpx").all isFieldByte = true := by decide
  rw [viaField,validField_mk_iff hname,List.all_append,List.all_append,hshrpx,Bool.and_true]
  split_ifs
  · rw [hcomma,Bool.and_true]
  · rw [List.all_nil,Bool.and_true]

theorem validField_addedFields_iff (config : Config) {ipaddr : Bytes} (hip : ipaddr.all isVchar = true) (target : Bytes)
    (headers : Nv) : (∀ f ∈ addedFields config ipaddr target headers, ValidField f) ↔
      (lastHeader (str "x-forwarded-for") headers).all isFieldByte = true ∧
        (lastHeader (str "via") headers).all isFieldByte = true := by
  have hspdy : ∀ f ∈ xForwardedSpdy config, ValidField f := by
    rw [xForwardedSpdy]
    split
    · exact List.forall_mem_nil _
    · decide
  have hproto : ValidField (xForwardedProto target) := by
    rw [xForwardedProto]
    split <;> decide
  rw [addedFields,List.forall_mem_append,List.forall_mem_append,and_iff_right hspdy,
    validField_xForwardedFor_iff config hip,List.forall_mem_cons,List.forall_mem_singleton,and_iff_right hproto,
    validField_viaField_iff]

/-! The header lists that are forwarded well. -/

/-- Values of the headers of a name in any case, without the blanks around them. -/
def headerValues (name : Bytes) (headers : Nv) : List Bytes :=
  (headers.filter (fun i => strieq i.1 name)).map (fun i => trim i.2)

/-- What has to hold of a request and of the number of bytes of its body. -/
structure Forwardable (method target host : Bytes) (headers : Nv) (bodyLength : Nat) : Prop where
  method : isToken method = true
  target : isTarget target = true
  fields : ∀ i ∈ headers, forwards i = true → ValidField i
  xForwardedFor : (lastHeader (str "x-forwarded-for") headers).all isFieldByte = true
  via : (lastHeader (str "via") headers).all isFieldByte = true
  host : host.all isFieldByte = true ∧ trim host = host
  otherHosts : headerValues (str "host") headers = []
  transferEncoding : headerValues (str "transfer-encoding") headers = []
  contentLength : LengthIs (headerValues (str "content-length") headers) bodyLength

/-- Names of the headers that the loop does not copy. -/
def notCopied : List Bytes := [str "X-Forwarded-Proto",str "keep-alive",str "connection",str "proxy-connection",
  str "via",str "x-forwarded-for",str "expect"]

theorem forwards_of_name {i : Bytes × Bytes} {name : Bytes} (h : strieq i.1 name = true)
    (hname : ∀ n ∈ notCopied, strieq name n = false) : forwards i = true := by
  have hno : ∀ n ∈ notCopied, strieq i.1 n = false := fun n hn => strieq_eq_false h (hname n hn)
  simp only [notCopied,List.forall_mem_cons] at hno
  obtain ⟨h1,h2,h3,h4,h5,h6,h7,-⟩ := hno
  rw [forwards,h1,h2,h3,h4,h5,h6,h7]
  rfl

theorem valuesOf_forwarded {name : Bytes} (hlower : name.map lowcase = name)
    (hname : ∀ n ∈ notCopied, strieq name n = false) (headers : Nv) :
    valuesOf name ((headers.filter forwards).map trimmed) = headerValues name headers := by
  induction headers with
  | nil => rfl
  | cons i headers ih =>
    rw [List.filter_cons,headerValues,List.filter_cons]
    have hiff : strieq i.1 name = true ↔ i.1.map lower = name := by
      rw [strieq_iff,hlower]
      exact Iff.rfl
    by_cases h : strieq i.1 name = true
    · rw [if_pos (forwards_of_name h hname),if_pos h,List.map_cons,valuesOf_cons,trimmed,if_pos (hiff.mp h),ih]
      rfl
    · rw [if_neg h,← headerValues,← ih]
      split
      · rw [List.map_cons,valuesOf_cons,trimmed,if_neg (fun hc => h (hiff.mpr hc))]
        rfl
      · rfl

/-- Of a name that no added field has the reader finds the headers of the client. -/
theorem valuesOf_sentFields {name : Bytes} (hlower : name.map lowcase = name)
    (hname : ∀ n ∈ notCopied, strieq name n = false)
    (hadded : ∀ n ∈ [str "X-Forwarded-Spdy",str "X-Forwarded-For",str "X-Forwarded-Proto",str "Via"], n.map lower ≠ name)
    (config : Config) (ipaddr target host : Bytes) (headers : Nv) :
    valuesOf name ((sentFields config ipaddr target host headers).map trimmed) =
      headerValues name headers ++ if str "host" = name then [trim host] else [] := by
  have hhost : (str "host").map lower = str "host" := by decide
  rw [sentFields,List.map_append,List.map_cons,valuesOf_append,valuesOf_cons,valuesOf_forwarded hlower hname,
    valuesOf_addedFields config ipaddr target headers hadded,List.append_nil,trimmed,hhost]

theorem isOneRequest_sentFields_iff (config : Config) {ipaddr : Bytes} (hip : ipaddr.all isVchar = true)
    (method target host : Bytes) (headers : Nv) (body : Bytes) :
    IsOneRequest (writeHead method target (sentFields config ipaddr target host headers) ++ body) method target host
      (sentFields config ipaddr target host headers) body ↔ Forwardable method target host headers body.length := by
  have hte : transferEncoding = str "transfer-encoding" := by decide
  have hcl : contentLength = str "content-length" := by decide
  have hname : isToken (str "host") = true := by decide
  rw [writeHead_isOneRequest_iff,hte,hcl,valuesOf_sentFields (by decide) (by decide) (by decide),
    valuesOf_sentFields (by decide) (by decide) (by decide),valuesOf_sentFields (by decide) (by decide) (by decide),
    if_pos rfl,if_neg (by decide),if_neg (by decide),List.append_nil,List.append_nil,List.append_eq_singleton_iff]
  have hvalid : (∀ f ∈ sentFields config ipaddr target host headers, ValidField f) ↔
      (∀ i ∈ headers, forwards i = true → ValidField i) ∧ host.all isFieldByte = true ∧
        (lastHeader (str "x-forwarded-for") headers).all isFieldByte = true ∧
          (lastHeader (str "via") headers).all isFieldByte = true := by
    rw [sentFields,List.forall_mem_append,List.forall_mem_cons,validField_mk_iff hname,
      validField_addedFields_iff config hip]
    simp only [List.mem_filter,and_imp]
  rw [hvalid]
  constructor
  · rintro ⟨hm,ht,⟨hf,hhost,hxff,hvia⟩,hhosts,hcoding,hlength⟩
    rcases hhosts with ⟨hnone,htrim⟩ | ⟨-,hnil⟩
    · exact ⟨hm,ht,hf,hxff,hvia,⟨hhost,List.singleton_inj.mp htrim⟩,hnone,hcoding,hlength⟩
    · cases hnil
  · intro h
    refine ⟨h.method,h.target,⟨h.fields,h.host.1,h.xForwardedFor,h.via⟩,?_,h.transferEncoding,h.contentLength⟩
    exact .inl ⟨h.otherHosts,congrArg (fun v => [v]) h.host.2⟩

/-- The backend reads one request exactly where names, values and target fit into a head,
the client sends no second Host, and it gives the length of what it sends. -/
theorem one_request_iff {nv : Nv} {path host method : Bytes} (hpath : lastValue (str ":path") nv = some path)
    (hhost : lastValue (str ":host") nv = some host) (hmethod : lastValue (str ":method") nv = some method)
    (hconnect : method ≠ str "CONNECT") (config : Config) (upstream : SpdyUpstream) {ipaddr : Bytes}
    (hip : ipaddr.all isVchar = true) (fin : Bool) (events : List Event) :
    IsOneRequest (run upstream (onCtrlRecvCallback config ipaddr 0 fin nv) events).output method
        (requestPath config (lastValue (str ":scheme") nv) host path) host
        (sentFields config ipaddr (requestPath config (lastValue (str ":scheme") nv) host path) host (headersOf nv))
        (events.flatMap Event.data) ↔
      Forwardable method (requestPath config (lastValue (str ":scheme") nv) host path) host (headersOf nv)
        (events.flatMap Event.data).length := by
  rw [request_output hpath hhost hmethod hconnect]
  exact isOneRequest_sentFields_iff config hip _ _ _ _ _

def postHeaders : Nv := [(str ":host",str "a.org"),(str ":method",str "POST"),(str ":path",str "/form"),
  (str ":scheme",str "https"),(str "accept",str "*/*"),(str "content-length",str "5"),(str "via",str "1.1 b")]

/-- A form that announces its length, in two DATA frames. -/
theorem announced_form_is_one_request :
    IsOneRequest (run ⟨true,65536⟩ (onCtrlRecvCallback ⟨false,true⟩ (str "192.0.2.1") 0 false postHeaders)
        [.dataChunk false (str "x=1"),.windowUpdate,.dataChunk true (str "&y")]).output (str "POST") (str "/form")
      (str "a.org") (sentFields ⟨false,true⟩ (str "192.0.2.1") (str "/form") (str "a.org") (headersOf postHeaders))
      (str "x=1&y") := by
  have hok : Forwardable (str "POST") (str "/form") (str "a.org") (headersOf postHeaders) 5 := by
    constructor <;> decide +kernel
  have hpath : lastValue (str ":path") postHeaders = some (str "/form") := by decide +kernel
  have hhost : lastValue (str ":host") postHeaders = some (str "a.org") := by decide +kernel
  have hmethod : lastValue (str ":method") postHeaders = some (str "POST") := by decide +kernel
  exact (one_request_iff hpath hhost hmethod (by decide) ⟨false,true⟩ ⟨true,65536⟩ (by decide) false
    [.dataChunk false (str "x=1"),.windowUpdate,.dataChunk true (str "&y")]).mpr hok

/-- A body without an announced length is left over behind a request that has none. -/
theorem unannounced_body_not_one_request :
    let nv : Nv := [(str ":host",str "a.org"),(str ":method",str "POST"),(str ":path",str "/form"),
      (str ":scheme",str "https")]
    frameUnpackNv (fun _ compar l => l.insertionSort (fun x y => compar x y ≤ 0)) [true] (blockBytes 4 nv) 4 =
        ([],nv,none) ∧
      lastValue (str ":path") nv = some (str "/form") ∧ lastValue (str ":host") nv = some (str "a.org") ∧
      lastValue (str ":method") nv = some (str "POST") ∧
      ¬IsOneRequest (run ⟨true,65536⟩ (onCtrlRecvCallback ⟨false,false⟩ (str "192.0.2.1") 0 false nv)
          [.dataChunk true (str "x=1&y")]).output (str "POST") (str "/form") (str "a.org")
        (sentFields ⟨false,false⟩ (str "192.0.2.1") (str "/form") (str "a.org") (headersOf nv)) (str "x=1&y") := by
  refine ⟨?_,?_,?_,?_,?_⟩ <;> decide +kernel

end Shrpx
end Spdylay
