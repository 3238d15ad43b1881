import Spdylay.Proxy.Request

/-! The header fields of a message as its HTTP parser hands them over: a name and a value
come in one callback or more. Some fields set a flag of the message. -/
namespace Spdylay
namespace Shrpx

/-! The fields of a message, with flags of any type. -/

structure HeaderFields (φ : Type) where
  headers : Nv := []
  keyPrev : Bool := false
  flags : φ
  deriving DecidableEq, Repr

namespace HeaderFields
variable {φ : Type}

/-- The field at the back, changed. -/
def modifyBack (f : Bytes × Bytes → Bytes × Bytes) (headers : Nv) : Nv :=
  headers.dropLast ++ (headers.getLast?.map f).toList

def addHeader (s : HeaderFields φ) (name value : Bytes) : HeaderFields φ :=
  { s with keyPrev := true, headers := s.headers ++ [(name,value)] }

/-- The only function that looks at what the field holds. -/
def setLastHeaderValue (check : φ → Bytes × Bytes → φ) (s : HeaderFields φ) (value : Bytes) : HeaderFields φ :=
  let headers := modifyBack (fun item => (item.1,value)) s.headers
  ⟨headers,false,(headers.getLast?.map (check s.flags)).getD s.flags⟩

def appendLastHeaderKey (s : HeaderFields φ) (data : Bytes) : HeaderFields φ :=
  { s with headers := modifyBack (fun item => (item.1 ++ data,item.2)) s.headers }

def appendLastHeaderValue (s : HeaderFields φ) (data : Bytes) : HeaderFields φ :=
  { s with headers := modifyBack (fun item => (item.1,item.2 ++ data)) s.headers }

end HeaderFields

inductive HeaderCallback
  | key (data : Bytes)
  | value (data : Bytes)
  deriving DecidableEq, Repr

/-- `htp_hdr_keycb` and `htp_hdr_valcb`. -/
def htpHdrcb {φ : Type} (check : φ → Bytes × Bytes → φ) (s : HeaderFields φ) : HeaderCallback → HeaderFields φ
  | .key data => if s.keyPrev then s.appendLastHeaderKey data else s.addHeader data []
  | .value data => if s.keyPrev then s.setLastHeaderValue check data else s.appendLastHeaderValue data

/-! The checks. -/

def checkHeaderField (result : Bool) (item : Bytes × Bytes) (name value : Bytes) : Bool :=
  if strieq (cstr item.1) name then
    if strifind (cstr item.2) value then true else result
  else result

def checkTransferEncodingChunked (chunked : Bool) (item : Bytes × Bytes) : Bool :=
  checkHeaderField chunked item (str "transfer-encoding") (str "chunked")

def checkExpect100Continue (res : Bool) (item : Bytes × Bytes) : Bool :=
  checkHeaderField res item (str "expect") (str "100-continue")

/-! Requests and responses. -/

structure RequestFlags where
  chunkedRequest : Bool := false
  requestExpect100Continue : Bool := false
  deriving DecidableEq, Repr

def checkRequestField (flags : RequestFlags) (item : Bytes × Bytes) : RequestFlags :=
  ⟨checkTransferEncodingChunked flags.chunkedRequest item,checkExpect100Continue flags.requestExpect100Continue item⟩

def addRequestHeader : HeaderFields RequestFlags → Bytes → Bytes → HeaderFields RequestFlags := HeaderFields.addHeader
def setLastRequestHeaderValue := HeaderFields.setLastHeaderValue checkRequestField
def appendLastRequestHeaderKey : HeaderFields RequestFlags → Bytes → HeaderFields RequestFlags :=
  HeaderFields.appendLastHeaderKey
def appendLastRequestHeaderValue : HeaderFields RequestFlags → Bytes → HeaderFields RequestFlags :=
  HeaderFields.appendLastHeaderValue

/-- The callbacks of `HttpsUpstream`. -/
def requestHdrcb (s : HeaderFields RequestFlags) : HeaderCallback → HeaderFields RequestFlags
  | .key data => if s.keyPrev then appendLastRequestHeaderKey s data else addRequestHeader s data []
  | .value data => if s.keyPrev then setLastRequestHeaderValue s data else appendLastRequestHeaderValue s data

/-- The flag of a response is `chunked_response_`. -/
def addResponseHeader : HeaderFields Bool → Bytes → Bytes → HeaderFields Bool := HeaderFields.addHeader
def setLastResponseHeaderValue := HeaderFields.setLastHeaderValue checkTransferEncodingChunked
def appendLastResponseHeaderKey : HeaderFields Bool → Bytes → HeaderFields Bool := HeaderFields.appendLastHeaderKey
def appendLastResponseHeaderValue : HeaderFields Bool → Bytes → HeaderFields Bool := HeaderFields.appendLastHeaderValue

/-- The callbacks of `Downstream`. -/
def responseHdrcb (s : HeaderFields Bool) : HeaderCallback → HeaderFields Bool
  | .key data => if s.keyPrev then appendLastResponseHeaderKey s data else addResponseHeader s data []
  | .value data => if s.keyPrev then setLastResponseHeaderValue s data else appendLastResponseHeaderValue s data

/-! A field in pieces. -/

/-- The pieces of a name and of a value, one of each at least. -/
structure CutField where
  firstName : Bytes
  moreName : List Bytes := []
  firstValue : Bytes
  moreValue : List Bytes := []
  deriving DecidableEq, Repr

namespace CutField

def name (f : CutField) : Bytes := (f.firstName :: f.moreName).flatten

def value (f : CutField) : Bytes := (f.firstValue :: f.moreValue).flatten

def callbacks (f : CutField) : List HeaderCallback :=
  (f.firstName :: f.moreName).map .key ++ (f.firstValue :: f.moreValue).map .value

/-- The same field in two callbacks. -/
def whole (f : CutField) : CutField := { firstName := f.name, firstValue := f.value }

@[simp] theorem name_whole (f : CutField) : f.whole.name = f.name := List.append_nil _

@[simp] theorem value_whole (f : CutField) : f.whole.value = f.value := List.append_nil _

end CutField

/-- The fields of the head of a message, or those behind its body. A line without a colon is
a name that the next name is added to; the last line can be one. -/
structure CutFields where
  fields : List CutField := []
  bareName : List Bytes := []
  deriving DecidableEq, Repr

namespace CutFields

def callbacks (p : CutFields) : List HeaderCallback := p.fields.flatMap CutField.callbacks ++ p.bareName.map .key

/-- The header list of the fields. -/
def headers (p : CutFields) : Nv :=
  p.fields.map (fun f => (f.name,f.value)) ++ if p.bareName = [] then [] else [(p.bareName.flatten,[])]

/-- The fields of `q` behind those of `p`: a name at the end of `p` is the beginning of the
next one. -/
def append (p q : CutFields) : CutFields :=
  match p.bareName, q.fields with
  | [], _ => ⟨p.fields ++ q.fields,q.bareName⟩
  | name :: names, [] => ⟨p.fields,(name :: names) ++ q.bareName⟩
  | name :: names, f :: fields =>
    ⟨p.fields ++ { f with firstName := name, moreName := names ++ f.firstName :: f.moreName } :: fields,q.bareName⟩

theorem callbacks_append (p q : CutFields) : (p.append q).callbacks = p.callbacks ++ q.callbacks := by
  obtain ⟨fields,bareName⟩ := p
  obtain ⟨fields',bareName'⟩ := q
  cases bareName with
  | nil => simp [append,callbacks]
  | cons name names =>
    cases fields' with
    | nil => simp [append,callbacks]
    | cons f fields' => simp [append,callbacks,CutField.callbacks]

/-- What is behind the fields changes none of them. -/
theorem fields_append (p q : CutFields) : ∃ more, (p.append q).fields = p.fields ++ more := by
  obtain ⟨fields,bareName⟩ := p
  obtain ⟨fields',bareName'⟩ := q
  cases bareName with
  | nil => exact ⟨fields',rfl⟩
  | cons name names =>
    cases fields' with
    | nil => exact ⟨[],(List.append_nil _).symm⟩
    | cons f fields' => exact ⟨_,rfl⟩

end CutFields

def requestFields (p : CutFields) : HeaderFields RequestFlags := p.callbacks.foldl requestHdrcb { flags := {} }

def responseFields (p : CutFields) : HeaderFields Bool := p.callbacks.foldl responseHdrcb { flags := false }

def requestHeaders (fields : List CutField) : HeaderFields RequestFlags :=
  (fields.flatMap CutField.callbacks).foldl requestHdrcb { flags := {} }

def responseHeaders (fields : List CutField) : HeaderFields Bool :=
  (fields.flatMap CutField.callbacks).foldl responseHdrcb { flags := false }

/-! What the callbacks of a field add up to. -/

theorem modifyBack_concat (f : Bytes × Bytes → Bytes × Bytes) (headers : Nv) (item : Bytes × Bytes) :
    HeaderFields.modifyBack f (headers ++ [item]) = headers ++ [f item] := by
  rw [HeaderFields.modifyBack,List.dropLast_concat,List.getLast?_concat]
  rfl

theorem requestHdrcb_eq : requestHdrcb = htpHdrcb checkRequestField := by
  funext s c
  cases c <;> rfl

theorem responseHdrcb_eq : responseHdrcb = htpHdrcb checkTransferEncodingChunked := by
  funext s c
  cases c <;> rfl

section
variable {φ : Type} (check : φ → Bytes × Bytes → φ)

theorem htpHdrcb_names (headers : Nv) (flags : φ) (name value : Bytes) (more : List Bytes) :
    (more.map HeaderCallback.key).foldl (htpHdrcb check) ⟨headers ++ [(name,value)],true,flags⟩ =
      ⟨headers ++ [((name :: more).flatten,value)],true,flags⟩ := by
  induction more generalizing name with
  | nil => simp
  | cons data more ih =>
    rw [List.map_cons,List.foldl_cons,htpHdrcb,if_pos rfl,HeaderFields.appendLastHeaderKey]
    dsimp only
    rw [modifyBack_concat,ih]
    simp

theorem htpHdrcb_values (headers : Nv) (flags : φ) (name value : Bytes) (more : List Bytes) :
    (more.map HeaderCallback.value).foldl (htpHdrcb check) ⟨headers ++ [(name,value)],false,flags⟩ =
      ⟨headers ++ [(name,(value :: more).flatten)],false,flags⟩ := by
  induction more generalizing value with
  | nil => simp
  | cons data more ih =>
    rw [List.map_cons,List.foldl_cons,htpHdrcb,if_neg Bool.false_ne_true,HeaderFields.appendLastHeaderValue]
    dsimp only
    rw [modifyBack_concat,ih]
    simp

/-- The check sees the whole name and the first piece of the value. -/
theorem htpHdrcb_field (headers : Nv) (flags : φ) (f : CutField) :
    f.callbacks.foldl (htpHdrcb check) ⟨headers,false,flags⟩ =
      ⟨headers ++ [(f.name,f.value)],false,check flags (f.name,f.firstValue)⟩ := by
  have hkey : htpHdrcb check ⟨headers,false,flags⟩ (.key f.firstName) =
      ⟨headers ++ [(f.firstName,[])],true,flags⟩ := rfl
  have hvalue : htpHdrcb check ⟨headers ++ [(f.name,[])],true,flags⟩ (.value f.firstValue) =
      ⟨headers ++ [(f.name,f.firstValue)],false,check flags (f.name,f.firstValue)⟩ := by
    rw [htpHdrcb,if_pos rfl,HeaderFields.setLastHeaderValue]
    dsimp only
    rw [modifyBack_concat,List.getLast?_concat]
    rfl
  rw [CutField.callbacks,List.foldl_append,List.map_cons,List.foldl_cons,hkey,htpHdrcb_names,← CutField.name,
    List.map_cons,List.foldl_cons,hvalue,htpHdrcb_values,← CutField.value]

theorem htpHdrcb_fields (headers : Nv) (flags : φ) (fields : List CutField) :
    (fields.flatMap CutField.callbacks).foldl (htpHdrcb check) ⟨headers,false,flags⟩ =
      ⟨headers ++ fields.map (fun f => (f.name,f.value)),false,
        fields.foldl (fun fl f => check fl (f.name,f.firstValue)) flags⟩ := by
  induction fields generalizing headers flags with
  | nil => simp
  | cons f fields ih =>
    rw [List.flatMap_cons,List.foldl_append,htpHdrcb_field,ih]
    simp

theorem htpHdrcb_callbacks (headers : Nv) (flags : φ) (p : CutFields) :
    p.callbacks.foldl (htpHdrcb check) ⟨headers,false,flags⟩ =
      ⟨headers ++ p.headers,!p.bareName.isEmpty,p.fields.foldl (fun fl f => check fl (f.name,f.firstValue)) flags⟩ := by
  obtain ⟨fields,bareName⟩ := p
  rw [CutFields.callbacks,List.foldl_append,htpHdrcb_fields,CutFields.headers]
  dsimp only
  cases bareName with
  | nil => simp
  | cons name names =>
    have hkey : ∀ (headers : Nv) (flags : φ), htpHdrcb check ⟨headers,false,flags⟩ (.key name) =
        ⟨headers ++ [(name,[])],true,flags⟩ := fun _ _ => rfl
    rw [List.map_cons,List.foldl_cons,hkey,htpHdrcb_names]
    simp

end

/-! Flags. -/

/-- Whether some field of a name has a token in its value, as far as the value goes. -/
def mentions (name token : Bytes) (value : CutField → Bytes) (fields : List CutField) : Bool :=
  fields.any (fun f => strieq (cstr f.name) name && strifind (cstr (value f)) token)

theorem checkHeaderField_eq (result : Bool) (item : Bytes × Bytes) (name token : Bytes) :
    checkHeaderField result item name token = (result || strieq (cstr item.1) name && strifind (cstr item.2) token) := by
  rw [checkHeaderField]
  cases strieq (cstr item.1) name <;> cases strifind (cstr item.2) token <;> simp

theorem foldl_checkHeaderField (name token : Bytes) (value : CutField → Bytes) (fields : List CutField)
    (result : Bool) : fields.foldl (fun fl f => checkHeaderField fl (f.name,value f) name token) result =
      (result || mentions name token value fields) := by
  induction fields generalizing result with
  | nil => exact (Bool.or_false result).symm
  | cons f fields ih =>
    rw [List.foldl_cons,ih,checkHeaderField_eq,mentions,mentions,List.any_cons,Bool.or_assoc]

theorem foldl_checkRequestField (fields : List CutField) (flags : RequestFlags) :
    fields.foldl (fun fl f => checkRequestField fl (f.name,f.firstValue)) flags =
      ⟨flags.chunkedRequest || mentions (str "transfer-encoding") (str "chunked") CutField.firstValue fields,
        flags.requestExpect100Continue || mentions (str "expect") (str "100-continue") CutField.firstValue fields⟩ := by
  rw [← foldl_checkHeaderField,← foldl_checkHeaderField]
  induction fields generalizing flags with
  | nil => rfl
  | cons f fields ih => exact ih _

theorem requestHeaders_eq (fields : List CutField) : requestHeaders fields =
    ⟨fields.map (fun f => (f.name,f.value)),false,
      ⟨mentions (str "transfer-encoding") (str "chunked") CutField.firstValue fields,
        mentions (str "expect") (str "100-continue") CutField.firstValue fields⟩⟩ := by
  rw [requestHeaders,requestHdrcb_eq,htpHdrcb_fields,foldl_checkRequestField]
  rfl

theorem requestFields_flags (p : CutFields) : (requestFields p).flags =
    ⟨mentions (str "transfer-encoding") (str "chunked") CutField.firstValue p.fields,
      mentions (str "expect") (str "100-continue") CutField.firstValue p.fields⟩ := by
  rw [requestFields,requestHdrcb_eq,htpHdrcb_callbacks,foldl_checkRequestField]
  rfl

theorem responseFields_eq (p : CutFields) : responseFields p =
    ⟨p.headers,!p.bareName.isEmpty,mentions (str "transfer-encoding") (str "chunked") CutField.firstValue p.fields⟩ := by
  have hflag := foldl_checkHeaderField (str "transfer-encoding") (str "chunked") CutField.firstValue p.fields false
  rw [Bool.false_or] at hflag
  rw [responseFields,responseHdrcb_eq,htpHdrcb_callbacks,← hflag]
  rfl

theorem responseHeaders_eq (fields : List CutField) : responseHeaders fields =
    ⟨fields.map (fun f => (f.name,f.value)),false,
      mentions (str "transfer-encoding") (str "chunked") CutField.firstValue fields⟩ := by
  have hflag := foldl_checkHeaderField (str "transfer-encoding") (str "chunked") CutField.firstValue fields false
  rw [Bool.false_or] at hflag
  rw [responseHeaders,responseHdrcb_eq,htpHdrcb_fields,← hflag]
  rfl

/-! More fields and more of a value mention more. -/

theorem mentions_append {name token : Bytes} {value : CutField → Bytes} {p : CutFields}
    (h : mentions name token value p.fields = true) (q : CutFields) :
    mentions name token value (p.append q).fields = true := by
  obtain ⟨more,hmore⟩ := p.fields_append q
  rw [mentions] at h ⊢
  rw [hmore,List.any_append,h,Bool.true_or]

theorem istartsWith_append {a b : Bytes} (h : istartsWith a b = true) (c : Bytes) : istartsWith (a ++ c) b = true := by
  induction a generalizing b with
  | nil =>
    cases b with
    | nil => cases c <;> rfl
    | cons y b => cases h
  | cons x a ih =>
    cases b with
    | nil => rfl
    | cons y b =>
      rw [istartsWith,Bool.and_eq_true] at h
      rw [List.cons_append,istartsWith,h.1,ih h.2,Bool.and_self]

theorem strifind_append {a b : Bytes} (h : strifind a b = true) (c : Bytes) : strifind (a ++ c) b = true := by
  induction a with
  | nil => cases h
  | cons x a ih =>
    rw [strifind,Bool.or_eq_true] at h
    rw [List.cons_append,strifind,Bool.or_eq_true]
    rcases h with h | h
    · exact .inl (istartsWith_append h c)
    · exact .inr (ih h)

theorem strifind_cstr_append {a b : Bytes} (h : strifind (cstr a) b = true) (c : Bytes) :
    strifind (cstr (a ++ c)) b = true := by
  rw [cstr] at h
  rw [cstr,List.takeWhile_append]
  split
  · rename_i hlen
    rw [(List.takeWhile_prefix _).eq_of_length hlen] at h
    exact strifind_append h _
  · exact h

theorem mentions_of_first {name token : Bytes} {fields : List CutField}
    (h : mentions name token CutField.firstValue fields = true) : mentions name token CutField.value fields = true := by
  rw [mentions,List.any_eq_true] at h ⊢
  obtain ⟨f,hf,hm⟩ := h
  rw [Bool.and_eq_true] at hm
  refine ⟨f,hf,?_⟩
  rw [Bool.and_eq_true]
  exact ⟨hm.1,strifind_cstr_append hm.2 f.moreValue.flatten⟩

theorem mentions_whole (name token : Bytes) (fields : List CutField) :
    mentions name token CutField.firstValue (fields.map CutField.whole) = mentions name token CutField.value fields := by
  rw [mentions,List.any_map,mentions]
  congr 1
  funext f
  rw [Function.comp,CutField.name_whole]
  rfl

/-! Fragmentation. -/

/-- What some field mentions in its whole value, some field mentions in the first piece of
its value. -/
def FirstPiecesMention (name token : Bytes) (fields : List CutField) : Prop :=
  mentions name token CutField.value fields = true → mentions name token CutField.firstValue fields = true

instance (name token : Bytes) (fields : List CutField) : Decidable (FirstPiecesMention name token fields) :=
  inferInstanceAs (Decidable (_ → _))

theorem mentions_eq_whole_iff (name token : Bytes) (fields : List CutField) :
    mentions name token CutField.firstValue fields =
      mentions name token CutField.firstValue (fields.map CutField.whole) ↔ FirstPiecesMention name token fields := by
  rw [mentions_whole,Bool.eq_iff_iff,FirstPiecesMention]
  exact ⟨fun h => h.mpr,fun h => ⟨mentions_of_first,h⟩⟩

theorem map_whole_headers (fields : List CutField) :
    (fields.map CutField.whole).map (fun f => (f.name,f.value)) = fields.map (fun f => (f.name,f.value)) := by
  rw [List.map_map]
  congr 1
  funext f
  rw [Function.comp,CutField.name_whole,CutField.value_whole]

/-- However its fields are cut, a message gets the same header list. Its flags are the same
just where first pieces mention what whole values do. -/
theorem headers_same_as_whole_iff (fields : List CutField) :
    (requestHeaders fields).headers = (requestHeaders (fields.map CutField.whole)).headers ∧
    (responseHeaders fields).headers = (responseHeaders (fields.map CutField.whole)).headers ∧
    (requestHeaders fields = requestHeaders (fields.map CutField.whole) ↔
      FirstPiecesMention (str "transfer-encoding") (str "chunked") fields ∧
        FirstPiecesMention (str "expect") (str "100-continue") fields) ∧
    (responseHeaders fields = responseHeaders (fields.map CutField.whole) ↔
      FirstPiecesMention (str "transfer-encoding") (str "chunked") fields) := by
  rw [requestHeaders_eq,requestHeaders_eq,responseHeaders_eq,responseHeaders_eq,map_whole_headers]
  refine ⟨rfl,rfl,?_,?_⟩
  · rw [HeaderFields.mk.injEq,RequestFlags.mk.injEq,mentions_eq_whole_iff,mentions_eq_whole_iff]
    exact ⟨fun h => h.2.2,fun h => ⟨rfl,rfl,h⟩⟩
  · rw [HeaderFields.mk.injEq,mentions_eq_whole_iff]
    exact ⟨fun h => h.2.2,fun h => ⟨rfl,rfl,h⟩⟩

/-- Cut inside its value, the field that announces chunks is forwarded without its flag. -/
theorem cut_transfer_encoding_unseen :
    let fields : List CutField :=
      [{ firstName := str "Transfer-Encoding", firstValue := str "chu", moreValue := [str "nked"] }]
    requestHeaders fields ≠ requestHeaders (fields.map CutField.whole) ∧
      responseHeaders fields ≠ responseHeaders (fields.map CutField.whole) := by
  decide

end Shrpx
end Spdylay
