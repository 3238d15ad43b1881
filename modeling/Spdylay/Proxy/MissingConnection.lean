import Spdylay.Proxy.HttpsUpstream

/-! When the HTTP front end writes to a backend connection, and whether one is attached. -/
namespace Spdylay
namespace Shrpx

/-- A piece of the body is passed on or fails, and changes nothing else. -/
theorem htpBodycb_fields (d : Downstream) (data : Bytes) : (htpBodycb d data).1.requestState = d.requestState ∧
    (htpBodycb d data).1.headerFields = d.headerFields ∧ (htpBodycb d data).1.dconn = d.dconn := by
  rw [htpBodycb,Downstream.pushUploadDataChunk]
  dsimp only
  split
  · split <;> exact ⟨rfl,rfl,rfl⟩
  · exact ⟨rfl,rfl,rfl⟩

/-- What the flag is behind the body depends on the header fields alone. -/
theorem readTrailer_chunked {d d' : Downstream} (h : d'.headerFields = d.headerFields) (callbacks : List HeaderCallback) :
    (d'.readTrailer callbacks).chunkedRequest = (d.readTrailer callbacks).chunkedRequest := by
  obtain ⟨-,-,-,h1⟩ := d'.readTrailer_frame callbacks
  obtain ⟨-,-,-,h2⟩ := d.readTrailer_frame callbacks
  rw [h,← h2] at h1
  exact congrArg (fun h => h.flags.chunkedRequest) h1

theorem endUploadData_none {d : Downstream} (h : d.endUploadData = none) : d.chunkedRequest = true ∧ d.dconn = false := by
  rw [Downstream.endUploadData] at h
  split at h
  · rename_i hchunked
    split at h
    · cases h
    · rename_i hconn
      exact ⟨hchunked,Bool.eq_false_iff.mpr hconn⟩
  · cases h

theorem endUploadData_some {d d' : Downstream} (h : d.endUploadData = some d') : d'.dconn = d.dconn := by
  rw [Downstream.endUploadData] at h
  split at h
  · split at h
    · cases h
      rfl
    · cases h
  · cases h
    rfl

namespace HttpsUpstream

variable {config : Config} {ipaddr : Bytes} {s : HttpsUpstream}

/-- The fields behind the body that a read brings. -/
def trailerOf : List RequestCallback → List HeaderCallback
  | [] => []
  | .trailer c :: cbs => c :: trailerOf cbs
  | .msgComplete :: _ | .fail :: _ => []
  | .msgBegin :: cbs | .hdrsComplete _ _ _ :: cbs | .body _ :: cbs => trailerOf cbs

theorem trailerOf_cons {cb : RequestCallback} (h : cb.endsBody = false) (cbs : List RequestCallback) :
    trailerOf (cb :: cbs) = trailerOf cbs := by
  cases cb with
  | msgBegin => rfl
  | hdrsComplete head pick connect => rfl
  | body data => rfl
  | trailer c => cases h
  | msgComplete => cases h
  | fail => cases h

/-- A request that the parser is in the body of has its connection, or it is not chunked and
the fields behind the body, as far as `cbs` brings them, do not make it so. -/
structure Attached (s : HttpsUpstream) (cbs : List RequestCallback) : Prop where
  paused : s.errno = .paused → s.phase = .idle
  body : s.errno = .ok → s.phase.pastHead = true → ∀ d, s.downstream = some d →
    d.requestState ≠ .msgComplete ∧ (d.dconn = false → (d.readTrailer (trailerOf cbs)).chunkedRequest = false)

/-- Nothing is written to a missing connection, and what goes on is attached. -/
def Sound (cbs : List RequestCallback) : HttpsOutcome → Prop
  | .running s => Attached s cbs
  | .closed _ => True
  | .crashed why _ => why ≠ .dconn

section
variable {cbs cbs' : List RequestCallback}

theorem Attached.stopped (h : Attached s cbs) (herrno : s.errno ≠ .ok) : Attached s cbs' :=
  ⟨h.paused,fun hok => absurd hok herrno⟩

theorem Attached.of_dconn (h : Attached s cbs) (hconn : ∀ d, s.downstream = some d → d.dconn = true) : Attached s cbs' := by
  refine ⟨h.paused,?_⟩
  intro hok hbody d hd
  exact ⟨(h.body hok hbody d hd).1,fun hnone => absurd (hconn d hd) (ne_true_of_eq_false hnone)⟩

theorem sound_htpHdrsComplete (hok : s.errno = .ok) (d : ProxiedRequest) (head : RequestHead) (pick : Nat)
    (connect : Int) : Sound cbs (s.htpHdrsComplete config ipaddr d head pick connect) := by
  rw [HttpsUpstream.htpHdrsComplete]
  dsimp only
  split
  · exact ⟨by rintro ⟨⟩,by rintro ⟨⟩⟩
  · have hwrite : { head.request with dconn := true }.writeRequestHeaders config ipaddr =
        some ({ head.request with dconn := true }.pushRequestHeaders config ipaddr) := if_pos rfl
    rw [hwrite]
    refine ⟨fun hp => ?_,?_⟩
    · cases hok.symm.trans hp
    · rintro - - d' ⟨⟩
      exact ⟨by rintro ⟨⟩,by rintro ⟨⟩⟩

theorem Attached.htpBody {data : Bytes} (h : Attached s (.body data :: cbs)) (hok : s.errno = .ok) (hbody : s.phase = .body)
    {d : ProxiedRequest} (hd : s.downstream = some d) : Attached (s.htpBody d data) cbs := by
  obtain ⟨hstate,hconn⟩ := h.body hok (by rw [hbody]; rfl) d hd
  obtain ⟨h1,h2,h3⟩ := htpBodycb_fields d.toDownstream data
  rw [HttpsUpstream.htpBody]
  refine ⟨?_,?_⟩
  · dsimp only
    split
    · exact h.paused
    · rintro ⟨⟩
  · rintro - - d' ⟨⟩
    exact ⟨h1.trans_ne hstate,fun hnone => (readTrailer_chunked h2 _).trans (hconn (h3.symm.trans hnone))⟩

/-- A field behind the body. -/
theorem Attached.htpTrailer {c : HeaderCallback} (h : Attached s (.trailer c :: cbs)) (hok : s.errno = .ok)
    (hbody : s.phase.pastHead = true) {d : ProxiedRequest} (hd : s.downstream = some d) :
    Attached (s.htpTrailer d c) cbs := by
  refine ⟨fun hp => ?_,?_⟩
  · cases hok.symm.trans hp
  · rintro - - d' ⟨⟩
    exact h.body hok hbody d hd

theorem Attached.htpMsgComplete (h : Attached s (.msgComplete :: cbs)) (hok : s.errno = .ok) (hbody : s.phase.pastHead = true)
    {d : ProxiedRequest} (hd : s.downstream = some d) : Sound cbs (s.htpMsgComplete d) := by
  obtain ⟨-,hconn⟩ := h.body hok hbody d hd
  rw [HttpsUpstream.htpMsgComplete]
  cases hend : d.toDownstream.endUploadData with
  | some request => exact ⟨fun _ => rfl,by rintro ⟨⟩⟩
  | none =>
    obtain ⟨hchunked,hnone⟩ := endUploadData_none hend
    exact absurd hchunked (ne_true_of_eq_false (hconn hnone))

theorem Attached.callback {cb : RequestCallback} (h : Attached s (cb :: cbs)) (hok : s.errno = .ok) :
    Sound cbs (s.callback config ipaddr cb) := by
  apply callback_holds
  · intro hout
    refine ⟨h.paused,?_⟩
    intro _ hbody d hd
    have hd' := h.body hok hbody d hd
    rwa [trailerOf_cons (hout hbody)] at hd'
  · exact fun why hwhy => hwhy
  · intro _ _
    refine ⟨fun hp => ?_,by rintro - ⟨⟩⟩
    cases hok.symm.trans hp
  · exact fun d head pick connect _ _ => sound_htpHdrsComplete hok d head pick connect
  · rintro d data rfl hbody hd
    exact h.htpBody hok hbody hd
  · rintro d c rfl hbody hd
    exact h.htpTrailer hok hbody hd
  · rintro d rfl hbody hd
    exact h.htpMsgComplete hok hbody hd
  · exact ⟨by rintro ⟨⟩,by rintro ⟨⟩⟩

/-- Each callback leaves those behind it. -/
theorem Attached.execute (h : Attached s cbs) : Sound [] (s.httpParserExecute config ipaddr cbs) := by
  induction cbs generalizing s with
  | nil => exact h
  | cons cb cbs ih =>
    rw [HttpsUpstream.httpParserExecute]
    split
    · rename_i hok
      have hcb : Sound cbs (s.callback config ipaddr cb) := h.callback hok
      cases hrun : s.callback config ipaddr cb with
      | running s' =>
        rw [hrun] at hcb
        exact ih hcb
      | closed pool => trivial
      | crashed why pool =>
        rw [hrun] at hcb
        exact hcb
    · rename_i hstop
      exact h.stopped hstop

end

section
variable {cbs : List RequestCallback}

/-- An answer changes neither the request nor its connection. -/
theorem Attached.errorReply (h : Attached s cbs) : Attached s.errorReply cbs where
  paused := h.paused
  body := by
    intro hok hbody d hd
    obtain ⟨d0,hd0,rfl⟩ := Option.map_eq_some_iff.mp hd
    exact h.body hok hbody d0 hd0

theorem Attached.pauseRead (h : Attached s cbs) (reason : PauseReason) : Attached (s.pauseRead reason) cbs := by
  cases reason <;> exact ⟨h.paused,h.body⟩

theorem Attached.deleteDownstream (h : Attached s cbs) : Attached s.deleteDownstream cbs := by
  refine ⟨h.paused,?_⟩
  rintro - - d ⟨⟩

theorem Attached.afterExecute (h : Attached s cbs) (outputBufferFull : Bool) : Sound cbs (s.afterExecute outputBufferFull) := by
  have hclose : Attached { s with shouldCloseAfterWrite := true } cbs := ⟨h.paused,h.body⟩
  apply afterExecute_holds
  · exact fun why hwhy => hwhy
  · exact h
  · exact hclose.errorReply
  · exact h.pauseRead
  · exact h.deleteDownstream

end

theorem Attached.onRead (h : Attached s []) {input : Option ReadInput} (hinput : ∀ i, input = some i → Attached s i.callbacks) :
    Sound [] (s.onRead config ipaddr input) := by
  apply onRead_holds
  · exact h
  · exact fun i hi => (hinput i hi).execute
  · intro s length outputBufferFull hrun
    have h : Attached s [] := hrun
    have hlength : Attached { s with currentHeaderLength := length } [] := ⟨h.paused,h.body⟩
    exact hlength.afterExecute outputBufferFull

/-- A parser that was paused has no request in its hands. -/
theorem Attached.resumeRead (h : Attached s []) (hconn : ∀ d, s.downstream = some d → d.dconn = true) (reason : PauseReason)
    (input : Option ReadInput) : Sound [] (s.resumeRead config ipaddr reason input) := by
  have hclear : Attached (s.clearReason reason) [] := by
    cases reason <;> exact ⟨h.paused,h.body⟩
  have hsame : (s.clearReason reason).downstream = s.downstream := by
    cases reason <;> rfl
  rw [HttpsUpstream.resumeRead]
  split
  · split
    · rintro ⟨⟩
    · have hresumed : Attached { s.clearReason reason with errno := .ok } [] := by
        refine ⟨by rintro ⟨⟩,?_⟩
        intro _ hbody d hd
        cases herr : (s.clearReason reason).errno with
        | ok => exact hclear.body herr hbody d hd
        | paused =>
          have hidle := hclear.paused herr
          dsimp only at hbody
          rw [hidle] at hbody
          cases hbody
        | failed => contradiction
      have hattached : ∀ d, (s.clearReason reason).downstream = some d → d.dconn = true := by
        rw [hsame]
        exact hconn
      exact hresumed.onRead (fun i _ => hresumed.of_dconn hattached)
  · exact hclear

theorem Attached.finish (h : Attached s []) (d : ProxiedRequest) (input : Option ReadInput) :
    Sound [] (s.finish config ipaddr d input) := by
  rw [HttpsUpstream.finish]
  split
  · exact h.deleteDownstream.resumeRead (by rintro _ ⟨⟩) .msgBlock input
  · exact h

/-- The response is complete while the body of a chunked request is still arriving. -/
def endsEarly (s : HttpsUpstream) : Event → Bool
  | .backendRead callbacks _ _ =>
    match s.downstream with
    | some d =>
      s.errno = .ok && d.dconn && d.chunkedRequest && d.requestState ≠ .msgComplete &&
        (d.parseHttpResponse callbacks).responseState = .msgComplete &&
        !(d.parseHttpResponse callbacks).responseFailed
    | none => false
  | _ => false

theorem endsEarly_iff {d : ProxiedRequest} (hd : s.downstream = some d) (callbacks : List ResponseCallback)
    (nothingPending : Bool) (input : Option ReadInput) :
    s.endsEarly (.backendRead callbacks nothingPending input) = true ↔
      s.errno = .ok ∧ d.dconn = true ∧ d.chunkedRequest = true ∧ d.requestState ≠ .msgComplete ∧
        (d.parseHttpResponse callbacks).responseState = .msgComplete ∧
        (d.parseHttpResponse callbacks).responseFailed = false := by
  rw [endsEarly,hd]
  simp [and_assoc]

/-- A read brings fields behind the body that announce chunks, and the connection is gone. -/
def flagsDetached (s : HttpsUpstream) : Event → Bool
  | .clientRead input =>
    match s.downstream with
    | some d =>
      !s.noBuffer && !s.msgBlock && s.errno = .ok && s.phase.pastHead && !d.dconn &&
        (d.readTrailer (trailerOf input.callbacks)).chunkedRequest
    | none => false
  | _ => false

theorem flagsDetached_iff {d : ProxiedRequest} (hd : s.downstream = some d) (input : ReadInput) :
    s.flagsDetached (.clientRead input) = true ↔
      s.noBuffer = false ∧ s.msgBlock = false ∧ s.errno = .ok ∧ s.phase.pastHead = true ∧ d.dconn = false ∧
        (d.readTrailer (trailerOf input.callbacks)).chunkedRequest = true := by
  rw [flagsDetached,hd]
  simp [and_assoc]

theorem Attached.clientRead (h : Attached s []) (hbuffer : s.noBuffer = false) (hblock : s.msgBlock = false) (input : ReadInput)
    (hflags : s.flagsDetached (.clientRead input) = false) : Sound [] (s.onRead config ipaddr (some input)) := by
  apply h.onRead
  rintro i ⟨⟩
  refine ⟨h.paused,?_⟩
  intro hok hbody d hd
  refine ⟨(h.body hok hbody d hd).1,fun hnone => ?_⟩
  by_contra hchunked
  have hcut := (flagsDetached_iff hd input).mpr ⟨hbuffer,hblock,hok,hbody,hnone,Bool.eq_true_of_not_eq_false hchunked⟩
  exact absurd hcut (ne_true_of_eq_false hflags)

theorem Attached.downstreamReadcb (h : Attached s []) {d : ProxiedRequest} (hd : s.downstream = some d)
    (hconn : d.dconn = true) (callbacks : List ResponseCallback) (nothingPending : Bool) (input : Option ReadInput)
    (hearly : s.endsEarly (.backendRead callbacks nothingPending input) = false) :
    Sound [] (s.downstreamReadcb config ipaddr d callbacks nothingPending input) := by
  have hreq := (d.parseHttpResponse_frame callbacks).1
  have hparsed : Attached { s with
      downstream := some (d.parseHttpResponse callbacks)
      shouldCloseAfterWrite := s.shouldCloseAfterWrite || (d.parseHttpResponse callbacks).closeWanted } [] := by
    refine ⟨h.paused,?_⟩
    rintro hok hbody d' ⟨⟩
    rw [hreq]
    exact h.body hok hbody d hd
  rw [HttpsUpstream.downstreamReadcb]
  dsimp only
  split
  · split
    · trivial
    · exact hparsed.errorReply.finish _ input
  · rename_i hparse
    split
    · rename_i hcomplete
      split
      · trivial
      · -- the connection goes, which the body of a chunked request would need
        apply Attached.finish
        refine ⟨h.paused,?_⟩
        rintro hok hbody d' ⟨⟩
        obtain ⟨hstate,-⟩ := h.body hok hbody d hd
        refine ⟨(congrArg Downstream.requestState hreq).trans_ne hstate,fun _ => ?_⟩
        by_contra hchunked
        have hchunked' : (d.parseHttpResponse callbacks).chunkedRequest = true := Bool.eq_true_of_not_eq_false hchunked
        rw [hreq] at hchunked'
        have hends := (endsEarly_iff hd callbacks nothingPending input).mpr
          ⟨hok,hconn,hchunked',hstate,hcomplete,Bool.eq_false_iff.mpr hparse⟩
        exact absurd hends (ne_true_of_eq_false hearly)
    · exact hparsed

theorem Attached.downstreamEventcb (h : Attached s []) {d : ProxiedRequest} (hd : s.downstream = some d)
    (event : BackendEvent) (nothingPending : Bool) (input : Option ReadInput) :
    Sound [] (s.downstreamEventcb config ipaddr d event nothingPending input) := by
  have hended : Attached { s with
      downstream := some { d with responseState := .msgComplete }
      shouldCloseAfterWrite := s.shouldCloseAfterWrite || d.requestConnectionClose || d.responseConnectionClose } [] := by
    refine ⟨h.paused,?_⟩
    rintro hok hbody d' ⟨⟩
    exact h.body hok hbody d hd
  unfold HttpsUpstream.downstreamEventcb
  split
  · dsimp only
    split
    · trivial
    · exact hended.finish d input
  · exact h.errorReply.finish d input
  · exact h.finish d input

theorem Attached.step (h : Attached s []) (e : Event) (hearly : s.endsEarly e = false) (hflags : s.flagsDetached e = false) :
    Sound [] (s.step config ipaddr e) := by
  apply step_holds
  · exact h
  · trivial
  · rintro input rfl hbuffer hblock
    exact h.clientRead hbuffer hblock input hflags
  · rintro d callbacks nothingPending input rfl hd hconn
    exact h.downstreamReadcb hd hconn callbacks nothingPending input hearly
  · intro d input hd hconn
    refine h.resumeRead ?_ .noBuffer input
    intro d' hd'
    cases hd.symm.trans hd'
    exact hconn
  · exact fun d event nothingPending input hd _ => h.downstreamEventcb hd event nothingPending input
  · exact fun i => ⟨h.paused,h.body⟩

/-- Each event of a run meets `p` in the state in which it happens. -/
def along (config : Config) (ipaddr : Bytes) (p : HttpsUpstream → Event → Bool) (s : HttpsUpstream) : List Event → Bool
  | [] => true
  | e :: es =>
    p s e &&
      match s.step config ipaddr e with
      | .running s => along config ipaddr p s es
      | _ => true

theorem run_holds {P : HttpsOutcome → Prop} {p : HttpsUpstream → Event → Bool}
    (hstep : ∀ s e, P (.running s) → p s e = true → P (s.step config ipaddr e)) (h : P (.running s)) {es : List Event}
    (halong : along config ipaddr p s es = true) : P (s.run config ipaddr es) := by
  induction es generalizing s with
  | nil => exact h
  | cons e es ih =>
    rw [along,Bool.and_eq_true] at halong
    have hnext := hstep s e h halong.1
    rw [HttpsUpstream.run]
    cases hs : s.step config ipaddr e with
    | running s' =>
      rw [hs] at hnext halong
      exact ih hnext halong.2
    | closed pool =>
      rw [hs] at hnext
      exact hnext
    | crashed why pool =>
      rw [hs] at hnext
      exact hnext

theorem Attached.run (h : Attached s []) {es : List Event}
    (halong : along config ipaddr (fun s e => !s.endsEarly e && !s.flagsDetached e) s es = true) :
    Sound [] (s.run config ipaddr es) := by
  refine run_holds ?_ h halong
  intro s e hrun hmeets
  have h : Attached s [] := hrun
  rw [Bool.and_eq_true,Bool.not_eq_true',Bool.not_eq_true'] at hmeets
  exact h.step e hmeets.1 hmeets.2

theorem start_attached : Attached {} [] := ⟨by rintro ⟨⟩,by rintro - ⟨⟩⟩

/-- No write to a missing connection, in runs in which no response is complete while a
chunked request is still arriving, and no fields behind a body make its request chunked when
the connection is gone. -/
theorem connection_never_missing (config : Config) (ipaddr : Bytes) (es : List Event)
    (h : along config ipaddr (fun s e => !s.endsEarly e && !s.flagsDetached e) {} es = true) (pool : ConnectionPool) :
    run config ipaddr {} es ≠ .crashed .dconn pool := by
  have hrun := start_attached.run h
  intro hcrash
  rw [hcrash] at hrun
  exact hrun rfl

def chunkedHead : RequestHead where
  method := str "POST"
  path := str "/"
  fields := ⟨[{ firstName := str "Transfer-Encoding", firstValue := str "chunked" }],[]⟩

theorem chunked_request_answered : ¬∃ pool, run ⟨false,false⟩ [] {}
    [.clientRead ⟨[.msgBegin,.hdrsComplete chunkedHead 0 0],100,false⟩,.clientRead ⟨[.msgComplete],5,false⟩,
      .backendRead [.hdrsComplete 200 true,.msgComplete] false none] = .crashed .dconn pool := by
  rintro ⟨pool,hcrash⟩
  exact connection_never_missing ⟨false,false⟩ [] _ (by decide +kernel) pool hcrash

/-- The fields behind the body are read up to the end of the request, which finds no connection. -/
theorem execute_trailer (callbacks : List HeaderCallback) {d : ProxiedRequest} (hok : s.errno = .ok)
    (hbody : s.phase.pastHead = true) (hd : s.downstream = some d) (hconn : d.dconn = false)
    (hchunked : (d.readTrailer callbacks).chunkedRequest = true) :
    s.httpParserExecute config ipaddr (callbacks.map .trailer ++ [.msgComplete]) = .crashed .dconn s.pool := by
  induction callbacks generalizing s d with
  | nil =>
    have hend : d.toDownstream.endUploadData = none := by
      rw [Downstream.endUploadData]
      exact (if_pos hchunked).trans (if_neg (ne_true_of_eq_false hconn))
    rw [List.map_nil,List.nil_append,httpParserExecute,if_pos hok,callback,if_pos hbody,hd]
    dsimp only
    rw [htpMsgComplete,hend]
  | cons c callbacks ih =>
    rw [List.map_cons,List.cons_append,httpParserExecute,if_pos hok,callback,if_pos hbody,hd]
    exact ih hok rfl rfl hconn hchunked

theorem step_trailer (callbacks : List HeaderCallback) (nread : Nat) (outputBufferFull : Bool) {d : ProxiedRequest}
    (hbuffer : s.noBuffer = false) (hblock : s.msgBlock = false) (hok : s.errno = .ok) (hbody : s.phase.pastHead = true)
    (hd : s.downstream = some d) (hconn : d.dconn = false) (hchunked : (d.readTrailer callbacks).chunkedRequest = true) :
    s.step config ipaddr (.clientRead ⟨callbacks.map .trailer ++ [.msgComplete],nread,outputBufferFull⟩) =
      .crashed .dconn s.pool := by
  rw [step,if_pos ⟨hbuffer,hblock⟩,onRead]
  dsimp only
  rw [execute_trailer callbacks hok hbody hd hconn hchunked]

theorem trailerOf_map (callbacks : List HeaderCallback) (cbs : List RequestCallback) :
    trailerOf (callbacks.map .trailer ++ .msgComplete :: cbs) = callbacks := by
  induction callbacks with
  | nil => rfl
  | cons c callbacks ih => exact congrArg (c :: ·) ih

/-- Fields behind the body that announce chunks are not read without a connection. -/
theorem flagsDetached_crashes {callbacks : List HeaderCallback} {nread : Nat} {outputBufferFull : Bool}
    (h : s.flagsDetached (.clientRead ⟨callbacks.map .trailer ++ [.msgComplete],nread,outputBufferFull⟩) = true) :
    s.step config ipaddr (.clientRead ⟨callbacks.map .trailer ++ [.msgComplete],nread,outputBufferFull⟩) =
      .crashed .dconn s.pool := by
  cases hd : s.downstream with
  | none =>
    rw [flagsDetached,hd] at h
    cases h
  | some d =>
    obtain ⟨hbuffer,hblock,hok,hbody,hconn,hchunked⟩ := (flagsDetached_iff hd _).mp h
    rw [trailerOf_map] at hchunked
    exact step_trailer callbacks nread outputBufferFull hbuffer hblock hok hbody hd hconn hchunked

/-- After such a step the end of the request finds no connection, if it can still be read. -/
theorem endsEarly_crashes {callbacks : List ResponseCallback} {nothingPending : Bool} {input : Option ReadInput}
    (h : s.endsEarly (.backendRead callbacks nothingPending input) = true) (hbody : s.phase.pastHead = true)
    (hbuffer : s.noBuffer = false) (hblock : s.msgBlock = false) (nread : Nat) (outputBufferFull : Bool) :
    ∃ pool, s.run config ipaddr [.backendRead callbacks nothingPending input,
      .clientRead ⟨[.msgComplete],nread,outputBufferFull⟩] = .crashed .dconn pool := by
  cases hd : s.downstream with
  | none =>
    rw [endsEarly,hd] at h
    cases h
  | some d =>
    obtain ⟨hok,hconn,hchunked,hstate,hcomplete,hparse⟩ := (endsEarly_iff hd callbacks nothingPending input).mp h
    have hreq := (d.parseHttpResponse_frame callbacks).1
    have hstate' : (d.parseHttpResponse callbacks).requestState ≠ .msgComplete :=
      (congrArg Downstream.requestState hreq).trans_ne hstate
    have hchunked' : (d.parseHttpResponse callbacks).chunkedRequest = true :=
      (congrArg Downstream.chunkedRequest hreq).trans hchunked
    obtain ⟨s',hread,hok',hbody',hbuffer',hblock',hd'⟩ : ∃ s',
        s.step config ipaddr (.backendRead callbacks nothingPending input) = .running s' ∧ s'.errno = .ok ∧
          s'.phase.pastHead = true ∧ s'.noBuffer = false ∧ s'.msgBlock = false ∧
          s'.downstream = some (d.parseHttpResponse callbacks).setNoConnection := by
      rw [step,hd]
      dsimp only
      rw [if_pos hconn,downstreamReadcb]
      dsimp only
      rw [if_neg (ne_true_of_eq_false hparse),if_pos hcomplete,if_neg (fun hc => hstate' hc.1),finish,if_neg hstate']
      exact ⟨_,rfl,hok,hbody,hbuffer,hblock,rfl⟩
    have hcrash : s'.step config ipaddr (.clientRead ⟨[.msgComplete],nread,outputBufferFull⟩) = .crashed .dconn s'.pool :=
      step_trailer [] nread outputBufferFull hbuffer' hblock' hok' hbody' hd' rfl hchunked'
    rw [run,hread]
    dsimp only
    rw [run,hcrash]
    exact ⟨_,rfl⟩

/-- A chunked POST is refused before its body has come. -/
theorem early_refusal_crashes : ¬∀ config ipaddr es pool, run config ipaddr {} es ≠ .crashed .dconn pool :=
  fun h => h ⟨false,false⟩ []
    [.clientRead ⟨[.msgBegin,.hdrsComplete chunkedHead 0 0],100,false⟩,
      .backendRead [.hdrsComplete 401 true,.msgComplete] false none,.clientRead ⟨[.msgComplete],5,false⟩]
    ⟨[[⟨false,true⟩]],[]⟩ (by decide +kernel)

end HttpsUpstream

end Shrpx
end Spdylay
