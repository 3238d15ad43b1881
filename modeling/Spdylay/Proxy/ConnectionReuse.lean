import Spdylay.Proxy.MissingConnection

/-! What the backend connections have carried that a front end takes from the pool of its
client: the HTTP one pools a connection when it reads the end of a response, the SPDY one when
the stream of the request is closed. -/
namespace Spdylay
namespace Shrpx

theorem history_clean {d : ProxiedRequest} (hpast : Clean d.past) (hreq : d.current.requestEnded = true)
    (hresp : d.current.responseEnded = true) : Clean d.history := by
  intro e he
  obtain he | he := List.mem_append.mp he
  · exact hpast e he
  · rw [List.mem_singleton.mp he]
    exact ⟨hreq,hresp⟩

theorem not_clean_history {d : ProxiedRequest} (h : (d.current.requestEnded && d.current.responseEnded) = false) :
    ¬Clean d.history := by
  intro hclean
  obtain ⟨hreq,hresp⟩ := hclean d.current (List.mem_append_right _ (List.mem_singleton_self _))
  rw [hreq,hresp] at h
  cases h

/-! The HTTP front end. -/

namespace HttpsUpstream

variable {config : Config} {ipaddr : Bytes} {s : HttpsUpstream}

/-- A completely written request gives its connection back although what was read last is not
the end of a message with a final status: the message is an interim one, or the response was
complete before, by an answer of the proxy itself or by the end of the connection. -/
def poolsUnanswered (s : HttpsUpstream) : Event → Bool
  | .backendRead callbacks _ _ =>
    match s.downstream with
    | some d =>
      d.dconn && d.requestState = .msgComplete && (d.parseHttpResponse callbacks).responseState = .msgComplete &&
        !(d.parseHttpResponse callbacks).responseFailed && !(d.parseHttpResponse callbacks).responseConnectionClose &&
        ((d.parseHttpResponse callbacks).responseInMessage || (d.parseHttpResponse callbacks).responseHttpStatus < 200)
    | none => false
  | _ => false

/-- The attached connection is clean but for the exchange of its request, whose end the parser
has met or can still meet. -/
structure Tidy (s : HttpsUpstream) : Prop where
  idle : s.pool.AllClean
  reused : ∀ c ∈ s.pool.reused, Clean c
  past : ∀ d, s.downstream = some d → d.dconn = true → Clean d.past
  ended : ∀ d, s.downstream = some d → d.dconn = true → d.requestState = .msgComplete → d.current.requestEnded = true
  unended : ∀ d, s.downstream = some d → d.dconn = true → d.requestState ≠ .msgComplete →
    s.errno = .failed ∨ s.errno = .ok ∧ s.phase.pastHead = true
  tracks : ∀ d, s.downstream = some d → d.Tracks

/-- A connection has been given back before the end of its request. The parser gets to that
end at most, and stays there. -/
structure Spent (s : HttpsUpstream) : Prop where
  reused : ∀ c ∈ s.pool.reused, Clean c
  detached : ∀ d, s.downstream = some d → d.dconn = false
  phase : s.errno = .ok → s.phase.pastHead = true

/-- What holds of every outcome: the reused connections are clean, and so are the idle ones
unless nothing can take them any more. -/
def Kept : HttpsOutcome → Prop
  | .running s => Tidy s ∨ Spent s
  | .closed pool => ∀ c ∈ pool.reused, Clean c
  | .crashed _ pool => ∀ c ∈ pool.reused, Clean c

/-- A state that differs in what plays no part. -/
theorem Tidy.of_eq {s' : HttpsUpstream} (h : Tidy s) (hpool : s'.pool = s.pool) (hd : s'.downstream = s.downstream)
    (herrno : s'.errno = s.errno) (hphase : s'.phase = s.phase) : Tidy s' where
  idle := hpool ▸ h.idle
  reused := hpool ▸ h.reused
  past := hd ▸ h.past
  ended := hd ▸ h.ended
  unended := by
    rw [hd,herrno,hphase]
    exact h.unended
  tracks := hd ▸ h.tracks

theorem Spent.of_eq {s' : HttpsUpstream} (h : Spent s) (hpool : s'.pool = s.pool) (hd : s'.downstream = s.downstream)
    (herrno : s'.errno = s.errno) (hphase : s'.phase = s.phase) : Spent s' where
  reused := hpool ▸ h.reused
  detached := hd ▸ h.detached
  phase := by
    rw [herrno,hphase]
    exact h.phase

/-- Without a connection only the pool matters. -/
theorem Tidy.of_detached {s' : HttpsUpstream} (h : Tidy s) (hpool : s'.pool = s.pool)
    (hd : ∀ d, s'.downstream = some d → d.dconn = false ∧ d.Tracks) : Tidy s' where
  idle := hpool ▸ h.idle
  reused := hpool ▸ h.reused
  past := fun d hs hconn => absurd hconn (ne_true_of_eq_false (hd d hs).1)
  ended := fun d hs hconn => absurd hconn (ne_true_of_eq_false (hd d hs).1)
  unended := fun d hs hconn => absurd hconn (ne_true_of_eq_false (hd d hs).1)
  tracks := fun d hs => (hd d hs).2

theorem Tidy.deleteDownstream (h : Tidy s) : Tidy s.deleteDownstream := by
  refine h.of_detached rfl ?_
  rintro d ⟨⟩

theorem Spent.deleteDownstream (h : Spent s) : Spent s.deleteDownstream := by
  refine ⟨h.reused,?_,h.phase⟩
  rintro d ⟨⟩

theorem Tidy.errorReply (h : Tidy s) : Tidy s.errorReply where
  idle := h.idle
  reused := h.reused
  past := by
    intro d hd
    obtain ⟨d0,hd0,rfl⟩ := Option.map_eq_some_iff.mp hd
    exact h.past d0 hd0
  ended := by
    intro d hd
    obtain ⟨d0,hd0,rfl⟩ := Option.map_eq_some_iff.mp hd
    exact h.ended d0 hd0
  unended := by
    intro d hd
    obtain ⟨d0,hd0,rfl⟩ := Option.map_eq_some_iff.mp hd
    exact h.unended d0 hd0
  tracks := by
    intro d hd
    obtain ⟨d0,hd0,rfl⟩ := Option.map_eq_some_iff.mp hd
    exact h.tracks d0 hd0

theorem Spent.errorReply (h : Spent s) : Spent s.errorReply where
  reused := h.reused
  detached := by
    intro d hd
    obtain ⟨d0,hd0,rfl⟩ := Option.map_eq_some_iff.mp hd
    exact h.detached d0 hd0
  phase := h.phase

/-! The request parser. -/

theorem Tidy.htpHdrsComplete (h : Tidy s) (hok : s.errno = .ok) {d : ProxiedRequest} (hd : s.downstream = some d)
    (head : RequestHead) (pick : Nat) (connect : Int) : Kept (s.htpHdrsComplete config ipaddr d head pick connect) := by
  obtain ⟨hidle,hreused,hpicked⟩ := h.idle.getDownstreamConnection h.reused pick
  rw [HttpsUpstream.htpHdrsComplete]
  dsimp only
  split
  · refine .inl ⟨hidle,hreused,?_,?_,?_,?_⟩
    · rintro d' ⟨⟩ ⟨⟩
    · rintro d' ⟨⟩ ⟨⟩
    · rintro d' ⟨⟩ ⟨⟩
    · rintro d' ⟨⟩
      exact h.tracks d hd
  · have hwrite : { head.request with dconn := true }.writeRequestHeaders config ipaddr =
        some ({ head.request with dconn := true }.pushRequestHeaders config ipaddr) := if_pos rfl
    rw [hwrite]
    refine .inl ⟨hidle,hreused,?_,?_,?_,?_⟩
    · rintro d' ⟨⟩ -
      cases hpick : (s.pool.getDownstreamConnection pick).1 with
      | none => rintro _ ⟨⟩
      | some c => exact hpicked c hpick
    · rintro d' ⟨⟩ - ⟨⟩
    · intro _ _ _ _
      exact .inr ⟨hok,rfl⟩
    · rintro d' ⟨⟩
      exact h.tracks d hd

theorem Tidy.htpBody (h : Tidy s) (hok : s.errno = .ok) (hbody : s.phase = .body) {d : ProxiedRequest}
    (hd : s.downstream = some d) (data : Bytes) : Tidy (s.htpBody d data) := by
  obtain ⟨h1,-,h3⟩ := htpBodycb_fields d.toDownstream data
  refine ⟨h.idle,h.reused,?_,?_,?_,?_⟩
  · rintro d' ⟨⟩ hconn
    exact h.past d hd (h3.symm.trans hconn)
  · rintro d' ⟨⟩ hconn hstate
    exact h.ended d hd (h3.symm.trans hconn) (h1.symm.trans hstate)
  · intro _ _ _ _
    rw [HttpsUpstream.htpBody]
    dsimp only
    split
    · exact .inr ⟨hok,by rw [hbody]; rfl⟩
    · exact .inl rfl
  · rintro d' ⟨⟩
    exact h.tracks d hd

theorem Tidy.htpTrailer (h : Tidy s) (hok : s.errno = .ok) {d : ProxiedRequest} (hd : s.downstream = some d)
    (c : HeaderCallback) : Tidy (s.htpTrailer d c) := by
  refine ⟨h.idle,h.reused,?_,?_,?_,?_⟩
  · rintro d' ⟨⟩ hconn
    exact h.past d hd hconn
  · rintro d' ⟨⟩ hconn hstate
    exact h.ended d hd hconn hstate
  · intro _ _ _ _
    exact .inr ⟨hok,rfl⟩
  · rintro d' ⟨⟩
    exact h.tracks d hd

theorem Tidy.htpMsgComplete (h : Tidy s) {d : ProxiedRequest} (hd : s.downstream = some d) :
    Kept (s.htpMsgComplete d) := by
  rw [HttpsUpstream.htpMsgComplete]
  cases hend : d.toDownstream.endUploadData with
  | none => exact h.reused
  | some request =>
    have hsame := endUploadData_some hend
    refine .inl ⟨h.idle,h.reused,?_,?_,?_,?_⟩
    · rintro d' ⟨⟩ hconn
      exact h.past d hd (hsame.symm.trans hconn)
    · rintro d' ⟨⟩ hconn -
      have hconn' : d.dconn = true := hsame.symm.trans hconn
      rw [hconn']
      exact Bool.or_true _
    · rintro d' ⟨⟩ - hstate
      exact absurd rfl hstate
    · rintro d' ⟨⟩
      exact h.tracks d hd

theorem Tidy.callback (h : Tidy s) (hok : s.errno = .ok) (cb : RequestCallback) :
    Kept (s.callback config ipaddr cb) := by
  apply callback_holds
  · exact fun _ => .inl h
  · exact fun _ _ => h.reused
  · intro _ _
    left
    refine h.of_detached rfl ?_
    rintro d ⟨⟩
    exact ⟨rfl,rfl⟩
  · exact fun d head pick connect _ hd => h.htpHdrsComplete hok hd head pick connect
  · exact fun d data _ hbody hd => .inl (h.htpBody hok hbody hd data)
  · exact fun d c _ _ hd => .inl (h.htpTrailer hok hd c)
  · exact fun d _ _ hd => h.htpMsgComplete hd
  · exact .inl ⟨h.idle,h.reused,h.past,h.ended,fun _ _ _ _ => .inl rfl,h.tracks⟩

theorem Spent.htpBody (h : Spent s) (hbody : s.phase.pastHead = true) {d : ProxiedRequest} (hd : s.downstream = some d)
    (data : Bytes) : Spent (s.htpBody d data) := by
  obtain ⟨-,-,h3⟩ := htpBodycb_fields d.toDownstream data
  refine ⟨h.reused,?_,fun _ => hbody⟩
  rintro d' ⟨⟩
  exact h3.trans (h.detached d hd)

theorem Spent.htpMsgComplete (h : Spent s) {d : ProxiedRequest} (hd : s.downstream = some d) :
    Kept (s.htpMsgComplete d) := by
  rw [HttpsUpstream.htpMsgComplete]
  cases hend : d.toDownstream.endUploadData with
  | none => exact h.reused
  | some request =>
    refine .inr ⟨h.reused,?_,by rintro ⟨⟩⟩
    rintro d' ⟨⟩
    exact (endUploadData_some hend).trans (h.detached d hd)

theorem Spent.htpTrailer (h : Spent s) {d : ProxiedRequest} (hd : s.downstream = some d) (c : HeaderCallback) :
    Spent (s.htpTrailer d c) := by
  refine ⟨h.reused,?_,fun _ => rfl⟩
  rintro d' ⟨⟩
  exact h.detached d hd

/-- In the body of a request no other one can begin. -/
theorem Spent.callback (h : Spent s) (hok : s.errno = .ok) (cb : RequestCallback) :
    Kept (s.callback config ipaddr cb) := by
  have hbody := h.phase hok
  apply callback_holds
  · exact fun _ => .inr h
  · exact fun _ _ => h.reused
  · intro hidle _
    rw [hidle] at hbody
    cases hbody
  · intro d head pick connect hheaders _
    rw [hheaders] at hbody
    cases hbody
  · exact fun d data _ _ hd => .inr (h.htpBody hbody hd data)
  · exact fun d c _ _ hd => .inr (h.htpTrailer hd c)
  · exact fun d _ _ hd => h.htpMsgComplete hd
  · exact .inr ⟨h.reused,h.detached,by rintro ⟨⟩⟩

theorem kept_afterExecute (h : Tidy s ∨ Spent s) (outputBufferFull : Bool) : Kept (s.afterExecute outputBufferFull) := by
  have hsame : ∀ s' : HttpsUpstream, s'.pool = s.pool → s'.downstream = s.downstream → s'.errno = s.errno →
      s'.phase = s.phase → Tidy s' ∨ Spent s' :=
    fun s' h1 h2 h3 h4 => h.imp (fun h => h.of_eq h1 h2 h3 h4) (fun h => h.of_eq h1 h2 h3 h4)
  apply afterExecute_holds
  · exact fun _ _ => h.elim Tidy.reused Spent.reused
  · exact h
  · exact (hsame { s with shouldCloseAfterWrite := true } rfl rfl rfl rfl).imp Tidy.errorReply Spent.errorReply
  · rintro ⟨⟩
    · exact hsame (s.pauseRead .noBuffer) rfl rfl rfl rfl
    · exact hsame (s.pauseRead .msgBlock) rfl rfl rfl rfl
  · exact h.imp Tidy.deleteDownstream Spent.deleteDownstream

theorem kept_onRead (h : Tidy s ∨ Spent s) (input : Option ReadInput) : Kept (s.onRead config ipaddr input) := by
  apply onRead_holds
  · exact h
  · intro i _
    refine httpParserExecute_holds ?_ h i.callbacks
    intro s hok hrun cb
    obtain h | h : Tidy s ∨ Spent s := hrun
    · exact h.callback hok cb
    · exact h.callback hok cb
  · intro s length outputBufferFull hrun
    have h : Tidy s ∨ Spent s := hrun
    apply kept_afterExecute
    exact h.imp (fun h => h.of_eq rfl rfl rfl rfl) (fun h => h.of_eq rfl rfl rfl rfl)

/-! The backend connection. -/

/-- A paused parser has met the end of its request. -/
theorem Tidy.resumeRead (h : Tidy s) (reason : PauseReason) (input : Option ReadInput) :
    Kept (s.resumeRead config ipaddr reason input) := by
  have hclear : Tidy (s.clearReason reason) := by
    cases reason <;> exact h.of_eq rfl rfl rfl rfl
  rw [HttpsUpstream.resumeRead]
  split
  · split
    · exact hclear.reused
    · rename_i herrno
      apply kept_onRead
      refine .inl ⟨hclear.idle,hclear.reused,hclear.past,hclear.ended,?_,hclear.tracks⟩
      intro d hd hconn hstate
      obtain hfailed | ⟨-,hbody⟩ := hclear.unended d hd hconn hstate
      · exact absurd hfailed herrno
      · exact .inr ⟨rfl,hbody⟩
  · exact .inl hclear

theorem Tidy.finish (h : Tidy s) (d : ProxiedRequest) (input : Option ReadInput) :
    Kept (s.finish config ipaddr d input) := by
  rw [HttpsUpstream.finish]
  split
  · exact h.deleteDownstream.resumeRead .msgBlock input
  · exact .inl h

/-- The request, changed in its response only. -/
theorem Tidy.setDownstream (h : Tidy s) {d d' : ProxiedRequest} (hd : s.downstream = some d)
    (hreq : d'.toDownstream = d.toDownstream) (hpast : d'.past = d.past)
    (hended : d'.current.requestEnded = d.current.requestEnded) (htracks : d'.Tracks) (close : Bool) :
    Tidy { s with downstream := some d', shouldCloseAfterWrite := close } := by
  have hconn : d'.dconn = d.dconn := congrArg Downstream.dconn hreq
  have hstate : d'.requestState = d.requestState := congrArg Downstream.requestState hreq
  refine ⟨h.idle,h.reused,?_,?_,?_,?_⟩
  · rintro _ ⟨⟩ hc
    rw [hpast]
    exact h.past d hd (hconn.symm.trans hc)
  · rintro _ ⟨⟩ hc hs
    rw [hended]
    exact h.ended d hd (hconn.symm.trans hc) (hstate.symm.trans hs)
  · rintro _ ⟨⟩ hc hs
    exact h.unended d hd (hconn.symm.trans hc) (hstate.symm.trans_ne hs)
  · rintro _ ⟨⟩
    exact htracks

/-- A connection is given back: clean if the end of the request has been written, and for good
if it has not. -/
theorem Tidy.releaseConnection (h : Tidy s) {d : ProxiedRequest} (hd : s.downstream = some d) (hconn : d.dconn = true)
    (hanswered : d.requestState = .msgComplete → d.responseConnectionClose = false → d.current.responseEnded = true)
    (input : Option ReadInput) : Kept ((s.releaseConnection d).finish config ipaddr d input) := by
  have hnone : ∀ d', (s.releaseConnection d).downstream = some d' → d'.dconn = false ∧ d'.Tracks := by
    rintro d' ⟨⟩
    exact ⟨rfl,h.tracks d hd⟩
  cases hclose : d.responseConnectionClose with
  | true =>
    have hpool : (s.releaseConnection d).pool = s.pool := if_pos hclose
    exact Tidy.finish (h.of_detached hpool hnone) d input
  | false =>
    have hpool : (s.releaseConnection d).pool = s.pool.poolDownstreamConnection d.history :=
      if_neg (ne_true_of_eq_false hclose)
    by_cases hstate : d.requestState = .msgComplete
    · have hclean := history_clean (h.past d hd hconn) (h.ended d hd hconn hstate) (hanswered hstate hclose)
      have hidle : Tidy { s with pool := s.pool.poolDownstreamConnection d.history } :=
        ⟨h.idle.poolDownstreamConnection hclean,h.reused,h.past,h.ended,h.unended,h.tracks⟩
      exact Tidy.finish (hidle.of_detached hpool hnone) d input
    · rw [HttpsUpstream.finish,if_neg hstate]
      refine .inr ⟨?_,fun d' hd' => (hnone d' hd').1,?_⟩
      · rw [hpool]
        exact h.reused
      · intro hok
        obtain hfailed | ⟨-,hbody⟩ := h.unended d hd hconn hstate
        · cases hok.symm.trans hfailed
        · exact hbody

theorem poolsUnanswered_iff {d : ProxiedRequest} (hd : s.downstream = some d) (callbacks : List ResponseCallback)
    (nothingPending : Bool) (input : Option ReadInput) :
    s.poolsUnanswered (.backendRead callbacks nothingPending input) = true ↔
      d.dconn = true ∧ d.requestState = .msgComplete ∧ (d.parseHttpResponse callbacks).responseState = .msgComplete ∧
        (d.parseHttpResponse callbacks).responseFailed = false ∧
        (d.parseHttpResponse callbacks).responseConnectionClose = false ∧
        ((d.parseHttpResponse callbacks).responseInMessage = true ∨
          (d.parseHttpResponse callbacks).responseHttpStatus < 200) := by
  rw [poolsUnanswered,hd]
  simp [and_assoc]

theorem unanswered_iff {d : ProxiedRequest} (h : d.Tracks) :
    d.current.responseEnded = false ↔ d.responseInMessage = true ∨ d.responseHttpStatus < 200 := by
  rw [h,Bool.and_eq_false_iff,Bool.not_eq_false',decide_eq_false_iff_not,not_le]

theorem Tidy.downstreamReadcb (h : Tidy s) {d : ProxiedRequest} (hd : s.downstream = some d) (hconn : d.dconn = true)
    (callbacks : List ResponseCallback) (nothingPending : Bool) (input : Option ReadInput)
    (hanswered : s.poolsUnanswered (.backendRead callbacks nothingPending input) = false) :
    Kept (s.downstreamReadcb config ipaddr d callbacks nothingPending input) := by
  obtain ⟨hreq,hpast,hended⟩ := d.parseHttpResponse_frame callbacks
  have htracks := (h.tracks d hd).parseHttpResponse callbacks
  have hparsed := h.setDownstream hd hreq hpast hended htracks
    (s.shouldCloseAfterWrite || (d.parseHttpResponse callbacks).closeWanted)
  rw [HttpsUpstream.downstreamReadcb]
  dsimp only
  split
  · split
    · exact h.reused
    · exact hparsed.errorReply.finish _ input
  · rename_i hparse
    split
    · rename_i hcomplete
      split
      · exact h.reused
      · apply hparsed.releaseConnection rfl ((congrArg Downstream.dconn hreq).trans hconn)
        intro hstate hclose
        by_contra hended
        have hstate' : d.requestState = .msgComplete := (congrArg Downstream.requestState hreq).symm.trans hstate
        have hpools := (poolsUnanswered_iff hd callbacks nothingPending input).mpr
          ⟨hconn,hstate',hcomplete,Bool.eq_false_iff.mpr hparse,hclose,(unanswered_iff htracks).mp (Bool.eq_false_iff.mpr hended)⟩
        exact ne_true_of_eq_false hanswered hpools
    · exact .inl hparsed

theorem Tidy.downstreamEventcb (h : Tidy s) {d : ProxiedRequest} (hd : s.downstream = some d) (event : BackendEvent)
    (nothingPending : Bool) (input : Option ReadInput) :
    Kept (s.downstreamEventcb config ipaddr d event nothingPending input) := by
  unfold HttpsUpstream.downstreamEventcb
  split
  · dsimp only
    split
    · exact h.reused
    · have hreq : ({ d with responseState := .msgComplete } : ProxiedRequest).toDownstream = d.toDownstream := rfl
      have hended := h.setDownstream hd hreq rfl rfl (h.tracks d hd)
        (s.shouldCloseAfterWrite || d.requestConnectionClose || d.responseConnectionClose)
      exact hended.finish d input
  · exact h.errorReply.finish d input
  · exact h.finish d input

theorem afterExecute_pool (s : HttpsUpstream) (outputBufferFull : Bool) :
    (s.afterExecute outputBufferFull).pool = s.pool := by
  have hpause : ∀ reason, (s.pauseRead reason).pool = s.pool := by
    rintro ⟨⟩ <;> rfl
  exact afterExecute_holds (P := fun o => o.pool = s.pool) (fun _ _ => rfl) rfl rfl hpause rfl outputBufferFull

theorem resumeRead_msgBlock (herrno : s.errno ≠ .failed) (hbuffer : s.noBuffer = false) (input : Option ReadInput) :
    s.resumeRead config ipaddr .msgBlock input =
      { s.clearReason .msgBlock with errno := .ok }.onRead config ipaddr input := by
  rw [HttpsUpstream.resumeRead]
  dsimp only
  rw [if_pos ⟨hbuffer,rfl⟩]
  exact if_neg herrno

theorem onRead_pool (s : HttpsUpstream) (input : ReadInput) :
    (s.onRead config ipaddr (some input)).pool = (s.httpParserExecute config ipaddr input.callbacks).pool := by
  rw [HttpsUpstream.onRead]
  cases s.httpParserExecute config ipaddr input.callbacks with
  | running s' => exact afterExecute_pool _ _
  | closed pool => rfl
  | crashed why pool => rfl

theorem run_singleton (s : HttpsUpstream) (e : Event) : s.run config ipaddr [e] = s.step config ipaddr e := by
  rw [HttpsUpstream.run]
  cases s.step config ipaddr e with
  | running s' => rfl
  | closed pool => rfl
  | crashed why pool => rfl

/-- The head of the next request takes the connection that lies first in the pool. -/
theorem execute_pool {c : History} (hok : s.errno = .ok) (hidle : s.phase = .idle) (hd : s.downstream = none)
    {pool : ConnectionPool} (hpool : s.pool = pool.poolDownstreamConnection c) (head : RequestHead) (connect : Int) :
    (s.httpParserExecute config ipaddr [.msgBegin,.hdrsComplete head 0 connect]).pool.reused = pool.reused ++ [c] := by
  have hbegin : s.callback config ipaddr .msgBegin =
      .running { s with phase := .headers, currentHeaderLength := 0, downstream := some {} } := by
    rw [HttpsUpstream.callback,if_neg (not_not.mpr hidle),if_pos hd]
  have hwrite : { head.request with dconn := true }.writeRequestHeaders config ipaddr =
      some ({ head.request with dconn := true }.pushRequestHeaders config ipaddr) := if_pos rfl
  rw [HttpsUpstream.httpParserExecute,if_pos hok,hbegin]
  dsimp only
  rw [HttpsUpstream.httpParserExecute,if_pos hok,HttpsUpstream.callback,if_neg (not_not.mpr rfl)]
  dsimp only
  rw [HttpsUpstream.htpHdrsComplete]
  dsimp only
  rw [hpool,ConnectionPool.getDownstreamConnection_pool,if_neg (fun h => by cases h.1),hwrite]
  rfl

/-- Otherwise the next request can take the connection. -/
theorem Tidy.poolsUnanswered_reused (htidy : Tidy s) {callbacks : List ResponseCallback} {head : RequestHead} {connect : Int} {nread : Nat}
    {outputBufferFull : Bool}
    (h : s.poolsUnanswered (.backendRead callbacks false
      (some ⟨[.msgBegin,.hdrsComplete head 0 connect],nread,outputBufferFull⟩)) = true)
    (herrno : s.errno ≠ .failed) (hidle : s.phase = .idle) (hbuffer : s.noBuffer = false) :
    ∃ c ∈ (s.run config ipaddr [.backendRead callbacks false
      (some ⟨[.msgBegin,.hdrsComplete head 0 connect],nread,outputBufferFull⟩)]).pool.reused, ¬Clean c := by
  cases hd : s.downstream with
  | none =>
    rw [poolsUnanswered,hd] at h
    cases h
  | some d =>
    obtain ⟨hconn,hstate,hcomplete,hparse,hclose,hunanswered⟩ := (poolsUnanswered_iff hd callbacks false _).mp h
    have hreq := (d.parseHttpResponse_frame callbacks).1
    have hstate' : (d.parseHttpResponse callbacks).requestState = .msgComplete :=
      (congrArg Downstream.requestState hreq).trans hstate
    have hunfinished : ((d.parseHttpResponse callbacks).current.requestEnded &&
        (d.parseHttpResponse callbacks).current.responseEnded) = false := by
      rw [(unanswered_iff ((htidy.tracks d hd).parseHttpResponse callbacks)).mpr hunanswered,Bool.and_false]
    obtain ⟨s',hread,hok,hidle',hd',hpool⟩ : ∃ s' : HttpsUpstream,
        s.step config ipaddr (.backendRead callbacks false
          (some ⟨[.msgBegin,.hdrsComplete head 0 connect],nread,outputBufferFull⟩)) =
          s'.onRead config ipaddr (some ⟨[.msgBegin,.hdrsComplete head 0 connect],nread,outputBufferFull⟩) ∧
        s'.errno = .ok ∧ s'.phase = .idle ∧ s'.downstream = none ∧
        s'.pool = s.pool.poolDownstreamConnection (d.parseHttpResponse callbacks).history := by
      rw [step,hd]
      dsimp only
      rw [if_pos hconn,HttpsUpstream.downstreamReadcb]
      dsimp only
      rw [if_neg (ne_true_of_eq_false hparse),if_pos hcomplete,if_neg (fun hc => by cases hc.2.2),
        HttpsUpstream.finish,if_pos hstate']
      refine ⟨_,resumeRead_msgBlock ?_ ?_ _,rfl,?_,rfl,?_⟩
      · exact herrno
      · exact hbuffer
      · exact hidle
      · exact if_neg (ne_true_of_eq_false hclose)
    refine ⟨(d.parseHttpResponse callbacks).history,?_,not_clean_history hunfinished⟩
    rw [run_singleton,hread,onRead_pool,execute_pool hok hidle' hd' hpool]
    exact List.mem_append_right _ (List.mem_singleton_self _)

theorem Kept.reused {o : HttpsOutcome} (h : Kept o) : ∀ c ∈ o.pool.reused, Clean c := by
  cases o with
  | running s => exact Or.elim h Tidy.reused Spent.reused
  | closed pool => exact h
  | crashed why pool => exact h

end HttpsUpstream

/-! The SPDY front end. -/

structure SpdyConnections where
  downstream : Nat → Option ProxiedRequest := fun _ => none
  /-- The streams that the session with the client has received to their end. -/
  shutRd : Nat → Bool := fun _ => false
  pool : ConnectionPool := {}

namespace SpdyConnections

/-- `last` tells whether the chunk is the last one of its frame. -/
inductive Event
  | synStream (streamId : Nat) (fin : Bool) (nv : Nv) (pick : Nat) (connect : Int)
  | dataChunk (streamId : Nat) (fin last : Bool) (data : Bytes)
  | backendRead (streamId : Nat) (callbacks : List ResponseCallback)
  | backendWrite (streamId : Nat)
  | backendEvent (streamId : Nat) (event : BackendEvent)
  | rstStream (streamId : Nat)
  | streamClose (streamId : Nat)
  | idleEvent (i : Nat)
  deriving DecidableEq, Repr

def setDownstream (s : SpdyConnections) (streamId : Nat) (d : ProxiedRequest) : SpdyConnections :=
  { s with downstream := Function.update s.downstream streamId (some d) }

/-- A change of the request of a stream, if there is one. -/
def modifyDownstream (s : SpdyConnections) (streamId : Nat) (f : ProxiedRequest → ProxiedRequest) : SpdyConnections :=
  match s.downstream streamId with
  | some d => s.setDownstream streamId (f d)
  | none => s

def setShutRd (s : SpdyConnections) (streamId : Nat) (fin : Bool) : SpdyConnections :=
  { s with shutRd := Function.update s.shutRd streamId fin }

def rstStream (d : ProxiedRequest) : ProxiedRequest :=
  { d with toDownstream := d.toDownstream.submitRstStream internalError }

/-- A connection is looked for when the header list is complete. -/
def onCtrlRecv (config : Config) (ipaddr : Bytes) (s : SpdyConnections) (streamId : Nat) (fin : Bool) (nv : Nv)
    (pick : Nat) (connect : Int) : SpdyConnections :=
  let scan := nv.foldl scanStep {}
  if scan.path.isSome ∧ scan.host.isSome ∧ scan.method.isSome then
    let r := s.pool.getDownstreamConnection pick
    let rv := if r.1 = none then connect else 0
    { s with pool := r.2 }.setDownstream streamId
      { toDownstream := onCtrlRecvCallback config ipaddr rv fin nv
        past := r.1.getD []
        current := { requestEnded := fin } }
  else s.setDownstream streamId { toDownstream := onCtrlRecvCallback config ipaddr 0 fin nv }

/-- The flags of a frame come with each of its chunks. -/
def onDataChunk (upstream : SpdyUpstream) (fin last : Bool) (data : Bytes) (d : ProxiedRequest) : ProxiedRequest :=
  { d with
    toDownstream := onDataChunkRecvCallback upstream d.toDownstream fin data
    current := { d.current with requestEnded := d.current.requestEnded || (fin && last && d.dconn) } }

def downstreamReadcb (callbacks : List ResponseCallback) (d : ProxiedRequest) : ProxiedRequest :=
  let d := d.parseHttpResponse callbacks
  if d.responseFailed then
    let d := if d.responseState = .headerComplete then rstStream d else d
    { d with responseState := .msgComplete }.setNoConnection
  else d

def downstreamWritecb (upstream : SpdyUpstream) (d : ProxiedRequest) : ProxiedRequest :=
  if upstream.flowControl ∧ upstream.initialWindowSize/2 ≤ d.recvWindowSize then
    { d with toDownstream := d.toDownstream.setRecvWindowSize 0 }
  else d

/-- The connection is deleted, so that it is not pooled when the stream is closed. -/
def downstreamEventcb (event : BackendEvent) (d : ProxiedRequest) : ProxiedRequest :=
  let d := d.setNoConnection
  match event, d.responseState with
  | _, .initial => { d with responseState := .msgComplete }
  | .eof, .headerComplete =>
    let d := if d.tunnelEstablished then rstStream d else d
    { d with responseState := .msgComplete }
  | _, .headerComplete => { rstStream d with responseState := .msgComplete }
  | _, .msgComplete => rstStream d

/-- Whether the connection of a closed stream goes to the pool. -/
def pools (d : ProxiedRequest) : Bool :=
  d.requestState ≠ .connectFail && d.responseState = .msgComplete && !d.tunnelEstablished &&
    !d.responseConnectionClose && d.dconn

def onStreamClose (s : SpdyConnections) (streamId : Nat) : SpdyConnections :=
  match s.downstream streamId with
  | some d =>
    { s with
      downstream := Function.update s.downstream streamId none
      pool := if pools d then s.pool.poolDownstreamConnection d.history else s.pool }
  | none => s

def step (config : Config) (ipaddr : Bytes) (upstream : SpdyUpstream) (s : SpdyConnections) : Event → SpdyConnections
  | .synStream streamId fin nv pick connect =>
    (s.onCtrlRecv config ipaddr streamId fin nv pick connect).setShutRd streamId fin
  | .dataChunk streamId fin last data =>
    (s.modifyDownstream streamId (onDataChunk upstream fin last data)).setShutRd streamId
      (s.shutRd streamId || (fin && last))
  | .backendRead streamId callbacks =>
    s.modifyDownstream streamId (fun d => if d.dconn then downstreamReadcb callbacks d else d)
  | .backendWrite streamId => s.modifyDownstream streamId (fun d => if d.dconn then downstreamWritecb upstream d else d)
  | .backendEvent streamId event =>
    s.modifyDownstream streamId (fun d => if d.dconn then downstreamEventcb event d else d)
  | .rstStream streamId => s.modifyDownstream streamId rstStream
  | .streamClose streamId => s.onStreamClose streamId
  | .idleEvent i => { s with pool := s.pool.removeDownstreamConnection i }

def run (config : Config) (ipaddr : Bytes) (upstream : SpdyUpstream) (s : SpdyConnections) (es : List Event) :
    SpdyConnections :=
  es.foldl (step config ipaddr upstream) s

variable {config : Config} {ipaddr : Bytes} {upstream : SpdyUpstream} {s : SpdyConnections}

/-- A stream is closed with its connection attached and the end of a message read, behind which
the backend keeps the connection, but the session has not received the stream to its end or the
message is an interim one. -/
def closesUnfinished (s : SpdyConnections) : Event → Bool
  | .streamClose streamId =>
    match s.downstream streamId with
    | some d =>
      d.dconn && d.responseState = .msgComplete && !d.responseConnectionClose && !d.tunnelEstablished &&
        !(s.shutRd streamId && !d.responseInMessage && 200 ≤ d.responseHttpStatus)
    | none => false
  | _ => false

/-- The request of a stream, and whether the session has received the stream to its end: as long
as the connection is attached, that end has been written to it. -/
structure Followed (fin : Bool) (d : ProxiedRequest) : Prop where
  past : Clean d.past
  ended : d.dconn = true → d.current.requestEnded = fin
  connected : d.dconn = true → d.requestState ≠ .connectFail
  tracks : d.Tracks

structure Tidy (s : SpdyConnections) : Prop where
  idle : s.pool.AllClean
  reused : ∀ c ∈ s.pool.reused, Clean c
  followed : ∀ streamId d, s.downstream streamId = some d → Followed (s.shutRd streamId) d

/-- A step that changes one stream. -/
theorem Tidy.of_stream (h : Tidy s) {s' : SpdyConnections} (streamId : Nat) (hidle : s'.pool.AllClean)
    (hreused : ∀ c ∈ s'.pool.reused, Clean c)
    (hother : ∀ id, id ≠ streamId → s'.downstream id = s.downstream id ∧ s'.shutRd id = s.shutRd id)
    (hstream : ∀ d, s'.downstream streamId = some d → Followed (s'.shutRd streamId) d) : Tidy s' := by
  refine ⟨hidle,hreused,?_⟩
  intro id d hd
  by_cases hid : id = streamId
  · subst hid
    exact hstream d hd
  · obtain ⟨hdown,hshut⟩ := hother id hid
    rw [hshut]
    exact h.followed id d (hdown.symm.trans hd)

theorem modifyDownstream_other (s : SpdyConnections) {id streamId : Nat} (hid : id ≠ streamId)
    (f : ProxiedRequest → ProxiedRequest) : (s.modifyDownstream streamId f).downstream id = s.downstream id := by
  rw [SpdyConnections.modifyDownstream]
  split
  · exact Function.update_of_ne hid _ _
  · rfl

theorem modifyDownstream_self (s : SpdyConnections) (streamId : Nat) (f : ProxiedRequest → ProxiedRequest) :
    (s.modifyDownstream streamId f).downstream streamId = (s.downstream streamId).map f := by
  rw [SpdyConnections.modifyDownstream]
  split
  · rename_i d hd
    rw [hd]
    exact Function.update_self _ _ _
  · rename_i hd
    rw [hd]
    rfl

theorem modifyDownstream_rest (s : SpdyConnections) (streamId : Nat) (f : ProxiedRequest → ProxiedRequest) :
    (s.modifyDownstream streamId f).pool = s.pool ∧ (s.modifyDownstream streamId f).shutRd = s.shutRd := by
  rw [SpdyConnections.modifyDownstream]
  split <;> exact ⟨rfl,rfl⟩

/-- What follows the request of a stream, with the end of the stream or without it. -/
theorem Tidy.modifyDownstream (h : Tidy s) (streamId : Nat) {f : ProxiedRequest → ProxiedRequest}
    (hf : ∀ d, Followed (s.shutRd streamId) d → Followed (s.shutRd streamId) (f d)) :
    Tidy (s.modifyDownstream streamId f) := by
  obtain ⟨hpool,hshut⟩ := s.modifyDownstream_rest streamId f
  apply h.of_stream streamId
  · rw [hpool]
    exact h.idle
  · rw [hpool]
    exact h.reused
  · exact fun id hid => ⟨s.modifyDownstream_other hid f,congrFun hshut id⟩
  · intro d hd
    rw [modifyDownstream_self] at hd
    obtain ⟨d0,hd0,rfl⟩ := Option.map_eq_some_iff.mp hd
    rw [hshut]
    exact hf d0 (h.followed streamId d0 hd0)

/-! The client. -/

theorem scan_request (nv : Nv) (s : Scan) : (nv.foldl scanStep s).downstream.dconn = s.downstream.dconn ∧
    (nv.foldl scanStep s).downstream.requestState = s.downstream.requestState := by
  induction nv generalizing s with
  | nil => exact ⟨rfl,rfl⟩
  | cons i nv ih =>
    obtain ⟨h1,h2⟩ := ih (scanStep s i)
    have hstep : (scanStep s i).downstream.dconn = s.downstream.dconn ∧
        (scanStep s i).downstream.requestState = s.downstream.requestState := by
      rw [scanStep]
      split_ifs <;> exact ⟨rfl,rfl⟩
    exact ⟨h1.trans hstep.1,h2.trans hstep.2⟩

/-- A connection is attached only to a request whose headers are complete. -/
theorem onCtrlRecvCallback_dconn {config : Config} {ipaddr : Bytes} {rv : Int} {fin : Bool} {nv : Nv}
    (h : (onCtrlRecvCallback config ipaddr rv fin nv).dconn = true) :
    ((nv.foldl scanStep {}).path.isSome ∧ (nv.foldl scanStep {}).host.isSome ∧ (nv.foldl scanStep {}).method.isSome) ∧
      (onCtrlRecvCallback config ipaddr rv fin nv).requestState ≠ .connectFail := by
  obtain ⟨hscan,-⟩ := scan_request nv {}
  unfold onCtrlRecvCallback at h ⊢
  dsimp only at h ⊢
  split at h
  · rename_i path host method hpath hhost hmethod
    rw [hpath,hhost,hmethod]
    refine ⟨⟨rfl,rfl,rfl⟩,?_⟩
    split
    · rename_i hrv
      rw [if_pos hrv] at h
      have hnone : (nv.foldl scanStep {}).downstream.dconn = true := by
        split at h <;> exact h
      cases hscan.symm.trans hnone
    · split <;> rintro ⟨⟩
  · cases hscan.symm.trans h

theorem Tidy.synStream (h : Tidy s) (streamId : Nat) (fin : Bool) (nv : Nv) (pick : Nat) (connect : Int) :
    Tidy ((s.onCtrlRecv config ipaddr streamId fin nv pick connect).setShutRd streamId fin) := by
  obtain ⟨hidle,hreused,hpicked⟩ := h.idle.getDownstreamConnection h.reused pick
  have hother : ∀ (t : SpdyConnections) (d : ProxiedRequest) (id : Nat), id ≠ streamId →
      ((t.setDownstream streamId d).setShutRd streamId fin).downstream id = t.downstream id ∧
        ((t.setDownstream streamId d).setShutRd streamId fin).shutRd id = t.shutRd id :=
    fun t d id hid => ⟨Function.update_of_ne hid _ _,Function.update_of_ne hid _ _⟩
  have hself : ∀ (t : SpdyConnections) (d d' : ProxiedRequest),
      ((t.setDownstream streamId d).setShutRd streamId fin).downstream streamId = some d' → d' = d := by
    intro t d d' hd'
    have hd : ((t.setDownstream streamId d).setShutRd streamId fin).downstream streamId = some d :=
      Function.update_self _ _ _
    exact (Option.some.inj (hd.symm.trans hd')).symm
  have hfin : ∀ (t : SpdyConnections), (t.setShutRd streamId fin).shutRd streamId = fin :=
    fun t => Function.update_self _ _ _
  rw [SpdyConnections.onCtrlRecv]
  dsimp only
  split
  · refine h.of_stream streamId hidle hreused (hother _ _) ?_
    intro d hd
    rw [hfin,hself _ _ _ hd]
    refine ⟨?_,fun _ => rfl,fun hconn => (onCtrlRecvCallback_dconn hconn).2,rfl⟩
    dsimp only
    cases hpick : (s.pool.getDownstreamConnection pick).1 with
    | none => exact List.forall_mem_nil _
    | some c => exact hpicked c hpick
  · rename_i hincomplete
    refine h.of_stream streamId h.idle h.reused (hother _ _) ?_
    intro d hd
    rw [hfin,hself _ _ _ hd]
    exact ⟨List.forall_mem_nil _,fun hconn => absurd (onCtrlRecvCallback_dconn hconn).1 hincomplete,
      fun hconn => (onCtrlRecvCallback_dconn hconn).2,rfl⟩

theorem onDataChunkRecvCallback_fields (upstream : SpdyUpstream) (d : Downstream) (fin : Bool) (data : Bytes) :
    (onDataChunkRecvCallback upstream d fin data).dconn = d.dconn ∧
      (d.requestState ≠ .connectFail → (onDataChunkRecvCallback upstream d fin data).requestState ≠ .connectFail) := by
  have hpush : (d.pushUploadDataChunk data).1.dconn = d.dconn ∧ (d.pushUploadDataChunk data).1.requestState = d.requestState := by
    rw [Downstream.pushUploadDataChunk]
    split_ifs <;> exact ⟨rfl,rfl⟩
  rw [onDataChunkRecvCallback]
  dsimp only
  split_ifs
  all_goals
    refine ⟨hpush.1,fun hstate => ?_⟩
    first
      | exact hpush.2.trans_ne hstate
      | rintro ⟨⟩

/-- The last chunk of a frame with FIN. -/
theorem Followed.onDataChunk {d : ProxiedRequest} {fin : Bool} (h : Followed fin d) (upstream : SpdyUpstream)
    (fin' last : Bool) (data : Bytes) : Followed (fin || (fin' && last)) (onDataChunk upstream fin' last data d) := by
  obtain ⟨hdconn,hstate⟩ := onDataChunkRecvCallback_fields upstream d.toDownstream fin' data
  refine ⟨h.past,?_,?_,h.tracks⟩
  · intro hconn
    have hconn' : d.dconn = true := hdconn.symm.trans hconn
    have hended : (SpdyConnections.onDataChunk upstream fin' last data d).current.requestEnded =
        (d.current.requestEnded || (fin' && last && d.dconn)) := rfl
    rw [hended,h.ended hconn',hconn',Bool.and_true]
  · exact fun hconn => hstate (h.connected (hdconn.symm.trans hconn))

theorem Tidy.dataChunk (h : Tidy s) (streamId : Nat) (fin last : Bool) (data : Bytes) :
    Tidy ((s.modifyDownstream streamId (onDataChunk upstream fin last data)).setShutRd streamId
      (s.shutRd streamId || (fin && last))) := by
  obtain ⟨hpool,hshut⟩ := s.modifyDownstream_rest streamId (onDataChunk upstream fin last data)
  apply h.of_stream streamId
  · rw [setShutRd,hpool]
    exact h.idle
  · rw [setShutRd,hpool]
    exact h.reused
  · intro id hid
    refine ⟨s.modifyDownstream_other hid _,?_⟩
    rw [setShutRd,hshut]
    exact Function.update_of_ne hid _ _
  · intro d hd
    have hd' : (s.downstream streamId).map (onDataChunk upstream fin last data) = some d := by
      rw [← modifyDownstream_self]
      exact hd
    obtain ⟨d0,hd0,rfl⟩ := Option.map_eq_some_iff.mp hd'
    rw [setShutRd]
    dsimp only
    rw [Function.update_self]
    exact (h.followed streamId d0 hd0).onDataChunk upstream fin last data

/-! The backend. -/

/-- A change of the response, with the connection or without it from now on. -/
theorem Followed.of_response {fin : Bool} {d d' : ProxiedRequest} (h : Followed fin d) (hpast : d'.past = d.past)
    (hended : d'.current.requestEnded = d.current.requestEnded) (hconn : d'.dconn = true → d.dconn = true)
    (hstate : d'.requestState = d.requestState) (htracks : d'.Tracks) : Followed fin d' := by
  refine ⟨?_,?_,?_,htracks⟩
  · rw [hpast]
    exact h.past
  · intro hc
    rw [hended]
    exact h.ended (hconn hc)
  · exact fun hc => hstate.trans_ne (h.connected (hconn hc))

theorem Followed.downstreamReadcb {fin : Bool} {d : ProxiedRequest} (h : Followed fin d) (callbacks : List ResponseCallback) :
    Followed fin (downstreamReadcb callbacks d) := by
  obtain ⟨hreq,hpast,hended⟩ := d.parseHttpResponse_frame callbacks
  have htracks := h.tracks.parseHttpResponse callbacks
  have hstate := congrArg Downstream.requestState hreq
  have hconn := congrArg Downstream.dconn hreq
  rw [SpdyConnections.downstreamReadcb]
  dsimp only
  split
  · refine h.of_response ?_ ?_ (by rintro ⟨⟩) ?_ ?_
    · split <;> exact hpast
    · split <;> exact hended
    · split <;> exact hstate
    · split <;> exact htracks
  · exact h.of_response hpast hended (fun hc => hconn.symm.trans hc) hstate htracks

theorem Followed.downstreamEventcb {fin : Bool} {d : ProxiedRequest} (h : Followed fin d) (event : BackendEvent) :
    Followed fin (downstreamEventcb event d) := by
  have hgone : ∀ d' : ProxiedRequest, d'.past = d.past → d'.current = d.current → d'.dconn = false →
      d'.requestState = d.requestState → d'.responseInMessage = d.responseInMessage →
      d'.responseHttpStatus = d.responseHttpStatus → Followed fin d' := by
    intro d' hpast hcurrent hconn hstate hmsg hstatus
    refine h.of_response hpast (congrArg Exchange.requestEnded hcurrent) (fun hc => absurd hc (ne_true_of_eq_false hconn))
      hstate ?_
    rw [ProxiedRequest.Tracks,hcurrent,hmsg,hstatus]
    exact h.tracks
  unfold SpdyConnections.downstreamEventcb
  dsimp only
  split
  · exact hgone _ rfl rfl rfl rfl rfl rfl
  · split <;> exact hgone _ rfl rfl rfl rfl rfl rfl
  · exact hgone _ rfl rfl rfl rfl rfl rfl
  · exact hgone _ rfl rfl rfl rfl rfl rfl

/-! The end of a stream. -/

theorem pools_iff (d : ProxiedRequest) : pools d = true ↔ d.requestState ≠ .connectFail ∧ d.dconn = true ∧
    d.responseState = .msgComplete ∧ d.responseConnectionClose = false ∧ d.tunnelEstablished = false := by
  rw [pools]
  simp only [ne_eq,decide_not,Bool.and_eq_true,Bool.not_eq_true',decide_eq_false_iff_not,decide_eq_true_eq]
  tauto

theorem closesUnfinished_iff {streamId : Nat} {d : ProxiedRequest} (hd : s.downstream streamId = some d) :
    s.closesUnfinished (.streamClose streamId) = true ↔ d.dconn = true ∧ d.responseState = .msgComplete ∧
      d.responseConnectionClose = false ∧ d.tunnelEstablished = false ∧
      (s.shutRd streamId && (!d.responseInMessage && decide (200 ≤ d.responseHttpStatus))) = false := by
  rw [closesUnfinished,hd]
  simp only [Bool.and_eq_true,Bool.not_eq_true',decide_eq_true_eq,Bool.and_assoc]

/-- The end of a request that has been received is the end of what was written. -/
theorem Followed.finished {fin : Bool} {d : ProxiedRequest} (h : Followed fin d) (hconn : d.dconn = true) :
    (d.current.requestEnded && d.current.responseEnded) =
      (fin && (!d.responseInMessage && decide (200 ≤ d.responseHttpStatus))) := by
  rw [h.ended hconn,h.tracks]

theorem Tidy.onStreamClose (h : Tidy s) {streamId : Nat} (hfinished : s.closesUnfinished (.streamClose streamId) = false) :
    Tidy (s.onStreamClose streamId) := by
  rw [SpdyConnections.onStreamClose]
  cases hd : s.downstream streamId with
  | none => exact h
  | some d =>
    have hfollowed := h.followed streamId d hd
    have hother : ∀ id, id ≠ streamId →
        Function.update s.downstream streamId none id = s.downstream id ∧ s.shutRd id = s.shutRd id :=
      fun id hid => ⟨Function.update_of_ne hid _ _,rfl⟩
    have hnone : ∀ d', Function.update s.downstream streamId none streamId = some d' →
        Followed (s.shutRd streamId) d' := by
      intro d' hd'
      rw [Function.update_self] at hd'
      cases hd'
    dsimp only
    cases hpools : pools d with
    | false => exact h.of_stream streamId h.idle h.reused hother hnone
    | true =>
      obtain ⟨-,hconn,hcomplete,hclose,htunnel⟩ := (pools_iff d).mp hpools
      have hended : (d.current.requestEnded && d.current.responseEnded) = true := by
        rw [hfollowed.finished hconn]
        by_contra hunfinished
        have hcloses := (closesUnfinished_iff hd).mpr
          ⟨hconn,hcomplete,hclose,htunnel,Bool.eq_false_of_not_eq_true hunfinished⟩
        exact ne_true_of_eq_false hfinished hcloses
      rw [Bool.and_eq_true] at hended
      have hclean := history_clean hfollowed.past hended.1 hended.2
      exact h.of_stream streamId (h.idle.poolDownstreamConnection hclean) h.reused hother hnone

theorem Tidy.step (h : Tidy s) (e : Event) (hfinished : s.closesUnfinished e = false) :
    Tidy (s.step config ipaddr upstream e) := by
  cases e with
  | synStream streamId fin nv pick connect => exact h.synStream streamId fin nv pick connect
  | dataChunk streamId fin last data => exact h.dataChunk streamId fin last data
  | backendRead streamId callbacks =>
    apply h.modifyDownstream streamId
    intro d hd
    split
    · exact hd.downstreamReadcb callbacks
    · exact hd
  | backendWrite streamId =>
    apply h.modifyDownstream streamId
    intro d hd
    rw [downstreamWritecb]
    split_ifs
    · exact ⟨hd.past,hd.ended,hd.connected,hd.tracks⟩
    · exact hd
    · exact hd
  | backendEvent streamId event =>
    apply h.modifyDownstream streamId
    intro d hd
    split
    · exact hd.downstreamEventcb event
    · exact hd
  | rstStream streamId =>
    apply h.modifyDownstream streamId
    exact fun d hd => ⟨hd.past,hd.ended,hd.connected,hd.tracks⟩
  | streamClose streamId => exact h.onStreamClose hfinished
  | idleEvent i => exact ⟨h.idle.removeDownstreamConnection i,h.reused,h.followed⟩

def along (config : Config) (ipaddr : Bytes) (upstream : SpdyUpstream) (p : SpdyConnections → Event → Bool)
    (s : SpdyConnections) : List Event → Bool
  | [] => true
  | e :: es => p s e && along config ipaddr upstream p (s.step config ipaddr upstream e) es

theorem Tidy.run (h : Tidy s) {es : List Event}
    (halong : along config ipaddr upstream (fun s e => !s.closesUnfinished e) s es = true) :
    Tidy (s.run config ipaddr upstream es) := by
  induction es generalizing s with
  | nil => exact h
  | cons e es ih =>
    rw [along,Bool.and_eq_true,Bool.not_eq_true'] at halong
    exact ih (h.step e halong.1) halong.2

/-- Otherwise the next stream can take the connection. -/
theorem Tidy.closesUnfinished_reused (htidy : Tidy s) {streamId : Nat}
    (h : s.closesUnfinished (.streamClose streamId) = true) {nv : Nv}
    (hpath : (nv.foldl scanStep {}).path.isSome) (hhost : (nv.foldl scanStep {}).host.isSome)
    (hmethod : (nv.foldl scanStep {}).method.isSome) (newId : Nat) (fin : Bool) (connect : Int) :
    ∃ c ∈ (s.run config ipaddr upstream [.streamClose streamId,.synStream newId fin nv 0 connect]).pool.reused,
      ¬Clean c := by
  cases hd : s.downstream streamId with
  | none =>
    rw [closesUnfinished,hd] at h
    cases h
  | some d =>
    have hfollowed := htidy.followed streamId d hd
    obtain ⟨hconn,hcomplete,hkeep,htunnel,hunfinished⟩ := (closesUnfinished_iff hd).mp h
    have hpools := (pools_iff d).mpr ⟨hfollowed.connected hconn,hconn,hcomplete,hkeep,htunnel⟩
    have hclose : (s.onStreamClose streamId).pool = s.pool.poolDownstreamConnection d.history := by
      rw [SpdyConnections.onStreamClose,hd]
      exact if_pos hpools
    have hnext : ((s.onStreamClose streamId).onCtrlRecv config ipaddr newId fin nv 0 connect).pool =
        ((s.onStreamClose streamId).pool.getDownstreamConnection 0).2 := by
      rw [SpdyConnections.onCtrlRecv]
      dsimp only
      rw [if_pos ⟨hpath,hhost,hmethod⟩]
      rfl
    refine ⟨d.history,?_,not_clean_history ((hfollowed.finished hconn).trans hunfinished)⟩
    change d.history ∈ ((s.onStreamClose streamId).onCtrlRecv config ipaddr newId fin nv 0 connect).pool.reused
    rw [hnext,hclose,ConnectionPool.getDownstreamConnection_pool]
    exact List.mem_append_right _ (List.mem_singleton_self _)

end SpdyConnections

def getRequest : ReadInput :=
  ⟨[.msgBegin,.hdrsComplete { method := str "GET", path := str "/" } 0 0,.msgComplete],18,false⟩

def twoRequests : List HttpsUpstream.Event :=
  [.clientRead getRequest,.backendRead [.hdrsComplete 200 true,.msgComplete] false (some getRequest)]

end Shrpx
end Spdylay
