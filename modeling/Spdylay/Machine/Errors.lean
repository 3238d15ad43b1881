import Spdylay.Machine.Runs

/-! The errors that calls return. What is left of an assertion is one: the
parser of SYN_REPLY and HEADERS on a version it does not know. -/
namespace Spdylay.Machine
open Library Session

/-! Handlers. -/

theorem handleInvalidStream_error {s : Session} {streamId : Int} {f : Frame} {statusCode : Nat} {e : Err}
    (h : (s.handleInvalidStream streamId f statusCode).2 = some e) : e = .nomem := by
  unfold handleInvalidStream at h
  dsimp only at h
  split at h
  · rename_i e' he
    cases h
    exact addCtrl_error _ _ _ he
  · cases h

theorem failSession_error {s : Session} {statusCode : Nat} {e : Err} (h : (s.failSession statusCode).2 = some e) :
    e = .nomem := addCtrl_error _ _ _ h

theorem onSynStreamReceived_error {s : Session} {f : SynStream} {e : Err} (h : (s.onSynStreamReceived f).2 = some e) :
    e = .nomem := by
  unfold onSynStreamReceived at h
  dsimp only at h
  split_ifs at h
  · exact handleInvalidStream_error h
  · exact failSession_error h
  · exact handleInvalidStream_error h

theorem onSynReplyReceived_error {s : Session} {f : StreamHeaders} {e : Err} (h : (s.onSynReplyReceived f).2 = some e) :
    e = .nomem := by
  unfold onSynReplyReceived at h
  dsimp only at h
  split at h
  · cases h
  · split at h
    · exact handleInvalidStream_error h
    · split at h
      · exact handleInvalidStream_error h
      · split at h
        · cases h
        · cases h
        · exact handleInvalidStream_error h

theorem onRstStreamReceived_error {s : Session} {f : RstStream} {e : Err} :
    (s.onRstStreamReceived f).2 ≠ some e := by
  unfold onRstStreamReceived
  split <;> exact nofun

theorem onPingReceived_error {s : Session} {f : Ping} {e : Err} (h : (s.onPingReceived f).2 = some e) :
    e = .nomem := by
  unfold onPingReceived at h
  split_ifs at h
  exact addCtrl_error _ _ _ h

theorem onGoawayReceived_error {s : Session} {f : Goaway} {e : Err} : (s.onGoawayReceived f).2 ≠ some e := by
  unfold onGoawayReceived
  split <;> exact nofun

theorem onCredentialReceived_error {s : Session} {f : Credential} {e : Err} :
    (s.onCredentialReceived f).2 ≠ some e := by
  unfold onCredentialReceived
  split <;> exact nofun

theorem onHeadersReceived_error {s : Session} {f : StreamHeaders} {e : Err} (h : (s.onHeadersReceived f).2 = some e) :
    e = .nomem := by
  unfold onHeadersReceived at h
  dsimp only at h
  split at h
  · cases h
  · split at h
    · exact handleInvalidStream_error h
    · split at h
      · exact handleInvalidStream_error h
      · split at h
        · split at h
          · cases h
          · cases h
          · exact handleInvalidStream_error h
        · split at h <;> cases h

theorem onDataReceived_error {s : Session} {flags length : Nat} {streamId : Int} {e : Err}
    (h : (s.onDataReceived flags length streamId).2 = some e) : e = .nomem := by
  unfold onDataReceived at h
  dsimp only at h
  split at h
  · exact addCtrl_error _ _ _ h
  · split at h
    · exact addCtrl_error _ _ _ h
    · split at h
      · split at h
        · cases h
        · cases h
        · exact addCtrl_error _ _ _ h
      · split at h <;> cases h

theorem onSettingsReceived_error {s : Session} {f : Settings} {e : Err} (h : (s.onSettingsReceived f).2 = some e) :
    e = .nomem := by
  unfold onSettingsReceived at h
  dsimp only at h
  split at h
  · cases h
  · split at h
    · rename_i he
      cases h
      exact settingsLoop_error _ _ _ _ _ he
    · cases h

theorem onWindowUpdateReceived_error {s : Session} {f : WindowUpdate} {e : Err}
    (h : (s.onWindowUpdateReceived f).2 = some e) : e = .nomem := by
  unfold onWindowUpdateReceived at h
  dsimp only at h
  split at h
  · cases h
  · split at h
    · cases h
    · split at h
      · exact handleInvalidStream_error h
      · rcases releaseDeferred_cases (s.raiseWindow f.streamId f.deltaWindowSize) f.streamId with ⟨hn,-⟩ | ⟨hn,-⟩
        · rw [hn] at h
          cases h
        · rw [hn] at h
          cases h
          rfl

/-! Parsers. -/

/-- The error codes that reading a frame can leave. -/
def readError (e : Err) : Prop := e = .frameTooLarge ∨ e = .zlib ∨ e = .nomem

/-- What stands in the inbound frame also when inflating does not return. -/
def inboundError (e : Err) : Prop := readError e ∨ e = .endless

/-- Not a SYN_REPLY or HEADERS of an unknown version. -/
def knownVersion (head : Bytes) : Bool :=
  !frameIsCtrlFrame (head.getD 0 0) ||
    match FrameType.ofNum (getUint16 (head.drop 2)) with
    | some .synReply | some .headers => getUint16 head % 32768 == 2 || getUint16 head % 32768 == 3
    | _ => true

/-- Neither fatal nor an assertion, or lack of memory. -/
def tame (e : Err) : Prop := isFatal e = true → e = .nomem

theorem frameNvOffset_eq_none {type : FrameType} {version : Nat} (ht : type = .synReply ∨ type = .headers)
    (h : frameNvOffset type version = none) : version ≠ 2 ∧ version ≠ 3 := by
  rcases ht with rfl | rfl <;> by_contra hv <;> simp only [frameNvOffset] at h <;> split_ifs at h <;> tauto

theorem unpackStreamHeadersWithoutNv_error {type : FrameType} {head payload : Bytes} {payloadlen : Nat} {e : Err}
    (ht : type = .synReply ∨ type = .headers)
    (h : (unpackStreamHeadersWithoutNv type head payload payloadlen).2 = some e) :
    tame e ∨ (e = .assertion .nvOffset ∧ getUint16 head % 32768 ≠ 2 ∧ getUint16 head % 32768 ≠ 3) := by
  unfold unpackStreamHeadersWithoutNv at h
  dsimp only at h
  split at h
  · rename_i hn
    cases h
    exact .inr ⟨rfl,frameNvOffset_eq_none ht hn⟩
  · split at h <;> cases h
    exact .inl nofun

theorem frameUnpackNv_tame {qsort : Qsort} {m : Mem} {input : Bytes} {lenSize : Nat} {e : Err}
    (h : (frameUnpackNv qsort m input lenSize).2.2 = some e) : tame e := by
  unfold frameUnpackNv at h
  split at h
  · rename_i he
    cases h
    rw [frameCountUnpackNvSpace_error he]
    exact nofun
  · rename_i hn
    have hlen := frameCountUnpackNvSpace_length hn
    split at h
    · dsimp only at h
      rw [if_neg (by simpa using hlen)] at h
      split at h
      · cases h
        exact nofun
      · dsimp only at h
        split at h
        · cases h
          exact nofun
        · cases h
    · cases h
      exact fun _ => rfl

theorem parseSynStream_tame {P : Platform} {s : Session} {e : Err}
    (he : ∀ e, s.iframe.errorCode = some e → readError e) (h : (s.parseSynStream P).2.2 = some e) : tame e := by
  have hw : ∀ head payload len e', (frameUnpackSynStreamWithoutNv head payload len).2 = some e' →
      e' = .invalidFrame := by
    intro head payload len e' hx
    unfold frameUnpackSynStreamWithoutNv at hx
    dsimp only at hx
    split at hx <;> cases hx
    rfl
  unfold parseSynStream at h
  dsimp only at h
  split at h
  · unfold frameUnpackSynStream at h
    dsimp only at h
    split at h
    · cases h
      exact nofun
    · split at h
      · rename_i he'
        cases h
        rw [hw _ _ _ _ he']
        exact nofun
      · exact frameUnpackNv_tame h
  · cases hx : (frameUnpackSynStreamWithoutNv s.iframe.headbuf s.iframe.buf s.iframe.buflen).2 with
    | none =>
      rw [hx] at h
      cases h
      exact nofun
    | some e' =>
      rw [hx] at h
      cases h
      rw [hw _ _ _ _ hx]
      exact nofun
  · rename_i e' _ hc
    cases h
    rcases he _ hc with rfl | rfl | rfl
    · exact nofun
    · exact nofun
    · exact fun _ => rfl

theorem parseStreamHeaders_error {P : Platform} {s : Session} {type : FrameType} {e : Err}
    (ht : type = .synReply ∨ type = .headers) (he : ∀ e, s.iframe.errorCode = some e → readError e)
    (h : (s.parseStreamHeaders P type).2.2 = some e) :
    tame e ∨ (e = .assertion .nvOffset ∧ getUint16 s.iframe.headbuf % 32768 ≠ 2 ∧
      getUint16 s.iframe.headbuf % 32768 ≠ 3) := by
  unfold parseStreamHeaders at h
  dsimp only at h
  split at h
  · unfold unpackStreamHeaders at h
    dsimp only at h
    split at h
    · rename_i he'
      cases h
      exact unpackStreamHeadersWithoutNv_error ht he'
    · split at h
      · cases h
        exact .inl nofun
      · exact .inl (frameUnpackNv_tame h)
  · cases hx : (unpackStreamHeadersWithoutNv type s.iframe.headbuf s.iframe.buf s.iframe.buflen).2 with
    | none =>
      rw [hx] at h
      cases h
      exact .inl nofun
    | some e' =>
      rw [hx] at h
      cases h
      exact unpackStreamHeadersWithoutNv_error ht hx
  · rename_i e' _ hc
    cases h
    rcases he _ hc with rfl | rfl | rfl
    · exact .inl nofun
    · exact .inl nofun
    · exact .inl (fun _ => rfl)

theorem handleUnparsed_error {s : Session} {type : Nat} {e e' : Err} (h : (s.handleUnparsed type e).2 = some e') :
    e' = .nomem ∨ e' = e := by
  unfold handleUnparsed at h
  split at h
  · exact .inl (failSession_error h)
  · cases h
    exact .inr rfl

theorem handleHeadersError_error {s : Session} {type : Nat} {streamId : Int} {f : Frame} {e e' : Err}
    (h : (s.handleHeadersError type streamId f e).2 = some e') : e' = .nomem ∨ e' = e := by
  unfold handleHeadersError at h
  split at h
  · exact .inl (handleInvalidStream_error h)
  · exact handleUnparsed_error h

theorem processPlain_tame {α : Type} {s : Session} {type : FrameType} {on : Session → α → Session × Option Err}
    {u : Except Err α} {e : Err} (hu : ∀ e, u = .error e → tame e) (hon : ∀ f e, (on s f).2 = some e → e = .nomem)
    (h : (s.processPlain type on u).2 = some e) : tame e := by
  cases u with
  | ok f =>
    rw [hon f e h]
    exact fun _ => rfl
  | error e' =>
    rcases handleUnparsed_error h with rfl | rfl
    · exact fun _ => rfl
    · exact hu _ rfl

theorem frameUnpackRstStream_tame {head payload : Bytes} {n : Nat} {e : Err}
    (h : frameUnpackRstStream head payload n = .error e) : tame e := by
  unfold frameUnpackRstStream at h
  split at h <;> cases h
  exact nofun

theorem frameUnpackPing_tame {head payload : Bytes} {n : Nat} {e : Err}
    (h : frameUnpackPing head payload n = .error e) : tame e := by
  unfold frameUnpackPing at h
  split at h <;> cases h
  exact nofun

theorem frameUnpackGoaway_tame {head payload : Bytes} {n : Nat} {e : Err}
    (h : frameUnpackGoaway head payload n = .error e) : tame e := by
  unfold frameUnpackGoaway at h
  dsimp only at h
  split_ifs at h <;> cases h <;> exact nofun

theorem frameUnpackWindowUpdate_tame {head payload : Bytes} {n : Nat} {e : Err}
    (h : frameUnpackWindowUpdate head payload n = .error e) : tame e := by
  unfold frameUnpackWindowUpdate at h
  split at h <;> cases h
  exact nofun

theorem frameUnpackSettings_tame {m : Mem} {head payload : Bytes} {n : Nat} {e : Err}
    (h : (frameUnpackSettings m head payload n).2 = .error e) : tame e := by
  unfold frameUnpackSettings at h
  dsimp only at h
  split_ifs at h <;> cases h
  · exact nofun
  · exact nofun
  · exact nofun
  · exact fun _ => rfl

theorem countUnpackCertLoop_error {payload : Bytes} {len fuel offset : Nat} {e : Err}
    (h : countUnpackCertLoop payload len fuel offset = .error e) : e = .invalidFrame := by
  induction fuel generalizing offset with
  | zero =>
    cases h
    rfl
  | succ fuel ih =>
    unfold countUnpackCertLoop at h
    dsimp only at h
    split_ifs at h
    · cases h
      rfl
    · cases h
      rfl
    · split at h <;> cases h
      exact ih ‹_›

theorem frameUnpackCredential_tame {m : Mem} {head payload : Bytes} {n : Nat} {e : Err}
    (h : (frameUnpackCredential m head payload n).2 = .error e) : tame e := by
  unfold frameUnpackCredential at h
  dsimp only at h
  split_ifs at h
  · cases h
    exact nofun
  · cases h
    exact nofun
  · split at h
    · rename_i hc
      cases h
      rw [countUnpackCertLoop_error hc]
      exact nofun
    · split_ifs at h
      cases h
      exact fun _ => rfl
  · cases h
    exact fun _ => rfl

/-! Complete frames. -/

/-- Among the fatal results of a control frame only lack of memory is left, and
the assertion on the version. -/
theorem dispatchCtrlFrame_error {P : Platform} {s : Session} {e : Err} (hc : s.iframe.isCtrl = true)
    (he : ∀ e, s.iframe.errorCode = some e → readError e) (h : (s.dispatchCtrlFrame P).2 = some e) :
    tame e ∨ (e = .assertion .nvOffset ∧ knownVersion s.iframe.headbuf = false) := by
  have hnomem : ∀ {e}, e = Err.nomem → tame e := fun h _ => h
  -- SYN_REPLY and HEADERS
  have hheaders : ∀ type e', (type = .synReply ∨ type = .headers) →
      FrameType.ofNum (getUint16 (s.iframe.headbuf.drop 2)) = some type →
      (s.parseStreamHeaders P type).2.2 = some e' →
      tame e' ∨ (e' = .assertion .nvOffset ∧ knownVersion s.iframe.headbuf = false) := by
    intro type e' ht hty hp
    refine (parseStreamHeaders_error ht he hp).imp_right (fun hx => ⟨hx.1,?_⟩)
    have hc' : frameIsCtrlFrame (s.iframe.headbuf.getD 0 0) = true := hc
    unfold knownVersion
    rw [hc',hty]
    rcases ht with rfl | rfl <;> simpa using hx.2
  unfold dispatchCtrlFrame at h
  dsimp only at h
  split at h
  · unfold processSynStream at h
    dsimp only at h
    split at h
    · exact .inl (hnomem (onSynStreamReceived_error h))
    · rename_i e' hp
      rcases handleHeadersError_error h with rfl | rfl
      · exact .inl (fun _ => rfl)
      · exact .inl (parseSynStream_tame he hp)
  · rename_i hty
    unfold processSynReply at h
    dsimp only at h
    split at h
    · exact .inl (hnomem (onSynReplyReceived_error h))
    · rename_i e' hp
      rcases handleHeadersError_error h with rfl | rfl
      · exact .inl (fun _ => rfl)
      · exact hheaders _ _ (.inl rfl) hty hp
  · exact .inl (processPlain_tame (fun _ => frameUnpackRstStream_tame)
      (fun f e h => absurd h onRstStreamReceived_error) h)
  · exact .inl (processPlain_tame (fun _ => frameUnpackSettings_tame) (fun f e => onSettingsReceived_error) h)
  · cases h
  · exact .inl (processPlain_tame (fun _ => frameUnpackPing_tame) (fun f e => onPingReceived_error) h)
  · exact .inl (processPlain_tame (fun _ => frameUnpackGoaway_tame)
      (fun f e h => absurd h onGoawayReceived_error) h)
  · rename_i hty
    unfold processHeaders at h
    dsimp only at h
    split at h
    · exact .inl (hnomem (onHeadersReceived_error h))
    · rename_i e' hp
      rcases handleHeadersError_error h with rfl | rfl
      · exact .inl (fun _ => rfl)
      · exact hheaders _ _ (.inr rfl) hty hp
  · exact .inl (processPlain_tame (fun _ => frameUnpackWindowUpdate_tame)
      (fun f e => onWindowUpdateReceived_error) h)
  · exact .inl (processPlain_tame (fun _ => frameUnpackCredential_tame)
      (fun f e h => absurd h onCredentialReceived_error) h)
  · cases h

theorem onlyFatal_error {r : Session × Option Err} {e : Err} (h : (onlyFatal r).2 = some e) :
    r.2 = some e ∧ isFatal e = true := by
  obtain ⟨s,r⟩ := r
  cases r with
  | none => cases h
  | some e' =>
    unfold onlyFatal at h
    dsimp only at h
    split at h <;> cases h
    exact ⟨rfl,‹_›⟩

theorem readError_of_live {f : InboundFrame} (he : ∀ e, f.errorCode = some e → inboundError e)
    (hlive : f.errorCode ≠ some .endless) (e : Err) (h : f.errorCode = some e) : readError e :=
  (he e h).resolve_right (fun hx => hlive (hx ▸ h))

/-- A pass that goes on has not met an inflate without end. -/
theorem endFrame_live {P : Platform} {s : Session} (h : (s.endFrame P).2 = none) : s.iframe.errorCode ≠ some .endless := by
  intro hendless
  rw [endFrame,if_pos hendless] at h
  cases h

theorem endFrame_error {P : Platform} {s : Session} {e : Err}
    (he : ∀ e, s.iframe.errorCode = some e → inboundError e) (h : (s.endFrame P).2 = some e) :
    (s.iframe.errorCode = some .endless ∧ e = .endless) ∨ s.iframe.payloadlen = s.iframe.off ∧
      (e = .nomem ∨ (e = .assertion .nvOffset ∧ knownVersion s.iframe.headbuf = false)) := by
  unfold endFrame at h
  split at h
  · rename_i hendless
    cases h
    exact .inl ⟨hendless,rfl⟩
  rename_i hlive
  right
  have he := readError_of_live he hlive
  split at h
  · rename_i hlen
    refine ⟨hlen,?_⟩
    dsimp only at h
    split at h
    · cases h
    · rename_i e' hr
      cases h
      split at hr
      · rename_i hc
        obtain ⟨hd,hf⟩ := onlyFatal_error hr
        exact (dispatchCtrlFrame_error hc he hd).imp_left (fun ht => ht hf)
      · exact .inl (onDataReceived_error (onlyFatal_error hr).1)
  · cases h

/-! Sending. -/

/-- Not an error code, but the end of the process or a loop without one. -/
def stops : Err → Bool
  | .endless => true
  | .assertion _ => true
  | _ => false

theorem isFatal_cases {e : Err} (h : isFatal e = true) : e = .nomem ∨ e = .callbackFailure ∨ stops e = true := by
  cases e with
  | nomem => exact .inl rfl
  | callbackFailure => exact .inr (.inl rfl)
  | endless => exact .inr (.inr rfl)
  | assertion a => exact .inr (.inr rfl)
  | _ => cases h

theorem Refusal.not_stops {e : Err} (h : Refusal e) : ¬stops e = true := by
  intro hs
  have hn := h.nonFatal
  cases e with
  | endless => cases hn
  | assertion a => cases hn
  | _ => cases hs

theorem prepStreamHeaders_error {P : Platform} {s : Session} {item : OutboundItem} {type : FrameType}
    {wrap : StreamHeaders → Frame} {f : StreamHeaders} {e : Err} (hs : stops e = true) (ht : type = .synReply ∨ type = .headers) :
    (s.prepStreamHeaders P item type wrap f).result ≠ .error e := by
  intro h
  unfold prepStreamHeaders at h
  dsimp only at h
  split at h
  · cases h
    cases hs
  · rename_i hz
    split at h
    · rename_i hn
      obtain ⟨h2,h3⟩ := frameNvOffset_eq_none ht hn
      exact hz (by simp [frameGetLenSize,h2,h3])
    · split at h
      · rename_i e' he
        cases h
        rcases frameAllocPackNv_error _ _ _ _ _ _ he with rfl | rfl | rfl <;> cases hs
      · cases h

theorem prepFixed_error {s : Session} {item : OutboundItem} {bytes : Bytes} {e : Err} (hs : stops e = true) :
    (s.prepFixed item bytes).result ≠ .error e := by
  intro h
  unfold prepFixed at h
  dsimp only at h
  split at h
  · cases h
  · rename_i he
    cases h
    cases reserveFramebuf_error _ _ _ he
    cases hs

theorem prepSynStreamPack_error {P : Platform} {s : Session} {item : OutboundItem} {f : SynStream} {e : Err} (hs : stops e = true) :
    (s.prepSynStreamPack P item f).result ≠ .error e := by
  intro h
  unfold prepSynStreamPack at h
  dsimp only at h
  split at h
  · cases h
    cases hs
  · split at h
    · rename_i e' he
      cases h
      rcases frameAllocPackNv_error _ _ _ _ _ _ he with rfl | rfl | rfl <;> cases hs
    · split at h
      · cases h
      · cases h
        cases hs

theorem prepData_error {s : Session} {item : OutboundItem} {d : DataFrame} {e : Err} (hs : stops e = true) :
    (s.prepData item d).result ≠ .error e := by
  intro h
  unfold prepData at h
  split at h
  · rename_i e he
    cases h
    exact (predicateDataSend_refusal he).not_stops hs
  · rename_i hp
    obtain ⟨st,hst,hfree⟩ := predicateDataSend_none hp
    rw [hst] at h
    dsimp only at h
    split at h
    · rw [deferData_free hfree] at h
      cases h
      cases hs
    · rcases packData_cases s item.seq d (s.nextDataRead st) with ⟨bytes,fin,hr,-⟩ | ⟨e',hr,-,-,he⟩
      · rw [hr] at h
        cases h
      · rw [hr] at h
        rcases he with rfl | rfl | rfl | rfl
        · cases h
          cases hs
        · dsimp only at h
          rw [deferData_free hfree] at h
          cases h
          cases hs
        · dsimp only at h
          cases hq : ((s.packData item.seq d (s.nextDataRead st)).1.addRstStream d.streamId internalError).2 with
          | none =>
            rw [hq] at h
            cases h
            cases hs
          | some e' =>
            rw [hq] at h
            cases addCtrl_error _ _ _ hq
            cases h
            cases hs
        · cases h
          cases hs

theorem prepFrame_error {P : Platform} {s : Session} {item : OutboundItem} {e : Err} (hs : stops e = true) :
    (s.prepFrame P item).result ≠ .error e := by
  intro h
  unfold prepFrame at h
  split at h
  · unfold prepSynStream at h
    split at h
    · rename_i he
      cases h
      exact (predicateSynStreamSend_refusal he).not_stops hs
    · split at h
      · dsimp only at h
        split at h
        · rcases pushObSs_cases (s.prepCredential _).1 {item with pri := obPriAfterCredential} with ⟨hn,-⟩ | ⟨hn,-⟩
          · rw [hn] at h
            cases h
            cases hs
          · rw [hn] at h
            cases h
            cases hs
        · exact prepSynStreamPack_error hs h
        · exact prepSynStreamPack_error hs h
      · exact prepSynStreamPack_error hs h
  · split at h
    · rename_i he
      cases h
      exact (predicateSynReplySend_refusal he).not_stops hs
    · exact prepStreamHeaders_error hs (.inl rfl) h
  · exact prepFixed_error hs h
  · unfold framePackSettings at h
    split at h
    · exact prepFixed_error hs h
    · cases h
      cases hs
  · exact prepFixed_error hs h
  · split at h
    · rename_i he
      cases h
      exact (predicateHeadersSend_refusal he).not_stops hs
    · exact prepStreamHeaders_error hs (.inr rfl) h
  · split at h
    · rename_i he
      cases h
      exact (predicateWindowUpdateSend_refusal he).not_stops hs
    · exact prepFixed_error hs h
  · split at h
    · cases h
      cases hs
    · unfold framePackGoaway at h
      split_ifs at h
      · exact prepFixed_error hs h
      · exact prepFixed_error hs h
      · cases h
        cases hs
  · exact prepFixed_error hs h
  · exact prepData_error hs h

theorem continueData_error {s : Session} {item : OutboundItem} {d : DataFrame} {st : Stream} {e : Err}
    (hfree : st.deferredData = none) (h : (s.continueData item d st).2 = some e) :
    e = .nomem ∨ e = .callbackFailure := by
  unfold continueData at h
  dsimp only at h
  split at h
  · rw [deferData_free hfree] at h
    cases h
  · rcases packData_cases s item.seq d (s.nextDataRead st) with ⟨bytes,fin,hr,-⟩ | ⟨e',hr,-,-,he⟩
    · rw [hr] at h
      cases h
    · rw [hr] at h
      rcases he with rfl | rfl | rfl | rfl
      · cases h
        exact .inl rfl
      · dsimp only at h
        rw [deferData_free hfree] at h
        cases h
      · exact .inl (addCtrl_error _ _ _ h)
      · cases h
        exact .inr rfl

theorem submitBody_error {s : Session} {streamId : Int} {prd : Option DataProvider} {e : Err}
    (h : (s.submitBody streamId prd).2 = some e) : e = .nomem := by
  cases prd with
  | none => cases h
  | some prd =>
    unfold submitBody at h
    dsimp only at h
    split at h
    · cases h
    · rename_i he
      cases h
      unfold submitData at he
      split at he
      · cases addFrame_error _ _ _ _ he
        rfl
      · cases he
        rfl

theorem afterCtrlSent_error {s : Session} {item : OutboundItem} {f : Frame} {e : Err}
    (h : (s.afterCtrlSent item f).2 = some e) : e = .nomem := by
  cases f with
  | synStream f =>
    change (s.afterSynStreamSent item f).2 = some e at h
    unfold afterSynStreamSent at h
    split at h
    · cases h
    · exact submitBody_error h
  | synReply f =>
    change (s.afterSynReplySent item f).2 = some e at h
    unfold afterSynReplySent at h
    split at h
    · cases h
    · exact submitBody_error h
  | _ => cases h

theorem afterDataSent_error {s : Session} {item : OutboundItem} {d : DataFrame} {e : Err}
    (h : (s.afterDataSent item d).2 = some e) : e = .nomem ∨ e = .callbackFailure := by
  unfold afterDataSent at h
  dsimp only at h
  generalize ((s.emit (.dataSend (if d.eof then d.flags else 0) d.streamId
    (s.aob.framebuf.length-headLen))).afterDataFin d) = s1 at h
  split at h
  · cases h
  · rename_i hp
    obtain ⟨st,hst,hfree⟩ := predicateDataSend_none (show s1.predicateDataSend d.streamId = none from
      Option.not_isSome_iff_eq_none.mp (fun hs => hp (.inr hs)))
    split at h
    · rw [hst] at h
      exact continueData_error hfree h
    · rcases pushOb_cases s1 item with ⟨hn,-⟩ | ⟨hn,-⟩
      · rw [hn] at h
        cases h
      · rw [hn] at h
        cases h
        exact .inl rfl

theorem afterFrameSent_error {s : Session} {e : Err} (h : s.afterFrameSent.2 = some e) :
    e = .nomem ∨ e = .callbackFailure := by
  unfold afterFrameSent at h
  split at h
  · cases h
  · split at h
    · rename_i item f _
      dsimp only at h
      split at h
      · cases h
      · rename_i he
        cases h
        exact .inl (afterCtrlSent_error he)
    · exact afterDataSent_error h

theorem sendIter_error {P : Platform} {s : Session} {e : Err} (h : (s.sendIter P).2 = some (some e)) :
    e = .nomem ∨ e = .callbackFailure := by
  have hwrite : ∀ (s : Session) (item : OutboundItem), (s.sendWrite item).2 = some (some e) →
      e = .nomem ∨ e = .callbackFailure := by
    intro s item h
    unfold sendWrite at h
    dsimp only at h
    split at h
    · cases h
    · cases h
      exact .inr rfl
    · unfold sendAccepted at h
      dsimp only at h
      split at h
      · split at h
        · cases h
        · rename_i he
          cases h
          rcases afterFrameSent_error he with rfl | rfl
          · exact .inl rfl
          · exact .inr rfl
      · cases h
  unfold sendIter at h
  split at h
  · exact hwrite _ _ h
  · split at h
    · cases h
    · dsimp only at h
      split at h
      · exact hwrite _ _ h
      · cases h
      · cases h
      · rename_i e' _ _ hr
        split at h
        · rename_i hf
          cases h
          rcases isFatal_cases hf with h | h | hs
          · exact .inl h
          · exact .inr h
          · exact absurd hr (prepFrame_error hs)
        · cases h

theorem sendLoop_error {P : Platform} {fuel : Nat} {s : Session} {e : Err} (h : (sendLoop P fuel s).2 = some e) :
    e = .nomem ∨ e = .callbackFailure := by
  induction fuel generalizing s with
  | zero => cases h
  | succ fuel ih =>
    unfold sendLoop at h
    split at h
    · rename_i s' r heq
      dsimp only at h
      subst h
      exact sendIter_error (by rw [heq])
    · exact ih h

end Spdylay.Machine
