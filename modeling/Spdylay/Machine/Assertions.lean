import Spdylay.Machine.InboundFraming

/-! Assertions. Lack of memory and the callbacks are the only reasons for a fatal
result, but for one: the parsers of SYN_REPLY and HEADERS assert that the version
in the frame's own header is known. -/
namespace Spdylay.Machine
open Library Session

/-- Whether the bytes complete no SYN_REPLY or HEADERS of an unknown version, where
the frame under way has the header bytes `head` and lacks `rem` bytes of payload. -/
def framesKnown : Bytes → Nat → Bytes → Bool
  | _, _, [] => true
  | head, rem, b :: rest =>
    if head.length < headLen then
      let head := head ++ [b]
      let rem := if head.length = headLen then getUint32 (head.drop 4) % 16777216 else 1
      if rem = 0 then knownVersion head && framesKnown [] 0 rest else framesKnown head rem rest
    else if rem ≤ 1 then knownVersion head && framesKnown [] 0 rest
    else framesKnown head (rem-1) rest

/-- The same from a session's inbound frame. A complete frame is still there when its
processing has failed, and the next call processes it again. -/
def inputKnown (f : InboundFrame) (input : Bytes) : Bool :=
  if f.state ≠ .head ∧ f.payloadlen = f.off then knownVersion f.headbuf && framesKnown [] 0 input
  else framesKnown f.headbuf (f.payloadlen-f.off) input

/-! The scan over a run of bytes. -/

theorem framesKnown_head (head : Bytes) (n rem : Nat) (input : Bytes) (hn : 0 < n) (hlen : head.length+n = headLen)
    (hin : n ≤ input.length) :
    framesKnown head rem input =
      let head := head ++ input.take n
      let rem := getUint32 (head.drop 4) % 16777216
      if rem = 0 then knownVersion head && framesKnown [] 0 (input.drop n) else framesKnown head rem (input.drop n) := by
  induction n generalizing head rem input with
  | zero => exact absurd hn (lt_irrefl 0)
  | succ n ih =>
    obtain ⟨b,rest,rfl⟩ : ∃ b rest, input = b :: rest := by
      cases input with
      | nil => simp at hin
      | cons b rest => exact ⟨b,rest,rfl⟩
    have hlt : head.length < headLen := by omega
    have hlen' : (head ++ [b]).length = head.length+1 := by simp
    rw [framesKnown,if_pos hlt]
    by_cases h0 : n = 0
    · subst h0
      have hfull : (head ++ [b]).length = headLen := by omega
      simp [hfull]
    · have hpart : (head ++ [b]).length ≠ headLen := by omega
      simp only [hpart,if_false,one_ne_zero]
      rw [ih (head ++ [b]) 1 rest (by omega) (by omega) (by simpa using hin)]
      simp

theorem framesKnown_payload (head : Bytes) (hlen : head.length = headLen) (rem n : Nat) (input : Bytes)
    (hin : n ≤ input.length) (hn : n < rem) : framesKnown head rem input = framesKnown head (rem-n) (input.drop n) := by
  induction n generalizing rem input with
  | zero => rfl
  | succ n ih =>
    cases input with
    | nil => simp at hin
    | cons b rest =>
      rw [framesKnown,if_neg (by omega),if_neg (by omega)]
      rw [ih (rem-1) rest (by simpa using hin) (by omega),List.drop_succ_cons]
      congr 1
      omega

theorem framesKnown_end (head : Bytes) (hlen : head.length = headLen) (rem : Nat) (input : Bytes)
    (hrem : 0 < rem) (hin : rem ≤ input.length) :
    framesKnown head rem input = (knownVersion head && framesKnown [] 0 (input.drop rem)) := by
  rw [framesKnown_payload head hlen rem (rem-1) input (by omega) (by omega)]
  obtain ⟨b,rest,hd⟩ : ∃ b rest, input.drop (rem-1) = b :: rest := by
    cases hd : input.drop (rem-1) with
    | nil =>
      rw [List.drop_eq_nil_iff] at hd
      omega
    | cons b rest => exact ⟨b,rest,rfl⟩
  have hrest : input.drop rem = rest := by
    have h := congrArg List.tail hd
    rw [List.tail_drop,List.tail_cons] at h
    rwa [Nat.sub_add_cancel hrem] at h
  rw [hd,framesKnown,if_neg (by omega),if_pos (by omega),hrest]

/-! Receiving. -/

/-- The results a part of the receive loop may end with, given whether the input is
known, and what it leaves for the rest. -/
structure Sound (known : Bool) (r : Session × Bytes × Option (Option Err)) : Prop where
  frame : FrameOk r.1.iframe
  error : ∀ e, r.2.2 = some (some e) → e = .nomem ∨ (r.1.iframe.errorCode = some .endless ∧ e = .endless) ∨
    (e = .assertion .nvOffset ∧ known = false)
  known : known = true → r.2.2 = none → inputKnown r.1.iframe r.2.1 = true

theorem inputKnown_reset (f : InboundFrame) (input : Bytes) : inputKnown f.reset input = framesKnown [] 0 input := by
  simp [inputKnown,InboundFrame.reset]

theorem recvPayload_sound (P : Platform) (s : Session) (input : Bytes) (h : FrameOk s.iframe)
    (hs : s.iframe.state ≠ .head) : Sound (inputKnown s.iframe input) (s.recvPayload P input) := by
  have hb := h.body hs
  have hle := Nat.min_le_left input.length (s.iframe.payloadlen-s.iframe.off)
  -- a frame that ends here has passed the check
  have hend : s.iframe.payloadlen = s.iframe.off+min input.length (s.iframe.payloadlen-s.iframe.off) →
      inputKnown s.iframe input = (knownVersion s.iframe.headbuf &&
        framesKnown [] 0 (input.drop (min input.length (s.iframe.payloadlen-s.iframe.off)))) := by
    intro he
    have hk : min input.length (s.iframe.payloadlen-s.iframe.off) = s.iframe.payloadlen-s.iframe.off := by omega
    rw [hk] at hle ⊢
    by_cases h0 : s.iframe.payloadlen = s.iframe.off
    · rw [inputKnown,if_pos ⟨hs,h0⟩,h0,Nat.sub_self,List.drop_zero]
    · rw [inputKnown,if_neg (fun hx => h0 hx.2),framesKnown_end _ hb.1 _ _ (by omega) hle]
  have hspec := recvPayload_spec P s input h hs
  generalize min input.length (s.iframe.payloadlen-s.iframe.off) = k at *
  generalize s.recvPayload P input = r at *
  cases hspec with
  | wait hk hin => exact ⟨h,nofun,nofun⟩
  | failed s' e hok hplace hoff he =>
    refine ⟨hok,?_,nofun⟩
    intro e' he'
    cases he'
    refine he.imp_right (Or.imp_right (fun hx => ⟨hx.1,?_⟩))
    rw [hend hx.2.2,hx.2.1,Bool.false_and]
  | ended s' he hf =>
    obtain ⟨f,hf⟩ := hf
    refine ⟨?_,nofun,?_⟩
    · dsimp only
      rw [hf]
      exact .reset
    · intro hk _
      dsimp only
      rw [hf,inputKnown_reset]
      rw [hend he,Bool.and_eq_true] at hk
      exact hk.2
  | partly s' hlt hok hplace hoff hpos =>
    refine ⟨hok,nofun,?_⟩
    intro hk _
    dsimp only
    rw [inputKnown,if_neg (by omega)] at hk
    rw [inputKnown,if_neg (by rw [hplace.payloadlen,hoff]; omega),hplace.payloadlen,hplace.headbuf,hoff,
      Nat.sub_add_eq,← framesKnown_payload _ hb.1 _ _ _ hle (by omega)]
    exact hk

theorem recvHead_sound (P : Platform) (s : Session) (input : Bytes) (h : FrameOk s.iframe)
    (hs : s.iframe.state = .head) :
    Sound (inputKnown s.iframe input) (s.recvHead P input) ∧
      ((s.recvHead P input).2.2 = none → (s.recvHead P input).1.iframe.state ≠ .head) := by
  obtain ⟨hlen,hoff,hpay⟩ := h.head hs
  unfold recvHead
  split
  · exact ⟨⟨h,nofun,nofun⟩,nofun⟩
  · rename_i hne
    have hpos := List.length_pos_iff.mpr hne
    have hle := Nat.min_le_right (headLen-s.iframe.headbuf.length) input.length
    dsimp only
    split
    · rename_i hfull
      have hfull' : s.iframe.headbuf.length+min (headLen-s.iframe.headbuf.length) input.length = headLen := by
        simpa [takeHead] using hfull
      have hin : framesKnown s.iframe.headbuf 0 input = _ := framesKnown_head s.iframe.headbuf
        (min (headLen-s.iframe.headbuf.length) input.length) 0 input (by omega) hfull' hle
      generalize min (headLen-s.iframe.headbuf.length) input.length = n at *
      obtain ⟨hok,hbody,hbuf,hoff',hpay',herr⟩ :=
        startPayload_spec P (s.takeHead (input.take n)) h.buffer h.error hoff hfull
      have hknown : inputKnown ((s.takeHead (input.take n)).startPayload P).1.iframe (input.drop n) =
          inputKnown s.iframe input := by
        have hold : inputKnown s.iframe input = framesKnown s.iframe.headbuf 0 input := by
          rw [inputKnown,if_neg (fun hx => hx.1 hs),hoff,hpay]
        have hth : (s.takeHead (input.take n)).iframe.headbuf = s.iframe.headbuf ++ input.take n := rfl
        rw [hold,hin,inputKnown,hoff',hpay',hbuf,hth]
        dsimp only
        generalize getUint32 ((s.iframe.headbuf ++ input.take n).drop 4) % 16777216 = len
        by_cases hl : len = 0
        · rw [if_pos ⟨hbody,hl⟩,if_pos hl]
        · rw [if_neg (fun hx => hl hx.2),if_neg hl,Nat.sub_zero]
      split
      · exact ⟨⟨hok,nofun,fun hk _ => hknown.trans hk⟩,fun _ => hbody⟩
      · rename_i e he
        rw [herr e he]
        refine ⟨⟨hok,?_,nofun⟩,nofun⟩
        intro e' he'
        cases he'
        exact .inl rfl
    · rename_i hpart
      have hpart' : (s.takeHead (input.take (min (headLen-s.iframe.headbuf.length) input.length))).iframe.headbuf.length
          < headLen := by
        simp only [takeHead,List.length_append,List.length_take] at hpart ⊢
        omega
      exact ⟨⟨⟨fun _ => ⟨hpart',hoff,hpay⟩,fun hx => absurd hs hx,h.buffer,h.error⟩,nofun,nofun⟩,nofun⟩

theorem recvIter_sound (P : Platform) (s : Session) (input : Bytes) (h : FrameOk s.iframe) :
    Sound (inputKnown s.iframe input) (s.recvIter P input) := by
  unfold recvIter
  split
  · rename_i hs
    obtain ⟨hsound,hbody⟩ := recvHead_sound P s input h hs
    dsimp only
    split
    · rename_i r hr
      refine ⟨hsound.frame,?_,nofun⟩
      intro e he
      exact hsound.error e (hr.trans he)
    · rename_i hr
      have hp := recvPayload_sound P (s.recvHead P input).1 (s.recvHead P input).2.1 hsound.frame (hbody hr)
      refine ⟨hp.frame,?_,?_⟩
      · intro e he
        refine (hp.error e he).imp_right (Or.imp_right (fun hx => ⟨hx.1,?_⟩))
        rw [← Bool.not_eq_true]
        intro hk
        rw [hsound.known hk hr] at hx
        cases hx.2
      · intro hk
        exact hp.known (hsound.known hk hr)
  · rename_i hs
    exact recvPayload_sound P s input h hs

theorem recvLoop_sound (P : Platform) (fuel : Nat) (s : Session) (input : Bytes) (h : FrameOk s.iframe) :
    FrameOk (s.recvLoop P fuel input).1.iframe ∧
      ∀ e, (s.recvLoop P fuel input).2 = some e →
        e = .nomem ∨ e = .endless ∨ (e = .assertion .nvOffset ∧ inputKnown s.iframe input = false) := by
  induction fuel generalizing s input with
  | zero => exact ⟨h,nofun⟩
  | succ fuel ih =>
    have hi := recvIter_sound P s input h
    unfold recvLoop
    dsimp only
    split
    · rename_i r hr
      refine ⟨hi.frame,?_⟩
      rintro e rfl
      exact (hi.error e hr).imp_right (Or.imp_left And.right)
    · rename_i hr
      obtain ⟨hok,herr⟩ := ih (s.recvIter P input).1 (s.recvIter P input).2.1 hi.frame
      refine ⟨hok,?_⟩
      intro e he
      refine (herr e he).imp_right (Or.imp_right (fun hx => ⟨hx.1,?_⟩))
      rw [← Bool.not_eq_true]
      intro hk
      rw [hi.known hk hr] at hx
      cases hx.2

/-! Submitting. -/

theorem submitHeaderBlock_error {nv : List Bytes} {n : Nat} {s : Session} {frame : OutFrame}
    {aux : Option DataProvider} {e : Err} (h : (if !frameNvCheckNull nv then (s,some Err.invalidArgument)
      else if (mallocs n s).2 then (mallocs n s).1.addFrame frame aux
      else ((mallocs n s).1,some .nomem)).2 = some e) : tame e := by
  split_ifs at h
  · cases h
    exact nofun
  · exact fun _ => addFrame_error _ _ _ _ h
  · cases h
    exact fun _ => rfl

theorem submitSynStreamShared_error {P : Platform} {s : Session} {flags : Nat} {assocStreamId : Int} {pri : Nat}
    {nv : List Bytes} {dataPrd : Option DataProvider} {e : Err}
    (h : (s.submitSynStreamShared P flags assocStreamId pri nv dataPrd).2 = some e) : tame e := by
  unfold submitSynStreamShared at h
  dsimp only at h
  generalize mallocs (if dataPrd.isSome then 4 else 3) s = r at h
  split_ifs at h
  · cases h
    exact nofun
  · cases h
    exact nofun
  · cases h
    exact nofun
  · exact fun _ => addFrame_error _ _ _ _ h
  · exact fun _ => addFrame_error _ _ _ _ h
  · cases h
    exact fun _ => rfl

/-- The calls that neither send nor receive fail fatally for lack of memory only. -/
theorem submission_error {P : Platform} {s : Session} {op : Op} {e : Err} (hs : op ≠ .send)
    (hr : ∀ input, op ≠ .memRecv input) (h : (s.call P op).2 = some e) : tame e := by
  cases op with
  | submitSynStream flags assocStreamId pri nv => exact submitSynStreamShared_error h
  | submitServerPush assocStreamId nv dataPrd => exact submitSynStreamShared_error h
  | submitRequest pri nv dataPrd => exact submitSynStreamShared_error h
  | submitSynReply flags streamId nv => exact submitHeaderBlock_error h
  | submitHeaders flags streamId nv => exact submitHeaderBlock_error h
  | submitResponse streamId nv dataPrd => exact submitHeaderBlock_error h
  | submitData streamId flags dataPrd =>
    simp only [call,submitData] at h
    split at h
    · exact fun _ => addFrame_error _ _ _ _ h
    · cases h
      exact fun _ => rfl
  | submitPing => exact fun _ => addCtrl_error _ _ _ h
  | submitRstStream streamId statusCode => exact fun _ => addCtrl_error _ _ _ h
  | submitGoaway statusCode => exact fun _ => addCtrl_error _ _ _ h
  | submitSettings flags iv =>
    simp only [call,submitSettings] at h
    split_ifs at h
    · cases h
      rintro ⟨⟩
    · split at h
      · cases h
      · rename_i he
        cases h
        exact fun _ => addFrame_error _ _ _ _ he
    · cases h
      exact fun _ => rfl
  | submitWindowUpdate streamId delta =>
    simp only [call,submitWindowUpdate] at h
    split at h
    · cases h
      rintro ⟨⟩
    · split at h
      · exact fun _ => addCtrl_error _ _ _ h
      · cases h
        rintro ⟨⟩
  | resumeData streamId =>
    simp only [call,resumeData] at h
    split at h
    · split at h
      · split at h
        · cases h
          rintro ⟨⟩
        · split at h
          · cases h
          · rename_i item _ _ _ _ he
            cases h
            rcases pushOb_cases s item with ⟨hn,-⟩ | ⟨hn,-⟩
            · rw [hn] at he
              cases he
            · rw [hn] at he
              cases he
              exact fun _ => rfl
      · cases h
        rintro ⟨⟩
    · cases h
      rintro ⟨⟩
  | setNoAutoWindowUpdate on => cases h
  | setMaxRecvCtrlFrameBuffer n =>
    simp only [call,setMaxRecvCtrlFrameBuffer] at h
    split at h
    · cases h
    · cases h
      rintro ⟨⟩
  | setInitialClientCertOrigin scheme host port =>
    simp only [call,setInitialClientCertOrigin] at h
    split_ifs at h <;> cases h
    · rintro ⟨⟩
    · rintro ⟨⟩
    · exact fun _ => rfl
  | send => exact absurd rfl hs
  | memRecv input => exact absurd rfl (hr input)

/-! Every call. -/

/-- What a call may be given without tripping an assertion. -/
def opKnown (s : Session) : Op → Bool
  | .memRecv input => inputKnown s.iframe input
  | _ => true

theorem call_sound (P : Platform) (s : Session) (op : Op) (h : FrameOk s.iframe) :
    FrameOk (s.call P op).1.iframe ∧ ∀ e, (s.call P op).2 = some e → isFatal e = true →
      e = .nomem ∨ e = .callbackFailure ∨ e = .endless ∨ (e = .assertion .nvOffset ∧ opKnown s op = false) := by
  by_cases hs : op = .send
  · subst hs
    refine ⟨?_,?_⟩
    · have hr := (sendLoop_steps P s.sendFuel s (g := cleanGhost) rfl).reading_eq
      have hf : (s.call P .send).1.iframe = s.iframe := congrArg Prod.fst hr
      rw [hf]
      exact h
    · intro e he _
      exact (sendLoop_error he).imp_right .inl
  · by_cases hr : ∃ input, op = .memRecv input
    · obtain ⟨input,rfl⟩ := hr
      obtain ⟨hok,herr⟩ := recvLoop_sound P (recvFuel input) s input h
      exact ⟨hok,fun e he _ => (herr e he).imp_right .inr⟩
    · have hr := not_exists.mp hr
      refine ⟨?_,?_⟩
      · have hf : (s.call P op).1.iframe = s.iframe :=
          congrArg Prod.fst (submission_steps P s op cleanGhost hs hr).inSteps.reading_eq
        rw [hf]
        exact h
      · intro e he hfat
        exact .inl (submission_error hs hr he hfat)

/-! The reports of fatal results. -/

/-- The fatal results that calls have returned. -/
def failures (log : List Event) : List Err :=
  log.filterMap (fun | .fatal e => some e | _ => none)

@[simp] theorem failures_append (l l' : List Event) : failures (l ++ l') = failures l ++ failures l' :=
  List.filterMap_append

theorem failures_notes {kind : Event → Bool} {c c' : Core} (h : Notes kind c c')
    (hkind : ∀ e, kind e = true → failures [e] = []) : failures c'.log = failures c.log := by
  obtain h | ⟨e,he,h⟩ := h
  · rw [h]
  · rw [h,failures_append,hkind e he,List.append_nil]

theorem Act.failures_eq {c c' : Core} (h : Act c c') : failures c'.log = failures c.log := by
  refine failures_notes h.notes ?_
  intro e he
  cases e <;> first | rfl | cases he

theorem Inb.failures_eq {c c' : Core} (h : Inb c c') : failures c'.log = failures c.log := by
  refine failures_notes h.notes ?_
  intro e he
  cases e <;> first | rfl | cases he

theorem Outb.failures_eq {c c' : Core} (h : Outb c c') : failures c'.log = failures c.log := by
  cases h <;> simp [Core.note,Core.begin,Core.setHand,Core.take,Core.park,Core.modifyStream,Core.write,failures]

theorem ReadSteps.failures_eq {c c' : Core} (h : ReadSteps c c') : failures c'.log = failures c.log := by
  induction h with
  | refl => rfl
  | tail _ hm ih =>
    refine Eq.trans ?_ ih
    rcases hm with hm | hm | hm
    · exact hm.failures_eq
    · exact hm.failures_eq
    · cases hm
      rfl

theorem OutSteps.failures_eq {c c' : Core} (h : OutSteps c c') : failures c'.log = failures c.log := by
  induction h with
  | refl => rfl
  | tail _ hm ih => exact (hm.elim Act.failures_eq Outb.failures_eq).trans ih

theorem call_failures (P : Platform) (s : Session) (op : Op) :
    failures (s.call P op).1.host.log = failures s.host.log := by
  by_cases hs : op = .send
  · subst hs
    exact (sendLoop_steps P s.sendFuel s (g := cleanGhost) rfl).failures_eq
  · by_cases hr : ∃ input, op = .memRecv input
    · obtain ⟨input,rfl⟩ := hr
      obtain ⟨g,h⟩ := recvLoop_reads P (recvFuel input) s input cleanGhost
      exact h.steps.failures_eq
    · exact (submission_steps P s op cleanGhost hs (not_exists.mp hr)).outSteps.failures_eq

/-- A step reports its own result and no other. -/
theorem step_failures (P : Platform) (s : Session) (op : Op) (e : Err) (h : e ∈ failures (s.step P op).host.log) :
    e ∈ failures s.host.log ∨ ((s.call P op).2 = some e ∧ isFatal e = true) := by
  unfold step at h
  dsimp only at h
  split at h
  · rename_i e' he'
    split at h
    · rename_i hf
      have hl : ((s.call P op).1.emit (.fatal e')).host.log = (s.call P op).1.host.log ++ [.fatal e'] := rfl
      rw [hl,failures_append,call_failures,List.mem_append] at h
      refine h.imp_right (fun hx => ?_)
      rw [List.mem_singleton.mp (show e ∈ [e'] from hx)]
      exact ⟨he',hf⟩
    · rw [call_failures] at h
      exact .inl h
  · rw [call_failures] at h
    exact .inl h

theorem step_iframe (P : Platform) (s : Session) (op : Op) : (s.step P op).iframe = (s.call P op).1.iframe := by
  unfold step
  dsimp only
  split
  · split <;> rfl
  · rfl

theorem mem_failures {log : List Event} {e : Err} : e ∈ failures log ↔ .fatal e ∈ log := by
  unfold failures
  rw [List.mem_filterMap]
  constructor
  · rintro ⟨ev,hev,he⟩
    cases ev <;> cases he
    exact hev
  · exact fun h => ⟨_,h,rfl⟩

theorem frameOk_start (P : Platform) (u : Setup) : FrameOk (u.start P).iframe := by
  have h : (u.start P).iframe =
      ⟨.head,[],P.freshBuffer initialFramebufLength,initialFramebufLength,0,0,0,bufferInit 4096,none⟩ := by
    unfold Setup.start
    split <;> rfl
  rw [h]
  exact ⟨fun _ => ⟨by simp [headLen],rfl,rfl⟩,fun hx => absurd rfl hx,bufferInit_ok 4096,nofun⟩

theorem log_start (P : Platform) (u : Setup) : (u.start P).host.log = [] := by
  unfold Setup.start
  split <;> rfl

theorem run_frameOk (P : Platform) {s : Session} (h : FrameOk s.iframe) (ops : List Op) : FrameOk (s.run P ops).iframe := by
  induction ops generalizing s with
  | nil => exact h
  | cons op ops ih =>
    refine ih ?_
    rw [step_iframe]
    exact (call_sound P s op h).1

/-- The fatal results of a run. -/
theorem run_failures (P : Platform) {s : Session} (h : FrameOk s.iframe) (ops : List Op) (e : Err)
    (he : e ∈ failures (s.run P ops).host.log) :
    e ∈ failures s.host.log ∨ e = .nomem ∨ e = .callbackFailure ∨ e = .endless ∨ e = .assertion .nvOffset := by
  induction ops generalizing s with
  | nil => exact .inl he
  | cons op ops ih =>
    obtain ⟨hok,herr⟩ := call_sound P s op h
    rcases ih (s := s.step P op) (by rwa [step_iframe]) he with he | he
    · refine (step_failures P s op e he).imp_right (fun hx => ?_)
      exact (herr e hx.1 hx.2).imp_right (Or.imp_right (Or.imp_right And.left))
    · exact .inr he

/-- Every receive of the run is given bytes that complete no SYN_REPLY or HEADERS
of an unknown version. -/
def runKnown (P : Platform) : Session → List Op → Bool
  | _, [] => true
  | s, op :: ops => opKnown s op && runKnown P (s.step P op) ops

theorem run_no_assertion (P : Platform) {s : Session} (h : FrameOk s.iframe) (ops : List Op)
    (hk : runKnown P s ops = true) (a : Assertion) (ha : .assertion a ∉ failures s.host.log) :
    .assertion a ∉ failures (s.run P ops).host.log := by
  induction ops generalizing s with
  | nil => exact ha
  | cons op ops ih =>
    rw [runKnown,Bool.and_eq_true] at hk
    obtain ⟨hok,herr⟩ := call_sound P s op h
    refine ih (s := s.step P op) (by rwa [step_iframe]) hk.2 ?_
    intro hmem
    rcases step_failures P s op _ hmem with hmem | ⟨hr,hf⟩
    · exact ha hmem
    · rcases herr _ hr hf with hx | hx | hx | ⟨-,hx⟩
      · cases hx
      · cases hx
      · cases hx
      · rw [hk.1] at hx
        cases hx

end Spdylay.Machine

namespace Spdylay
open Machine Library

/-- A run that receives SYN_REPLY and HEADERS of the versions 2 and 3 only trips no
assertion, whatever else the peer sends and however its bytes are cut. -/
theorem known_versions_trip_no_assertion (P : Platform) (u : Setup) (ops : List Op)
    (h : runKnown P (u.start P) ops = true) (a : Assertion) :
    Event.fatal (.assertion a) ∉ ((u.start P).run P ops).host.log := by
  rw [← mem_failures]
  refine run_no_assertion P (frameOk_start P u) ops h a ?_
  rw [log_start]
  exact List.not_mem_nil

/-- A SYN_REPLY of version 3 for no stream is refused without an assertion. -/
theorem syn_reply_version_three_trips_no_assertion :
    let ops := [Op.memRecv [128,3,0,2,0,0,0,0]]
    let u := sampleClient .int32 [] []
    runKnown samplePlatform (u.start samplePlatform) ops = true ∧
      Event.fatal (.assertion .nvOffset) ∉ ((u.start samplePlatform).run samplePlatform ops).host.log :=
  ⟨by decide +kernel,known_versions_trip_no_assertion samplePlatform _ _ (by decide +kernel) _⟩

/-- An empty SYN_REPLY of version 4 trips the assertion. -/
theorem syn_reply_version_four_trips_assertion :
    ¬∀ (P : Platform) (u : Setup) (ops : List Op) (a : Assertion),
      Event.fatal (.assertion a) ∉ ((u.start P).run P ops).host.log := by
  intro h
  refine h samplePlatform (sampleClient .int32 [] []) [.memRecv [128,4,0,2,0,0,0,0]] .nvOffset ?_
  decide +kernel

end Spdylay
