import Spdylay.Transport.WireFrames

/-! The inflater over whole runs: at the end of every frame it has been given the blocks
of all the frames so far. -/
namespace Spdylay
open Library Machine

namespace Session
variable {P : Platform} {s : Session} {given body : Bytes} {frames : List WireFrame}

/-! Passes of the loop. -/

/-- What has been received is the frames and a part of the next one. -/
def InStep (s : Session) (given received : Bytes) : Prop :=
  ∃ (frames : List WireFrame) (body : Bytes),
    received = frames.flatMap Framing.Frame.bytes ++ (s.iframe.headbuf ++ body) ∧
    (s.iframe.state ≠ .head → s.iframe.off < s.iframe.payloadlen) ∧ Follows s.iframe s.hdInflater given frames body

theorem creditChunk_hdInflater (s : Session) (n : Nat) : (s.creditChunk n).1.hdInflater = s.hdInflater :=
  congrArg Prod.snd (creditChunk_steps s n cleanGhost).inSteps.reading_eq

theorem recvPayload_inStep {input : Bytes} (hf : FrameOk s.iframe) (hs : s.iframe.state ≠ .head)
    (h : Follows s.iframe s.hdInflater given frames body)
    (he : ∀ e, (s.recvPayload P input).2.2 ≠ some (some e)) : ∃ k, (s.recvPayload P input).2.1 = input.drop k ∧
      ((s.recvPayload P input).1.goawayFailOnSend = true ∨ InStep (s.recvPayload P input).1
        (given ++ s.payloadInflated input)
        (frames.flatMap Framing.Frame.bytes ++ (s.iframe.headbuf ++ (body ++ input.take k)))) := by
  rw [recvPayload] at he ⊢
  by_cases hw : 0 < s.iframe.payloadlen-s.iframe.off ∧ input = []
  · have hgiven : s.payloadInflated input = [] := if_pos hw
    rw [if_pos hw,hgiven]
    refine ⟨0,rfl,.inr ⟨frames,body,?_,fun _ => Nat.lt_of_sub_pos hw.1,?_⟩⟩
    · rw [List.take_zero,List.append_nil]
    · rw [List.append_nil]
      exact h
  · have hgiven : s.payloadInflated input =
        (s.recvPreNv input (min input.length (s.iframe.payloadlen-s.iframe.off))).1.chunkInflated
          ((s.recvPreNv input (min input.length (s.iframe.payloadlen-s.iframe.off))).2.1.take
            (s.recvPreNv input (min input.length (s.iframe.payloadlen-s.iframe.off))).2.2) := if_neg hw
    rw [if_neg hw] at he ⊢
    rw [hgiven]
    clear hgiven
    have hk := Nat.min_le_left input.length (s.iframe.payloadlen-s.iframe.off)
    have hk' := Nat.min_le_right input.length (s.iframe.payloadlen-s.iframe.off)
    obtain ⟨-,hoff⟩ := hf.body hs
    generalize min input.length (s.iframe.payloadlen-s.iframe.off) = r at *
    obtain ⟨n,hn,t,hread,ht,htend⟩ := recvPreNv_follows hk h
    obtain ⟨n',hn',hdrop,hlen',htoff,htf,htplace⟩ := recvPreNv_spec s input r hf hs hk'
    rw [hread] at htoff htf htplace he ⊢
    dsimp only at htoff htf htplace he ⊢
    have hlen : ((input.drop n).take (r-n)).length = r-n := by
      rw [List.length_take,List.length_drop]
      omega
    have hbody : (body ++ input.take n).length = body.length+n := by
      rw [List.length_append,List.length_take]
      omega
    have hroom : t.iframe.off+((input.drop n).take (r-n)).length ≤ t.iframe.payloadlen := by
      have hb := h.off
      rw [ht.off,hbody,hlen,htplace.payloadlen]
      omega
    have htake : body ++ input.take n ++ (input.drop n).take (r-n) = body ++ input.take r := by
      rw [List.append_assoc,← List.take_add,Nat.add_sub_cancel' hn]
    have hfollows := recvChunk_follows (P := P) ((input.drop n).take (r-n)) htplace.body htf.buffer
      (fun hp => List.eq_nil_of_length_eq_zero (hlen.trans (htend hp))) hroom ht
    obtain ⟨hcoff,hcf,hcplace⟩ := recvChunk_spec P t ((input.drop n).take (r-n)) htf htplace.body hroom
    have hcif := creditChunk_iframe (t.recvChunk P ((input.drop n).take (r-n))) ((input.drop n).take (r-n)).length
    have hcin := creditChunk_hdInflater (t.recvChunk P ((input.drop n).take (r-n))) ((input.drop n).take (r-n)).length
    rw [htake] at hfollows
    generalize (t.recvChunk P ((input.drop n).take (r-n))).creditChunk ((input.drop n).take (r-n)).length = c at *
    rw [← hcif] at hfollows hcf hcplace
    rw [← hcin] at hfollows
    have hhead : c.1.iframe.headbuf = s.iframe.headbuf := hcplace.headbuf.trans htplace.headbuf
    have hrest : (input.drop n).drop (r-n) = input.drop r := by
      rw [List.drop_drop,Nat.add_sub_cancel' hn]
    obtain ⟨c1,e⟩ := c
    cases e with
    | some e => exact absurd rfl (he _)
    | none =>
      dsimp only at *
      cases hend : (c1.endFrame P).2 with
      | some e =>
        rw [hend] at he
        exact absurd rfl (he _)
      | none =>
        dsimp only
        refine ⟨r,hrest,?_⟩
        by_cases hfull : c1.iframe.payloadlen = c1.iframe.off
        · refine (endFrame_follows hcf hcplace.body hfull hfollows hend).imp_right ?_
          rintro ⟨frame,hbytes,hreset,hnext⟩
          refine ⟨frames ++ [frame],[],?_,?_,hnext⟩
          · rw [hreset,List.flatMap_append,List.flatMap_singleton,hbytes,hhead]
            simp [InboundFrame.reset]
          · intro hb
            rw [hreset] at hb
            exact absurd rfl hb
        · right
          have hsame : (c1.endFrame P).1 = c1 := by
            rw [endFrame,if_neg (endFrame_live hend),if_neg hfull]
          rw [hsame]
          refine ⟨frames,body ++ input.take r,by rw [hhead],?_,hfollows⟩
          intro hb
          exact Nat.lt_of_le_of_ne (hcf.body hb).2 (Ne.symm hfull)

theorem recvHead_follows (input : Bytes) (hf : FrameOk s.iframe) (hs : s.iframe.state = .head)
    (h : Follows s.iframe s.hdInflater given frames []) : ∃ k, (s.recvHead P input).2.1 = input.drop k ∧
      (s.recvHead P input).1.iframe.headbuf = s.iframe.headbuf ++ input.take k ∧
      Follows (s.recvHead P input).1.iframe (s.recvHead P input).1.hdInflater given frames [] ∧
      ((s.recvHead P input).2.2 = some none → (s.recvHead P input).1.iframe.state = .head) := by
  rw [recvHead]
  by_cases hin : input = []
  · rw [if_pos hin]
    exact ⟨0,rfl,by rw [List.take_zero,List.append_nil],h,fun _ => hs⟩
  · rw [if_neg hin]
    dsimp only
    generalize min (headLen-s.iframe.headbuf.length) input.length = k
    have htake := takeHead_follows (input.take k) hs h
    have hstate : (s.takeHead (input.take k)).iframe.state = .head := hs
    by_cases hfull : (s.takeHead (input.take k)).iframe.headbuf.length = headLen
    · rw [if_pos hfull]
      obtain ⟨-,-,hhead,-⟩ := startPayload_spec P (s.takeHead (input.take k)) hf.buffer hf.error (hf.head hs).2.1 hfull
      have hstart := startPayload_follows (P := P) hstate htake
      cases ((s.takeHead (input.take k)).startPayload P).2 with
      | none => exact ⟨k,rfl,hhead,hstart,by rintro ⟨⟩⟩
      | some e => exact ⟨k,rfl,hhead,hstart,by rintro ⟨⟩⟩
    · rw [if_neg hfull]
      exact ⟨k,rfl,rfl,htake,fun _ => hs⟩

theorem payloadStart_head {input : Bytes} (hs : s.iframe.state = .head) : s.payloadStart P input =
    match (s.recvHead P input).2.2 with
    | some _ => none
    | none => some ((s.recvHead P input).1,(s.recvHead P input).2.1) := if_pos hs

/-- A pass keeps the inflater in step, or the session has failed. -/
theorem recvIter_inStep (input : Bytes) {received : Bytes} (hf : FrameOk s.iframe) (h : InStep s given received)
    (he : ∀ e, (s.recvIter P input).2.2 ≠ some (some e)) : ∃ k, (s.recvIter P input).2.1 = input.drop k ∧
      ((s.recvIter P input).1.goawayFailOnSend = true ∨
        InStep (s.recvIter P input).1 (given ++ s.iterInflated P input) (received ++ input.take k)) := by
  obtain ⟨frames,body,hreceived,-,hfollows⟩ := h
  rw [recvIter] at he ⊢
  by_cases hs : s.iframe.state = .head
  · obtain ⟨-,hoff,-⟩ := hf.head hs
    obtain rfl : body = [] := List.eq_nil_of_length_eq_zero (hfollows.off.symm.trans hoff)
    obtain ⟨k,hrest,hhead,hh,hend⟩ := recvHead_follows (P := P) input hf hs hfollows
    obtain ⟨hsound,hbody⟩ := recvHead_sound P s input hf hs
    rw [List.append_nil] at hreceived
    rw [if_pos hs] at he ⊢
    rw [iterInflated,payloadStart_head hs]
    generalize s.recvHead P input = r at *
    obtain ⟨t,rest,e⟩ := r
    dsimp only at *
    subst hrest
    cases e with
    | some e =>
      cases e with
      | some e => exact absurd rfl (he e)
      | none =>
        refine ⟨k,rfl,.inr ⟨frames,[],?_,fun hb => absurd (hend rfl) hb,?_⟩⟩
        · rw [List.append_nil,hhead,hreceived,List.append_assoc]
        · rw [List.append_nil]
          exact hh
    | none =>
      dsimp only at *
      obtain ⟨j,hj,hstep⟩ := recvPayload_inStep hsound.frame (hbody rfl) hh he
      rw [List.drop_drop] at hj
      rw [hhead,List.nil_append,List.append_assoc,← List.take_add,← List.append_assoc,← hreceived] at hstep
      exact ⟨k+j,hj,hstep⟩
  · have hstart : s.payloadStart P input = some (s,input) := if_neg hs
    rw [if_neg hs] at he ⊢
    rw [iterInflated,hstart]
    obtain ⟨k,hk,hstep⟩ := recvPayload_inStep hf hs hfollows he
    rw [← List.append_assoc s.iframe.headbuf,← List.append_assoc,← hreceived] at hstep
    exact ⟨k,hk,hstep⟩

/-! Runs. -/

theorem turns_failed {s' : Session} (h : Turns P s s') (hs : s.goawayFailOnSend = true) : s'.goawayFailOnSend = true :=
  (Protocol.Steps.later (Protocol.turns_steps h)).2 hs

/-- All that is received in a call without a fatal result is read. -/
theorem recvLoop_inStep (fuel : Nat) {s : Session} {input given received : Bytes} (hf : FrameOk s.iframe)
    (h : InStep s given received) (hw : recvWork s.iframe input < fuel) (he : (s.recvLoop P fuel input).2 = none) :
    (s.recvLoop P fuel input).1.goawayFailOnSend = true ∨
      InStep (s.recvLoop P fuel input).1 (given ++ s.loopInflated P fuel input) (received ++ input) := by
  induction fuel generalizing s input given received with
  | zero => exact absurd hw (Nat.not_lt_zero _)
  | succ fuel ih =>
    obtain ⟨k',hrest',hend,hless⟩ := recvIter_rest P input hf
    have hsound := (recvIter_sound P s input hf).frame
    have hiter := recvIter_inStep (P := P) input hf h
    rw [recvLoop] at he ⊢
    rw [loopInflated]
    rw [← hrest'] at hend hless
    cases hr : (s.recvIter P input).2.2 with
    | some r =>
      rw [hr] at he hiter hend
      dsimp only at he ⊢
      subst he
      obtain ⟨k,hrest,hstep⟩ := hiter (by rintro _ ⟨⟩)
      refine hstep.imp_right ?_
      have hall : input.take k = input := by
        conv_rhs => rw [← List.take_append_drop k input,← hrest,hend rfl,List.append_nil]
      rw [hall,List.append_nil]
      exact id
    | none =>
      rw [hr] at he hiter
      dsimp only at he ⊢
      obtain ⟨k,hrest,hstep⟩ := hiter (by rintro _ ⟨⟩)
      have hwork := hless hr
      rcases hstep with hfailed | hstep
      · exact .inl (turns_failed (recvLoop_turns P fuel _ _) hfailed)
      · have hnext := ih hsound hstep (by omega) he
        rw [List.append_assoc,List.append_assoc] at hnext
        have hall : input.take k ++ (s.recvIter P input).2.1 = input := by
          rw [hrest,List.take_append_drop]
        rw [hall] at hnext
        exact hnext

theorem call_inStep {op : Op} {received : Bytes} (hf : FrameOk s.iframe) (h : InStep s given received)
    (he : ∀ e, (s.call P op).2 = some e → isFatal e = false) : (s.call P op).1.goawayFailOnSend = true ∨
      InStep (s.call P op).1 (given ++ s.callInflated P op) (received ++ receivedBytes [op]) := by
  by_cases hr : ∃ input, op = .memRecv input
  · obtain ⟨input,rfl⟩ := hr
    have hnone : (s.recvLoop P (recvFuel input) input).2 = none := by
      cases hres : (s.recvLoop P (recvFuel input) input).2 with
      | none => rfl
      | some e =>
        -- the loop returns fatal errors only
        have hno := he e hres
        rcases (recvLoop_sound P (recvFuel input) s input hf).2 e hres with rfl | rfl | ⟨rfl,-⟩
        · cases hno
        · cases hno
        · cases hno
    have hwork : recvWork s.iframe input < recvFuel input := by
      rw [recvWork,recvFuel]
      split <;> omega
    rw [receivedBytes,receivedBytes,List.append_nil]
    exact recvLoop_inStep (recvFuel input) hf h hwork hnone
  · have hsame : (s.call P op).1.iframe = s.iframe ∧ (s.call P op).1.hdInflater = s.hdInflater := by
      by_cases hs : op = .send
      · subst hs
        have hread := (sendLoop_steps P s.sendFuel s (g := cleanGhost) rfl).reading_eq
        exact ⟨congrArg Prod.fst hread,congrArg Prod.snd hread⟩
      · have hread := (submission_steps P s op cleanGhost hs (not_exists.mp hr)).inSteps.reading_eq
        exact ⟨congrArg Prod.fst hread,congrArg Prod.snd hread⟩
    have hnone : s.callInflated P op = [] ∧ receivedBytes [op] = [] := by
      cases op with
      | memRecv input => exact absurd ⟨input,rfl⟩ hr
      | _ => exact ⟨rfl,rfl⟩
    right
    rw [hnone.1,hnone.2,List.append_nil,List.append_nil,InStep,hsame.1,hsame.2]
    exact h

theorem receivedBytes_cons (op : Op) (ops : List Op) : receivedBytes (op :: ops) = receivedBytes [op] ++ receivedBytes ops := by
  cases op with
  | memRecv input =>
    rw [receivedBytes,receivedBytes,receivedBytes,List.append_nil]
  | _ => rfl

theorem step_failed {op : Op} (h : (s.call P op).1.goawayFailOnSend = true) : (s.step P op).goawayFailOnSend = true := by
  rw [step]
  split
  · split
    · exact h
    · exact h
  · exact h

theorem step_hdInflater (P : Platform) (s : Session) (op : Op) : (s.step P op).hdInflater = (s.call P op).1.hdInflater := by
  rw [step]
  split
  · split <;> rfl
  · rfl

theorem run_inStep (ops : List Op) {s : Session} {given received : Bytes} (hf : FrameOk s.iframe)
    (h : InStep s given received) (hclean : failures (s.run P ops).host.log = []) :
    (s.run P ops).goawayFailOnSend = true ∨
      InStep (s.run P ops) (given ++ s.runInflated P ops) (received ++ receivedBytes ops) := by
  induction ops generalizing s given received with
  | nil =>
    right
    rw [runInflated,receivedBytes,List.append_nil,List.append_nil]
    exact h
  | cons op ops ih =>
    have hstep := step_clean (run_clean ops hclean)
    have hframe : FrameOk (s.step P op).iframe := by
      rw [step_iframe]
      exact (call_sound P s op hf).1
    rcases call_inStep hf h hstep.2 with hfailed | hcall
    · exact .inl (turns_failed (run_turns P _ ops) (step_failed hfailed))
    · have hnext : InStep (s.step P op) (given ++ s.callInflated P op) (received ++ receivedBytes [op]) := by
        rw [InStep,step_iframe,step_hdInflater]
        exact hcall
      rw [runInflated,receivedBytes_cons,← List.append_assoc,← List.append_assoc]
      exact ih hframe hnext hclean

theorem recvPasses_turns {input : Bytes} (n : Nat) {t : Session} {rest passed : Bytes}
    (hpass : s.recvPasses P input n = some (t,rest,passed)) : Turns P s t := by
  induction n generalizing t rest passed with
  | zero =>
    cases hpass
    exact .refl
  | succ n ih =>
    rw [recvPasses] at hpass
    cases hn : s.recvPasses P input n with
    | none =>
      rw [hn] at hpass
      cases hpass
    | some r =>
      rw [hn] at hpass
      dsimp only at hpass
      split at hpass
      · cases hpass
      · cases hpass
        exact (ih hn).tail (.recv _ _)

/-- Between the passes of a receiving call. -/
theorem recvPasses_inStep {input received : Bytes} (n : Nat) {t : Session} {rest passed : Bytes} (hf : FrameOk s.iframe)
    (h : InStep s given received) (hpass : s.recvPasses P input n = some (t,rest,passed)) :
    FrameOk t.iframe ∧ ∃ k, rest = input.drop k ∧
      (t.goawayFailOnSend = true ∨ InStep t (given ++ passed) (received ++ input.take k)) := by
  induction n generalizing t rest passed with
  | zero =>
    cases hpass
    refine ⟨hf,0,rfl,.inr ?_⟩
    rw [List.append_nil,List.take_zero,List.append_nil]
    exact h
  | succ n ih =>
    rw [recvPasses] at hpass
    cases hn : s.recvPasses P input n with
    | none =>
      rw [hn] at hpass
      cases hpass
    | some r =>
      obtain ⟨t1,rest1,passed1⟩ := r
      obtain ⟨hf1,k,rfl,hstep⟩ := ih hn
      rw [hn] at hpass
      dsimp only at hpass
      cases hr : (t1.recvIter P (input.drop k)).2.2 with
      | some r =>
        rw [hr] at hpass
        cases hpass
      | none =>
        rw [hr] at hpass
        cases hpass
        refine ⟨(recvIter_sound P t1 _ hf1).frame,?_⟩
        rcases hstep with hfailed | hstep
        · obtain ⟨j,hj,-⟩ := recvIter_rest P (input.drop k) hf1
          rw [List.drop_drop] at hj
          exact ⟨k+j,hj,.inl (turns_failed (.single (.recv t1 _)) hfailed)⟩
        · obtain ⟨j,hj,hnext⟩ := recvIter_inStep _ hf1 hstep (by rw [hr]; exact nofun)
          rw [List.drop_drop] at hj
          rw [List.append_assoc,List.append_assoc,← List.take_add] at hnext
          exact ⟨k+j,hj,hnext⟩

theorem inStep_start (P : Platform) (u : Setup) : InStep (u.start P) [] [] := by
  have h : (u.start P).iframe =
      ⟨.head,[],P.freshBuffer initialFramebufLength,initialFramebufLength,0,0,0,bufferInit 4096,none⟩ ∧
      (u.start P).hdInflater = ⟨[],false⟩ := by
    rw [Setup.start]
    split <;> exact ⟨rfl,rfl⟩
  rw [InStep,h.1,h.2]
  refine ⟨[],[],rfl,fun hb => absurd rfl hb,⟨fun hb => absurd rfl hb,by rintro ⟨⟩,by rintro ⟨⟩,?_,fun _ => .inl rfl,?_⟩,rfl,?_⟩
  · rintro (hp | hp)
    · cases hp
    · cases hp
  · change 0 < 4096
    decide
  · intro _
    rw [blockIn_nil]
    exact ⟨rfl,rfl⟩

/-- Between two frames every block received has gone through the inflater. -/
theorem InStep.boundary {received : Bytes} (hf : FrameOk s.iframe) (h : InStep s given received)
    (hwire : received = frames.flatMap Framing.Frame.bytes) :
    given = frames.flatMap WireFrame.block ∧ s.hdInflater = ⟨frames.flatMap WireFrame.block,false⟩ := by
  obtain ⟨frames',body,hreceived,hopen,hfollows⟩ := h
  have hpart : Framing.Unfinished headLen payloadLength (s.iframe.headbuf ++ body) := by
    by_cases hs : s.iframe.state = .head
    · obtain ⟨hlt,hoff,-⟩ := hf.head hs
      left
      have hb := hfollows.off
      rw [List.length_append]
      omega
    · obtain ⟨hlen,-⟩ := hf.body hs
      right
      have hb := hfollows.off
      have hlt := hopen hs
      rw [hfollows.placed.payloadlen hs] at hlt
      rw [List.take_left' hlen,List.length_append]
      omega
  rw [hwire,← List.append_nil (frames.flatMap _)] at hreceived
  obtain ⟨rfl,hnil⟩ := Framing.frames_unique (Framing.unfinished_nil (by decide)) hpart hreceived
  obtain ⟨hhead,rfl⟩ := List.append_eq_nil_iff.mp hnil.symm
  have hs : s.iframe.state = .head := by
    by_contra hs
    have hlen := (hf.body hs).1
    rw [hhead] at hlen
    cases hlen
  obtain ⟨hgiven,hinflater⟩ := hfollows.blocks (hfollows.placed.inflating (by rw [hs]; exact nofun))
  rw [blockIn_nil,List.append_nil] at hgiven
  rw [← hgiven]
  exact ⟨rfl,hinflater⟩

end Session

/-- Wherever a frame ends in what has been received, inside of a call or between calls: a
call has returned a fatal error, the session has failed, or the inflater has been given
exactly the name/value blocks of the frames so far. -/
theorem inflater_follows_wire (P : Platform) (u : Setup) (ops : List Op) (used rest : Bytes) (n : Nat) (t : Session)
    (passed : Bytes) (frames : List WireFrame)
    (hpass : ((u.start P).run P ops).recvPasses P (used ++ rest) n = some (t,rest,passed))
    (hwire : receivedBytes ops ++ used = frames.flatMap Framing.Frame.bytes) :
    (∃ e, Event.fatal e ∈ ((u.start P).run P ops).host.log) ∨ t.goawayFailOnSend = true ∨
      ((u.start P).runInflated P ops ++ passed = frames.flatMap WireFrame.block ∧
        t.hdInflater = ⟨frames.flatMap WireFrame.block,false⟩) := by
  by_cases hclean : failures ((u.start P).run P ops).host.log = []
  · right
    have hf := run_frameOk P (frameOk_start P u) ops
    have hrun := Session.run_inStep ops (frameOk_start P u) (Session.inStep_start P u) hclean
    rw [List.nil_append,List.nil_append] at hrun
    rcases hrun with hfailed | hrun
    · exact .inl (Session.turns_failed (Session.recvPasses_turns n hpass) hfailed)
    · obtain ⟨hft,k,hk,hstep⟩ := Session.recvPasses_inStep n hf hrun hpass
      have hused : (used ++ rest).take k = used := by
        have hall := List.take_append_drop k (used ++ rest)
        rw [← hk] at hall
        exact List.append_cancel_right hall
      rw [hused] at hstep
      exact hstep.imp_right (fun h => h.boundary hft hwire)
  · left
    obtain ⟨e,he⟩ := List.exists_mem_of_ne_nil _ hclean
    exact ⟨e,mem_failures.mp he⟩

/-- A request that comes in two pieces, the second with the beginning of another frame. -/
theorem split_request_inflated :
    let ops := [Op.memRecv ((firstRequest 1 1).take 20)]
    let s := ((sampleServer [] []).start peerPlatform).run peerPlatform ops
    ∃ t passed, s.recvPasses peerPlatform ((firstRequest 1 1).drop 20 ++ [128,3,0]) 1 = some (t,[128,3,0],passed) ∧
      ((sampleServer [] []).start peerPlatform).runInflated peerPlatform ops ++ passed = (firstRequest 1 1).drop 18 ∧
      t.hdInflater = ⟨(firstRequest 1 1).drop 18,false⟩ := by
  intro ops s
  let frame : WireFrame := ⟨(firstRequest 1 1).take 8,(firstRequest 1 1).drop 8,rfl,rfl⟩
  have hblock : [frame].flatMap WireFrame.block = (firstRequest 1 1).drop 18 := by decide +kernel
  have hrest : (s.recvPasses peerPlatform ((firstRequest 1 1).drop 20 ++ [128,3,0]) 1).map
      (fun r => (r.2.1,r.1.goawayFailOnSend)) = some ([128,3,0],false) := by decide +kernel
  have hlog : failures s.host.log = [] := by decide +kernel
  obtain ⟨⟨t,rest,passed⟩,hpass,heq⟩ := Option.map_eq_some_iff.mp hrest
  obtain ⟨hrest,hfail⟩ := Prod.mk.inj heq
  dsimp only at hrest hfail
  subst hrest
  refine ⟨t,passed,hpass,?_⟩
  rcases inflater_follows_wire peerPlatform (sampleServer [] []) ops ((firstRequest 1 1).drop 20) [128,3,0] 1 t passed
    [frame] hpass (by decide +kernel) with ⟨e,he⟩ | hx | hx
  · rw [← mem_failures,hlog] at he
    cases he
  · rw [hfail] at hx
    cases hx
  · rw [hblock] at hx
    exact hx

end Spdylay
