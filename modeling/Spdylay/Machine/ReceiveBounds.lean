import Spdylay.Machine.Assertions

/-! The receive loop with its cursors: the mark in the input, the offset in the header and
the offset in the payload. A difference that would wrap, a copy outside of its buffer, a
cursor outside of its frame and a failing assertion are faults. -/
namespace Spdylay
open Machine

/-- A size_t difference. -/
def sizeSub (a b : Nat) : Option Nat := if b ≤ a then some (a-b) else none

inductive RecvResult
  | consumed (n : Nat)
  | fatal (e : Err)
  deriving DecidableEq, Repr

/-- After a part of a pass. Without a result the loop goes on. -/
structure RecvCursor where
  session : Session
  inmark : Nat
  result : Option RecvResult

def InboundFrame.inBounds (f : InboundFrame) : Bool :=
  f.headbuf.length ≤ headLen && f.off ≤ f.payloadlen && f.payloadlen < 16777216

namespace Session

def failedCursor (s : Session) (inmark : Nat) : Err → Option RecvCursor
  | .assertion _ => none
  | .endless => none
  | e => some ⟨s,inmark,some (.fatal e)⟩

def checkedHead (P : Platform) (s : Session) (input : Bytes) (inmark : Nat) : Option RecvCursor := do
  let bufavail ← sizeSub input.length inmark
  if bufavail = 0 then some ⟨s,inmark,some (.consumed inmark)⟩
  else
    let remheadbytes ← sizeSub headLen s.iframe.headbuf.length
    let readlen := min remheadbytes bufavail
    if headLen < s.iframe.headbuf.length+readlen then none
    else
      let s := s.takeHead ((input.drop inmark).take readlen)
      let inmark := inmark+readlen
      if s.iframe.headbuf.length = headLen then
        let r := s.startPayload P
        match r.2 with
        | none => some ⟨r.1,inmark,none⟩
        | some e => failedCursor r.1 inmark (assertFatal e)
      else some ⟨s,inmark,some (.consumed inmark)⟩

/-- The session, the mark and the length left. -/
def checkedPreNv (s : Session) (input : Bytes) (inmark readlen : Nat) : Option (Session × Nat × Nat) :=
  let f := s.iframe
  if f.state = .payloadPreNv then do
    let pnvlen ← f.payloadNvOffset
    let rpnvlen ← sizeSub pnvlen f.off
    let readpnvlen := min rpnvlen readlen
    if f.buf.length < f.off+readpnvlen then none
    else
      let readlen ← sizeSub readlen readpnvlen
      let f := {f with buf := memcpy f.buf f.off ((input.drop inmark).take readpnvlen), off := f.off+readpnvlen}
      let f := if f.off = pnvlen then {f with state := .payloadNv} else f
      some ({s with iframe := f},inmark+readpnvlen,readlen)
  else some (s,inmark,readlen)

/-- Whether a chunk of the length is copied behind the payload so far. -/
def copiesChunk (f : InboundFrame) : Bool := f.isCtrl && f.state ≠ .payloadNv && f.state ≠ .payloadIgn

def checkedPayload (P : Platform) (s : Session) (input : Bytes) (inmark : Nat) : Option RecvCursor := do
  let rempayloadlen ← sizeSub s.iframe.payloadlen s.iframe.off
  let bufavail ← sizeSub input.length inmark
  if 0 < rempayloadlen ∧ bufavail = 0 then some ⟨s,inmark,some (.consumed inmark)⟩
  else
    let p ← s.checkedPreNv input inmark (min bufavail rempayloadlen)
    if input.length < p.2.1+p.2.2 ∨ (copiesChunk p.1.iframe ∧ p.1.iframe.buf.length < p.1.iframe.off+p.2.2) then none
    else
      let chunk := (input.drop p.2.1).take p.2.2
      let inmark := p.2.1+p.2.2
      let c := (p.1.recvChunk P chunk).creditChunk chunk.length
      if c.1.iframe.inBounds then
        match c.2 with
        | some e => failedCursor c.1 inmark (assertFatal e)
        | none =>
          let r := c.1.endFrame P
          match r.2 with
          | some e => failedCursor r.1 inmark (assertFatal e)
          | none => some ⟨r.1,inmark,none⟩
      else none

def checkedIter (P : Platform) (s : Session) (input : Bytes) (inmark : Nat) : Option RecvCursor :=
  if s.iframe.state = .head then do
    let h ← s.checkedHead P input inmark
    match h.result with
    | some _ => some h
    | none => if h.session.iframe.inBounds then h.session.checkedPayload P input h.inmark else none
  else s.checkedPayload P input inmark

def checkedLoop (P : Platform) (s : Session) (input : Bytes) : Nat → Nat → Option (Session × RecvResult)
  | 0, _ => none
  | fuel+1, inmark => do
    let i ← if s.iframe.inBounds then s.checkedIter P input inmark else none
    match i.result with
    | some r => some (i.session,r)
    | none => i.session.checkedLoop P input fuel i.inmark

/-- `none` stands for a fault and for a loop that did not end. -/
def memRecvChecked (P : Platform) (s : Session) (input : Bytes) : Option (Session × RecvResult) :=
  s.checkedLoop P input (recvFuel input) 0

end Session

/-! The buffer for a frame's payload. -/

/-- What is going to be copied fits into the buffer. -/
structure InboundFrame.Buffered (f : InboundFrame) : Prop where
  size : f.buf.length = f.bufmax
  length : f.payloadlen < 16777216
  payload : f.state = .payload → f.isCtrl = true → f.payloadlen ≤ f.bufmax
  preNv : f.state = .payloadPreNv → ∃ offset, f.payloadNvOffset = some offset ∧ f.off ≤ offset ∧ offset ≤ f.bufmax

theorem InboundFrame.Buffered.reset {f : InboundFrame} (h : f.Buffered) : f.reset.Buffered :=
  ⟨h.size,by simp [InboundFrame.reset],nofun,nofun⟩

namespace Session
variable {P : Platform} {s : Session}

theorem ctrlPayload_fits (s : Session) (f : InboundFrame) (len : Nat) :
    ((s.ctrlPayload f len).1 = .payload → len ≤ (s.ctrlPayload f len).2.1) ∧
      ((s.ctrlPayload f len).1 = .payloadPreNv → f.payloadNvOffset = some (s.ctrlPayload f len).2.1) := by
  rw [ctrlPayload]
  split
  · split
    · exact ⟨nofun,nofun⟩
    · exact ⟨fun _ => le_rfl,nofun⟩
  · rename_i offset hoffset
    split
    · exact ⟨nofun,fun _ => hoffset⟩
    · rename_i hlt
      exact ⟨fun _ => not_lt.mp hlt,nofun⟩

theorem length_freshBuffer (P : Platform) (n : Nat) : (P.freshBuffer n).length = n := by
  rw [Platform.freshBuffer,List.length_map,List.length_range]

theorem reserveIframeBuf_fits {n : Nat} (hsize : s.iframe.buf.length = s.iframe.bufmax)
    (he : (s.reserveIframeBuf P n).2 = none) : ∃ buf bufmax, (s.reserveIframeBuf P n).1.iframe =
      {s.iframe with buf := buf, bufmax := bufmax} ∧ buf.length = bufmax ∧ n ≤ bufmax := by
  rw [reserveIframeBuf] at he ⊢
  split at he
  · rename_i hn
    rw [if_pos hn]
    split at he
    · rename_i hm
      rw [if_pos hm]
      exact ⟨_,_,rfl,length_freshBuffer P _,by omega⟩
    · cases he
  · rename_i hn
    rw [if_neg hn]
    exact ⟨_,_,rfl,hsize,not_lt.mp hn⟩

theorem startPayload_buffered (P : Platform) (s : Session) (hsize : s.iframe.buf.length = s.iframe.bufmax) (hoff : s.iframe.off = 0)
    (he : (s.startPayload P).2 = none) : (s.startPayload P).1.iframe.Buffered := by
  have hlen : getUint32 (s.iframe.headbuf.drop 4) % 16777216 < 16777216 := Nat.mod_lt _ (by decide)
  rw [startPayload] at he ⊢
  dsimp only at he ⊢
  generalize getUint32 (s.iframe.headbuf.drop 4) % 16777216 = len at *
  split at he
  · rename_i hc
    rw [if_pos hc]
    obtain ⟨hp,hnv⟩ := s.ctrlPayload_fits s.iframe len
    obtain ⟨buf,bufmax,heq,hbuf,hle⟩ := reserveIframeBuf_fits (by exact hsize) he
    rw [heq]
    refine ⟨hbuf,hlen,?_,?_⟩
    · intro hs _
      exact (hp hs).trans hle
    · intro hs
      refine ⟨_,hnv hs,?_,hle⟩
      exact hoff.le.trans (Nat.zero_le _)
  · rename_i hc
    rw [if_neg hc]
    refine ⟨hsize,hlen,?_,?_⟩
    · intro _ hctrl
      exact absurd hctrl hc
    · intro hs
      dsimp only at hs
      split at hs <;> cases hs

/-! The cursors stay in their places. -/

theorem sizeSub_eq {a b : Nat} (h : b ≤ a) : sizeSub a b = some (a-b) := if_pos h

/-- The cursor behind what is left of the input. -/
def cursorOf (input : Bytes) (r : Session × Bytes × Option (Option Err)) : Option RecvCursor :=
  let inmark := input.length-r.2.1.length
  match r.2.2 with
  | none => some ⟨r.1,inmark,none⟩
  | some none => some ⟨r.1,inmark,some (.consumed inmark)⟩
  | some (some e) => failedCursor r.1 inmark e

theorem length_sub_drop {input : Bytes} {inmark k : Nat} (h : inmark+k ≤ input.length) :
    input.length-((input.drop inmark).drop k).length = inmark+k := by
  rw [List.drop_drop,List.length_drop]
  omega

theorem checkedHead_eq {input : Bytes} {inmark : Nat} (h : FrameOk s.iframe) (hs : s.iframe.state = .head)
    (hm : inmark ≤ input.length) : s.checkedHead P input inmark = cursorOf input (s.recvHead P (input.drop inmark)) := by
  obtain ⟨hlen,-,-⟩ := h.head hs
  have hin : (input.drop inmark).length = input.length-inmark := List.length_drop
  rw [checkedHead,sizeSub_eq hm,sizeSub_eq hlen.le,recvHead]
  simp only [Option.bind_eq_bind,Option.bind_some]
  by_cases h0 : input.drop inmark = []
  · have havail : input.length-inmark = 0 := by rw [← hin,h0,List.length_nil]
    rw [if_pos havail,if_pos h0,cursorOf]
    dsimp only
    rw [h0,List.length_nil,Nat.sub_zero,show inmark = input.length by omega]
  · have havail : input.length-inmark ≠ 0 := fun hz => h0 (List.length_eq_zero_iff.mp (hin.trans hz))
    have hk := Nat.min_le_left (headLen-s.iframe.headbuf.length) (input.length-inmark)
    have hk' := Nat.min_le_right (headLen-s.iframe.headbuf.length) (input.length-inmark)
    rw [if_neg havail,if_neg h0,hin]
    generalize min (headLen-s.iframe.headbuf.length) (input.length-inmark) = k at *
    have hmark := length_sub_drop (show inmark+k ≤ input.length by omega)
    rw [if_neg (by omega)]
    split
    · cases (startPayload P (s.takeHead ((input.drop inmark).take k))).2 with
      | none => simp only [cursorOf,hmark]
      | some e => simp only [cursorOf,hmark]
    · simp only [cursorOf,hmark]

/-- The part before the block is read in step, and what is left of the pass has its
room in the buffer. -/
theorem checkedPreNv_eq (input : Bytes) (inmark readlen : Nat) (hb : s.iframe.Buffered)
    (hoff : s.iframe.off+readlen ≤ s.iframe.payloadlen) (hs : s.iframe.state ≠ .head)
    (hin : inmark+readlen ≤ input.length) :
    ∃ k ≤ readlen, ∃ t : Session,
      s.recvPreNv (input.drop inmark) readlen = (t,(input.drop inmark).drop k,readlen-k) ∧
      s.checkedPreNv input inmark readlen = some (t,inmark+k,readlen-k) ∧ t.iframe.Buffered ∧
      (t.iframe.state = .payloadPreNv → readlen-k = 0) ∧
      (copiesChunk t.iframe = true → t.iframe.off+(readlen-k) ≤ t.iframe.buf.length) := by
  by_cases hpre : s.iframe.state = .payloadPreNv
  · obtain ⟨offset,hoffset,hle,hmax⟩ := hb.preNv hpre
    rw [recvPreNv,checkedPreNv]
    dsimp only
    rw [if_pos hpre,if_pos hpre,hoffset]
    simp only [Option.bind_eq_bind,Option.bind_some,Option.getD_some]
    rw [sizeSub_eq hle]
    have hn := Nat.min_le_right (offset-s.iframe.off) readlen
    have hn' := Nat.min_le_left (offset-s.iframe.off) readlen
    have hall : s.iframe.off+min (offset-s.iframe.off) readlen ≠ offset →
        min (offset-s.iframe.off) readlen = readlen := by omega
    simp only [Option.bind_some]
    generalize min (offset-s.iframe.off) readlen = n at *
    have hlen : ((input.drop inmark).take n).length = n := by
      rw [List.length_take,List.length_drop]
      omega
    have hbuf : (memcpy s.iframe.buf s.iframe.off ((input.drop inmark).take n)).length = s.iframe.bufmax := by
      rw [length_memcpy (by rw [hlen,hb.size]; omega),hb.size]
    have hroom : ¬s.iframe.buf.length < s.iframe.off+n := by
      rw [hb.size]
      omega
    rw [if_neg hroom,sizeSub_eq hn]
    simp only [Option.bind_some]
    refine ⟨n,hn,_,rfl,rfl,?_⟩
    split
    · refine ⟨⟨hbuf,hb.length,nofun,nofun⟩,nofun,?_⟩
      intro hcopy
      simp [copiesChunk] at hcopy
    · rename_i hmid
      refine ⟨⟨hbuf,hb.length,?_,?_⟩,?_,?_⟩
      · intro hp
        rw [hpre] at hp
        cases hp
      · intro _
        exact ⟨offset,hoffset,by dsimp only; omega,hmax⟩
      · intro _
        rw [hall hmid,Nat.sub_self]
      · intro _
        dsimp only
        rw [hbuf,hall hmid]
        omega
  · rw [recvPreNv,checkedPreNv]
    dsimp only
    rw [if_neg hpre,if_neg hpre]
    refine ⟨0,Nat.zero_le _,s,rfl,rfl,hb,fun hp => absurd hp hpre,?_⟩
    intro hcopy
    rw [copiesChunk,Bool.and_eq_true,Bool.and_eq_true,decide_eq_true_iff,decide_eq_true_iff] at hcopy
    have hpayload : s.iframe.state = .payload := by
      cases hst : s.iframe.state with
      | payload => rfl
      | head => exact absurd hst hs
      | payloadPreNv => exact absurd hst hpre
      | payloadNv => exact absurd hst hcopy.1.2
      | payloadIgn => exact absurd hst hcopy.2
    have hfit := hb.payload hpayload hcopy.1.1
    rw [hb.size]
    omega

theorem inflateChunk_iframe (P : Platform) (s : Session) (chunk : Bytes) : ∃ inflatebuf errorCode,
    (s.inflateChunk P chunk).iframe = {s.iframe with inflatebuf := inflatebuf, errorCode := errorCode} := by
  rw [inflateChunk]
  dsimp only
  split
  · exact ⟨_,_,rfl⟩
  · exact ⟨_,_,rfl⟩

theorem recvChunk_buffered {chunk : Bytes} (hb : s.iframe.Buffered)
    (hend : s.iframe.state = .payloadPreNv → chunk = [])
    (hroom : copiesChunk s.iframe = true → s.iframe.off+chunk.length ≤ s.iframe.buf.length) :
    (s.recvChunk P chunk).iframe.Buffered := by
  rw [recvChunk]
  dsimp only
  by_cases hnv : s.iframe.state = .payloadNv
  · obtain ⟨inflatebuf,errorCode,hi⟩ := inflateChunk_iframe P s chunk
    rw [if_pos hnv,hi]
    refine ⟨hb.size,hb.length,?_,?_⟩
    · intro hp
      rw [hnv] at hp
      cases hp
    · intro hp
      rw [hnv] at hp
      cases hp
  · have hpre : s.iframe.state = .payloadPreNv → ∃ offset, s.iframe.payloadNvOffset = some offset ∧
        s.iframe.off+chunk.length ≤ offset ∧ offset ≤ s.iframe.bufmax := by
      intro hp
      rw [hend hp]
      exact hb.preNv hp
    rw [if_neg hnv]
    split_ifs with hc hi hi
    · exact ⟨hb.size,hb.length,hb.payload,hpre⟩
    · have hcopy : copiesChunk s.iframe = true := by
        rw [copiesChunk,hc]
        simp [hnv,hi]
      exact ⟨(length_memcpy (hroom hcopy)).trans hb.size,hb.length,hb.payload,hpre⟩
    · exact ⟨hb.size,hb.length,hb.payload,hpre⟩
    · exact ⟨hb.size,hb.length,hb.payload,hpre⟩

theorem inBounds_of_frameOk {f : InboundFrame} (h : FrameOk f) (hlen : f.payloadlen < 16777216) : f.inBounds = true := by
  rw [InboundFrame.inBounds,Bool.and_eq_true,Bool.and_eq_true,decide_eq_true_iff,decide_eq_true_iff,decide_eq_true_iff]
  by_cases hs : f.state = .head
  · obtain ⟨h1,h2,h3⟩ := h.head hs
    exact ⟨⟨h1.le,h2.le.trans (Nat.zero_le _)⟩,hlen⟩
  · obtain ⟨h1,h2⟩ := h.body hs
    exact ⟨⟨h1.le,h2⟩,hlen⟩

theorem endFrame_buffered (hb : s.iframe.Buffered) (he : (s.endFrame P).2 = none) : (s.endFrame P).1.iframe.Buffered := by
  have hlive := endFrame_live he
  rw [endFrame,if_neg hlive] at he ⊢
  have hp := processFrame_iframe P s
  by_cases heq : s.iframe.payloadlen = s.iframe.off
  · rw [if_pos heq] at he ⊢
    generalize (if s.iframe.isCtrl then s.processCtrlFrame P else s.processDataFrame) = r at *
    obtain ⟨t,e⟩ := r
    cases e with
    | some e => cases he
    | none =>
      dsimp only at hp ⊢
      rw [hp]
      exact hb.reset
  · rw [if_neg heq]
    exact hb

theorem checkedPayload_eq (P : Platform) {input : Bytes} {inmark : Nat} (hf : FrameOk s.iframe) (hb : s.iframe.Buffered)
    (hs : s.iframe.state ≠ .head) (hm : inmark ≤ input.length) :
    s.checkedPayload P input inmark = cursorOf input (s.recvPayload P (input.drop inmark)) ∧
      ((∀ e, (s.recvPayload P (input.drop inmark)).2.2 ≠ some (some e)) →
        (s.recvPayload P (input.drop inmark)).1.iframe.Buffered) := by
  obtain ⟨hhead,hoff⟩ := hf.body hs
  have hin : (input.drop inmark).length = input.length-inmark := List.length_drop
  rw [checkedPayload,sizeSub_eq hoff,sizeSub_eq hm,recvPayload]
  simp only [Option.bind_eq_bind,Option.bind_some]
  by_cases hw : 0 < s.iframe.payloadlen-s.iframe.off ∧ input.drop inmark = []
  · have hend : input.length-inmark = 0 := by rw [← hin,hw.2,List.length_nil]
    rw [if_pos ⟨hw.1,hend⟩,if_pos hw]
    refine ⟨?_,fun _ => hb⟩
    rw [cursorOf]
    dsimp only
    rw [hw.2,List.length_nil,Nat.sub_zero,show inmark = input.length by omega]
  · have hw' : ¬(0 < s.iframe.payloadlen-s.iframe.off ∧ input.length-inmark = 0) := by
      intro h
      exact hw ⟨h.1,List.length_eq_zero_iff.mp (hin.trans h.2)⟩
    rw [if_neg hw',if_neg hw,hin]
    have hk := Nat.min_le_left (input.length-inmark) (s.iframe.payloadlen-s.iframe.off)
    have hk' := Nat.min_le_right (input.length-inmark) (s.iframe.payloadlen-s.iframe.off)
    generalize min (input.length-inmark) (s.iframe.payloadlen-s.iframe.off) = n at *
    obtain ⟨k,hkn,t,hread,hchecked,htb,htend,htroom⟩ :=
      checkedPreNv_eq input inmark n hb (by omega) hs (by omega)
    obtain ⟨k',hkn',hdrop,hlen',htoff,htf,htplace⟩ := recvPreNv_spec s (input.drop inmark) n hf hs hk'
    rw [hread] at hdrop hlen' htoff htf htplace
    dsimp only at hdrop hlen' htoff htf htplace
    rw [hchecked,hread]
    simp only [Option.bind_some,List.drop_drop]
    have hlen : ((input.drop (inmark+k)).take (n-k)).length = n-k := by
      rw [List.length_take,List.length_drop]
      omega
    have hsame : n-k = n-k' := hlen'
    obtain ⟨hcoff,hcf,hcplace⟩ := recvChunk_spec P t ((input.drop (inmark+k)).take (n-k)) htf htplace.body
      (by rw [hlen,htoff,htplace.payloadlen]; omega)
    have hcb : (t.recvChunk P ((input.drop (inmark+k)).take (n-k))).iframe.Buffered := by
      apply recvChunk_buffered htb
      · intro hp
        rw [← List.length_eq_zero_iff,hlen,htend hp]
      · intro hcopy
        rw [hlen]
        exact htroom hcopy
    have hroom : ¬(input.length < inmark+k+(n-k) ∨
        (copiesChunk t.iframe = true ∧ t.iframe.buf.length < t.iframe.off+(n-k))) := by
      rintro (hr | ⟨hcopy,hr⟩)
      · omega
      · have := htroom hcopy
        omega
    rw [if_neg hroom]
    have hcif := creditChunk_iframe (t.recvChunk P ((input.drop (inmark+k)).take (n-k))) (n-k)
    have hmark : input.length-(input.drop (inmark+k+(n-k))).length = inmark+k+(n-k) := by
      rw [List.length_drop]
      omega
    rw [hlen]
    generalize (t.recvChunk P ((input.drop (inmark+k)).take (n-k))).creditChunk (n-k) = c at *
    rw [← hcif] at hcf hcb
    rw [if_pos (inBounds_of_frameOk hcf hcb.length)]
    obtain ⟨c1,e⟩ := c
    cases e with
    | some e => exact ⟨by simp only [cursorOf,hmark],fun he => absurd rfl (he _)⟩
    | none =>
      dsimp only
      cases he : (c1.endFrame P).2 with
      | some e => exact ⟨by simp only [cursorOf,hmark],fun hne => absurd rfl (hne _)⟩
      | none => exact ⟨by simp only [cursorOf,hmark],fun _ => endFrame_buffered hcb he⟩

theorem recvHead_rest (P : Platform) (input : Bytes) (hlt : s.iframe.headbuf.length < headLen) :
    ∃ k, (s.recvHead P input).2.1 = input.drop k ∧ ((s.recvHead P input).2.2 = some none → input.drop k = []) ∧
      ((s.recvHead P input).2.2 = none → (input.drop k).length < input.length) := by
  rw [recvHead]
  by_cases hin : input = []
  · rw [if_pos hin]
    exact ⟨0,rfl,fun _ => hin,nofun⟩
  · rw [if_neg hin]
    have hpos := List.length_pos_iff.mpr hin
    refine ⟨min (headLen-s.iframe.headbuf.length) input.length,?_⟩
    dsimp only
    split
    · cases ((s.takeHead (input.take (min (headLen-s.iframe.headbuf.length) input.length))).startPayload P).2 with
      | some e => exact ⟨rfl,nofun,nofun⟩
      | none =>
        refine ⟨rfl,nofun,?_⟩
        intro _
        rw [List.length_drop]
        omega
    · rename_i hpart
      refine ⟨rfl,?_,nofun⟩
      intro _
      rw [takeHead,List.length_append,List.length_take] at hpart
      rw [List.drop_eq_nil_iff]
      omega

theorem recvHead_buffered (P : Platform) (input : Bytes) (hf : FrameOk s.iframe) (hb : s.iframe.Buffered) (hs : s.iframe.state = .head)
    (hr : ∀ e, (s.recvHead P input).2.2 ≠ some (some e)) : (s.recvHead P input).1.iframe.Buffered := by
  obtain ⟨-,hoff,-⟩ := hf.head hs
  have hstate : ∀ state : InboundState, state ≠ .head → s.iframe.state ≠ state := by
    rintro _ hne rfl
    exact hne hs
  rw [recvHead] at hr ⊢
  split
  · exact hb
  · rename_i hin
    rw [if_neg hin] at hr
    dsimp only at hr ⊢
    split
    · rename_i hfull
      rw [if_pos hfull] at hr
      have hstart := startPayload_buffered P
        (s.takeHead (input.take (min (headLen-s.iframe.headbuf.length) input.length))) hb.size hoff
      cases he : ((s.takeHead (input.take (min (headLen-s.iframe.headbuf.length) input.length))).startPayload P).2 with
      | none => exact hstart he
      | some e =>
        rw [he] at hr
        exact absurd rfl (hr _)
    · exact ⟨hb.size,hb.length,fun hp => absurd hp (hstate _ nofun),fun hp => absurd hp (hstate _ nofun)⟩

theorem drop_sub_length (input : Bytes) (k : Nat) : input.drop (input.length-(input.drop k).length) = input.drop k := by
  rw [List.length_drop]
  rcases Nat.le_total k input.length with hk | hk
  · rw [Nat.sub_sub_self hk]
  · rw [Nat.sub_eq_zero_of_le hk,Nat.sub_zero,List.drop_length,List.drop_eq_nil_iff.mpr hk]

theorem checkedIter_eq {input : Bytes} {inmark : Nat} (hf : FrameOk s.iframe) (hb : s.iframe.Buffered)
    (hm : inmark ≤ input.length) :
    s.checkedIter P input inmark = cursorOf input (s.recvIter P (input.drop inmark)) ∧
      ((∀ e, (s.recvIter P (input.drop inmark)).2.2 ≠ some (some e)) →
        (s.recvIter P (input.drop inmark)).1.iframe.Buffered) := by
  rw [checkedIter,recvIter]
  by_cases hs : s.iframe.state = .head
  · obtain ⟨hlt,-,-⟩ := hf.head hs
    obtain ⟨hsound,hbody⟩ := recvHead_sound P s (input.drop inmark) hf hs
    obtain ⟨k,hrest,-,-⟩ := recvHead_rest P (input.drop inmark) hlt
    have hhb := recvHead_buffered P (input.drop inmark) hf hb hs
    rw [if_pos hs,if_pos hs,checkedHead_eq hf hs hm,cursorOf]
    rw [List.drop_drop] at hrest
    dsimp only
    cases hr : (s.recvHead P (input.drop inmark)).2.2 with
    | some r =>
      cases r with
      | none =>
        rw [hr] at hhb
        exact ⟨rfl,fun _ => hhb nofun⟩
      | some e =>
        refine ⟨?_,fun hne => absurd rfl (hne _)⟩
        cases e <;> rfl
    | none =>
      rw [hr] at hhb
      have hbuf := hhb nofun
      have hp := checkedPayload_eq P hsound.frame hbuf (hbody hr)
        (Nat.sub_le input.length (s.recvHead P (input.drop inmark)).2.1.length)
      simp only [Option.bind_eq_bind,Option.bind_some]
      rw [if_pos (inBounds_of_frameOk hsound.frame hbuf.length)]
      rw [hrest,drop_sub_length] at hp
      rw [hrest]
      exact hp
  · rw [if_neg hs,if_neg hs]
    exact checkedPayload_eq P hf hb hs hm

/-! The end of the loop. -/

/-- What the loop has before it; a complete frame takes a pass of its own. -/
def recvWork (f : InboundFrame) (rest : Bytes) : Nat :=
  rest.length+if f.state ≠ .head ∧ f.payloadlen = f.off then 1 else 0

theorem recvPayload_rest (P : Platform) (input : Bytes) (hf : FrameOk s.iframe) (hs : s.iframe.state ≠ .head) :
    ∃ k, (s.recvPayload P input).2.1 = input.drop k ∧ ((s.recvPayload P input).2.2 = some none → input.drop k = []) ∧
      ((s.recvPayload P input).2.2 = none →
        recvWork (s.recvPayload P input).1.iframe (input.drop k) < recvWork s.iframe input) := by
  have hspec := recvPayload_spec P s input hf hs
  obtain ⟨-,hoff⟩ := hf.body hs
  have hk := Nat.min_le_left input.length (s.iframe.payloadlen-s.iframe.off)
  generalize hkn : min input.length (s.iframe.payloadlen-s.iframe.off) = k at *
  generalize s.recvPayload P input = r at *
  refine ⟨k,?_⟩
  cases hspec with
  | wait hk0 hin =>
    rw [hin,hk0]
    exact ⟨rfl,fun _ => rfl,nofun⟩
  | failed s' e hok hplace hoff' he => exact ⟨rfl,nofun,nofun⟩
  | ended s' he hreset =>
    refine ⟨rfl,nofun,?_⟩
    intro _
    obtain ⟨f,hreset⟩ := hreset
    dsimp only
    rw [recvWork,recvWork,hreset,if_neg (fun h => h.1 rfl),List.length_drop]
    split
    · omega
    · rename_i hne
      have : s.iframe.payloadlen ≠ s.iframe.off := fun heq => hne ⟨hs,heq⟩
      omega
  | partly s' hlt hok hplace hoff' hpos =>
    refine ⟨rfl,nofun,?_⟩
    intro _
    have hmid : ¬(s'.iframe.state ≠ .head ∧ s'.iframe.payloadlen = s'.iframe.off) := by
      rintro ⟨-,heq⟩
      rw [hplace.payloadlen,hoff'] at heq
      omega
    dsimp only
    rw [recvWork,recvWork,if_neg hmid,List.length_drop]
    omega

theorem recvIter_rest (P : Platform) (input : Bytes) (hf : FrameOk s.iframe) :
    ∃ k, (s.recvIter P input).2.1 = input.drop k ∧ ((s.recvIter P input).2.2 = some none → input.drop k = []) ∧
      ((s.recvIter P input).2.2 = none →
        recvWork (s.recvIter P input).1.iframe (input.drop k) < recvWork s.iframe input) := by
  rw [recvIter]
  by_cases hs : s.iframe.state = .head
  · obtain ⟨hlt,-,-⟩ := hf.head hs
    obtain ⟨hsound,hbody⟩ := recvHead_sound P s input hf hs
    obtain ⟨k,hrest,hend,hless⟩ := recvHead_rest P input hlt
    rw [if_pos hs]
    dsimp only
    cases hr : (s.recvHead P input).2.2 with
    | some r =>
      refine ⟨k,hrest,?_,nofun⟩
      intro hn
      exact hend (hr.trans hn)
    | none =>
      obtain ⟨j,hj,hjend,hjless⟩ := recvPayload_rest P (s.recvHead P input).2.1 hsound.frame (hbody hr)
      rw [hrest,List.drop_drop] at hj hjend hjless
      rw [hrest]
      refine ⟨k+j,hj,hjend,?_⟩
      intro hn
      -- the header that was read pays for a payload of no bytes
      have hwork := hjless hn
      have hhead : recvWork s.iframe input = input.length := by
        rw [recvWork,if_neg (fun h => h.1 hs)]
        rfl
      have hbytes := hless hr
      rw [hhead]
      refine lt_of_lt_of_le hwork ?_
      rw [recvWork]
      split <;> omega
  · rw [if_neg hs]
    exact recvPayload_rest P input hf hs

/-! Where inflate does not run out of memory, no pass waits for it for ever. -/

theorem ctrlPayload_error (s : Session) (f : InboundFrame) (len : Nat) :
    (s.ctrlPayload f len).2.2 = f.errorCode ∨ (s.ctrlPayload f len).2.2 = some .frameTooLarge := by
  rw [ctrlPayload]
  split
  · split
    · exact .inr rfl
    · exact .inl rfl
  · split
    · dsimp only
      split
      · exact .inr rfl
      · exact .inl rfl
    · exact .inl rfl

theorem startPayload_live (P : Platform) (h : s.iframe.errorCode ≠ some .endless) :
    (s.startPayload P).1.iframe.errorCode ≠ some .endless := by
  rw [startPayload]
  split
  · have hctrl : (s.ctrlPayload s.iframe (getUint32 (s.iframe.headbuf.drop 4) % 16777216)).2.2 ≠ some .endless := by
      rcases ctrlPayload_error s s.iframe (getUint32 (s.iframe.headbuf.drop 4) % 16777216) with he | he
      · rwa [he]
      · rw [he]
        rintro ⟨⟩
    rw [reserveIframeBuf]
    split_ifs
    · exact hctrl
    · exact hctrl
    · exact hctrl
  · exact h

theorem recvHead_live (P : Platform) (input : Bytes) (h : s.iframe.errorCode ≠ some .endless) :
    (s.recvHead P input).1.iframe.errorCode ≠ some .endless := by
  rw [recvHead]
  split
  · exact h
  · have hstart := startPayload_live (s := s.takeHead (input.take (min (headLen-s.iframe.headbuf.length) input.length))) P h
    dsimp only
    split
    · split
      · exact hstart
      · exact hstart
    · exact h

theorem inflateChunk_live (hz : P.NeverStarves) (chunk : Bytes) (hf : FrameOk s.iframe)
    (h : s.iframe.errorCode ≠ some .endless) : (s.inflateChunk P chunk).iframe.errorCode ≠ some .endless := by
  rw [inflateChunk]
  dsimp only
  split
  · have hb : (if s.iframe.errorCode = some .frameTooLarge then bufferReset s.iframe.inflatebuf
        else s.iframe.inflatebuf).Ok := by
      split
      · exact bufferReset_ok _
      · exact hf.buffer
    have hends := inflateHd_ends hz s.version s.host.mem s.hdInflater chunk hb
    generalize inflateHd P.toZlib s.version s.host.mem s.hdInflater _ chunk = r at hends ⊢
    dsimp only
    split
    · rename_i e he
      rwa [← he]
    · split
      · rintro ⟨⟩
      · exact h
  · exact h

theorem payload_live (hz : P.NeverStarves) (input : Bytes) (n : Nat) (chunk : Bytes) (hf : FrameOk s.iframe)
    (hs : s.iframe.state ≠ .head) (hn : n ≤ s.iframe.payloadlen-s.iframe.off) (h : s.iframe.errorCode ≠ some .endless) :
    ((s.recvPreNv input n).1.recvChunk P chunk).iframe.errorCode ≠ some .endless := by
  obtain ⟨k,-,-,-,-,hok,-⟩ := recvPreNv_spec s input n hf hs hn
  have hpre : (s.recvPreNv input n).1.iframe.errorCode ≠ some .endless := by
    rw [recvPreNv]
    split
    · dsimp only
      split
      · exact h
      · exact h
    · exact h
  have hinf := inflateChunk_live hz chunk hok hpre
  rw [recvChunk]
  dsimp only
  split_ifs
  · exact hinf
  · exact hpre
  · exact hpre
  · exact hpre
  · exact hpre

theorem endFrame_stays_live (h : s.iframe.errorCode ≠ some .endless) : (s.endFrame P).1.iframe.errorCode ≠ some .endless := by
  have hp := processFrame_iframe P s
  rw [endFrame,if_neg h]
  split
  · dsimp only
    split
    · rintro ⟨⟩
    · rwa [hp]
  · exact h

theorem recvPayload_live (hz : P.NeverStarves) (input : Bytes) (hf : FrameOk s.iframe) (hs : s.iframe.state ≠ .head)
    (h : s.iframe.errorCode ≠ some .endless) : (s.recvPayload P input).1.iframe.errorCode ≠ some .endless := by
  rw [recvPayload]
  split
  · exact h
  · have hchunk := payload_live hz input (min input.length (s.iframe.payloadlen-s.iframe.off))
      ((s.recvPreNv input (min input.length (s.iframe.payloadlen-s.iframe.off))).2.1.take
        (s.recvPreNv input (min input.length (s.iframe.payloadlen-s.iframe.off))).2.2) hf hs (Nat.min_le_right _ _) h
    dsimp only
    generalize s.recvPreNv input (min input.length (s.iframe.payloadlen-s.iframe.off)) = p at hchunk ⊢
    rw [← creditChunk_iframe _ (p.2.1.take p.2.2).length] at hchunk
    generalize (p.1.recvChunk P (p.2.1.take p.2.2)).creditChunk (p.2.1.take p.2.2).length = c at hchunk ⊢
    have hend := endFrame_stays_live (P := P) hchunk
    split
    · exact hchunk
    · split
      · exact hend
      · exact hend

theorem recvIter_live (hz : P.NeverStarves) (input : Bytes) (hf : FrameOk s.iframe) (h : s.iframe.errorCode ≠ some .endless) :
    (s.recvIter P input).1.iframe.errorCode ≠ some .endless := by
  rw [recvIter]
  split
  · rename_i hs
    have hhead := recvHead_live P input h
    obtain ⟨hsound,hbody⟩ := recvHead_sound P s input hf hs
    dsimp only
    split
    · exact hhead
    · rename_i hr
      exact recvPayload_live hz _ hsound.frame (hbody hr) hhead
  · rename_i hs
    exact recvPayload_live hz input hf hs h

theorem recvLoop_live (hz : P.NeverStarves) (fuel : Nat) {s : Session} {input : Bytes} (hf : FrameOk s.iframe)
    (h : s.iframe.errorCode ≠ some .endless) : (s.recvLoop P fuel input).1.iframe.errorCode ≠ some .endless := by
  induction fuel generalizing s input with
  | zero => exact h
  | succ fuel ih =>
    have hiter := recvIter_live hz input hf h
    have hsound := recvIter_sound P s input hf
    rw [recvLoop]
    split
    · exact hiter
    · exact ih hsound.frame hiter

theorem call_live (hz : P.NeverStarves) {op : Op} (hf : FrameOk s.iframe) (h : s.iframe.errorCode ≠ some .endless) :
    (s.call P op).1.iframe.errorCode ≠ some .endless := by
  by_cases hs : op = .send
  · subst hs
    have hi : (s.call P .send).1.iframe = s.iframe :=
      congrArg Prod.fst (sendLoop_steps P s.sendFuel s (g := cleanGhost) rfl).reading_eq
    rwa [hi]
  · by_cases hr : ∃ input, op = .memRecv input
    · obtain ⟨input,rfl⟩ := hr
      exact recvLoop_live hz (recvFuel input) hf h
    · have hi : (s.call P op).1.iframe = s.iframe :=
        congrArg Prod.fst (submission_steps P s op cleanGhost hs (not_exists.mp hr)).inSteps.reading_eq
      rwa [hi]

theorem run_live (hz : P.NeverStarves) (ops : List Op) {s : Session} (hf : FrameOk s.iframe)
    (h : s.iframe.errorCode ≠ some .endless) : (s.run P ops).iframe.errorCode ≠ some .endless := by
  induction ops generalizing s with
  | nil => exact h
  | cons op ops ih =>
    apply ih (s := s.step P op)
    · rw [step_iframe]
      exact (call_sound P s op hf).1
    · rw [step_iframe]
      exact call_live hz hf h

theorem checkedLoop_spec (P : Platform) (hz : P.NeverStarves) (input : Bytes) (fuel : Nat) (s : Session) (inmark : Nat)
    (hf : FrameOk s.iframe) (hlive : s.iframe.errorCode ≠ some .endless) (hb : s.iframe.Buffered) (hm : inmark ≤ input.length)
    (hk : inputKnown s.iframe (input.drop inmark) = true) (hw : recvWork s.iframe (input.drop inmark) < fuel) :
    ∃ r, s.checkedLoop P input fuel inmark = some r ∧ r.1 = (s.recvLoop P fuel (input.drop inmark)).1 ∧
      ((r.2 = .consumed input.length ∧ (s.recvLoop P fuel (input.drop inmark)).2 = none) ∨
        (r.2 = .fatal .nomem ∧ (s.recvLoop P fuel (input.drop inmark)).2 = some .nomem)) := by
  induction fuel generalizing s inmark with
  | zero => exact absurd hw (Nat.not_lt_zero _)
  | succ fuel ih =>
    obtain ⟨hiter,hbuf⟩ := checkedIter_eq (P := P) hf hb hm
    obtain ⟨k,hrest,hend,hless⟩ := recvIter_rest P (input.drop inmark) hf
    have hsound := recvIter_sound P s (input.drop inmark) hf
    rw [List.drop_drop] at hrest hend hless
    rw [checkedLoop,recvLoop,if_pos (inBounds_of_frameOk hf hb.length),hiter,cursorOf]
    dsimp only
    cases hr : (s.recvIter P (input.drop inmark)).2.2 with
    | some r =>
      cases r with
      | none =>
        refine ⟨_,rfl,rfl,.inl ⟨?_,rfl⟩⟩
        rw [hrest,hend hr,List.length_nil,Nat.sub_zero]
      | some e =>
        rcases hsound.error e hr with rfl | ⟨hendless,-⟩ | ⟨-,hunknown⟩
        · exact ⟨_,rfl,rfl,.inr ⟨rfl,rfl⟩⟩
        · exact absurd hendless (recvIter_live hz _ hf hlive)
        · rw [hk] at hunknown
          cases hunknown
    | none =>
      rw [hr] at hbuf
      have hknown := hsound.known hk hr
      have hwork := hless hr
      simp only [Option.bind_eq_bind,Option.bind_some]
      rw [hrest] at hknown ⊢
      have hgo := ih (s.recvIter P (input.drop inmark)).1 (input.length-(input.drop (inmark+k)).length) hsound.frame
        (recvIter_live hz _ hf hlive) (hbuf nofun) (Nat.sub_le _ _) (by rwa [drop_sub_length]) (by rw [drop_sub_length]; omega)
      rw [drop_sub_length] at hgo
      exact hgo

/-! Runs without a fatal result. -/

theorem recvIter_buffered (P : Platform) (input : Bytes) (hf : FrameOk s.iframe) (hb : s.iframe.Buffered)
    (he : ∀ e, (s.recvIter P input).2.2 ≠ some (some e)) : (s.recvIter P input).1.iframe.Buffered := by
  have hiter := (checkedIter_eq (P := P) hf hb (Nat.zero_le input.length)).2
  rw [List.drop_zero] at hiter
  exact hiter he

theorem recvLoop_buffered (fuel : Nat) {s : Session} {input : Bytes} (hf : FrameOk s.iframe) (hb : s.iframe.Buffered)
    (he : (s.recvLoop P fuel input).2 = none) : (s.recvLoop P fuel input).1.iframe.Buffered := by
  induction fuel generalizing s input with
  | zero => exact hb
  | succ fuel ih =>
    have hiter := recvIter_buffered P input hf hb
    have hsound := recvIter_sound P s input hf
    rw [recvLoop] at he ⊢
    cases hr : (s.recvIter P input).2.2 with
    | some r =>
      rw [hr] at he hiter
      dsimp only at he ⊢
      rw [he] at hiter
      exact hiter nofun
    | none =>
      rw [hr] at he hiter
      exact ih hsound.frame (hiter nofun) he

theorem call_buffered {op : Op} (hf : FrameOk s.iframe) (hb : s.iframe.Buffered)
    (he : ∀ e, (s.call P op).2 = some e → isFatal e = false) : (s.call P op).1.iframe.Buffered := by
  by_cases hs : op = .send
  · subst hs
    have hi : (s.call P .send).1.iframe = s.iframe :=
      congrArg Prod.fst (sendLoop_steps P s.sendFuel s (g := cleanGhost) rfl).reading_eq
    rw [hi]
    exact hb
  · by_cases hr : ∃ input, op = .memRecv input
    · obtain ⟨input,rfl⟩ := hr
      apply recvLoop_buffered (recvFuel input) hf hb
      -- the loop returns fatal errors only
      have herr := (recvLoop_sound P (recvFuel input) s input hf).2
      cases hres : (s.recvLoop P (recvFuel input) input).2 with
      | none => rfl
      | some e =>
        have hno := he e hres
        rcases herr e hres with rfl | rfl | ⟨rfl,-⟩
        · cases hno
        · cases hno
        · cases hno
    · have hi : (s.call P op).1.iframe = s.iframe :=
        congrArg Prod.fst (submission_steps P s op cleanGhost hs (not_exists.mp hr)).inSteps.reading_eq
      rw [hi]
      exact hb

theorem step_clean {op : Op} (h : failures (s.step P op).host.log = []) :
    failures s.host.log = [] ∧ ∀ e, (s.call P op).2 = some e → isFatal e = false := by
  rw [step] at h
  cases hr : (s.call P op).2 with
  | none =>
    rw [hr] at h
    dsimp only at h
    rw [call_failures] at h
    exact ⟨h,nofun⟩
  | some e =>
    rw [hr] at h
    dsimp only at h
    cases hfat : isFatal e with
    | true =>
      rw [hfat,if_pos rfl] at h
      have hlog : ((s.call P op).1.emit (.fatal e)).host.log = (s.call P op).1.host.log ++ [.fatal e] := rfl
      rw [hlog,failures_append,List.append_eq_nil_iff] at h
      exact absurd h.2 (List.cons_ne_nil _ _)
    | false =>
      rw [hfat,if_neg Bool.false_ne_true,call_failures] at h
      refine ⟨h,?_⟩
      rintro e' he'
      cases he'
      exact hfat

theorem run_clean (ops : List Op) {s : Session} (h : failures (s.run P ops).host.log = []) : failures s.host.log = [] := by
  induction ops generalizing s with
  | nil => exact h
  | cons op ops ih => exact (step_clean (ih h)).1

theorem run_buffered (ops : List Op) {s : Session} (hf : FrameOk s.iframe) (hb : s.iframe.Buffered)
    (h : failures (s.run P ops).host.log = []) : (s.run P ops).iframe.Buffered := by
  induction ops generalizing s with
  | nil => exact hb
  | cons op ops ih =>
    have hstep := step_clean (run_clean ops h)
    apply ih (s := s.step P op)
    · rw [step_iframe]
      exact (call_sound P s op hf).1
    · rw [step_iframe]
      exact call_buffered hf hb hstep.2
    · exact h

theorem start_iframe (P : Platform) (u : Setup) : (u.start P).iframe =
    ⟨.head,[],P.freshBuffer initialFramebufLength,initialFramebufLength,0,0,0,bufferInit 4096,none⟩ := by
  rw [Setup.start]
  split <;> rfl

theorem live_start (P : Platform) (u : Setup) : (u.start P).iframe.errorCode ≠ some .endless := by
  rw [start_iframe]
  rintro ⟨⟩

theorem buffered_start (P : Platform) (u : Setup) : (u.start P).iframe.Buffered := by
  rw [start_iframe]
  refine ⟨?_,?_,nofun,nofun⟩
  · dsimp only
    rw [length_freshBuffer]
  · dsimp only
    omega

end Session

/-- A receive after calls that returned nothing fatal, of bytes that complete no SYN_REPLY
or HEADERS of an unknown version, ends without a fault where inflate does not run out of
memory. It has then read all its bytes, or memory was missing. -/
theorem mem_recv_consumes_input (P : Platform) (hz : P.NeverStarves) (u : Setup) (ops : List Op) (input : Bytes)
    (hclean : ∀ e, Event.fatal e ∉ ((u.start P).run P ops).host.log)
    (hk : inputKnown ((u.start P).run P ops).iframe input = true) :
    ∃ t r, ((u.start P).run P ops).memRecvChecked P input = some (t,r) ∧
      t = (((u.start P).run P ops).memRecv P input).1 ∧
      ((r = .consumed input.length ∧ (((u.start P).run P ops).memRecv P input).2 = none) ∨
        (r = .fatal .nomem ∧ (((u.start P).run P ops).memRecv P input).2 = some .nomem)) := by
  have hf := run_frameOk P (frameOk_start P u) ops
  have hnone : failures ((u.start P).run P ops).host.log = [] := by
    rw [List.eq_nil_iff_forall_not_mem]
    intro e he
    exact hclean e (mem_failures.mp he)
  have hb := Session.run_buffered ops (frameOk_start P u) (Session.buffered_start P u) hnone
  have hwork : Session.recvWork ((u.start P).run P ops).iframe (input.drop 0) < Session.recvFuel input := by
    rw [Session.recvWork,Session.recvFuel,List.drop_zero]
    split <;> omega
  have hlive := Session.run_live hz ops (frameOk_start P u) (Session.live_start P u)
  obtain ⟨⟨t,r⟩,hrun,ht,hr⟩ := Session.checkedLoop_spec P hz input (Session.recvFuel input) _ 0 hf hlive hb (Nat.zero_le _)
    (by rwa [List.drop_zero]) hwork
  exact ⟨t,r,hrun,ht,hr⟩

theorem peerPlatform_neverStarves : peerPlatform.NeverStarves := by
  intro hist b
  change (if hist.length = 5 then ZStep.needDict else if hist.length = 8 then .output [0,0,0]
    else if hist.length = 9 then .output [0] else if 16 ≤ hist.length ∧ hist.length % 8 = 1 then .output [0,0,0,0]
    else .output []) ≠ .memError
  split_ifs <;> rintro ⟨⟩

/-- The rest of a SYN_STREAM and the beginning of the next frame, behind a cut in its
compressed block. -/
theorem cut_request_consumed :
    let s := ((sampleServer [] []).start peerPlatform).run peerPlatform [.memRecv ((firstRequest 0 1).take 25)]
    ∃ t, s.memRecvChecked peerPlatform ((firstRequest 0 1).drop 25 ++ [128,3]) = some (t,.consumed 11) ∧
      t = (s.memRecv peerPlatform ((firstRequest 0 1).drop 25 ++ [128,3])).1 := by
  intro s
  have hrun : failures s.host.log = [] ∧ (s.memRecv peerPlatform ((firstRequest 0 1).drop 25 ++ [128,3])).2 = none ∧
      inputKnown s.iframe ((firstRequest 0 1).drop 25 ++ [128,3]) = true := by
    decide +kernel
  obtain ⟨hnone,hres,hknown⟩ := hrun
  have hclean : ∀ e, Event.fatal e ∉ s.host.log := by
    intro e he
    rw [← mem_failures,hnone] at he
    cases he
  obtain ⟨t,r,hchecked,ht,⟨rfl,-⟩ | ⟨-,hnomem⟩⟩ :=
    mem_recv_consumes_input peerPlatform peerPlatform_neverStarves (sampleServer [] []) _ _ hclean hknown
  · exact ⟨t,hchecked,ht⟩
  · rw [hres] at hnomem
    cases hnomem

/-- A block whose first byte finds no memory is not read to its end. -/
example : ((sampleServer [] []).start {peerPlatform with inflate := fun _ _ => .memError}).memRecvChecked
    {peerPlatform with inflate := fun _ _ => .memError} (firstRequest 0 1) = none := by
  decide +kernel

/-- An empty SYN_REPLY of version 4 does not come to an end. -/
theorem unknown_version_faults :
    ((sampleClient .int32 [] []).start samplePlatform).memRecvChecked samplePlatform [128,4,0,2,0,0,0,0] = none ∧
      (((sampleClient .int32 [] []).start samplePlatform).memRecv samplePlatform [128,4,0,2,0,0,0,0]).2 =
        some (.assertion .nvOffset) := by
  decide +kernel

end Spdylay
