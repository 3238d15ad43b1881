import Spdylay.Machine.Turns
import Spdylay.Peers.Contents

/-! What the receiver tells its application of the frames on the wire. Each frame is reported at
its end, in the order of the wire and from its own bytes, as long as every block comes through
the inflater. -/
namespace Spdylay.Peers
open Library Session Machine

/-- What is told of a whole frame, after frames with the blocks `before`. -/
inductive Report (P : Platform) (v : Version) (server : Bool) (before : Bytes) (x : WireFrame) : List Event → Prop
  | nothing : Report P v server before x [.frameDone]
  | chunks (pieces : List Bytes) : frameIsCtrlFrame (x.head.getD 0 0) = false → pieces.flatten = x.body →
      Report P v server before x (chunkEvents x.head pieces ++ [.frameDone])
  | ctrl (n : Nat) (g : Frame) : frameIsCtrlFrame (x.head.getD 0 0) = true → (blockStart x.head = none → n = x.body.length) →
      Read P v server x.head x.body n (Transducer.run (P.push v) before x.block) g →
      Report P v server before x [.ctrlRecv g, .frameDone]

/-- Frame after frame. -/
inductive Reports (P : Platform) (v : Version) (server : Bool) : List WireFrame → List Event → Prop
  | nil : Reports P v server [] []
  | snoc {frames : List WireFrame} {es es' : List Event} (x : WireFrame) : Reports P v server frames es →
      Report P v server (frames.flatMap WireFrame.block) x es' → Reports P v server (frames ++ [x]) (es ++ es')

section
variable {P : Platform} {v : Version} {server : Bool} {frames : List WireFrame} {es : List Event}

theorem Reports.none (h : Reports P v server [] es) : es = [] := by
  generalize hnil : [] = frames at h
  cases h with
  | nil => rfl
  | snoc x _ _ => exact absurd hnil.symm (List.append_ne_nil_of_right_ne_nil _ (List.cons_ne_nil _ _))

/-- What is told of the last frame. -/
theorem Reports.last {x : WireFrame} (h : Reports P v server (frames ++ [x]) es) : ∃ es1 es2, es = es1 ++ es2 ∧
    Reports P v server frames es1 ∧ Report P v server (frames.flatMap WireFrame.block) x es2 := by
  generalize hall : frames ++ [x] = xs at h
  cases h with
  | nil => exact absurd hall (List.append_ne_nil_of_right_ne_nil _ (List.cons_ne_nil _ _))
  | snoc y hframes hy =>
    obtain ⟨rfl, hxy⟩ := List.append_inj' hall rfl
    cases hxy
    exact ⟨_, _, rfl, hframes, hy⟩

end

/-! Reading the frame that is complete. -/

theorem Read.pos {P : Platform} {v : Version} {server : Bool} {head p : Bytes} {n : Nat} {inflated : Option Bytes} {g : Frame}
    (h : Read P v server head p n inflated g) : 0 < n := by
  have hheaders : ∀ {type : FrameType} {m m' f block}, unpackStreamHeaders type P.qsort m head p n block = (m', f, none) →
      n ≠ 0 := by
    rintro type m m' f block hu rfl
    have hwithout : (unpackStreamHeadersWithoutNv type head p 0).2 ≠ none := by
      rw [unpackStreamHeadersWithoutNv]
      cases ho : frameNvOffset type (frameUnpackCtrlHd head).version with
      | none => rintro ⟨⟩
      | some offset =>
        have hle := Transport.frameNvOffset_ge ho
        dsimp only
        rw [if_pos (by unfold headLen; omega)]
        rintro ⟨⟩
    unfold unpackStreamHeaders at hu
    dsimp only at hu
    split at hu
    · cases hu
    · rename_i hnone
      exact hwithout hnone
  apply Nat.pos_of_ne_zero
  cases h with
  | synStream m m' f block ht hb hu =>
    rintro rfl
    have hwithout : (frameUnpackSynStreamWithoutNv head p 0).2 = some .invalidFrame := by
      rw [frameUnpackSynStreamWithoutNv, if_pos (by decide)]
    unfold frameUnpackSynStream at hu
    dsimp only at hu
    split at hu
    · cases hu
    · rw [hwithout] at hu
      cases hu
  | synReply m m' f block ht hb hu => exact hheaders hu
  | headers m m' f block ht hb hu => exact hheaders hu
  | rstStream f ht hu =>
    rintro rfl
    cases hu
  | settings m f ht hu =>
    rintro rfl
    cases hu
  | ping f ht hu =>
    rintro rfl
    cases hu
  | goaway f ht hu =>
    rintro rfl
    unfold frameUnpackGoaway at hu
    dsimp only at hu
    split at hu
    · cases hu
    · split at hu <;> cases hu
  | windowUpdate f ht hu =>
    rintro rfl
    cases hu
  | credential m f ht hu =>
    rintro rfl
    cases hu

theorem frameUnpackNv_nil (qsort : Qsort) (m : Mem) {lenSize : Nat} (hl : lenSize ≠ 0) :
    (frameUnpackNv qsort m [] lenSize).2.2 ≠ none := by
  have hcount : frameCountUnpackNvSpace [] lenSize = .error .invalidFrame := if_pos (Nat.pos_of_ne_zero hl)
  rw [frameUnpackNv, hcount]
  rintro ⟨⟩

/-- A frame with a block is read with a block that is not empty. -/
theorem Read.block {P : Platform} {v : Version} {server : Bool} {head p : Bytes} {n : Nat} {inflated : Option Bytes} {g : Frame}
    (h : Read P v server head p n inflated g) : blockStart head = none ∨ ∃ block, inflated = some block ∧ block ≠ [] := by
  have hplain : ∀ {type : FrameType}, headType head = some type → type ≠ .synStream → type ≠ .synReply → type ≠ .headers →
      blockStart head = none := by
    intro type ht h1 h2 h3
    rw [headType] at ht
    rw [blockStart, ht]
    cases type with
    | synStream => exact absurd rfl h1
    | synReply => exact absurd rfl h2
    | headers => exact absurd rfl h3
    | _ => exact ite_self _
  have hheaders : ∀ {type : FrameType} {m m' f block}, unpackStreamHeaders type P.qsort m head p n block = (m', f, none) →
      block ≠ [] := by
    rintro type m m' f block hu rfl
    unfold unpackStreamHeaders at hu
    dsimp only at hu
    split at hu
    · cases hu
    · split at hu
      · cases hu
      · rename_i hl
        exact frameUnpackNv_nil _ _ hl (congrArg (fun r => r.2.2) hu)
  cases h with
  | synStream m m' f block ht hb hu =>
    refine .inr ⟨block, hb, ?_⟩
    rintro rfl
    unfold frameUnpackSynStream at hu
    dsimp only at hu
    split at hu
    · cases hu
    · rename_i hl
      split at hu
      · cases hu
      · exact frameUnpackNv_nil _ _ hl (congrArg (fun r => r.2.2) hu)
  | synReply m m' f block ht hb hu => exact .inr ⟨block, hb, hheaders hu⟩
  | headers m m' f block ht hb hu => exact .inr ⟨block, hb, hheaders hu⟩
  | rstStream f ht hu => exact .inl (hplain ht (by rintro ⟨⟩) (by rintro ⟨⟩) (by rintro ⟨⟩))
  | settings m f ht hu => exact .inl (hplain ht (by rintro ⟨⟩) (by rintro ⟨⟩) (by rintro ⟨⟩))
  | ping f ht hu => exact .inl (hplain ht (by rintro ⟨⟩) (by rintro ⟨⟩) (by rintro ⟨⟩))
  | goaway f ht hu => exact .inl (hplain ht (by rintro ⟨⟩) (by rintro ⟨⟩) (by rintro ⟨⟩))
  | windowUpdate f ht hu => exact .inl (hplain ht (by rintro ⟨⟩) (by rintro ⟨⟩) (by rintro ⟨⟩))
  | credential m f ht hu => exact .inl (hplain ht (by rintro ⟨⟩) (by rintro ⟨⟩) (by rintro ⟨⟩))

section
variable {P : Platform} {v : Version} {s : Session} {given body : Bytes} {es : List Event} {frames : List WireFrame}

/-- What a parser makes of the buffer of a complete frame it makes of the payload, if the block
comes through the inflater. -/
theorem Reading.read {server : Bool} {g : Frame} (hs : s.iframe.state ≠ .head) (hc : s.iframe.isCtrl = true)
    (hfull : s.iframe.payloadlen = s.iframe.off) (hf : Follows s.iframe s.hdInflater given frames body)
    (h : Reading P v s.iframe (frames.flatMap WireFrame.block) body es)
    (hcomes : Transducer.run (P.push v) (frames.flatMap WireFrame.block) (blockIn s.iframe.headbuf body) ≠ none)
    (hread : Read P v server s.iframe.headbuf s.iframe.buf s.iframe.buflen (readBlock s.iframe) g) :
    ∃ n, (blockStart s.iframe.headbuf = none → n = body.length) ∧
      Read P v server s.iframe.headbuf body n
        (Transducer.run (P.push v) (frames.flatMap WireFrame.block) (blockIn s.iframe.headbuf body)) g := by
  have hwithout : s.iframe.state ≠ .payloadNv → blockStart s.iframe.headbuf = none := by
    intro hnv
    rcases hread.block with hplain | ⟨block, hblock, hne⟩
    · exact hplain
    · rw [readBlock, h.empty hnv] at hblock
      split at hblock
      · cases hblock
        exact absurd rfl hne
      · cases hblock
  cases hst : s.iframe.state with
  | head => exact absurd hst hs
  | payloadIgn =>
    have hpos := hread.pos
    rw [h.ignored hc hst] at hpos
    exact absurd hpos (lt_irrefl 0)
  | payloadPreNv =>
    obtain ⟨offset, hstart, -⟩ := hf.placed.before hst
    rw [hwithout (by rw [hst]; rintro ⟨⟩)] at hstart
    cases hstart
  | payload =>
    have hnone := hwithout (by rw [hst]; rintro ⟨⟩)
    have hlen : s.iframe.buflen = body.length := by
      rw [h.whole hc hst hnone, hfull, hf.off]
    have hbuf := h.buffered hc (.inl hst)
    refine ⟨s.iframe.buflen, fun _ => hlen, hread.agree ?_ ?_⟩
    · rw [Agree, hlen, ← hf.off, hbuf, hf.off, List.take_length]
    · intro block hblock
      -- there is no block before one, and the output of the inflater is empty
      rw [readBlock, h.empty (by rw [hst]; rintro ⟨⟩)] at hblock
      rw [blockIn, hnone, Transducer.run_nil]
      split at hblock
      · exact hblock
      · cases hblock
  | payloadNv =>
    obtain ⟨offset, hstart, -⟩ := hf.placed.within hst
    refine ⟨s.iframe.buflen, fun hnone => ?_, hread.agree (h.fields hst) ?_⟩
    · rw [hnone] at hstart
      cases hstart
    · intro block hblock
      rw [readBlock] at hblock
      split at hblock
      · rename_i he
        rw [(h.inflated hst he).resolve_left hcomes]
        exact hblock
      · cases hblock

/-! The side of a session does not change. -/

theorem steps_server {c c' : Core} (h : Machine.Steps c c') : c'.server = c.server := by
  induction h with
  | refl => rfl
  | tail _ hm ih =>
    obtain ⟨_, _, _, _, _, _, _, rfl⟩ := hm.frame
    exact ih

theorem sysSteps_server {c c' : Core} (h : SysSteps c c') : c'.server = c.server := by
  induction h with
  | refl => rfl
  | tail _ hm ih =>
    cases hm with
    | act hm =>
      obtain ⟨_, _, _, _, _, _, _, rfl⟩ := hm.frame
      exact ih
    | inb hm =>
      obtain ⟨_, _, _, _, _, _, _, _, rfl⟩ := hm.frame
      exact ih
    | rd hm =>
      cases hm
      exact ih
    | outb hm =>
      obtain ⟨_, _, _, _, _, _, _, _, _, _, _, rfl⟩ := hm.frame
      exact ih
    | report e he =>
      rw [he]
      exact ih

theorem turns_server {s' : Session} (h : Turns P s s') : s'.server = s.server := by
  obtain ⟨g, hsteps, -⟩ := turns_sysSteps h (g := cleanGhost) rfl
  exact sysSteps_server hsteps

theorem creditChunk_sides (P : Platform) (s : Session) (n : Nat) :
    (s.creditChunk n).1.server = s.server ∧ (s.creditChunk n).1.version = s.version :=
  ⟨steps_server (creditChunk_steps s n cleanGhost), (beside_creditChunk P s n).version⟩

/-! The end of a frame. -/

/-- The blocks of the first frames of a stream do not come through the inflater. -/
def Broken (P : Platform) (v : Version) (stream : Bytes) : Prop :=
  ∃ (frames : List WireFrame) (rest : Bytes), stream = frames.flatMap Framing.Frame.bytes ++ rest ∧
    Transducer.run (P.push v) [] (frames.flatMap WireFrame.block) = none

theorem Broken.append {stream : Bytes} (h : Broken P v stream) (more : Bytes) : Broken P v (stream ++ more) := by
  obtain ⟨frames, rest, rfl, hrun⟩ := h
  exact ⟨frames, rest ++ more, List.append_assoc _ _ _, hrun⟩

/-- What the processing of a complete frame adds to what has been told of it. -/
theorem processFrame_report (hv : s.version = v) (hs : s.iframe.state ≠ .head) (hfull : s.iframe.payloadlen = s.iframe.off)
    (hf : Follows s.iframe s.hdInflater given frames body)
    (h : Reading P v s.iframe (frames.flatMap WireFrame.block) body es)
    (hcomes : Transducer.run (P.push v) (frames.flatMap WireFrame.block) (blockIn s.iframe.headbuf body) ≠ none)
    {x : WireFrame} (hhead : x.head = s.iframe.headbuf)
    (hbody : x.body = body) : ∃ es',
      (if s.iframe.isCtrl then s.processCtrlFrame P else s.processDataFrame).1.heard = s.heard ++ es' ∧
      Report P v s.server (frames.flatMap WireFrame.block) x (es ++ (es' ++ [.frameDone])) := by
  by_cases hc : s.iframe.isCtrl = true
  · obtain rfl := h.untold (.inr (.inr hc))
    have hctrl : frameIsCtrlFrame (x.head.getD 0 0) = true := by
      rw [hhead]
      exact hc
    rw [if_pos hc, processCtrlFrame, onlyFatal_fst]
    rcases dispatchCtrlFrame_tells (P := P) (s := s) with hsame | ⟨g, hread, hadd⟩
    · exact ⟨[], by rw [hsame, List.append_nil], .nothing⟩
    · rw [hv] at hread
      obtain ⟨n, hn, hreads⟩ := h.read hs hc hfull hf hcomes hread
      rw [← hhead, ← hbody] at hn hreads
      exact ⟨[.ctrlRecv g], hadd, .ctrl n g hctrl hn hreads⟩
  · have hdata : frameIsCtrlFrame (x.head.getD 0 0) = false := by
      rw [hhead]
      exact Bool.eq_false_of_not_eq_true hc
    rw [if_neg hc]
    refine ⟨[], by rw [heard_processDataFrame, List.append_nil], ?_⟩
    rw [List.nil_append]
    by_cases hign : s.iframe.state = .payloadIgn
    · obtain rfl := h.untold (.inr (.inl hign))
      exact .nothing
    · have hpayload := (placed_data hf.placed hs hc).resolve_right hign
      obtain ⟨pieces, hpieces, rfl⟩ := h.chunks hpayload hc
      rw [← hhead]
      exact .chunks pieces hdata (hpieces.trans hbody.symm)

/-- The block of a complete frame has been inflated if it comes through the inflater and the
memory for it was there. -/
theorem Reading.inflating (h : Reading P v s.iframe (frames.flatMap WireFrame.block) body es) (hframe : FrameOk s.iframe)
    (hlive : s.iframe.errorCode ≠ some .endless) (hf : Follows s.iframe s.hdInflater given frames body)
    (hcomes : Transducer.run (P.push v) (frames.flatMap WireFrame.block) (blockIn s.iframe.headbuf body) ≠ none)
    (hmem : s.iframe.isCtrl = true → ∀ type, s.dispatchCtrlFrame P ≠ s.handleUnparsed type .nomem) : s.iframe.Inflating := by
  by_contra hinf
  have hnv : s.iframe.state = .payloadNv := by
    by_contra hnv
    exact hinf (hf.placed.inflating hnv)
  obtain ⟨offset, hstart, -⟩ := hf.placed.within hnv
  have hc : s.iframe.isCtrl = true := by
    by_contra hc
    rw [blockStart_data hc] at hstart
    cases hstart
  have hzlib : s.iframe.errorCode = some .zlib := by
    cases he : s.iframe.errorCode with
    | none => exact absurd (.inl he) hinf
    | some e =>
      rcases readError_of_live hframe.error hlive e he with rfl | rfl | rfl
      · exact absurd (.inr he) hinf
      · rfl
      · -- without memory the call ends with a fatal error
        obtain ⟨type, hdispatch⟩ := dispatchCtrlFrame_uninflated (P := P) ((blockStart_ctrl hc).symm.trans hstart) he
          (.inr (.inr rfl)) (by rintro ⟨⟩)
        exact absurd hdispatch (hmem hc type)
  exact hcomes (h.refused hnv hzlib)

/-- A complete frame is reported, or its block does not come through the inflater. -/
theorem endFrame_reports (hframe : FrameOk s.iframe) (hv : s.version = v) (hs : s.iframe.state ≠ .head)
    (hfull : s.iframe.payloadlen = s.iframe.off) (hf : Follows s.iframe s.hdInflater given frames body)
    (h : Reading P v s.iframe (frames.flatMap WireFrame.block) body es) (hend : (s.endFrame P).2 = none) :
    ∃ x : WireFrame, x.bytes = s.iframe.headbuf ++ body ∧ (s.endFrame P).1.iframe = s.iframe.reset ∧
      (Transducer.run (P.push v) [] ((frames ++ [x]).flatMap WireFrame.block) = none ∨
        (Follows (s.endFrame P).1.iframe (s.endFrame P).1.hdInflater given (frames ++ [x]) [] ∧
          ∃ es', (s.endFrame P).1.heard = s.heard ++ es' ∧
            Report P v s.server (frames.flatMap WireFrame.block) x (es ++ es'))) := by
  have hlen : body.length = payloadLength s.iframe.headbuf := by
    rw [← hf.off, ← hfull, hf.placed.payloadlen hs]
  obtain ⟨hread, hstream⟩ := processFrame_reading P s
  have hlive := endFrame_live hend
  have hprocess : (if s.iframe.isCtrl then s.processCtrlFrame P else s.processDataFrame).2 = none := by
    rw [endFrame, if_neg hlive, if_pos hfull] at hend
    dsimp only at hend
    split at hend
    · assumption
    · cases hend
  have hnotdone : s.iframe.isCtrl = true → ∀ type, s.dispatchCtrlFrame P ≠ s.handleUnparsed type .nomem := by
    intro hc type hdispatch
    rw [if_pos hc, processCtrlFrame, hdispatch] at hprocess
    cases hprocess
  have hreset : (s.endFrame P).1.iframe = s.iframe.reset := by
    rw [endFrame, if_neg hlive, if_pos hfull]
    dsimp only
    rw [hprocess]
    exact congrArg InboundFrame.reset hread
  refine ⟨⟨s.iframe.headbuf, body, (hframe.body hs).1, hlen⟩, rfl, hreset, ?_⟩
  by_cases hcomes : Transducer.run (P.push v) (frames.flatMap WireFrame.block) (blockIn s.iframe.headbuf body) = none
  · left
    rw [List.flatMap_append, List.flatMap_singleton]
    exact Transducer.run_append_none _ (.inr hcomes)
  · right
    obtain ⟨es', hheard, hreport⟩ := processFrame_report (x := ⟨s.iframe.headbuf, body, (hframe.body hs).1, hlen⟩) hv hs
      hfull hf h hcomes rfl rfl
    have hinf := h.inflating hframe hlive hf hcomes hnotdone
    rw [endFrame, if_neg hlive, if_pos hfull]
    dsimp only at hread hstream ⊢
    generalize (if s.iframe.isCtrl then s.processCtrlFrame P else s.processDataFrame) = r at *
    obtain ⟨t, e⟩ := r
    dsimp only at hprocess hread hstream hheard ⊢
    subst hprocess
    refine ⟨?_, es' ++ [.frameDone], ?_, hreport⟩
    · rw [emit]
      dsimp only
      rw [hread, hstream]
      refine ⟨⟨fun hb => absurd rfl hb, by rintro ⟨⟩, by rintro ⟨⟩, ?_, fun _ => .inl rfl, hf.placed.capacity⟩, rfl, ?_⟩
      · rintro (hp | hp)
        · cases hp
        · cases hp
      · intro _
        obtain ⟨hgiven, hinflater⟩ := hf.blocks hinf
        refine ⟨?_, hinflater⟩
        rw [blockIn_nil, List.append_nil, List.flatMap_append, List.flatMap_singleton, hgiven]
        rfl
    · rw [heard_hear _ rfl, ← List.append_assoc, ← hheard]
      rfl

/-! Passes of the loop. -/

/-- What has been received is frames that have been reported and a part of the next one. -/
def Hears (P : Platform) (v : Version) (server : Bool) (s : Session) (received : Bytes) : Prop :=
  ∃ (frames : List WireFrame) (body given : Bytes) (es es' : List Event),
    received = frames.flatMap Framing.Frame.bytes ++ (s.iframe.headbuf ++ body) ∧
    (s.iframe.state ≠ .head → s.iframe.off < s.iframe.payloadlen) ∧ Follows s.iframe s.hdInflater given frames body ∧
    Reading P v s.iframe (frames.flatMap WireFrame.block) body es' ∧ Reports P v server frames es ∧ s.heard = es ++ es'

/-- The frame that is being read is not whole. -/
theorem part_unfinished (hframe : FrameOk s.iframe) (hopen : s.iframe.state ≠ .head → s.iframe.off < s.iframe.payloadlen)
    (hf : Follows s.iframe s.hdInflater given frames body) :
    Framing.Unfinished headLen payloadLength (s.iframe.headbuf ++ body) := by
  have hoff := hf.off
  by_cases hs : s.iframe.state = .head
  · obtain ⟨hlt, hzero, -⟩ := hframe.head hs
    left
    rw [List.length_append]
    omega
  · have hlen := (hframe.body hs).1
    have hlt := hopen hs
    rw [hf.placed.payloadlen hs] at hlt
    right
    rw [List.take_left' hlen, List.length_append]
    omega

/-- What is told of a frame before its end: nothing, or the chunks of DATA. -/
def ToldOfPart (part : Bytes) (es : List Event) : Prop :=
  es = [] ∨ headLen ≤ part.length ∧ frameIsCtrlFrame (part.getD 0 0) = false ∧
    ∃ pieces : List Bytes, pieces.flatten = part.drop headLen ∧ es = chunkEvents (part.take headLen) pieces

/-- The frames that have been reported, and what is left. -/
theorem Hears.cut {server : Bool} {received : Bytes} (hframe : FrameOk s.iframe) (h : Hears P v server s received) :
    ∃ (frames : List WireFrame) (part : Bytes) (es es' : List Event), received = frames.flatMap Framing.Frame.bytes ++ part ∧
      Framing.Unfinished headLen payloadLength part ∧ s.heard = es ++ es' ∧ Reports P v server frames es ∧
      ToldOfPart part es' := by
  obtain ⟨frames, body, given, es, es', hreceived, hopen, hfollows, hreading, hreports, hheard⟩ := h
  refine ⟨frames, s.iframe.headbuf ++ body, es, es', hreceived, part_unfinished hframe hopen hfollows, hheard, hreports, ?_⟩
  rcases hreading.told hfollows.placed with rfl | ⟨hs, hc, pieces, hpieces, rfl⟩
  · exact .inl rfl
  · have hlen := (hframe.body hs).1
    refine .inr ⟨?_, ?_, pieces, ?_, ?_⟩
    · rw [List.length_append]
      omega
    · rw [List.getD_append _ _ _ _ (by rw [hlen]; decide)]
      exact hc
    · rw [List.drop_left' hlen]
      exact hpieces
    · rw [List.take_left' hlen]

theorem recvPayload_hears {input : Bytes} {server : Bool} {es0 : List Event} (hframe : FrameOk s.iframe) (hv : s.version = v)
    (hserver : s.server = server) (hs : s.iframe.state ≠ .head) (hf : Follows s.iframe s.hdInflater given frames body)
    (h : Reading P v s.iframe (frames.flatMap WireFrame.block) body es) (hreports : Reports P v server frames es0)
    (hheard : s.heard = es0 ++ es) (he : ∀ e, (s.recvPayload P input).2.2 ≠ some (some e)) :
    ∃ k, (s.recvPayload P input).2.1 = input.drop k ∧
      (Broken P v (frames.flatMap Framing.Frame.bytes ++ (s.iframe.headbuf ++ (body ++ input.take k))) ∨
        Hears P v server (s.recvPayload P input).1
          (frames.flatMap Framing.Frame.bytes ++ (s.iframe.headbuf ++ (body ++ input.take k)))) := by
  rw [recvPayload] at he ⊢
  by_cases hw : 0 < s.iframe.payloadlen-s.iframe.off ∧ input = []
  · rw [if_pos hw]
    refine ⟨0, rfl, .inr ⟨frames, body, given, es0, es, ?_, fun _ => Nat.lt_of_sub_pos hw.1, hf, h, hreports, hheard⟩⟩
    rw [List.take_zero, List.append_nil]
  · rw [if_neg hw] at he ⊢
    have hk := Nat.min_le_left input.length (s.iframe.payloadlen-s.iframe.off)
    have hk' := Nat.min_le_right input.length (s.iframe.payloadlen-s.iframe.off)
    obtain ⟨-, hoff⟩ := hframe.body hs
    generalize min input.length (s.iframe.payloadlen-s.iframe.off) = r at *
    -- the fields before the block
    obtain ⟨n, hn, t, hread, ht, htend⟩ := recvPreNv_follows hk hf
    obtain ⟨n', hn', hdrop, hlen', htoff, htf, htplace⟩ := recvPreNv_spec s input r hframe hs hk'
    obtain ⟨htreading, hteq⟩ := recvPreNv_reading hk hn hread hf h
    rw [hread] at htoff htf htplace he ⊢
    dsimp only at htoff htf htplace he ⊢
    have htheard : t.heard = s.heard := by rw [hteq]; rfl
    have htserver : t.server = s.server := by rw [hteq]
    have htversion : t.version = s.version := by rw [hteq]
    -- the chunk
    have hlen : ((input.drop n).take (r-n)).length = r-n := by
      rw [List.length_take, List.length_drop]
      omega
    have hroom : t.iframe.off+((input.drop n).take (r-n)).length ≤ t.iframe.payloadlen := by
      have hb := hf.off
      rw [ht.off, List.length_append, List.length_take, hlen, htplace.payloadlen]
      omega
    have htake : body ++ input.take n ++ (input.drop n).take (r-n) = body ++ input.take r := by
      rw [List.append_assoc, ← List.take_add, Nat.add_sub_cancel' hn]
    have hrest : (input.drop n).drop (r-n) = input.drop r := by
      rw [List.drop_drop, Nat.add_sub_cancel' hn]
    have hfollows := recvChunk_follows (P := P) ((input.drop n).take (r-n)) htplace.body htf.buffer
      (fun hp => List.eq_nil_of_length_eq_zero (hlen.trans (htend hp))) hroom ht
    obtain ⟨hcoff, hcf, hcplace⟩ := recvChunk_spec P t ((input.drop n).take (r-n)) htf htplace.body hroom
    obtain ⟨hreading, hcheard, hcserver, hcversion⟩ := recvChunk_reading (P := P) ((input.drop n).take (r-n))
      (htversion.trans hv) htplace.body htf.buffer ht htreading
    -- its credit
    obtain ⟨hkserver, hkversion⟩ := creditChunk_sides P (t.recvChunk P ((input.drop n).take (r-n)))
      ((input.drop n).take (r-n)).length
    have hkheard := (t.recvChunk P ((input.drop n).take (r-n))).heard_creditChunk ((input.drop n).take (r-n)).length
    have hcif := creditChunk_iframe (t.recvChunk P ((input.drop n).take (r-n))) ((input.drop n).take (r-n)).length
    have hcin := creditChunk_hdInflater (t.recvChunk P ((input.drop n).take (r-n))) ((input.drop n).take (r-n)).length
    rw [htake] at hfollows hreading
    rw [hcheard, htheard, hheard, List.append_assoc] at hkheard
    rw [hcserver, htserver, hserver] at hkserver
    rw [hcversion, htversion, hv] at hkversion
    generalize chunkTold t.iframe ((input.drop n).take (r-n)) = told at *
    generalize (t.recvChunk P ((input.drop n).take (r-n))).creditChunk ((input.drop n).take (r-n)).length = c at *
    rw [← hcif] at hfollows hcf hcplace hreading
    rw [← hcin] at hfollows
    have hhead : c.1.iframe.headbuf = s.iframe.headbuf := hcplace.headbuf.trans htplace.headbuf
    obtain ⟨c1, e⟩ := c
    cases e with
    | some e => exact absurd rfl (he _)
    | none =>
      dsimp only at *
      cases hend : (c1.endFrame P).2 with
      | some e =>
        rw [hend] at he
        exact absurd rfl (he _)
      | none =>
        dsimp only
        refine ⟨r, hrest, ?_⟩
        by_cases hfull : c1.iframe.payloadlen = c1.iframe.off
        · obtain ⟨x, hbytes, hreset, hnext⟩ := endFrame_reports hcf hkversion hcplace.body hfull hfollows hreading hend
          have hwire : frames.flatMap Framing.Frame.bytes ++ (s.iframe.headbuf ++ (body ++ input.take r)) =
              (frames ++ [x]).flatMap Framing.Frame.bytes := by
            rw [List.flatMap_append, List.flatMap_singleton, hbytes, hhead]
          rw [hwire]
          rcases hnext with hbroken | ⟨hafter, es', hadd, hreport⟩
          · exact .inl ⟨frames ++ [x], [], (List.append_nil _).symm, hbroken⟩
          · right
            rw [hkserver] at hreport
            refine ⟨frames ++ [x], [], given ++ t.chunkInflated ((input.drop n).take (r-n)), es0 ++ (es ++ told ++ es'), [],
              ?_, ?_, hafter, ?_, hreports.snoc x hreport, ?_⟩
            · rw [hreset]
              simp [InboundFrame.reset]
            · intro hb
              rw [hreset] at hb
              exact absurd rfl hb
            · rw [hreset]
              exact .start rfl rfl
            · rw [hadd, hkheard, List.append_nil]
              simp only [List.append_assoc]
        · right
          have hsame : (c1.endFrame P).1 = c1 := by
            rw [endFrame, if_neg (endFrame_live hend), if_neg hfull]
          rw [hsame]
          refine ⟨frames, body ++ input.take r, _, es0, es ++ told, by rw [hhead], ?_, hfollows, hreading, hreports, hkheard⟩
          intro hb
          exact Nat.lt_of_le_of_ne (hcf.body hb).2 (Ne.symm hfull)

theorem recvHead_reading (input : Bytes) (hframe : FrameOk s.iframe) (hs : s.iframe.state = .head)
    (h : Reading P v s.iframe (frames.flatMap WireFrame.block) [] es) :
    Reading P v (s.recvHead P input).1.iframe (frames.flatMap WireFrame.block) [] [] ∧ es = [] ∧
      (s.recvHead P input).1.heard = s.heard ∧ (s.recvHead P input).1.server = s.server ∧
      (s.recvHead P input).1.version = s.version := by
  have hempty := h.empty (by rw [hs]; rintro ⟨⟩)
  have hreserve : ∀ (t : Session) n, (t.reserveIframeBuf P n).1.heard = t.heard ∧
      (t.reserveIframeBuf P n).1.server = t.server ∧ (t.reserveIframeBuf P n).1.version = t.version := by
    intro t n
    rw [reserveIframeBuf]
    split_ifs <;> exact ⟨rfl, rfl, rfl⟩
  have hstart : ∀ t : Session, (t.startPayload P).1.heard = t.heard ∧ (t.startPayload P).1.server = t.server ∧
      (t.startPayload P).1.version = t.version := by
    intro t
    rw [startPayload]
    dsimp only
    split
    · exact hreserve _ _
    · exact ⟨rfl, rfl, rfl⟩
  rw [recvHead]
  by_cases hin : input = []
  · rw [if_pos hin]
    exact ⟨.start hs hempty, h.untold (.inl hs), rfl, rfl, rfl⟩
  · rw [if_neg hin]
    dsimp only
    generalize min (headLen-s.iframe.headbuf.length) input.length = k
    split
    · have hreading : Reading P v ((s.takeHead (input.take k)).startPayload P).1.iframe (frames.flatMap WireFrame.block) [] [] :=
        startPayload_reading (hframe.head hs).2.1 hempty
      have hkeeps := hstart (s.takeHead (input.take k))
      split
      · exact ⟨hreading, h.untold (.inl hs), hkeeps⟩
      · exact ⟨hreading, h.untold (.inl hs), hkeeps⟩
    · exact ⟨.start hs hempty, h.untold (.inl hs), rfl, rfl, rfl⟩

/-- A pass reports the frame it ends, or the block of that frame does not come through the inflater. -/
theorem recvIter_hears (input : Bytes) {received : Bytes} {server : Bool} (hframe : FrameOk s.iframe) (hv : s.version = v)
    (hserver : s.server = server) (h : Hears P v server s received)
    (he : ∀ e, (s.recvIter P input).2.2 ≠ some (some e)) : ∃ k, (s.recvIter P input).2.1 = input.drop k ∧
      (Broken P v (received ++ input.take k) ∨ Hears P v server (s.recvIter P input).1 (received ++ input.take k)) := by
  obtain ⟨frames, body, given, es, es', hreceived, -, hfollows, hreading, hreports, hheard⟩ := h
  rw [recvIter] at he ⊢
  by_cases hs : s.iframe.state = .head
  · obtain ⟨-, hoff, -⟩ := hframe.head hs
    obtain rfl : body = [] := List.eq_nil_of_length_eq_zero (hfollows.off.symm.trans hoff)
    obtain ⟨k, hrest, hhead, hh, hend⟩ := recvHead_follows (P := P) input hframe hs hfollows
    obtain ⟨hsound, hbody⟩ := recvHead_sound P s input hframe hs
    obtain ⟨hnext, rfl, hsame, hserver', hversion'⟩ := recvHead_reading input hframe hs hreading
    rw [List.append_nil] at hreceived
    rw [← hsame] at hheard
    rw [hserver] at hserver'
    rw [hv] at hversion'
    rw [if_pos hs] at he ⊢
    generalize s.recvHead P input = r at *
    obtain ⟨t, rest, e⟩ := r
    dsimp only at *
    subst hrest
    cases e with
    | some e =>
      cases e with
      | some e => exact absurd rfl (he e)
      | none =>
        refine ⟨k, rfl, .inr ⟨frames, [], given, es, [], ?_, fun hb => absurd (hend rfl) hb, hh, hnext, hreports, hheard⟩⟩
        rw [List.append_nil, hhead, hreceived, List.append_assoc]
    | none =>
      dsimp only at *
      obtain ⟨j, hj, hstep⟩ := recvPayload_hears hsound.frame hversion' hserver' (hbody rfl) hh hnext hreports hheard he
      rw [List.drop_drop] at hj
      rw [hhead, List.nil_append, List.append_assoc, ← List.take_add, ← List.append_assoc, ← hreceived] at hstep
      exact ⟨k+j, hj, hstep⟩
  · rw [if_neg hs] at he ⊢
    obtain ⟨k, hk, hstep⟩ := recvPayload_hears hframe hv hserver hs hfollows hreading hreports hheard he
    rw [← List.append_assoc s.iframe.headbuf, ← List.append_assoc, ← hreceived] at hstep
    exact ⟨k, hk, hstep⟩

end

/-! Runs. -/

section
variable {P : Platform} {u : Setup} {s : Session}

/-- What never changes in a session. -/
theorem reachable_sides (h : Reachable P u s) : s.version = u.version ∧ s.server = u.server := by
  have hversion : s.version = (u.start P).version := (Transport.reachable_sends h).1.version
  have hserver : s.server = (u.start P).server := turns_server h
  rw [hversion, hserver, Setup.start]
  split
  · rename_i hu
    exact ⟨rfl, hu.symm⟩
  · rename_i hu
    exact ⟨rfl, (Bool.eq_false_of_not_eq_true hu).symm⟩

theorem recvLoop_hears (fuel : Nat) {s : Session} {input received : Bytes} (hs : Reachable P u s) (hframe : FrameOk s.iframe)
    (h : Hears P u.version u.server s received) (hw : recvWork s.iframe input < fuel)
    (he : (s.recvLoop P fuel input).2 = none) : Broken P u.version (received ++ input) ∨
      Hears P u.version u.server (s.recvLoop P fuel input).1 (received ++ input) := by
  induction fuel generalizing s input received with
  | zero => exact absurd hw (Nat.not_lt_zero _)
  | succ fuel ih =>
    obtain ⟨hv, hserver⟩ := reachable_sides hs
    obtain ⟨k', hrest', hend, hless⟩ := recvIter_rest P input hframe
    have hiter := recvIter_hears input hframe hv hserver h
    rw [recvLoop] at he ⊢
    rw [← hrest'] at hend hless
    cases hr : (s.recvIter P input).2.2 with
    | some r =>
      rw [hr] at he hiter hend
      dsimp only at he ⊢
      subst he
      obtain ⟨k, hrest, hstep⟩ := hiter (by rintro _ ⟨⟩)
      have hall : input.take k = input := by
        conv_rhs => rw [← List.take_append_drop k input, ← hrest, hend rfl, List.append_nil]
      rw [hall] at hstep
      exact hstep
    | none =>
      rw [hr] at he hiter
      dsimp only at he ⊢
      obtain ⟨k, hrest, hstep⟩ := hiter (by rintro _ ⟨⟩)
      have hall : received ++ input.take k ++ (s.recvIter P input).2.1 = received ++ input := by
        rw [hrest, List.append_assoc, List.take_append_drop]
      rw [← hall]
      rcases hstep with hbroken | hstep
      · exact .inl (hbroken.append _)
      · have hwork := hless hr
        exact ih (hs.tail (.recv s input)) (recvIter_sound P s input hframe).frame hstep (by omega) he

theorem call_hears {op : Op} {received : Bytes} (hs : Reachable P u s) (hframe : FrameOk s.iframe)
    (h : Hears P u.version u.server s received) (he : ∀ e, (s.call P op).2 = some e → isFatal e = false) :
    Broken P u.version (received ++ receivedBytes [op]) ∨
      Hears P u.version u.server (s.call P op).1 (received ++ receivedBytes [op]) := by
  by_cases hr : ∃ input, op = .memRecv input
  · obtain ⟨input, rfl⟩ := hr
    have hnone : (s.recvLoop P (recvFuel input) input).2 = none := by
      cases hres : (s.recvLoop P (recvFuel input) input).2 with
      | none => rfl
      | some e =>
        -- the loop returns fatal errors only
        have hno := he e hres
        rcases (recvLoop_sound P (recvFuel input) s input hframe).2 e hres with rfl | rfl | ⟨rfl, -⟩
        · cases hno
        · cases hno
        · cases hno
    have hwork : recvWork s.iframe input < recvFuel input := by
      rw [recvWork, recvFuel]
      split <;> omega
    rw [receivedBytes, receivedBytes, List.append_nil]
    exact recvLoop_hears (recvFuel input) hs hframe h hwork hnone
  · have hnot := not_exists.mp hr
    have hread : (s.call P op).1.iframe = s.iframe ∧ (s.call P op).1.hdInflater = s.hdInflater := by
      by_cases hsend : op = .send
      · subst hsend
        have hread := (sendLoop_steps P s.sendFuel s (g := cleanGhost) rfl).reading_eq
        exact ⟨congrArg Prod.fst hread, congrArg Prod.snd hread⟩
      · have hread := (submission_steps P s op cleanGhost hsend hnot).inSteps.reading_eq
        exact ⟨congrArg Prod.fst hread, congrArg Prod.snd hread⟩
    have hnone : receivedBytes [op] = [] := by
      cases op with
      | memRecv input => exact absurd rfl (hnot input)
      | _ => rfl
    right
    rw [hnone, List.append_nil, Hears, hread.1, hread.2, s.heard_call P op hnot]
    exact h

theorem heard_step (P : Platform) (s : Session) (op : Op) : (s.step P op).heard = (s.call P op).1.heard := by
  rw [step]
  split
  · split
    · exact heard_emit _ rfl
    · rfl
  · rfl

theorem run_hears (ops : List Op) {s : Session} {received : Bytes} (hs : Reachable P u s) (hframe : FrameOk s.iframe)
    (h : Hears P u.version u.server s received) (hclean : failures (s.run P ops).host.log = []) :
    Broken P u.version (received ++ receivedBytes ops) ∨
      Hears P u.version u.server (s.run P ops) (received ++ receivedBytes ops) := by
  induction ops generalizing s received with
  | nil =>
    right
    rw [receivedBytes, List.append_nil]
    exact h
  | cons op ops ih =>
    have hstep := step_clean (run_clean ops hclean)
    have hnext : FrameOk (s.step P op).iframe := by
      rw [step_iframe]
      exact (call_sound P s op hframe).1
    rw [receivedBytes_cons, ← List.append_assoc]
    rcases call_hears hs hframe h hstep.2 with hbroken | hcall
    · exact .inl (hbroken.append _)
    · refine ih (hs.trans (step_turns P s op)) hnext ?_ hclean
      rw [Hears, step_iframe, step_hdInflater, heard_step]
      exact hcall

theorem hears_start (P : Platform) (u : Setup) : Hears P u.version u.server (u.start P) [] := by
  obtain ⟨frames, body, hreceived, hopen, hfollows⟩ := inStep_start P u
  have hiframe : (u.start P).iframe.state = .head ∧ (u.start P).iframe.inflatebuf.bytes = [] := by
    rw [Setup.start]
    split <;> exact ⟨rfl, rfl⟩
  have hheard : (u.start P).heard = [] := by
    rw [heard, log_start P u]
    rfl
  obtain ⟨hframes, hrest⟩ := List.append_eq_nil_iff.mp hreceived.symm
  obtain ⟨hhead, rfl⟩ := List.append_eq_nil_iff.mp hrest
  obtain rfl : frames = [] := by
    cases frames with
    | nil => rfl
    | cons x xs =>
      have hx := List.flatMap_eq_nil_iff.mp hframes x List.mem_cons_self
      have hlen := x.head_length
      rw [(List.append_eq_nil_iff.mp hx).1] at hlen
      cases hlen
  exact ⟨[], [], [], [], [], by rw [hhead]; rfl, hopen, hfollows, .start hiframe.1 hiframe.2, .nil, by rw [hheard]; rfl⟩

theorem received_reported (P : Platform) (u : Setup) (ops : List Op)
    (hclean : failures ((u.start P).run P ops).host.log = []) :
    Broken P u.version (receivedBytes ops) ∨ Hears P u.version u.server ((u.start P).run P ops) (receivedBytes ops) :=
  run_hears ops .refl (frameOk_start P u) (hears_start P u) hclean

/-- What is received is cut into frames and a part of the next one. Each frame is told of from its own
bytes, in their order, and of the part only DATA. Only a fatal error or a block that does not come
through the inflater can end this. -/
theorem received_frames_told (P : Platform) (u : Setup) (ops : List Op)
    (hclean : failures ((u.start P).run P ops).host.log = []) : Broken P u.version (receivedBytes ops) ∨
      ∃ (frames : List WireFrame) (part : Bytes) (es es' : List Event),
        receivedBytes ops = frames.flatMap Framing.Frame.bytes ++ part ∧
        Framing.Unfinished headLen payloadLength part ∧ ((u.start P).run P ops).heard = es ++ es' ∧
        Reports P u.version u.server frames es ∧ ToldOfPart part es' :=
  (received_reported P u ops hclean).imp_right (fun h => h.cut (run_frameOk P (frameOk_start P u) ops))

/-- A request in two pieces, and the header of DATA with one byte behind it. -/
def firstPieces : List Op :=
  [.memRecv ((firstRequest 0 1).take 20), .memRecv ((firstRequest 0 1).drop 20 ++ [0,0,0,1,1,0,0,3,7])]

theorem firstPieces_told : Broken peerPlatform .spdy3 (receivedBytes firstPieces) ∨
    ∃ (frames : List WireFrame) (part : Bytes) (es es' : List Event),
      receivedBytes firstPieces = frames.flatMap Framing.Frame.bytes ++ part ∧
      Framing.Unfinished headLen payloadLength part ∧
      (((sampleServer [] []).start peerPlatform).run peerPlatform firstPieces).heard = es ++ es' ∧
      Reports peerPlatform .spdy3 true frames es ∧ ToldOfPart part es' :=
  received_frames_told peerPlatform (sampleServer [] []) firstPieces (by decide +kernel)

end

end Spdylay.Peers
