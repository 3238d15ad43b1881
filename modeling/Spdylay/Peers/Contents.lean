import Spdylay.Peers.Reports
import Spdylay.Transport.ReceivedBlocks

/-! What the receiver holds of the frame it is reading: the bytes before the block in its buffer,
and what the block is inflated to. -/
namespace Spdylay.Peers
open Library Session Machine

theorem memcpy_take {buf : Bytes} {off : Nat} (bytes : Bytes) (h : off ≤ buf.length) :
    (memcpy buf off bytes).take (off+bytes.length) = buf.take off ++ bytes := by
  apply List.take_left'
  simp [h]

theorem length_of_take {buf body : Bytes} {off : Nat} (h : buf.take off = body) (hlen : off = body.length) :
    off ≤ buf.length := by
  have hmin := congrArg List.length h
  rw [List.length_take, ← hlen] at hmin
  omega

/-- The events of the chunks that a payload came in. -/
def chunkEvents (head : Bytes) (pieces : List Bytes) : List Event :=
  pieces.map (.dataChunkRecv (head.getD 4 0).toNat (getStreamId head))

/-- `before` is the blocks of the earlier frames, `body` what has been read of the payload, `es` what
has been told of the frame. -/
structure Reading (P : Platform) (v : Version) (f : InboundFrame) (before body : Bytes) (es : List Event) : Prop where
  buffered : f.isCtrl = true → f.state = .payload ∨ f.state = .payloadPreNv → f.buf.take f.off = body
  fields : f.state = .payloadNv → f.buf.take f.buflen = body.take f.buflen
  offset : f.state = .payloadPreNv ∨ f.state = .payloadNv → f.payloadNvOffset = some f.buflen
  whole : f.isCtrl = true → f.state = .payload → blockStart f.headbuf = none → f.buflen = f.payloadlen
  ignored : f.isCtrl = true → f.state = .payloadIgn → f.buflen = 0
  inflated : f.state = .payloadNv → f.errorCode = none →
    Transducer.run (P.push v) before (blockIn f.headbuf body) = none ∨
      Transducer.run (P.push v) before (blockIn f.headbuf body) = some f.inflatebuf.bytes
  refused : f.state = .payloadNv → f.errorCode = some .zlib →
    Transducer.run (P.push v) before (blockIn f.headbuf body) = none
  empty : f.state ≠ .payloadNv → f.inflatebuf.bytes = []
  untold : f.state = .head ∨ f.state = .payloadIgn ∨ f.isCtrl = true → es = []
  chunks : f.state = .payload → f.isCtrl ≠ true → ∃ pieces : List Bytes, pieces.flatten = body ∧ es = chunkEvents f.headbuf pieces

section
variable {P : Platform} {v : Version} {s : Session} {before body : Bytes} {es : List Event}

/-- Between two frames. -/
theorem Reading.start {f : InboundFrame} (hs : f.state = .head) (hb : f.inflatebuf.bytes = []) :
    Reading P v f before [] [] := by
  have hstate : ∀ state : InboundState, state ≠ .head → f.state ≠ state := by
    rintro _ hne rfl
    exact hne hs
  refine ⟨?_, fun h => absurd h (hstate _ (by rintro ⟨⟩)), ?_, fun _ h => absurd h (hstate _ (by rintro ⟨⟩)),
    fun _ h => absurd h (hstate _ (by rintro ⟨⟩)), fun h => absurd h (hstate _ (by rintro ⟨⟩)), fun h => absurd h (hstate _ (by rintro ⟨⟩)), fun _ => hb, fun _ => rfl,
    fun h => absurd h (hstate _ (by rintro ⟨⟩))⟩
  · rintro - (h | h)
    · exact absurd h (hstate _ (by rintro ⟨⟩))
    · exact absurd h (hstate _ (by rintro ⟨⟩))
  · rintro (h | h)
    · exact absurd h (hstate _ (by rintro ⟨⟩))
    · exact absurd h (hstate _ (by rintro ⟨⟩))

theorem startPayload_reading (hoff : s.iframe.off = 0) (hb : s.iframe.inflatebuf.bytes = []) :
    Reading P v (s.startPayload P).1.iframe before [] [] := by
  rw [startPayload]
  dsimp only
  rw [← payloadLength]
  split
  · rename_i hc
    obtain ⟨-, hpre⟩ := s.ctrlPayload_fits s.iframe (payloadLength s.iframe.headbuf)
    have hnv : (s.ctrlPayload s.iframe (payloadLength s.iframe.headbuf)).1 ≠ .payloadNv := by
      rw [ctrlPayload]
      split <;> split <;> rintro ⟨⟩
    have hplain : blockStart s.iframe.headbuf = none →
        (s.ctrlPayload s.iframe (payloadLength s.iframe.headbuf)).1 = .payload →
        (s.ctrlPayload s.iframe (payloadLength s.iframe.headbuf)).2.1 = payloadLength s.iframe.headbuf := by
      intro hnone hstate
      rw [blockStart_ctrl hc] at hnone
      rw [ctrlPayload, hnone] at hstate ⊢
      dsimp only at hstate ⊢
      split at hstate
      · cases hstate
      · rename_i hsmall
        rw [if_neg hsmall]
    have hignored : (s.ctrlPayload s.iframe (payloadLength s.iframe.headbuf)).1 = .payloadIgn →
        (s.ctrlPayload s.iframe (payloadLength s.iframe.headbuf)).2.1 = 0 := by
      rw [ctrlPayload]
      split
      · split
        · exact fun _ => rfl
        · rintro ⟨⟩
      · split <;> rintro ⟨⟩
    generalize s.ctrlPayload s.iframe (payloadLength s.iframe.headbuf) = p at *
    have hreading : ∀ (buf : Bytes) (bufmax : Nat), Reading P v
        ⟨p.1, s.iframe.headbuf, buf, bufmax, p.2.1, payloadLength s.iframe.headbuf, s.iframe.off, s.iframe.inflatebuf, p.2.2⟩
        before [] [] := by
      intro buf bufmax
      refine ⟨?_, fun h => absurd h hnv, ?_, fun _ h hnone => hplain hnone h, fun _ => hignored, fun h => absurd h hnv,
        fun h => absurd h hnv, fun _ => hb, fun _ => rfl, fun _ h => absurd hc h⟩
      · intro _ _
        dsimp only
        rw [hoff, List.take_zero]
      · rintro (h | h)
        · exact hpre h
        · exact absurd h hnv
    rw [reserveIframeBuf]
    split
    · split
      · exact hreading _ _
      · exact hreading _ _
    · exact hreading _ _
  · rename_i hc
    have hstate : (if s.checkDataRecvAllowed (getUint32 s.iframe.headbuf) then InboundState.payload else .payloadIgn) ≠
        .payloadNv := by split <;> rintro ⟨⟩
    refine ⟨fun h => absurd h hc, fun h => absurd h hstate, ?_, fun h => absurd h hc, fun h => absurd h hc,
      fun h => absurd h hstate,
      fun h => absurd h hstate, fun _ => hb, fun _ => rfl, fun _ _ => ⟨[], rfl, rfl⟩⟩
    rintro (h | h)
    · dsimp only at h
      split at h <;> cases h
    · exact absurd h hstate

variable {frames : List WireFrame} {given : Bytes}

/-- The fields of the frame before its block, then the frame waits for the block. -/
theorem recvPreNv_reading {input : Bytes} {readlen n : Nat} {t : Session} (hle : readlen ≤ input.length) (hn : n ≤ readlen)
    (hread : s.recvPreNv input readlen = (t, input.drop n, readlen-n)) (hf : Follows s.iframe s.hdInflater given frames body)
    (h : Reading P v s.iframe before body es) :
    Reading P v t.iframe before (body ++ input.take n) es ∧ t = {s with iframe := t.iframe} := by
  rw [recvPreNv] at hread
  dsimp only at hread
  by_cases hpre : s.iframe.state = .payloadPreNv
  · obtain ⟨offset, hstart, hoff⟩ := hf.placed.before hpre
    have hc : s.iframe.isCtrl = true := by
      by_contra hc
      rw [blockStart_data hc] at hstart
      cases hstart
    have hbuflen := h.offset (.inl hpre)
    have hoffset : offset = s.iframe.buflen := by
      rw [← blockStart_ctrl hc, hstart] at hbuflen
      exact Option.some.inj hbuflen
    have hbuf := h.buffered hc (.inr hpre)
    have hlen := length_of_take hbuf hf.off
    subst hoffset
    rw [if_pos hpre, hbuflen, Option.getD_some] at hread
    obtain ⟨ht, hrest⟩ := Prod.mk.inj hread
    have hmin : min (s.iframe.buflen-s.iframe.off) readlen = n := by
      have hsub := congrArg Prod.snd hrest
      dsimp only at hsub
      have := Nat.min_le_right (s.iframe.buflen-s.iframe.off) readlen
      omega
    rw [hmin] at ht
    have htake : (input.take n).length = n := by
      rw [List.length_take]
      omega
    have hcopy : (memcpy s.iframe.buf s.iframe.off (input.take n)).take (s.iframe.off+n) = body ++ input.take n := by
      have htaken := memcpy_take (input.take n) hlen
      rw [htake, hbuf] at htaken
      exact htaken
    have hempty := h.empty (by rw [hpre]; rintro ⟨⟩)
    have huntold := h.untold (.inr (.inr hc))
    subst ht
    refine ⟨?_, rfl⟩
    dsimp only
    split
    · rename_i hend
      have hall : (body ++ input.take n).length = s.iframe.buflen := by
        rw [List.length_append, htake, ← hf.off, hend]
      have hnone : blockIn s.iframe.headbuf (body ++ input.take n) = [] := by
        apply blockIn_short
        intro offset' ho
        rw [hstart] at ho
        cases ho
        exact hall.le
      refine ⟨?_, fun _ => ?_, fun _ => hbuflen, by rintro _ ⟨⟩, by rintro _ ⟨⟩, fun _ _ => ?_, fun _ he => ?_,
        fun hx => absurd rfl hx, fun _ => huntold, by rintro ⟨⟩⟩
      · rintro - (hx | hx) <;> cases hx
      · dsimp only
        rw [← hend, hcopy]
        exact (List.take_of_length_le (hall.trans hend.symm).le).symm
      · right
        dsimp only
        rw [hnone, Transducer.run_nil, hempty]
      · -- the inflater has not been called for this frame
        rcases hf.placed.inflating (by rw [hpre]; rintro ⟨⟩) with hx | hx
        · cases hx.symm.trans he
        · cases hx.symm.trans he
    · refine ⟨fun _ _ => hcopy, fun hx => ?_, fun _ => hbuflen, fun _ hx => ?_, fun _ hx => ?_, fun hx => ?_, fun hx => ?_, fun _ => hempty,
        fun _ => huntold, fun hx => ?_⟩
      all_goals
        rw [hpre] at hx
        cases hx
  · rw [if_neg hpre] at hread
    obtain ⟨rfl, hrest⟩ := Prod.mk.inj hread
    have hzero : n = 0 := by
      have hsub := congrArg Prod.snd hrest
      dsimp only at hsub
      omega
    rw [hzero, List.take_zero, List.append_nil]
    exact ⟨h, rfl⟩

/-- A chunk of the block is inflated behind what has been inflated of it. -/
theorem inflateChunk_reading (chunk : Bytes) (hv : s.version = v) (hs : s.iframe.state = .payloadNv) (hok : s.iframe.inflatebuf.Ok)
    (hf : Follows s.iframe s.hdInflater given frames body)
    (h : Reading P v s.iframe (frames.flatMap WireFrame.block) body es) :
    Reading P v {(s.inflateChunk P chunk).iframe with off := s.iframe.off+chunk.length} (frames.flatMap WireFrame.block)
      (body ++ chunk) es := by
  obtain ⟨offset, hstart, hoff⟩ := hf.placed.within hs
  have hc : s.iframe.isCtrl = true := by
    by_contra hc
    rw [blockStart_data hc] at hstart
    cases hstart
  have hbuflen := h.offset (.inr hs)
  have hfields := h.fields hs
  have hblock : blockIn s.iframe.headbuf (body ++ chunk) = blockIn s.iframe.headbuf body ++ chunk :=
    blockIn_append hstart (hf.off ▸ hoff) chunk
  have hfront : (body ++ chunk).take s.iframe.buflen = body.take s.iframe.buflen := by
    apply List.take_append_of_le_length
    rw [← blockStart_ctrl hc, hstart] at hbuflen
    rw [← hf.off, ← Option.some.inj hbuflen]
    exact hoff
  -- the rest of the state does not depend on how the inflater ended
  have hreading : ∀ (buf : Buffer) (errorCode : Option Err),
      (errorCode = none → Transducer.run (P.push v) (frames.flatMap WireFrame.block)
        (blockIn s.iframe.headbuf body ++ chunk) = none ∨ Transducer.run (P.push v) (frames.flatMap WireFrame.block)
        (blockIn s.iframe.headbuf body ++ chunk) = some buf.bytes) →
      (errorCode = some .zlib → Transducer.run (P.push v) (frames.flatMap WireFrame.block)
        (blockIn s.iframe.headbuf body ++ chunk) = none) →
      Reading P v {s.iframe with inflatebuf := buf, errorCode := errorCode, off := s.iframe.off+chunk.length}
        (frames.flatMap WireFrame.block) (body ++ chunk) es := by
    intro buf errorCode hout hnone
    refine ⟨?_, fun _ => ?_, fun _ => hbuflen, fun _ hx => ?_, fun _ hx => ?_, fun _ he => ?_, fun _ he => ?_, fun hx => absurd hs hx,
      fun _ => h.untold (.inr (.inr hc)), fun _ hx => absurd hc hx⟩
    · rintro - (hx | hx)
      · cases hs.symm.trans hx
      · cases hs.symm.trans hx
    · rw [hfront]
      exact hfields
    · cases hs.symm.trans hx
    · cases hs.symm.trans hx
    · rw [hblock]
      exact hout he
    · rw [hblock]
      exact hnone he
  rw [inflateChunk]
  dsimp only
  by_cases he : s.iframe.errorCode = none ∨ s.iframe.errorCode = some .frameTooLarge
  · obtain ⟨hgiven, hinflater⟩ := hf.blocks he
    rw [if_pos he]
    have hbuf : (if s.iframe.errorCode = some .frameTooLarge then bufferReset s.iframe.inflatebuf
        else s.iframe.inflatebuf).Ok ∧ (if s.iframe.errorCode = some .frameTooLarge then bufferReset s.iframe.inflatebuf
        else s.iframe.inflatebuf).capacity = s.iframe.inflatebuf.capacity := by
      split
      · exact ⟨bufferReset_ok _, rfl⟩
      · exact ⟨hok, rfl⟩
    have hsame : s.iframe.errorCode = none → (if s.iframe.errorCode = some .frameTooLarge then
        bufferReset s.iframe.inflatebuf else s.iframe.inflatebuf) = s.iframe.inflatebuf := by
      intro hnone
      rw [hnone]
      rfl
    generalize (if s.iframe.errorCode = some .frameTooLarge then bufferReset s.iframe.inflatebuf
        else s.iframe.inflatebuf) = buf at *
    have hdel := inflateHd_delivers P.toZlib s.version s.host.mem chunk hbuf.1 (hbuf.2.symm ▸ hf.placed.capacity)
      (show s.hdInflater.dead = false by rw [hinflater])
    generalize inflateHd P.toZlib s.version s.host.mem s.hdInflater buf chunk = r at *
    rw [hinflater, hgiven, hv] at hdel
    refine hreading _ _ ?_ ?_
    · intro hnone
      cases hr : r.error with
      | some e =>
        rw [hr] at hnone
        cases hnone
      | none =>
        rw [hr] at hnone
        dsimp only at hnone
        have hnone' : s.iframe.errorCode = none := by
          split at hnone
          · cases hnone
          · exact hnone
        rcases h.inflated hs hnone' with hbefore | hbefore
        · exact .inl (Transducer.run_append_none _ (.inl hbefore))
        rcases hdel.whole hr with hlost | ⟨out, hrun, hbytes⟩
        · exact .inl (Transducer.run_append_none _ (.inr hlost))
        right
        rw [Transducer.run_append_of_some _ hbefore, hrun, hbytes, hsame hnone', List.nil_append]
        rfl
    · intro hz
      cases hr : r.error with
      | some e =>
        rw [hr] at hz
        cases hz
        exact Transducer.run_append_none _ (.inr (hdel.failed hr))
      | none =>
        rw [hr] at hz
        dsimp only at hz
        split at hz
        · cases hz
        · rcases he with he | he
          · cases he.symm.trans hz
          · cases he.symm.trans hz
  · rw [if_neg he]
    refine hreading _ _ (fun hx => absurd (.inl hx) he) ?_
    intro hz
    exact Transducer.run_append_none _ (.inl (h.refused hs hz))

/-- What a chunk of the payload tells the application. -/
def chunkTold (f : InboundFrame) (chunk : Bytes) : List Event :=
  if f.isCtrl ∨ f.state = .payloadIgn then [] else chunkEvents f.headbuf [chunk]

theorem recvChunk_reading (chunk : Bytes) (hv : s.version = v) (hs : s.iframe.state ≠ .head) (hok : s.iframe.inflatebuf.Ok)
    (hf : Follows s.iframe s.hdInflater given frames body)
    (h : Reading P v s.iframe (frames.flatMap WireFrame.block) body es) :
    Reading P v (s.recvChunk P chunk).iframe (frames.flatMap WireFrame.block) (body ++ chunk)
      (es ++ chunkTold s.iframe chunk) ∧ (s.recvChunk P chunk).heard = s.heard ++ chunkTold s.iframe chunk ∧
      (s.recvChunk P chunk).server = s.server ∧ (s.recvChunk P chunk).version = s.version := by
  by_cases hnv : s.iframe.state = .payloadNv
  · obtain ⟨offset, hstart, -⟩ := hf.placed.within hnv
    have hc : s.iframe.isCtrl = true := by
      by_contra hc
      rw [blockStart_data hc] at hstart
      cases hstart
    have hreading := inflateChunk_reading chunk hv hnv hok hf h
    obtain ⟨inflatebuf, errorCode, hi⟩ := inflateChunk_iframe P s chunk
    have hoff : (s.inflateChunk P chunk).iframe.off = s.iframe.off := by
      rw [hi]
    have hsame : (s.inflateChunk P chunk).heard = s.heard ∧ (s.inflateChunk P chunk).server = s.server ∧
        (s.inflateChunk P chunk).version = s.version := by
      rw [inflateChunk]
      dsimp only
      split
      · exact ⟨rfl, rfl, rfl⟩
      · exact ⟨rfl, rfl, rfl⟩
    have htold : chunkTold s.iframe chunk = [] := if_pos (.inl hc)
    rw [htold, List.append_nil, List.append_nil, recvChunk, if_pos hnv]
    dsimp only
    rw [hoff]
    exact ⟨hreading, hsame⟩
  · have hnot : s.iframe.state = .payload ∨ s.iframe.state = .payloadPreNv ∨ s.iframe.state = .payloadIgn := by
      cases hst : s.iframe.state with
      | head => exact absurd hst hs
      | payloadNv => exact absurd hst hnv
      | payload => exact .inl rfl
      | payloadPreNv => exact .inr (.inl rfl)
      | payloadIgn => exact .inr (.inr rfl)
    rw [recvChunk, if_neg hnv]
    dsimp only
    by_cases hign : s.iframe.state = .payloadIgn
    · -- nothing is kept of a frame that is ignored
      have htold : chunkTold s.iframe chunk = [] := if_pos (.inr hign)
      have huntold := h.untold (.inr (.inl hign))
      rw [htold, List.append_nil, List.append_nil, if_pos hign, if_pos hign, ite_self]
      refine ⟨⟨?_, fun hx => absurd hx hnv, h.offset, h.whole, h.ignored, fun hx => absurd hx hnv, fun hx => absurd hx hnv, h.empty,
        h.untold, fun hx => ?_⟩, rfl, rfl, rfl⟩
      · rintro - (hx | hx)
        · cases hign.symm.trans hx
        · cases hign.symm.trans hx
      · cases hign.symm.trans hx
    · rw [if_neg hign, if_neg hign]
      by_cases hc : s.iframe.isCtrl = true
      · have htold : chunkTold s.iframe chunk = [] := if_pos (.inl hc)
        have hbuf := h.buffered hc (by
          rcases hnot with hx | hx | hx
          · exact .inl hx
          · exact .inr hx
          · exact absurd hx hign)
        have hcopy := memcpy_take chunk (length_of_take hbuf hf.off)
        rw [hbuf] at hcopy
        rw [htold, List.append_nil, List.append_nil, if_pos hc]
        exact ⟨⟨fun _ _ => hcopy, fun hx => absurd hx hnv, h.offset, h.whole, h.ignored, fun hx => absurd hx hnv,
          fun hx => absurd hx hnv, h.empty, h.untold, fun _ hx => absurd hc hx⟩, rfl, rfl, rfl⟩
      · have htold : chunkTold s.iframe chunk = chunkEvents s.iframe.headbuf [chunk] :=
          if_neg (fun hx => hx.elim hc hign)
        have hpayload : s.iframe.state = .payload := by
          rcases hnot with hx | hx | hx
          · exact hx
          · obtain ⟨offset, hstart, -⟩ := hf.placed.before hx
            rw [blockStart_data hc] at hstart
            cases hstart
          · exact absurd hx hign
        obtain ⟨pieces, hpieces, hes⟩ := h.chunks hpayload hc
        rw [htold, if_neg hc]
        refine ⟨⟨fun hx => absurd hx hc, fun hx => absurd hx hnv, h.offset, fun hx => absurd hx hc, fun hx => absurd hx hc,
          fun hx => absurd hx hnv, fun hx => absurd hx hnv, h.empty, ?_, fun _ _ => ⟨pieces ++ [chunk], ?_, ?_⟩⟩, heard_hear s rfl, rfl, rfl⟩
        · rintro (hx | hx | hx)
          · exact absurd hx hs
          · exact absurd hx hign
          · exact absurd hx hc
        · simp [hpieces]
        · rw [hes]
          simp [chunkEvents, emit]

/-- A DATA frame has no block, so that it is read into the buffer or skipped. -/
theorem placed_data {f : InboundFrame} (hf : f.BlockPlaced) (hs : f.state ≠ .head) (hc : f.isCtrl ≠ true) :
    f.state = .payload ∨ f.state = .payloadIgn := by
  cases hst : f.state with
  | head => exact absurd hst hs
  | payload => exact .inl rfl
  | payloadIgn => exact .inr rfl
  | payloadPreNv =>
    obtain ⟨offset, hstart, -⟩ := hf.before hst
    rw [blockStart_data hc] at hstart
    cases hstart
  | payloadNv =>
    obtain ⟨offset, hstart, -⟩ := hf.within hst
    rw [blockStart_data hc] at hstart
    cases hstart

/-- Of a frame that is being read only the chunks of DATA are told. -/
theorem Reading.told {f : InboundFrame} (hf : f.BlockPlaced) (h : Reading P v f before body es) : es = [] ∨
    f.state ≠ .head ∧ f.isCtrl = false ∧ ∃ pieces : List Bytes, pieces.flatten = body ∧ es = chunkEvents f.headbuf pieces := by
  by_cases hs : f.state = .head
  · exact .inl (h.untold (.inl hs))
  · by_cases hc : f.isCtrl = true
    · exact .inl (h.untold (.inr (.inr hc)))
    · rcases placed_data hf hs hc with hpayload | hign
      · exact .inr ⟨hs, Bool.eq_false_of_not_eq_true hc, h.chunks hpayload hc⟩
      · exact .inl (h.untold (.inr (.inl hign)))

end

end Spdylay.Peers
