import Spdylay.Library.Framing
import Spdylay.Machine.FrameEnds
import Spdylay.Machine.ReceiveBounds
import Spdylay.Protocol.Shutdown
import Spdylay.Wire.InflateStream

/-! The name/value blocks of the frames on the wire and the bytes the inflater is given.
Whatever becomes of a frame, its block goes through the inflater. -/
namespace Spdylay
open Library Machine

def payloadLength (head : Bytes) : Nat := getUint32 (head.drop 4) % 16777216

abbrev WireFrame := Framing.Frame headLen payloadLength

/-- Where the name/value block starts in a payload. Other frames than SYN_STREAM,
SYN_REPLY and HEADERS have none, nor has a SYN_REPLY or HEADERS of an unknown version. -/
def blockStart (head : Bytes) : Option Nat :=
  if frameIsCtrlFrame (head.getD 0 0) then
    match FrameType.ofNum (getUint16 (head.drop 2)) with
    | some .synStream => some 10
    | some .synReply | some .headers =>
      if getUint16 head % 32768 = 2 then some 6 else if getUint16 head % 32768 = 3 then some 4 else none
    | _ => none
  else none

def blockIn (head payload : Bytes) : Bytes :=
  match blockStart head with
  | some offset => payload.drop offset
  | none => []

/-- The compressed name/value block of a frame. -/
def WireFrame.block (f : WireFrame) : Bytes := blockIn f.head f.body

theorem blockIn_short {head payload : Bytes} (h : ∀ offset, blockStart head = some offset → payload.length ≤ offset) :
    blockIn head payload = [] := by
  rw [blockIn]
  cases hb : blockStart head with
  | none => rfl
  | some offset => exact List.drop_eq_nil_iff.mpr (h offset hb)

theorem blockIn_nil (head : Bytes) : blockIn head [] = [] := blockIn_short (fun _ _ => Nat.zero_le _)

/-- Behind its start a block grows with the payload. -/
theorem blockIn_append {head payload : Bytes} {offset : Nat} (h : blockStart head = some offset)
    (hle : offset ≤ payload.length) (chunk : Bytes) : blockIn head (payload ++ chunk) = blockIn head payload ++ chunk := by
  rw [blockIn,blockIn,h]
  exact List.drop_append_of_le_length hle

theorem blockStart_ctrl {f : InboundFrame} (hc : f.isCtrl = true) : blockStart f.headbuf = f.payloadNvOffset := by
  rw [InboundFrame.isCtrl] at hc
  rw [blockStart,if_pos hc,InboundFrame.payloadNvOffset]
  cases FrameType.ofNum (getUint16 (f.headbuf.drop 2)) with
  | none => rfl
  | some type =>
    have hsplit : (if getUint16 f.headbuf % 32768 = 2 then some 6
          else if getUint16 f.headbuf % 32768 = 3 then some 4 else none) =
        (if getUint16 f.headbuf % 32768 = 2 then some 14
          else if getUint16 f.headbuf % 32768 = 3 then some 12 else none).map (· - headLen) := by
      split_ifs <;> rfl
    cases type with
    | synStream => rfl
    | synReply => exact hsplit
    | headers => exact hsplit
    | _ => rfl

theorem blockStart_data {f : InboundFrame} (hc : f.isCtrl ≠ true) : blockStart f.headbuf = none := by
  rw [InboundFrame.isCtrl] at hc
  rw [blockStart,if_neg hc]

/-! What the inflater is given. -/

namespace Session

/-- The part of a chunk that the inflater is given. -/
def chunkInflated (s : Session) (chunk : Bytes) : Bytes :=
  if s.iframe.state = .payloadNv ∧ (s.iframe.errorCode = none ∨ s.iframe.errorCode = some .frameTooLarge) then chunk
  else []

def payloadInflated (s : Session) (input : Bytes) : Bytes :=
  if 0 < s.iframe.payloadlen-s.iframe.off ∧ input = [] then []
  else
    let p := s.recvPreNv input (min input.length (s.iframe.payloadlen-s.iframe.off))
    p.1.chunkInflated (p.2.1.take p.2.2)

/-- The bytes the inflater is given in a pass of the receive loop. -/
def iterInflated (P : Platform) (s : Session) (input : Bytes) : Bytes :=
  match s.payloadStart P input with
  | none => []
  | some (s1, input1) => s1.payloadInflated input1

/-- The session after a number of passes that did not end the loop, the input that is
left and the bytes the inflater has been given. -/
def recvPasses (P : Platform) (s : Session) (input : Bytes) : Nat → Option (Session × Bytes × Bytes)
  | 0 => some (s,input,[])
  | n+1 =>
    match s.recvPasses P input n with
    | none => none
    | some (t, rest, given) =>
      let i := t.recvIter P rest
      match i.2.2 with
      | some _ => none
      | none => some (i.1,i.2.1,given ++ t.iterInflated P rest)

def loopInflated (P : Platform) (s : Session) : Nat → Bytes → Bytes
  | 0, _ => []
  | fuel+1, input =>
    let i := s.recvIter P input
    s.iterInflated P input ++
      match i.2.2 with
      | some _ => []
      | none => i.1.loopInflated P fuel i.2.1

def callInflated (P : Platform) (s : Session) : Op → Bytes
  | .memRecv input => s.loopInflated P (recvFuel input) input
  | _ => []

def runInflated (P : Platform) (s : Session) : List Op → Bytes
  | [] => []
  | op :: ops => s.callInflated P op ++ (s.step P op).runInflated P ops

end Session

/-- The bytes given to the receiving calls of a run. -/
def receivedBytes : List Op → Bytes
  | [] => []
  | .memRecv input :: ops => input ++ receivedBytes ops
  | _ :: ops => receivedBytes ops

/-! The inflater in step with the wire. -/

/-- Reading has not been given up. -/
def InboundFrame.Inflating (f : InboundFrame) : Prop := f.errorCode = none ∨ f.errorCode = some .frameTooLarge

/-- Where the block lies for the state the frame is read in. -/
structure InboundFrame.BlockPlaced (f : InboundFrame) : Prop where
  payloadlen : f.state ≠ .head → f.payloadlen = payloadLength f.headbuf
  before : f.state = .payloadPreNv → ∃ offset, blockStart f.headbuf = some offset ∧ f.off ≤ offset
  within : f.state = .payloadNv → ∃ offset, blockStart f.headbuf = some offset ∧ offset ≤ f.off
  without : f.state = .payload ∨ f.state = .payloadIgn →
    ∀ offset, blockStart f.headbuf = some offset → f.payloadlen ≤ offset
  inflating : f.state ≠ .payloadNv → f.Inflating
  capacity : 0 < f.inflatebuf.capacity

/-- The frames and a part of the next one have been read, and the inflater has been given
their blocks. -/
structure Follows (f : InboundFrame) (inflater : Inflater) (given : Bytes) (frames : List WireFrame) (body : Bytes) :
    Prop where
  placed : f.BlockPlaced
  off : f.off = body.length
  blocks : f.Inflating → given = frames.flatMap WireFrame.block ++ blockIn f.headbuf body ∧ inflater = ⟨given,false⟩

namespace Session
variable {P : Platform} {s : Session} {given body : Bytes} {frames : List WireFrame}

theorem takeHead_follows (bytes : Bytes) (hs : s.iframe.state = .head) (h : Follows s.iframe s.hdInflater given frames []) :
    Follows (s.takeHead bytes).iframe (s.takeHead bytes).hdInflater given frames [] := by
  have hstate : ∀ state : InboundState, state ≠ .head → (s.takeHead bytes).iframe.state ≠ state := by
    rintro _ hne rfl
    exact hne hs
  refine ⟨⟨fun hb => absurd hs hb,fun hp => absurd hp (hstate _ nofun),fun hp => absurd hp (hstate _ nofun),?_,
    h.placed.inflating,h.placed.capacity⟩,h.off,?_⟩
  · rintro (hp | hp)
    · exact absurd hp (hstate _ nofun)
    · exact absurd hp (hstate _ nofun)
  · intro he
    have hblocks := h.blocks he
    rw [blockIn_nil] at hblocks ⊢
    exact hblocks

/-- A control frame of a type with a block is buffered up to the block, or to its end. -/
theorem ctrlPayload_placed (s : Session) (f : InboundFrame) (len : Nat) (hf : f.Inflating) :
    (s.ctrlPayload f len).1 ≠ .head ∧ (s.ctrlPayload f len).1 ≠ .payloadNv ∧
      ((s.ctrlPayload f len).1 = .payloadPreNv → ∃ offset, f.payloadNvOffset = some offset) ∧
      ((s.ctrlPayload f len).1 = .payload ∨ (s.ctrlPayload f len).1 = .payloadIgn →
        ∀ offset, f.payloadNvOffset = some offset → len ≤ offset) ∧
      ((s.ctrlPayload f len).2.2 = none ∨ (s.ctrlPayload f len).2.2 = some .frameTooLarge) := by
  rw [ctrlPayload]
  cases hoffset : f.payloadNvOffset with
  | none =>
    dsimp only
    split
    · exact ⟨by rintro ⟨⟩,by rintro ⟨⟩,by rintro ⟨⟩,by rintro _ _ ⟨⟩,.inr rfl⟩
    · exact ⟨by rintro ⟨⟩,by rintro ⟨⟩,by rintro ⟨⟩,by rintro _ _ ⟨⟩,hf⟩
  | some offset =>
    dsimp only
    split
    · refine ⟨by rintro ⟨⟩,by rintro ⟨⟩,fun _ => ⟨offset,rfl⟩,?_,?_⟩
      · rintro (hp | hp)
        · cases hp
        · cases hp
      · dsimp only
        split
        · exact .inr rfl
        · exact hf
    · rename_i hle
      refine ⟨by rintro ⟨⟩,by rintro ⟨⟩,by rintro ⟨⟩,?_,hf⟩
      rintro - _ ⟨⟩
      exact not_lt.mp hle

theorem startPayload_follows (hs : s.iframe.state = .head) (h : Follows s.iframe s.hdInflater given frames []) :
    Follows (s.startPayload P).1.iframe (s.startPayload P).1.hdInflater given frames [] := by
  have hoff : s.iframe.off = 0 := h.off
  have hinflating : s.iframe.Inflating := h.placed.inflating (by rw [hs]; exact nofun)
  obtain ⟨hgiven,hinflater⟩ := h.blocks hinflating
  rw [blockIn_nil] at hgiven
  rw [startPayload]
  dsimp only
  rw [← payloadLength]
  split
  · rename_i hc
    have hstart := blockStart_ctrl hc
    obtain ⟨h1,h2,h3,h4,h5⟩ := s.ctrlPayload_placed s.iframe (payloadLength s.iframe.headbuf) hinflating
    generalize s.ctrlPayload s.iframe (payloadLength s.iframe.headbuf) = p at *
    rw [← hstart] at h3 h4
    have hfollows : ∀ (buf : Bytes) (bufmax : Nat),
        Follows ⟨p.1,s.iframe.headbuf,buf,bufmax,p.2.1,payloadLength s.iframe.headbuf,s.iframe.off,s.iframe.inflatebuf,
          p.2.2⟩ s.hdInflater given frames [] := by
      intro buf bufmax
      refine ⟨⟨fun _ => rfl,?_,fun hp => absurd hp h2,h4,fun _ => h5,h.placed.capacity⟩,h.off,?_⟩
      · intro hp
        obtain ⟨offset,ho⟩ := h3 hp
        exact ⟨offset,ho,hoff.le.trans (Nat.zero_le _)⟩
      · intro _
        rw [blockIn_nil]
        exact ⟨hgiven,hinflater⟩
    rw [reserveIframeBuf]
    split
    · split
      · exact hfollows _ _
      · exact hfollows _ _
    · exact hfollows _ _
  · rename_i hc
    have hnone := blockStart_data hc
    refine ⟨⟨fun _ => rfl,?_,?_,?_,fun _ => hinflating,h.placed.capacity⟩,h.off,?_⟩
    · intro hp
      dsimp only at hp
      split at hp <;> cases hp
    · intro hp
      dsimp only at hp
      split at hp <;> cases hp
    · intro _ offset ho
      rw [hnone] at ho
      cases ho
    · intro _
      rw [blockIn_nil]
      exact ⟨hgiven,hinflater⟩

/-- The part before the block. What is left of the pass then belongs to the block, or
nothing is left. -/
theorem recvPreNv_follows {input : Bytes} {readlen : Nat} (hle : readlen ≤ input.length)
    (h : Follows s.iframe s.hdInflater given frames body) : ∃ n ≤ readlen, ∃ t : Session,
      s.recvPreNv input readlen = (t,input.drop n,readlen-n) ∧ Follows t.iframe t.hdInflater given frames (body ++ input.take n) ∧
      (t.iframe.state = .payloadPreNv → readlen-n = 0) := by
  rw [recvPreNv]
  dsimp only
  by_cases hpre : s.iframe.state = .payloadPreNv
  · obtain ⟨offset,hstart,hoff⟩ := h.placed.before hpre
    have hc : s.iframe.isCtrl = true := by
      by_contra hc
      rw [blockStart_data hc] at hstart
      cases hstart
    have hnv := (blockStart_ctrl hc).symm.trans hstart
    have hinflating : s.iframe.Inflating := h.placed.inflating (by rw [hpre]; rintro ⟨⟩)
    have hpayloadlen := h.placed.payloadlen (by rw [hpre]; rintro ⟨⟩)
    have hn := Nat.min_le_right (offset-s.iframe.off) readlen
    have hn' := Nat.min_le_left (offset-s.iframe.off) readlen
    have hall : s.iframe.off+min (offset-s.iframe.off) readlen ≠ offset →
        min (offset-s.iframe.off) readlen = readlen := by omega
    rw [if_pos hpre,hnv,Option.getD_some]
    generalize min (offset-s.iframe.off) readlen = n at *
    have hlen : (body ++ input.take n).length = s.iframe.off+n := by
      rw [List.length_append,List.length_take,h.off]
      omega
    -- none of these bytes belongs to the block
    have hblock : ∀ part : Bytes, part.length ≤ offset → blockIn s.iframe.headbuf part = [] := by
      intro part hpart
      apply blockIn_short
      intro offset' ho
      rw [hstart] at ho
      cases ho
      exact hpart
    have hblocks : given = frames.flatMap WireFrame.block ++ blockIn s.iframe.headbuf (body ++ input.take n) ∧
        s.hdInflater = ⟨given,false⟩ := by
      have hold := h.blocks hinflating
      rw [hblock body (h.off ▸ hoff)] at hold
      rw [hblock _ (by omega)]
      exact hold
    refine ⟨n,hn,_,rfl,?_⟩
    split
    · rename_i hend
      refine ⟨⟨⟨fun _ => hpayloadlen,by rintro ⟨⟩,fun _ => ⟨offset,hstart,hend.ge⟩,?_,fun hp => absurd rfl hp,
        h.placed.capacity⟩,hlen.symm,fun _ => hblocks⟩,by rintro ⟨⟩⟩
      rintro (hp | hp)
      · cases hp
      · cases hp
    · rename_i hmid
      refine ⟨⟨⟨fun _ => hpayloadlen,fun _ => ⟨offset,hstart,?_⟩,?_,?_,fun _ => hinflating,h.placed.capacity⟩,
        hlen.symm,fun _ => hblocks⟩,?_⟩
      · dsimp only
        omega
      · intro hp
        rw [hpre] at hp
        cases hp
      · intro hp
        rw [hpre] at hp
        rcases hp with hp | hp
        · cases hp
        · cases hp
      · intro _
        rw [hall hmid,Nat.sub_self]
  · rw [if_neg hpre]
    refine ⟨0,Nat.zero_le _,s,rfl,?_,fun hp => absurd hp hpre⟩
    rw [List.take_zero,List.append_nil]
    exact h

theorem inflateChunk_follows (chunk : Bytes) (hs : s.iframe.state = .payloadNv) (hok : s.iframe.inflatebuf.Ok)
    (h : Follows s.iframe s.hdInflater given frames body) :
    Follows {(s.inflateChunk P chunk).iframe with off := s.iframe.off+chunk.length} (s.inflateChunk P chunk).hdInflater
      (given ++ s.chunkInflated chunk) frames (body ++ chunk) := by
  obtain ⟨offset,hstart,hoff⟩ := h.placed.within hs
  have hpayloadlen := h.placed.payloadlen (by rw [hs]; exact nofun)
  have hlen : s.iframe.off+chunk.length = (body ++ chunk).length := by
    rw [List.length_append,h.off]
  have hplaced : ∀ (buf : Buffer) (errorCode : Option Err), 0 < buf.capacity →
      InboundFrame.BlockPlaced {s.iframe with inflatebuf := buf, errorCode := errorCode, off := s.iframe.off+chunk.length} := by
    intro buf errorCode hcap
    refine ⟨fun _ => hpayloadlen,?_,fun _ => ⟨offset,hstart,hoff.trans (Nat.le_add_right _ _)⟩,?_,
      fun hp => absurd hs hp,hcap⟩
    · intro hp
      rw [hs] at hp
      cases hp
    · intro hp
      rw [hs] at hp
      rcases hp with hp | hp
      · cases hp
      · cases hp
  rw [inflateChunk]
  dsimp only
  by_cases he : s.iframe.errorCode = none ∨ s.iframe.errorCode = some .frameTooLarge
  · obtain ⟨hgiven,hinflater⟩ := h.blocks he
    have hchunk : s.chunkInflated chunk = chunk := if_pos ⟨hs,he⟩
    rw [if_pos he,hchunk]
    have hbuf : (if s.iframe.errorCode = some .frameTooLarge then bufferReset s.iframe.inflatebuf
        else s.iframe.inflatebuf).Ok ∧ (if s.iframe.errorCode = some .frameTooLarge then bufferReset s.iframe.inflatebuf
        else s.iframe.inflatebuf).capacity = s.iframe.inflatebuf.capacity := by
      split
      · exact ⟨bufferReset_ok _,rfl⟩
      · exact ⟨hok,rfl⟩
    generalize (if s.iframe.errorCode = some .frameTooLarge then bufferReset s.iframe.inflatebuf
        else s.iframe.inflatebuf) = buf at *
    have hdel := inflateHd_delivers P.toZlib s.version s.host.mem chunk hbuf.1 (hbuf.2.symm ▸ h.placed.capacity)
      (show s.hdInflater.dead = false by rw [hinflater])
    have herror := (inflateHd_ok P.toZlib s.version s.host.mem s.hdInflater buf chunk hbuf.1).2
    generalize inflateHd P.toZlib s.version s.host.mem s.hdInflater buf chunk = r at *
    refine ⟨hplaced _ _ (by rw [hdel.capacity,hbuf.2]; exact h.placed.capacity),hlen,?_⟩
    intro hinflating
    rw [InboundFrame.Inflating] at hinflating
    dsimp only at hinflating ⊢
    cases hr : r.error with
    | none =>
      rw [blockIn_append hstart (h.off ▸ hoff),← List.append_assoc,← hgiven]
      refine ⟨rfl,?_⟩
      rw [hdel.taken hr,hinflater]
    | some e =>
      -- no error of the inflater is that of a frame that is too large
      rw [hr] at hinflating
      rcases herror e hr with rfl | rfl | rfl
      · rcases hinflating with hx | hx <;> cases hx
      · rcases hinflating with hx | hx <;> cases hx
      · rcases hinflating with hx | hx <;> cases hx
  · rw [if_neg he]
    exact ⟨hplaced _ _ h.placed.capacity,hlen,fun hx => absurd hx he⟩

theorem recvChunk_follows (chunk : Bytes) (hs : s.iframe.state ≠ .head) (hok : s.iframe.inflatebuf.Ok)
    (hend : s.iframe.state = .payloadPreNv → chunk = []) (hle : s.iframe.off+chunk.length ≤ s.iframe.payloadlen)
    (h : Follows s.iframe s.hdInflater given frames body) :
    Follows (s.recvChunk P chunk).iframe (s.recvChunk P chunk).hdInflater (given ++ s.chunkInflated chunk) frames
      (body ++ chunk) := by
  by_cases hnv : s.iframe.state = .payloadNv
  · have hinf := inflateChunk_follows (P := P) chunk hnv hok h
    have hoff : (s.inflateChunk P chunk).iframe.off = s.iframe.off := by
      obtain ⟨_,_,hi⟩ := inflateChunk_iframe P s chunk
      rw [hi]
    rw [recvChunk,if_pos hnv]
    dsimp only
    rw [hoff]
    exact hinf
  · have hnone : s.chunkInflated chunk = [] := if_neg (fun hx => hnv hx.1)
    have hlen : s.iframe.off+chunk.length = (body ++ chunk).length := by
      rw [List.length_append,h.off]
    have hshort : ∀ offset, blockStart s.iframe.headbuf = some offset → s.iframe.off+chunk.length ≤ offset := by
      intro offset hstart
      cases hst : s.iframe.state with
      | head => exact absurd hst hs
      | payloadNv => exact absurd hst hnv
      | payloadPreNv =>
        obtain ⟨offset',hstart',hoff⟩ := h.placed.before hst
        rw [hstart] at hstart'
        cases hstart'
        rw [hend hst]
        exact hoff
      | payload => exact hle.trans (h.placed.without (.inl hst) offset hstart)
      | payloadIgn => exact hle.trans (h.placed.without (.inr hst) offset hstart)
    have hbefore : blockIn s.iframe.headbuf body = [] := by
      apply blockIn_short
      intro offset hstart
      rw [← h.off]
      exact (Nat.le_add_right _ _).trans (hshort offset hstart)
    have hafter : blockIn s.iframe.headbuf (body ++ chunk) = [] := by
      apply blockIn_short
      rw [← hlen]
      exact hshort
    have hfollows : ∀ buf : Bytes, Follows {s.iframe with buf := buf, off := s.iframe.off+chunk.length} s.hdInflater given
        frames (body ++ chunk) := by
      intro buf
      refine ⟨⟨h.placed.payloadlen,?_,fun hp => absurd hp hnv,h.placed.without,h.placed.inflating,h.placed.capacity⟩,
        hlen,?_⟩
      · intro hp
        rw [hend hp]
        exact h.placed.before hp
      · intro hi
        have hold := h.blocks hi
        rw [hbefore] at hold
        rw [hafter]
        exact hold
    rw [recvChunk,if_neg hnv,hnone,List.append_nil]
    dsimp only
    split
    · split
      · exact hfollows _
      · exact hfollows _
    · split
      · exact hfollows _
      · exact hfollows _

/-! The end of a frame. -/

/-- Processing a frame neither reads nor inflates. -/
theorem processFrame_reading (P : Platform) (s : Session) :
    let r := if s.iframe.isCtrl then s.processCtrlFrame P else s.processDataFrame
    r.1.iframe = s.iframe ∧ r.1.hdInflater = s.hdInflater := by
  dsimp only
  split
  · obtain ⟨g,h⟩ := dispatchCtrlFrame_receives P s cleanGhost
    have hread := h.steps.reading_eq
    rw [processCtrlFrame,onlyFatal_fst]
    exact ⟨congrArg Prod.fst hread,congrArg Prod.snd hread⟩
  · have hread := (onDataReceived_steps s (s.iframe.headbuf.getD 4 0).toNat
      (getUint32 (s.iframe.headbuf.drop 4) % 16777216) (getStreamId s.iframe.headbuf) cleanGhost).inSteps.reading_eq
    rw [processDataFrame,onlyFatal_fst]
    exact ⟨congrArg Prod.fst hread,congrArg Prod.snd hread⟩

theorem failSession_failed (s : Session) (statusCode : Nat) : (s.failSession statusCode).1.goawayFailOnSend = true :=
  (Protocol.Steps.later (Protocol.submitGoaway_moves {s with goawayFailOnSend := true} statusCode none).steps).2 rfl

/-- A frame whose block could not be inflated is not parsed. -/
theorem dispatchCtrlFrame_uninflated {offset : Nat} {e : Err} (hoffset : s.iframe.payloadNvOffset = some offset)
    (he : s.iframe.errorCode = some e) (hread : readError e) (hne : e ≠ .frameTooLarge) :
    ∃ type, s.dispatchCtrlFrame P = s.handleUnparsed type e := by
  have hunparsed : ∀ (type : Nat) (streamId : Int) (f : Frame),
      s.handleHeadersError type streamId f e = s.handleUnparsed type e := by
    intro type streamId f
    rw [handleHeadersError,if_neg]
    rintro (rfl | rfl)
    · rcases hread with hx | hx | hx <;> cases hx
    · exact hne rfl
  have hsyn : s.parseSynStream P = (s,⟨frameUnpackCtrlHd s.iframe.headbuf,0,0,0,0,[]⟩,some e) := by
    rw [parseSynStream,he]
    rcases hread with rfl | rfl | rfl
    · exact absurd rfl hne
    · rfl
    · rfl
  have hheaders : ∀ type, s.parseStreamHeaders P type = (s,⟨frameUnpackCtrlHd s.iframe.headbuf,0,[]⟩,some e) := by
    intro type
    rw [parseStreamHeaders,he]
    rcases hread with rfl | rfl | rfl
    · exact absurd rfl hne
    · rfl
    · rfl
  rw [InboundFrame.payloadNvOffset] at hoffset
  rw [dispatchCtrlFrame]
  cases htype : FrameType.ofNum (getUint16 (s.iframe.headbuf.drop 2)) with
  | none =>
    rw [htype] at hoffset
    cases hoffset
  | some type =>
    rw [htype] at hoffset
    cases type with
    | synStream =>
      dsimp only
      rw [processSynStream,hsyn]
      exact ⟨_,hunparsed _ _ _⟩
    | synReply =>
      dsimp only
      rw [processSynReply,hheaders]
      exact ⟨_,hunparsed _ _ _⟩
    | headers =>
      dsimp only
      rw [processHeaders,hheaders]
      exact ⟨_,hunparsed _ _ _⟩
    | _ => cases hoffset

/-- A frame that the inflater has refused fails the session when it is complete. -/
theorem endFrame_uninflated (hc : s.iframe.isCtrl = true) {offset : Nat} (hoffset : s.iframe.payloadNvOffset = some offset)
    (herr : ∀ e, s.iframe.errorCode = some e → inboundError e) (hinf : ¬s.iframe.Inflating)
    (hfull : s.iframe.payloadlen = s.iframe.off) (hend : (s.endFrame P).2 = none) :
    (s.endFrame P).1.goawayFailOnSend = true := by
  cases he : s.iframe.errorCode with
  | none => exact absurd (.inl he) hinf
  | some e =>
    have hne : e ≠ .frameTooLarge := by
      rintro rfl
      exact hinf (.inr he)
    have hlive := endFrame_live hend
    have hread := readError_of_live herr hlive e he
    obtain ⟨type,hdispatch⟩ := dispatchCtrlFrame_uninflated (P := P) hoffset he hread hne
    rw [endFrame,if_neg hlive,if_pos hfull,if_pos hc,processCtrlFrame,hdispatch] at hend ⊢
    rcases hread with rfl | rfl | rfl
    · exact absurd rfl hne
    · have hfailed : (onlyFatal (s.handleUnparsed type .zlib)).1.goawayFailOnSend = true := by
        rw [onlyFatal_fst]
        exact failSession_failed (s.handleParseError type .zlib) goawayProtocolError
      dsimp only at hend ⊢
      cases hr : (onlyFatal (s.handleUnparsed type .zlib)).2 with
      | none => exact hfailed
      | some e => exact hfailed
    · cases hend

theorem endFrame_follows (hf : FrameOk s.iframe) (hs : s.iframe.state ≠ .head)
    (hfull : s.iframe.payloadlen = s.iframe.off) (h : Follows s.iframe s.hdInflater given frames body)
    (hend : (s.endFrame P).2 = none) : (s.endFrame P).1.goawayFailOnSend = true ∨
      ∃ frame : WireFrame, frame.bytes = s.iframe.headbuf ++ body ∧ (s.endFrame P).1.iframe = s.iframe.reset ∧
        Follows (s.endFrame P).1.iframe (s.endFrame P).1.hdInflater given (frames ++ [frame]) [] := by
  by_cases hinf : s.iframe.Inflating
  · right
    have hlen : body.length = payloadLength s.iframe.headbuf := by
      rw [← h.off,← hfull,h.placed.payloadlen hs]
    obtain ⟨hread,hstream⟩ := processFrame_reading P s
    have hlive := endFrame_live hend
    rw [endFrame,if_neg hlive,if_pos hfull] at hend ⊢
    dsimp only at hend hread hstream ⊢
    generalize (if s.iframe.isCtrl then s.processCtrlFrame P else s.processDataFrame) = r at *
    obtain ⟨t,e⟩ := r
    cases e with
    | some e => cases hend
    | none =>
      dsimp only at hread hstream ⊢
      refine ⟨⟨s.iframe.headbuf,body,(hf.body hs).1,hlen⟩,rfl,congrArg InboundFrame.reset hread,?_⟩
      rw [emit]
      dsimp only
      rw [hread,hstream]
      refine ⟨⟨fun hb => absurd rfl hb,by rintro ⟨⟩,by rintro ⟨⟩,?_,fun _ => .inl rfl,h.placed.capacity⟩,rfl,?_⟩
      · rintro (hp | hp)
        · cases hp
        · cases hp
      · intro _
        obtain ⟨hgiven,hinflater⟩ := h.blocks hinf
        refine ⟨?_,hinflater⟩
        rw [blockIn_nil,List.append_nil,List.flatMap_append,List.flatMap_singleton,hgiven]
        rfl
  · left
    have hnv : s.iframe.state = .payloadNv := by
      by_contra hnv
      exact hinf (h.placed.inflating hnv)
    obtain ⟨offset,hstart,-⟩ := h.placed.within hnv
    have hc : s.iframe.isCtrl = true := by
      by_contra hc
      rw [blockStart_data hc] at hstart
      cases hstart
    exact endFrame_uninflated hc ((blockStart_ctrl hc).symm.trans hstart) hf.error hinf hfull hend

end Session

end Spdylay
