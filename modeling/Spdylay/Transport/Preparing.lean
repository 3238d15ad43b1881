import Spdylay.Transport.Machine

/-! What the preparation of an item does to the sending side: it may make room for the
frame, and for a frame with a name/value block the block goes through the compressor
before it is known whether the frame can be sent. -/
namespace Spdylay.Transport
open Library Session

variable {P : Platform}

/-- The list of names and values of a frame, with the version that its packing asks. -/
def headerList : Frame → Option (Nat × Nv)
  | .synStream f => some (f.hd.version,f.nv)
  | .synReply f => some (f.hd.version,f.nv)
  | .headers f => some (f.hd.version,f.nv)
  | _ => none

/-- A packed list, as much of it as the count of its bytes says. -/
def packedBlock (nv : Nv) (lenSize : Nat) : Bytes := (framePackNv nv lenSize).take (frameCountNvSpace nv lenSize)

/-- The block that the preparation of a frame gives to the compressor. -/
def blockOf (P : Platform) (s : Session) (f : Frame) : Option Bytes :=
  (headerList f).map (fun h => packedBlock (s.wireNv P h.2) (frameGetLenSize h.1))

/-- The frame may be sent, and no CREDENTIAL has to be queued before it: its list goes to
the compressor. -/
def packs (s : Session) : Frame → Prop
  | .synStream f => s.predicateSynStreamSend f = none ∧
      (s.version = .spdy3 ∧ s.credentialCallbacks ∧ !s.server → (s.prepCredential f).2 ≠ .error .credentialPending)
  | .synReply f => s.predicateSynReplySend f.streamId = none
  | .headers f => s.predicateHeadersSend f.streamId = none
  | _ => False

/-- The block has gone through the compressor, and nothing has been written. -/
def Squeezed (P : Platform) (block : Bytes) (s' s : Session) : Prop :=
  (∃ s1, Room P s1 s ∧ s'.sendSide = s1.sendSide.compress block) ∧ Feeds P s' s

theorem Squeezed.version {block : Bytes} {s' s : Session} (h : Squeezed P block s' s) : s'.version = s.version := by
  obtain ⟨⟨s1,hr,hs⟩,-⟩ := h
  exact (congrArg SendSide.version hs).trans hr.version

theorem Squeezed.beside {block : Bytes} {s2 s1 s : Session} (h' : Beside P s2 s1) (h : Squeezed P block s1 s) :
    Squeezed P block s2 s := by
  have hv := h.version
  obtain ⟨⟨s0,hr,hs⟩,hf⟩ := h
  exact ⟨⟨s0,hr,h'.1.trans hs⟩,h'.2.trans hf hv⟩

theorem Squeezed.after {block : Bytes} {s2 s1 s : Session} (h' : Squeezed P block s2 s1) (h : Room P s1 s) :
    Squeezed P block s2 s := by
  obtain ⟨⟨s0,hr,hs⟩,hf⟩ := h'
  exact ⟨⟨s0,hr.trans h,hs⟩,hf.trans h.2 h.version⟩

theorem Room.hdDeflater {s' s : Session} (h : Room P s' s) : s'.hdDeflater = s.hdDeflater := by
  obtain ⟨⟨n,-,hs⟩,-⟩ := h
  exact congrArg SendSide.hdDeflater hs

theorem Room.active {s' s : Session} (h : Room P s' s) : s'.aob.item = s.aob.item := by
  obtain ⟨⟨n,-,hs⟩,-⟩ := h
  exact congrArg (fun w => w.aob.item) hs

theorem Room.blockOf {s' s : Session} (h : Room P s' s) (f : Frame) : blockOf P s' f = blockOf P s f := by
  unfold Transport.blockOf wireNv
  rw [h.version]

/-! The name/value block. -/

/-- How the packing of a block ends. -/
inductive Packing (P : Platform) (s : Session) (nvOffset : Nat) (block : Bytes) (r : Session × Except Err Bytes) : Prop
  | noRoom : r.2 = .error .nomem → Room P r.1 s → Packing P s nvOffset block r
  | zlib : r.2 = .error .zlib → P.deflate s.hdDeflater block = none → Squeezed P block r.1 s → Packing P s nvOffset block r
  | tooLarge (out : Bytes) : r.2 = .error .frameTooLarge → P.deflate s.hdDeflater block = some out →
      ¬ Fits nvOffset out → Squeezed P block r.1 s → Packing P s nvOffset block r
  | packed (out : Bytes) : r.2 = .ok out → P.deflate s.hdDeflater block = some out → Fits nvOffset out →
      Squeezed P block r.1 s → Packing P s nvOffset block r

theorem frameAllocPackNv_packing (s : Session) (nv : Nv) (nvOffset lenSize : Nat) :
    Packing P s nvOffset (packedBlock nv lenSize) (frameAllocPackNv P s nv nvOffset lenSize) := by
  unfold frameAllocPackNv
  dsimp only
  have hn : Room P (s.reserveNvbuf (frameCountNvSpace nv lenSize)).1 s := .of_beside (reserveNvbuf_beside s _)
  generalize s.reserveNvbuf (frameCountNvSpace nv lenSize) = r at hn
  split
  · exact .noRoom rfl hn
  · have hf := (reserveFramebuf_room r.1 (nvOffset+P.deflateBound s.hdDeflater (frameCountNvSpace nv lenSize))).trans hn
    generalize r.1.reserveFramebuf (nvOffset+P.deflateBound s.hdDeflater (frameCountNvSpace nv lenSize)) = f at hf
    split
    · exact .noRoom rfl hf
    · have hsq : Squeezed P (packedBlock nv lenSize)
          {f.1 with hdDeflater := s.hdDeflater ++ [packedBlock nv lenSize]} s := by
        refine ⟨⟨f.1,hf,?_⟩,hf.2⟩
        rw [← hf.hdDeflater]
        rfl
      rw [show (framePackNv nv lenSize).take (frameCountNvSpace nv lenSize) = packedBlock nv lenSize from rfl]
      cases hd : P.deflate s.hdDeflater (packedBlock nv lenSize) with
      | none => exact .zlib rfl hd hsq
      | some out =>
        dsimp only
        split
        · rename_i hlt
          exact .tooLarge out rfl hd (Nat.not_le.mpr hlt) hsq
        · rename_i hlt
          exact .packed out rfl hd (Nat.not_lt.mp hlt) hsq

/-! Frames. -/

/-- How a preparation ends. -/
inductive Outcome (P : Platform) (s : Session) (item : OutboundItem) (p : Prep) : Prop
  | refused (e : Err) : p.result = .error e → Room P p.ses s → Outcome P s item p
  | lost (f : Frame) (block : Bytes) (e : Err) : p.result = .error e → item.frame = .ctrl f → packs s f →
      blockOf P s f = some block → Loss P s.hdDeflater f block e → Squeezed P block p.ses s → Outcome P s item p
  | plain (f : Frame) (bytes : Bytes) : p.result = .ok bytes → p.item = item → item.frame = .ctrl f →
      packedPlain f = some bytes → Room P p.ses s → Outcome P s item p
  | headers (f f' : Frame) (block bytes : Bytes) : p.result = .ok bytes → item.frame = .ctrl f →
      p.item.frame = .ctrl f' → blockOf P s f = some block → Compressed P s.hdDeflater f' block bytes →
      Squeezed P block p.ses s → Outcome P s item p
  | data (d : DataFrame) (data bytes : Bytes) (fin : Bool) (s1 : Session) : p.result = .ok bytes →
      p.item.frame = .data d → data.length ≤ dataPayloadLength →
      bytes = dataHead d.streamId data.length fin ++ data → Room P s1 s → Feeds P p.ses s →
      p.ses.sendSide = s1.sendSide.notes [.read p.item.seq d.streamId data] → Outcome P s item p

/-- A SYN_STREAM with its slot; room may have been made or a CREDENTIAL queued before. -/
theorem prepSynStreamPack_outcome {s s0 : Session} (hr : Room P s s0) {item : OutboundItem} {f0 f : SynStream}
    (hi : item.frame = .ctrl (.synStream f0)) (hp : packs s0 (.synStream f0)) (hd : f.hd = f0.hd) (hv : f.nv = f0.nv) :
    Outcome P s0 item (prepSynStreamPack P s item f) := by
  unfold prepSynStreamPack
  dsimp only
  split
  · exact .refused _ rfl (Room.trans (.of_beside (.same rfl rfl)) hr)
  · have hr1 : Room P {s with nextStreamId := s.nextStreamId+2} s0 := Room.trans (.of_beside (.same rfl rfl)) hr
    have hblock : blockOf P s0 (.synStream f0) =
        some (packedBlock (s.wireNv P f.nv) (frameGetLenSize f.hd.version)) := by
      rw [← hr.blockOf,hd,hv]
      rfl
    have hpack := frameAllocPackNv_packing (P := P) {s with nextStreamId := s.nextStreamId+2} (s.wireNv P f.nv)
      synStreamNvOffset (frameGetLenSize f.hd.version)
    generalize frameAllocPackNv P _ _ synStreamNvOffset (frameGetLenSize f.hd.version) = r at hpack
    cases hpack with
    | noRoom he h =>
      rw [he]
      exact .refused _ rfl (h.trans hr1)
    | zlib he hz h =>
      rw [he]
      exact .lost _ _ _ rfl hi hp hblock (.zlib (hr1.hdDeflater ▸ hz)) (h.after hr1)
    | tooLarge out he hz hfit h =>
      rw [he]
      exact .lost _ _ _ rfl hi hp hblock (.tooLarge _ out rfl (hr1.hdDeflater ▸ hz) hfit) (h.after hr1)
    | packed out he hz hfit h =>
      rw [he]
      dsimp only
      have ho := (h.after hr1).beside (beside_openStream P r.1 s.nextStreamId f.hd.flags f.pri .initial)
      split
      · exact .headers _ _ _ _ rfl hi rfl hblock ⟨_,out,rfl,hr1.hdDeflater ▸ hz,hfit,rfl⟩ ho
      · exact .lost _ _ _ rfl hi hp hblock .nomem ho

theorem prepSynStream_outcome (s : Session) {item : OutboundItem} {f : SynStream}
    (hi : item.frame = .ctrl (.synStream f)) : Outcome P s item (prepSynStream P s item f) := by
  unfold prepSynStream
  split
  · exact .refused _ rfl (.refl s)
  · rename_i hsend
    split
    · have hc := (prepCredential_changes P s f).beside
      dsimp only
      split
      · have hp := (pushObSs_changes P (s.prepCredential f).1 {item with pri := obPriAfterCredential}).beside.trans hc
        split
        · exact .refused _ rfl (.of_beside hp)
        · exact .refused _ rfl (.of_beside hp)
      · rename_i hne he
        refine prepSynStreamPack_outcome (.of_beside hc) hi ⟨hsend,fun _ h => ?_⟩ rfl rfl
        cases he.symm.trans h
        exact hne rfl
      · rename_i he
        refine prepSynStreamPack_outcome (.of_beside hc) hi ⟨hsend,fun _ h => ?_⟩ rfl rfl
        cases he.symm.trans h
    · rename_i hno
      exact prepSynStreamPack_outcome (.refl s) hi ⟨hsend,fun h => absurd h hno⟩ rfl rfl

/-- SYN_REPLY and HEADERS. -/
theorem prepStreamHeaders_outcome (s : Session) {item : OutboundItem} {type : FrameType} {wrap : StreamHeaders → Frame}
    {f : StreamHeaders} (hi : item.frame = .ctrl (wrap f)) (hp : packs s (wrap f))
    (hl : ∀ f, headerList (wrap f) = some (f.hd.version,f.nv))
    (ho : ∀ f, blockOffset (wrap f) = frameNvOffset type f.hd.version)
    (hb : ∀ f off out, packedHeaders (wrap f) off out = some (framePackStreamHeaders type off f out)) :
    Outcome P s item (prepStreamHeaders P s item type wrap f) := by
  unfold prepStreamHeaders
  dsimp only
  split
  · exact .refused _ rfl (.refl s)
  · split
    · exact .refused _ rfl (.refl s)
    · rename_i nvOffset hoff
      have hblock : blockOf P s (wrap f) =
          some (packedBlock (s.wireNv P f.nv) (frameGetLenSize f.hd.version)) := by
        unfold blockOf
        rw [hl]
        rfl
      have hpack := frameAllocPackNv_packing (P := P) s (s.wireNv P f.nv) nvOffset (frameGetLenSize f.hd.version)
      generalize frameAllocPackNv P s (s.wireNv P f.nv) nvOffset (frameGetLenSize f.hd.version) = r at hpack
      cases hpack with
      | noRoom he h =>
        rw [he]
        exact .refused _ rfl h
      | zlib he hz h =>
        rw [he]
        exact .lost _ _ _ rfl hi hp hblock (.zlib hz) h
      | tooLarge out he hz hfit h =>
        rw [he]
        exact .lost _ _ _ rfl hi hp hblock (.tooLarge _ out ((ho f).trans hoff) hz hfit) h
      | packed out he hz hfit h =>
        rw [he]
        exact .headers _ _ _ _ rfl hi rfl hblock ⟨nvOffset,out,(ho _).trans hoff,hz,hfit,hb _ _ _⟩ h

theorem prepFixed_outcome (s : Session) {item : OutboundItem} {f : Frame} {bytes : Bytes} (hi : item.frame = .ctrl f)
    (hb : packedPlain f = some bytes) : Outcome P s item (s.prepFixed item bytes) := by
  have hr := reserveFramebuf_room (P := P) s bytes.length
  unfold prepFixed
  dsimp only
  split
  · exact .plain f bytes rfl rfl hi hb hr
  · exact .refused _ rfl hr

theorem prepFixed_ok {s : Session} (item : OutboundItem) (bytes : Bytes)
    (h : s.mallocOk = true ∨ bytes.length ≤ s.aob.framebufmax) :
    ∃ s', s.prepFixed item bytes = ⟨s',item,.ok bytes⟩ ∧ Room P s' s := by
  have hr := reserveFramebuf_room (P := P) s bytes.length
  have hnone : (s.reserveFramebuf bytes.length).2 = none := by
    unfold reserveFramebuf
    split
    · rename_i hlt
      rw [if_pos (h.resolve_right (Nat.not_le.mpr hlt))]
    · rfl
  refine ⟨_,?_,hr⟩
  unfold prepFixed
  dsimp only
  rw [hnone]

theorem prepPacked_outcome (s : Session) {item : OutboundItem} {f : Frame} {r : Except Err Bytes}
    (hi : item.frame = .ctrl f) (hb : packedPlain f = r.toOption) : Outcome P s item (s.prepPacked item r) := by
  unfold prepPacked
  split
  · exact prepFixed_outcome s hi hb
  · exact .refused _ rfl (.refl s)

/-! DATA. -/

/-- A read gives one chunk, or nothing. -/
theorem packData_spec (s : Session) (seq : Nat) (d : DataFrame) (datamax : Nat) :
    (∃ e, (s.packData seq d datamax).2.2 = .error e ∧ Room P (s.packData seq d datamax).1 s) ∨
      ∃ s1 data fin, Room P s1 s ∧ data.length ≤ datamax ∧
        (s.packData seq d datamax).2.2 = .ok (dataHead d.streamId data.length fin ++ data) ∧
        (s.packData seq d datamax).2.1.streamId = d.streamId ∧
        (s.packData seq d datamax).1 = s1.emit (.read seq d.streamId data) := by
  have hr := reserveFramebuf_room (P := P) s (datamax+8)
  unfold packData
  dsimp only
  generalize s.reserveFramebuf (datamax+8) = r at hr
  split
  · exact .inl ⟨_,rfl,hr⟩
  · have hread : Room P {r.1 with host := {r.1.host with reads := r.1.host.reads.tail}} s :=
      Room.trans (.of_beside (.same rfl rfl)) hr
    split
    · exact .inl ⟨_,rfl,hread⟩
    · exact .inl ⟨_,rfl,hread⟩
    · exact .inl ⟨_,rfl,hread⟩
    · rename_i bytes eof _
      split
      · exact .inl ⟨_,rfl,hread⟩
      · rename_i hlt
        exact .inr ⟨_,bytes,_,hread,Nat.not_lt.mp hlt,rfl,rfl,rfl⟩

theorem nextDataRead_le (s : Session) (st : Stream) : s.nextDataRead st ≤ dataPayloadLength := by
  unfold nextDataRead
  split_ifs
  · exact le_rfl
  · exact min_le_right _ _
  · exact Nat.zero_le _

theorem prepData_outcome (s : Session) {item : OutboundItem} (d : DataFrame) :
    Outcome P s item (s.prepData item d) := by
  unfold prepData
  split
  · exact .refused _ rfl (.refl s)
  · split
    · exact .refused _ rfl (.refl s)
    · rename_i st _
      dsimp only
      split
      · exact .refused _ rfl (.of_beside (deferData_changes P s st item true).beside)
      · have hp := packData_spec (P := P) s item.seq d (s.nextDataRead st)
        generalize s.packData item.seq d (s.nextDataRead st) = p at hp
        rcases hp with ⟨e,he,hr⟩ | ⟨s1,data,fin,hr,hlen,hok,hid,hs⟩
        · rw [he]
          split
          · rename_i heq
            cases heq
          · exact .refused _ rfl (Room.trans (.of_beside (deferData_changes P _ st _ false).beside) hr)
          · exact .refused _ rfl (Room.trans (.of_beside (addRstStream_changes P _ _ _).beside) hr)
          · exact .refused _ rfl hr
        · rw [hok]
          have hw : p.1.sendSide = s1.sendSide.notes [.read item.seq d.streamId data] := by
            rw [hs]
            unfold sendSide SendSide.notes emit
            dsimp only
            rw [List.filter_append]
            rfl
          refine .data p.2.1 data _ fin s1 rfl rfl (hlen.trans (nextDataRead_le s st)) (by rw [hid]) hr ?_ (by rw [hid]; exact hw)
          rw [hs]
          exact (feeds_emit P s1 (.read item.seq d.streamId data) nofun).trans hr.2 hr.version

theorem prepFrame_outcome (s : Session) (item : OutboundItem) : Outcome P s item (prepFrame P s item) := by
  unfold prepFrame
  split
  · rename_i f hi
    exact prepSynStream_outcome s hi
  · rename_i f hi
    split
    · exact .refused _ rfl (.refl s)
    · rename_i hsend
      exact prepStreamHeaders_outcome s hi hsend (fun _ => rfl) (fun _ => rfl) (fun _ _ _ => rfl)
  · rename_i f hi
    exact prepFixed_outcome s hi rfl
  · rename_i f hi
    exact prepPacked_outcome s hi rfl
  · rename_i f hi
    exact prepFixed_outcome s hi rfl
  · rename_i f hi
    split
    · exact .refused _ rfl (.refl s)
    · rename_i hsend
      exact prepStreamHeaders_outcome s hi hsend (fun _ => rfl) (fun _ => rfl) (fun _ _ _ => rfl)
  · rename_i f hi
    split
    · exact .refused _ rfl (.refl s)
    · exact prepFixed_outcome s hi rfl
  · rename_i f hi
    split
    · exact .refused _ rfl (.refl s)
    · exact prepPacked_outcome s hi rfl
  · rename_i f hi
    exact prepFixed_outcome s hi rfl
  · exact prepData_outcome s _

end Spdylay.Transport
