import Spdylay.Peers.Carried

/-! What a receiver makes of the frames of a sender: the blocks come through its inflater, and each frame
is reported with its fields, or not at all. -/
namespace Spdylay.Peers
open Library Session Transport

/-! The list that the application is given with a frame is the one that was processed. -/

section
variable {Q : Platform} {t : Session}

theorem heard_parseSynStream : (t.parseSynStream Q).1.heard = t.heard := by
  unfold parseSynStream
  dsimp only
  split <;> rfl

theorem heard_parseStreamHeaders (type : FrameType) : (t.parseStreamHeaders Q type).1.heard = t.heard := by
  unfold parseStreamHeaders
  dsimp only
  split <;> rfl

theorem Tells.told {g g' : Frame} {s s' : Session} (h : Tells g s s') (hs : s.heard = t.heard)
    (htold : s'.heard = t.heard ++ [.ctrlRecv g']) : g = g' := by
  rcases h with h | h
  · rw [h, hs] at htold
    exact absurd (List.self_eq_append_right.mp htold) (List.cons_ne_nil _ _)
  · rw [h, hs] at htold
    cases List.append_cancel_left htold
    rfl

theorem processedList_synStream {f : SynStream}
    (h : (t.processSynStream Q).1.heard = t.heard ++ [.ctrlRecv (.synStream f)]) : processedList Q t .synStream = (f.nv, none) := by
  unfold processSynStream at h
  dsimp only at h
  split at h
  · rename_i hparsed
    cases (onSynStreamReceived_tells _ _).told heard_parseSynStream h
    rw [processedList, hparsed]
  · rw [heard_handleHeadersError, heard_parseSynStream] at h
    exact absurd (List.self_eq_append_right.mp h) (List.cons_ne_nil _ _)

theorem processedList_synReply {f : StreamHeaders}
    (h : (t.processSynReply Q).1.heard = t.heard ++ [.ctrlRecv (.synReply f)]) : processedList Q t .synReply = (f.nv, none) := by
  unfold processSynReply at h
  dsimp only at h
  split at h
  · rename_i hparsed
    cases (onSynReplyReceived_tells _ _).told (heard_parseStreamHeaders _) h
    rw [processedList, hparsed]
    rintro ⟨⟩
  · rw [heard_handleHeadersError, heard_parseStreamHeaders] at h
    exact absurd (List.self_eq_append_right.mp h) (List.cons_ne_nil _ _)

theorem processedList_headers {f : StreamHeaders}
    (h : (t.processHeaders Q).1.heard = t.heard ++ [.ctrlRecv (.headers f)]) : processedList Q t .headers = (f.nv, none) := by
  unfold processHeaders at h
  dsimp only at h
  split at h
  · rename_i hparsed
    cases (onHeadersReceived_tells _ _).told (heard_parseStreamHeaders _) h
    rw [processedList, hparsed]
    rintro ⟨⟩
  · rw [heard_handleHeadersError, heard_parseStreamHeaders] at h
    exact absurd (List.self_eq_append_right.mp h) (List.cons_ne_nil _ _)

end

/-! The frames as they were sent. -/

/-- Frame after frame, and no block without its frame. -/
inductive Sent (P : Platform) (v : Version) : List (Int × Bytes) → List Bytes → List Transport.WireFrame → Prop
  | nil : Sent P v [] [] []
  | snoc {reads reads' blocks blocks' xs} (x : Transport.WireFrame) : Sent P v reads blocks xs →
      Begun P v blocks x reads' blocks' → Sent P v (reads ++ reads') (blocks ++ blocks') (xs ++ [x])

/-- The compressed blocks of frames. -/
def blocksOf (xs : List Transport.WireFrame) : List Bytes :=
  xs.filterMap (fun x => (x.ctrl.bind blockOffset).map (fun nvOffset => x.bytes.drop nvOffset))

theorem blocksOf_append (xs ys : List Transport.WireFrame) : blocksOf (xs ++ ys) = blocksOf xs ++ blocksOf ys :=
  List.filterMap_append

section
variable {P : Platform} {v : Version} {reads : List (Int × Bytes)} {blocks : List Bytes} {xs : List Transport.WireFrame}
  {x : Transport.WireFrame}

/-- A frame has a block of its own or none. -/
theorem Begun.blocks_cases {reads' : List (Int × Bytes)} {blocks' : List Bytes} (h : Begun P v blocks x reads' blocks') :
    (blocksOf [x] = [] ∧ blocks' = []) ∨ ∃ block out, blocks' = [block] ∧ blocksOf [x] = [out] ∧ P.deflate blocks block = some out := by
  cases h with
  | plain f hf _ hb =>
    left
    simp [blocksOf, hf, blockOffset_plain hb]
  | data id data fin hf _ _ =>
    left
    simp [blocksOf, hf]
  | headers f n nv hf _ _ hc =>
    right
    obtain ⟨nvOffset, out, ho, hd, hdrop⟩ := hc.drop
    refine ⟨_, out, rfl, ?_, hd⟩
    simp [blocksOf, hf, ho, hdrop]

/-- Every frame was begun at some point. -/
theorem Prepared.mem (h : Prepared P v reads blocks xs) (hx : x ∈ xs) :
    ∃ (before blocks' : List Bytes) (reads' : List (Int × Bytes)), Begun P v before x reads' blocks' ∧ ∀ r ∈ reads', r ∈ reads := by
  induction h with
  | nil => cases hx
  | lost block _ ih => exact ih hx
  | @snoc reads reads' blocks blocks' xs y _ hy ih =>
    rcases List.mem_append.mp hx with hx | hx
    · obtain ⟨before, blocks1, reads1, hbegun, hreads⟩ := ih hx
      exact ⟨before, blocks1, reads1, hbegun, fun r hr => List.mem_append_left _ (hreads r hr)⟩
    · obtain rfl := List.mem_singleton.mp hx
      exact ⟨blocks, blocks', reads', hy, fun r hr => List.mem_append_right _ hr⟩

/-- Every session knows how its frames came about. -/
theorem prepared_of_reachable {P : Platform} {u : Setup} {s : Session} (h : Reachable P u s) :
    Prepared P u.version (readData s.sendSide.writes) s.sendSide.hdDeflater (preparedFrames s.sendSide.writes) := by
  have hprepared := reachable_accounts h
  have hv : s.sendSide.version = u.version := (reachable_sides h).1
  rw [Accounts, hv] at hprepared
  exact hprepared

/-- Where the compressor has seen no more blocks than there are in the frames, none is lost. -/
theorem Prepared.sent (h : Prepared P v reads blocks xs) : (blocksOf xs).length ≤ blocks.length ∧
    (blocks.length ≤ (blocksOf xs).length → Sent P v reads blocks xs) := by
  induction h with
  | nil => exact ⟨le_refl _, fun _ => .nil⟩
  | lost block _ ih =>
    have hlen := ih.1
    rw [List.length_append]
    exact ⟨by omega, fun hge => absurd hge (by simp; omega)⟩
  | @snoc reads reads' blocks blocks' xs x _ hx ih =>
    obtain ⟨hle, hall⟩ := ih
    have hone : (blocksOf [x]).length = blocks'.length := by
      rcases hx.blocks_cases with ⟨h1, h2⟩ | ⟨block, out, h1, h2, -⟩
      · rw [h1, h2]
      · rw [h1, h2]
        rfl
    rw [blocksOf_append, List.length_append, List.length_append]
    exact ⟨by omega, fun hge => .snoc x (hall (by omega)) hx⟩

/-- The first frames were sent before the others. -/
theorem Sent.take (h : Sent P v reads blocks xs) (n : Nat) : ∃ reads' blocks', Sent P v reads' blocks' (xs.take n) ∧
    reads' <+: reads ∧ blocks' <+: blocks := by
  induction h with
  | nil =>
    rw [List.take_nil]
    exact ⟨[], [], .nil, List.prefix_refl _, List.prefix_refl _⟩
  | @snoc reads reads' blocks blocks' xs x hxs hx ih =>
    by_cases hn : n ≤ xs.length
    · rw [List.take_append_of_le_length hn]
      obtain ⟨reads1, blocks1, hsent, hreads, hblocks⟩ := ih
      exact ⟨reads1, blocks1, hsent, hreads.trans (List.prefix_append _ _), hblocks.trans (List.prefix_append _ _)⟩
    · have hlen : (xs ++ [x]).length ≤ n := by
        rw [List.length_append, List.length_singleton]
        omega
      rw [List.take_of_length_le hlen]
      exact ⟨_, _, hxs.snoc x hx, List.prefix_refl _, List.prefix_refl _⟩

theorem Sent.last (h : Sent P v reads blocks (xs ++ [x])) : ∃ reads1 reads2 blocks1 blocks2, reads = reads1 ++ reads2 ∧
    Sent P v reads1 blocks1 xs ∧ Begun P v blocks1 x reads2 blocks2 := by
  generalize hall : xs ++ [x] = ys at h
  cases h with
  | nil => exact absurd hall (List.append_ne_nil_of_right_ne_nil _ (List.cons_ne_nil _ _))
  | snoc y hys hy =>
    obtain ⟨rfl, hxy⟩ := List.append_inj' hall rfl
    cases hxy
    exact ⟨_, _, _, _, rfl, hys, hy⟩

/-- The compressor is in step with the frames. -/
theorem Sent.deflated (h : Sent P v reads blocks xs) : deflated P blocks = (blocksOf xs).map some := by
  induction h with
  | nil => rfl
  | @snoc reads reads' blocks blocks' xs x _ hx ih =>
    rw [blocksOf_append, List.map_append, ← ih]
    rcases hx.blocks_cases with ⟨h1, rfl⟩ | ⟨block, out, rfl, h2, hd⟩
    · rw [h1, List.append_nil]
      exact (List.append_nil _).symm
    · have hadd := deflatedAfter_snoc (P := P) [] blocks block
      rw [List.nil_append, hd] at hadd
      rw [h2]
      exact hadd

end

/-! The frames as they are read. -/

section
variable {P Q : Platform} {v : Version} {reads : List (Int × Bytes)} {blocks : List Bytes} {xs : List Transport.WireFrame}
  {x : Transport.WireFrame}

theorem blockStart_plain {f : Frame} {bytes head : Bytes} (hp : packedPlain f = some bytes)
    (h : headType head = some (frameType f)) : blockStart head = none := by
  rw [headType] at h
  rw [blockStart, h]
  cases f with
  | synStream f => cases hp
  | synReply f => cases hp
  | headers f => cases hp
  | _ => exact ite_self _

/-- A DATA frame as it is read. -/
theorem data_head {id : Int} {data head body : Bytes} {fin : Bool} (hid : Numbers id) (hlen : head.length = headLen)
    (h : head ++ body = dataHead id data.length fin ++ data) : body = data ∧ frameIsCtrlFrame (head.getD 0 0) = false ∧
      getStreamId head = id ∧ (head.getD 4 0).toNat = if fin then 1 else 0 := by
  obtain ⟨rfl, rfl⟩ := List.append_inj h hlen
  have hword : getStreamId (dataHead id body.length fin) = id := getStreamId_toUint32 (le_of_lt hid.1) hid.2 _
  refine ⟨rfl, ?_, hword, ?_⟩
  · have hsmall : getUint32 (dataHead id body.length fin) < 2147483648 := by
      rw [dataHead, getUint32_putUint32be, toUint32]
      have hle := hid.2
      have hpos := hid.1
      rw [int32Max] at hle
      omega
    rw [getUint32] at hsmall
    rw [frameIsCtrlFrame, decide_eq_false_iff_not, UInt8.le_iff_toNat_le]
    change ¬ 128 ≤ _
    omega
  · cases fin <;> rfl

/-- The compressed block of a frame is where the peer looks for it. -/
theorem Begun.block_eq {reads' : List (Int × Bytes)} {blocks' : List Bytes} (h : Begun P v blocks x reads' blocks')
    (hids : ∀ r ∈ reads', Numbers r.1) {frame : Spdylay.WireFrame} (hb : frame.bytes = x.bytes) :
    frame.block = (blocksOf [x]).flatten := by
  rw [Framing.Frame.bytes] at hb
  cases h with
  | plain f hf hform hp =>
    obtain ⟨htype, -⟩ := plain_head hform frame.head_length (hp.trans (congrArg some hb.symm))
    simp [WireFrame.block, blockIn, blockStart_plain hp htype, blocksOf, hf, blockOffset_plain hp]
  | data id data fin hf hlen hbytes =>
    obtain ⟨-, hctrl, -, -⟩ := data_head (hids _ (List.mem_singleton.mpr rfl)) frame.head_length (hb.trans hbytes)
    have hnone : blockStart frame.head = none := by
      rw [blockStart, hctrl]
      rfl
    simp [WireFrame.block, blockIn, hnone, blocksOf, hf]
  | headers f n nv hf hl hn hc =>
    obtain ⟨nvOffset, out, ho, hd, hdrop⟩ := hc.drop
    obtain ⟨nvOffset', out', ho', hd', -, hp⟩ := hc
    cases ho.symm.trans ho'
    cases hd.symm.trans hd'
    obtain ⟨-, -, hblock⟩ := headers_head hl hn ho frame.head_length (hp.trans (congrArg some hb.symm))
    simp [WireFrame.block, hblock, blocksOf, hf, ho, hdrop]

/-- Frame by frame the peer finds the blocks that were sent. -/
theorem Sent.blocks_eq (h : Sent P v reads blocks xs) (hids : ∀ r ∈ reads, Numbers r.1) {frames : List Spdylay.WireFrame}
    (hb : frames.map Framing.Frame.bytes = xs.map Transport.WireFrame.bytes) :
    frames.flatMap WireFrame.block = (blocksOf xs).flatten := by
  induction h generalizing frames with
  | nil =>
    obtain rfl := List.map_eq_nil_iff.mp hb
    rfl
  | @snoc reads reads' blocks blocks' xs x _ hx ih =>
    rw [List.map_append] at hb
    obtain ⟨frames, last, rfl, hframes, hlast⟩ := List.map_eq_append_iff.mp hb
    obtain ⟨frame, rfl, hframe⟩ := List.map_eq_singleton_iff.mp hlast
    obtain ⟨hids, hids'⟩ := List.forall_mem_append.mp hids
    rw [List.flatMap_append, List.flatMap_singleton, ih hids hframes, hx.block_eq hids' hframe, blocksOf_append,
      List.flatten_append]

/-- The inflater of `Q` turns what the compressor of `P` makes of a block back into the block, at that point
of the stream. -/
def Restores (P Q : Platform) (v : Version) : Prop :=
  ∀ (blocks outs : List Bytes) (block out : Bytes), deflated P blocks = outs.map some →
    P.deflate blocks block = some out → Transducer.run (Q.push v) outs.flatten out = some block

/-- One more frame comes through the inflater. -/
theorem Begun.inflated (hr : Restores P Q v) {reads' : List (Int × Bytes)} {blocks' : List Bytes}
    (h : Begun P v blocks x reads' blocks') (hd : deflated P blocks = (blocksOf xs).map some) :
    Transducer.run (Q.push v) (blocksOf xs).flatten (blocksOf [x]).flatten = some blocks'.flatten := by
  rcases h.blocks_cases with ⟨h1, rfl⟩ | ⟨block, out, rfl, h2, hout⟩
  · rw [h1]
    rfl
  · rw [h2, List.flatten_singleton, List.flatten_singleton]
    exact hr _ _ _ _ hd hout

/-- What was compressed comes out of the inflater. -/
theorem Sent.inflated (hr : Restores P Q v) (h : Sent P v reads blocks xs) :
    Transducer.run (Q.push v) [] (blocksOf xs).flatten = some blocks.flatten := by
  induction h with
  | nil => rfl
  | @snoc reads reads' blocks blocks' xs x hxs hx ih =>
    rw [blocksOf_append, List.flatten_append, List.flatten_append, Transducer.run_append_of_some _ ih, List.nil_append,
      hx.inflated hr hxs.deflated]
    rfl

/-- What is told of a frame of the sender, if anything: its payload piece by piece, or its fields. -/
inductive Arrives (P : Platform) (v : Version) (server : Bool) (x : Transport.WireFrame) : List Event → Prop
  | nothing : Arrives P v server x [.frameDone]
  | chunks (id : Int) (data : Bytes) (fin : Bool) (pieces : List Bytes) : x.ctrl = none → Numbers id →
      x.bytes = dataHead id data.length fin ++ data → pieces.flatten = data →
      Arrives P v server x (pieces.map (.dataChunkRecv (if fin then 1 else 0) id) ++ [.frameDone])
  | ctrl (f g : Frame) : x.ctrl = some f → Carries P v server (x.bytes.length-headLen) f g →
      Arrives P v server x [.ctrlRecv g, .frameDone]

/-- What is told of the first frame before it is whole: nothing, or the first pieces of DATA. -/
inductive Underway : List Transport.WireFrame → List Event → Prop
  | nothing (xs : List Transport.WireFrame) : Underway xs []
  | chunks {xs : List Transport.WireFrame} (x : Transport.WireFrame) (id : Int) (data : Bytes) (fin : Bool)
      (pieces : List Bytes) : x.ctrl = none → Numbers id → x.bytes = dataHead id data.length fin ++ data →
      pieces.flatten <+: data →
      Underway (x :: xs) (pieces.map (.dataChunkRecv (if fin then 1 else 0) id))

/-- Frame after frame. -/
inductive Arrivals (P : Platform) (v : Version) (server : Bool) : List Transport.WireFrame → List Event → Prop
  | nil : Arrivals P v server [] []
  | snoc {xs : List Transport.WireFrame} {es es' : List Event} (x : Transport.WireFrame) : Arrivals P v server xs es →
      Arrives P v server x es' → Arrivals P v server (xs ++ [x]) (es ++ es')

/-- What is told of a frame is what the sender has put into it. -/
theorem Begun.arrives (hq : StableSort.Sorts P.qsort) (hr : StableSort.Sorts Q.qsort) {reads' : List (Int × Bytes)}
    {blocks' : List Bytes} (h : Begun P v blocks x reads' blocks') (hids : ∀ r ∈ reads', Numbers r.1)
    (hfits : lengthFits x.ctrl) {frame : Spdylay.WireFrame} (hb : frame.bytes = x.bytes) {before : Bytes}
    (hrun : Transducer.run (Q.push v) before frame.block = some blocks'.flatten) {server : Bool} {es : List Event}
    (hreport : Report Q v server before frame es) : Arrives P v server x es := by
  have hn : x.bytes.length-headLen = frame.body.length := by
    rw [← hb, Framing.Frame.bytes, List.length_append, frame.head_length]
    exact Nat.add_sub_cancel_left _ _
  cases hreport with
  | nothing => exact .nothing
  | chunks pieces hctrl hp =>
    cases h with
    | plain f hf hform hbytes =>
      obtain ⟨-, hset⟩ := plain_head hform frame.head_length (hbytes.trans (congrArg some hb.symm))
      cases hctrl.symm.trans hset
    | headers f n nv hf hl hlen hc =>
      obtain ⟨nvOffset, out, ho, -, -, hbytes⟩ := hc
      obtain ⟨-, hset, -⟩ := headers_head hl hlen ho frame.head_length (hbytes.trans (congrArg some hb.symm))
      cases hctrl.symm.trans hset
    | data id data fin hf hlen hbytes =>
      have hnum := hids _ (List.mem_singleton.mpr rfl)
      obtain ⟨rfl, -, hid, hfin⟩ := data_head hnum frame.head_length (hb.trans hbytes)
      rw [chunkEvents, hid, hfin]
      exact .chunks id _ fin pieces hf hnum hbytes hp
  | ctrl n g hctrl hplain hread =>
    cases h with
    | plain f hf hform hbytes =>
      have hbytes' := hbytes.trans (congrArg some hb.symm)
      obtain ⟨htype, -⟩ := plain_head hform frame.head_length hbytes'
      obtain rfl := hplain (blockStart_plain hbytes htype)
      rw [hf] at hfits
      exact .ctrl f g hf (read_plain hq hform hfits frame.head_length hbytes' hread)
    | headers f n' nv hf hl hlen hc =>
      obtain ⟨nvOffset, out, ho, -, hfit, hbytes⟩ := hc
      rw [hrun, List.flatten_singleton] at hread
      refine .ctrl f g hf ?_
      rw [hn]
      exact read_headers hq hr hl hlen ho hfit frame.head_length (hbytes.trans (congrArg some hb.symm)) hread
    | data id data fin hf hlen hbytes =>
      obtain ⟨-, hclear, -, -⟩ := data_head (hids _ (List.mem_singleton.mpr rfl)) frame.head_length (hb.trans hbytes)
      cases hctrl.symm.trans hclear

/-- What is told of a part of a frame is DATA of the sender. -/
theorem Begun.underway {reads' : List (Int × Bytes)} {blocks' : List Bytes} (h : Begun P v blocks x reads' blocks')
    (hids : ∀ r ∈ reads', Numbers r.1) {part : Bytes} (hpart : part <+: x.bytes) {es : List Event} (ht : ToldOfPart part es)
    (xs : List Transport.WireFrame) : Underway (x :: xs) es := by
  rcases ht with rfl | ⟨hlong, hclear, pieces, hpieces, rfl⟩
  · exact .nothing _
  · obtain ⟨more, hmore⟩ := hpart
    have hlen : (part.take headLen).length = headLen := List.length_take_of_le hlong
    have hsplit : x.bytes = part.take headLen ++ (part.drop headLen ++ more) := by
      rw [← List.append_assoc, List.take_append_drop, hmore]
    have hhead : frameIsCtrlFrame ((part.take headLen).getD 0 0) = false := by
      rw [← (Agree.self_take headLen part).getD (by decide)]
      exact hclear
    cases h with
    | plain f hf hform hbytes =>
      obtain ⟨-, hset⟩ := plain_head hform hlen (hbytes.trans (congrArg some hsplit))
      cases hhead.symm.trans hset
    | headers f n nv hf hl hn hc =>
      obtain ⟨nvOffset, out, ho, -, -, hbytes⟩ := hc
      obtain ⟨-, hset, -⟩ := headers_head hl hn ho hlen (hbytes.trans (congrArg some hsplit))
      cases hhead.symm.trans hset
    | data id data fin hf hsize hbytes =>
      have hnum := hids _ (List.mem_singleton.mpr rfl)
      obtain ⟨hdata, -, hid, hfin⟩ := data_head hnum hlen (hsplit.symm.trans hbytes)
      rw [chunkEvents, hid, hfin]
      exact .chunks x id data fin pieces hf hnum hbytes ⟨more, by rw [hpieces, hdata]⟩

/-- The first frames of a sender, read by a receiver that tells of each from its bytes. -/
theorem Sent.arrivals (hq : StableSort.Sorts P.qsort) (hr : StableSort.Sorts Q.qsort) (hz : Restores P Q v)
    (h : Sent P v reads blocks xs) (hids : ∀ r ∈ reads, Numbers r.1) (hfits : ∀ x ∈ xs, lengthFits x.ctrl)
    {frames : List Spdylay.WireFrame} (hb : frames.map Framing.Frame.bytes = xs.map Transport.WireFrame.bytes)
    {server : Bool} {es : List Event} (hreports : Reports Q v server frames es) : Arrivals P v server xs es := by
  induction h generalizing frames es with
  | nil =>
    obtain rfl := List.map_eq_nil_iff.mp hb
    rw [hreports.none]
    exact .nil
  | @snoc reads reads' blocks blocks' xs x hxs hx ih =>
    rw [List.map_append] at hb
    obtain ⟨frames, last, rfl, hframes, hlast⟩ := List.map_eq_append_iff.mp hb
    obtain ⟨frame, rfl, hframe⟩ := List.map_eq_singleton_iff.mp hlast
    obtain ⟨hids, hids'⟩ := List.forall_mem_append.mp hids
    obtain ⟨hfits, hfit⟩ := List.forall_mem_append.mp hfits
    obtain ⟨es1, es2, rfl, hreports, hreport⟩ := hreports.last
    refine .snoc x (ih hids hfits hframes hreports) ?_
    refine hx.arrives hq hr hids' (hfit x (List.mem_singleton.mpr rfl)) hframe ?_ hreport
    rw [hxs.blocks_eq hids hframes, hx.block_eq hids' hframe]
    exact hx.inflated hz hxs.deflated

end

/-! DATA, stream by stream. -/

/-- The chunks of DATA that are told of. -/
def heardData (es : List Event) : List (Int × Bytes) :=
  es.filterMap (fun | .dataChunkRecv _ id chunk => some (id, chunk) | _ => none)

/-- The DATA of one stream. -/
def onStream (id : Int) (chunks : List (Int × Bytes)) : Bytes := chunks.flatMap (fun c => if c.1 = id then c.2 else [])

theorem heardData_append (es es' : List Event) : heardData (es ++ es') = heardData es ++ heardData es' := List.filterMap_append

theorem onStream_append (id : Int) (chunks chunks' : List (Int × Bytes)) :
    onStream id (chunks ++ chunks') = onStream id chunks ++ onStream id chunks' := List.flatMap_append

theorem heardData_pieces (flags : Nat) (id : Int) (pieces : List Bytes) :
    heardData (pieces.map (.dataChunkRecv flags id)) = pieces.map (Prod.mk id) := by
  induction pieces with
  | nil => rfl
  | cons piece pieces ih => exact congrArg (_ :: ·) ih

theorem onStream_pieces (id id' : Int) (pieces : List Bytes) :
    onStream id (pieces.map (Prod.mk id')) = onStream id [(id', pieces.flatten)] := by
  by_cases h : id' = id
  · subst h
    simp [onStream, List.flatMap_map]
  · simp [onStream, List.flatMap_map, h]

section
variable {P : Platform} {v : Version} {reads : List (Int × Bytes)} {blocks : List Bytes} {xs : List Transport.WireFrame}
  {x : Transport.WireFrame} {server : Bool} {es : List Event}

theorem Arrivals.none (h : Arrivals P v server [] es) : es = [] := by
  generalize hnil : [] = xs at h
  cases h with
  | nil => rfl
  | snoc x _ _ => exact absurd hnil.symm (List.append_ne_nil_of_right_ne_nil _ (List.cons_ne_nil _ _))

theorem Arrivals.last (h : Arrivals P v server (xs ++ [x]) es) : ∃ es1 es2, es = es1 ++ es2 ∧ Arrivals P v server xs es1 ∧
    Arrives P v server x es2 := by
  generalize hall : xs ++ [x] = ys at h
  cases h with
  | nil => exact absurd hall (List.append_ne_nil_of_right_ne_nil _ (List.cons_ne_nil _ _))
  | snoc y hys hy =>
    obtain ⟨rfl, hxy⟩ := List.append_inj' hall rfl
    cases hxy
    exact ⟨_, _, rfl, hys, hy⟩

/-- A DATA frame is of one stream, with one payload. -/
theorem dataHead_inj {id id' : Int} {data data' : Bytes} {fin fin' : Bool} (hid : Numbers id) (hid' : Numbers id')
    (h : dataHead id' data'.length fin' ++ data' = dataHead id data.length fin ++ data) : id' = id ∧ data' = data := by
  obtain ⟨hdata, -, hword, -⟩ := data_head hid rfl h
  refine ⟨?_, hdata⟩
  rw [← hword]
  exact (getStreamId_toUint32 (le_of_lt hid'.1) hid'.2 _).symm

/-- What is told of one frame: nothing of what was read for it, or all. -/
theorem Begun.tells {reads' : List (Int × Bytes)} {blocks' : List Bytes} (h : Begun P v blocks x reads' blocks')
    (hids : ∀ r ∈ reads', Numbers r.1) (ha : Arrives P v server x es) :
    ∃ kept, kept.Sublist reads' ∧ ∀ id, onStream id (heardData es) = onStream id kept := by
  cases ha with
  | nothing => exact ⟨[], List.nil_sublist _, fun _ => rfl⟩
  | ctrl f g _ _ => exact ⟨[], List.nil_sublist _, fun _ => rfl⟩
  | chunks id data fin pieces hf hid hbytes hp =>
    cases h with
    | plain f hf' _ _ => cases hf.symm.trans hf'
    | headers f n nv hf' _ _ _ => cases hf.symm.trans hf'
    | data id' data' fin' _ _ hbytes' =>
      obtain ⟨rfl, rfl⟩ := dataHead_inj hid (hids _ (List.mem_singleton.mpr rfl)) (hbytes'.symm.trans hbytes)
      refine ⟨_, List.Sublist.refl _, fun id => ?_⟩
      rw [heardData_append, heardData_pieces, ← hp, ← onStream_pieces]
      exact congrArg (onStream id) (List.append_nil _)

/-- On each stream what is told is what was read, frames apart of which nothing is told. -/
theorem Sent.tells (h : Sent P v reads blocks xs) (hids : ∀ r ∈ reads, Numbers r.1) (ha : Arrivals P v server xs es) :
    ∃ kept, kept.Sublist reads ∧ ∀ id, onStream id (heardData es) = onStream id kept := by
  induction h generalizing es with
  | nil =>
    rw [ha.none]
    exact ⟨[], List.nil_sublist _, fun _ => rfl⟩
  | @snoc reads reads' blocks blocks' xs x hxs hx ih =>
    obtain ⟨hids, hids'⟩ := List.forall_mem_append.mp hids
    obtain ⟨es1, es2, rfl, hes1, hes2⟩ := ha.last
    obtain ⟨kept, hsub, hkept⟩ := ih hids hes1
    obtain ⟨kept', hsub', hkept'⟩ := hx.tells hids' hes2
    refine ⟨kept ++ kept', hsub.append hsub', fun id => ?_⟩
    rw [heardData_append, onStream_append, onStream_append, hkept, hkept']

end

/-! The headers of the frames that are sent. -/

/-- Every frame that a session prepares is read as what it is: a control frame by its first bit and its type, and
DATA by the stream it was read for. -/
theorem frames_readable {P : Platform} {u : Setup} {s : Session} (h : Reachable P u s) (x : Transport.WireFrame)
    (hx : x ∈ preparedFrames s.sendSide.writes) :
    (∃ f, x.ctrl = some f ∧ headType x.bytes = some (frameType f) ∧ frameIsCtrlFrame (x.bytes.getD 0 0) = true) ∨
      ∃ (id : Int) (data : Bytes) (fin : Bool), x.ctrl = none ∧ (id, data) ∈ readData s.sendSide.writes ∧ Numbers id ∧
        x.bytes = dataHead id data.length fin ++ data ∧ frameIsCtrlFrame (x.bytes.getD 0 0) = false ∧
        getStreamId x.bytes = id := by
  have hctrl : ∀ {f : Frame} {hd : CtrlHd} {rest : Bytes}, hd.version < 32768 →
      framePackCtrlHd (frameType f) hd ++ rest = x.bytes →
      headType x.bytes = some (frameType f) ∧ frameIsCtrlFrame (x.bytes.getD 0 0) = true := by
    intro f hd rest hv hbytes
    have hhead : framePackCtrlHd (frameType f) hd ++ rest = framePackCtrlHd (frameType f) hd ++ rest := rfl
    rw [← hbytes]
    exact ⟨headType_pack _ _ _, (packed_head hv rfl hhead).2.1⟩
  obtain ⟨before, blocks', reads', hbegun, hreads⟩ := (prepared_of_reachable h).mem hx
  cases hbegun with
  | plain f hf hform hbytes =>
    obtain ⟨hd, rest, hv, hb⟩ := packedPlain_begins hform hbytes
    exact .inl ⟨f, hf, hctrl (by rw [hv]; exact num_lt _) hb⟩
  | headers f n nv hf hl hn hc =>
    obtain ⟨nvOffset, out, -, -, -, hbytes⟩ := hc
    obtain ⟨hd, rest, hv, hb⟩ := packedHeaders_begins hl hbytes
    exact .inl ⟨f, hf, hctrl (by rw [hv]; exact (lenSize_cases hn).2) hb⟩
  | data id data fin hf hlen hbytes =>
    have hmem := hreads _ (List.mem_singleton.mpr rfl)
    have hid := read_numbers h _ hmem
    have hhead : dataHead id data.length fin ++ data = dataHead id data.length fin ++ data := rfl
    obtain ⟨-, hclear, hword, -⟩ := data_head hid rfl hhead
    refine .inr ⟨id, data, fin, hf, hmem, hid, hbytes, ?_, ?_⟩
    · rw [hbytes]
      exact hclear
    · rw [hbytes]
      exact hword

def askingAnswers : Setup := sampleClient .int32 [.accept 1000, .accept 1000] [.data [7,8,9] true]

/-- A client that has sent a request without names and its body. -/
def askingClient : Session :=
  (askingAnswers.start peerPlatform).run peerPlatform [.submitRequest 0 [] (some 5), .send]

theorem request_readable : ∃ x y : Transport.WireFrame, preparedFrames askingClient.sendSide.writes = [x, y] ∧
    (∃ f, x.ctrl = some f ∧ headType x.bytes = some (frameType f) ∧ frameIsCtrlFrame (x.bytes.getD 0 0) = true) ∧
      ∃ (id : Int) (data : Bytes) (fin : Bool), y.ctrl = none ∧ (id, data) ∈ readData askingClient.sendSide.writes ∧
        Numbers id ∧ y.bytes = dataHead id data.length fin ++ data ∧ frameIsCtrlFrame (y.bytes.getD 0 0) = false ∧
        getStreamId y.bytes = id := by
  have hframes : ((preparedFrames askingClient.sendSide.writes).map fun x => x.ctrl.isSome) = [true, false] := by
    decide +kernel
  obtain ⟨x, ys, hxs, hx, hys⟩ := List.map_eq_cons_iff.mp hframes
  obtain ⟨y, zs, rfl, hy, hzs⟩ := List.map_eq_cons_iff.mp hys
  obtain rfl := List.map_eq_nil_iff.mp hzs
  have hreach := run_reachable peerPlatform askingAnswers [.submitRequest 0 [] (some 5), .send]
  have hmem : ∀ z, z ∈ [x, y] → z ∈ preparedFrames askingClient.sendSide.writes := fun z hz => hxs ▸ hz
  refine ⟨x, y, hxs, ?_, ?_⟩
  · rcases frames_readable hreach x (hmem x (.head _)) with hctrl | ⟨-, -, -, hnone, -⟩
    · exact hctrl
    · rw [hnone] at hx
      cases hx
  · rcases frames_readable hreach y (hmem y (.tail _ (.head _))) with ⟨f, hf, -⟩ | hdata
    · rw [hf] at hy
      cases hy
    · exact hdata

end Spdylay.Peers
