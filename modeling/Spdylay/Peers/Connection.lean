import Spdylay.Library.Link
import Spdylay.Peers.Arrivals

/-! Two sessions and the connection between them. Their calls interleave in any way, and mem_recv is
given what send_callback of the other side has accepted, in pieces of any size. -/
namespace Spdylay.Peers
open Library Session Transport Machine

/-- One end of a connection. -/
structure Peer where
  platform : Platform
  setup : Setup

namespace Peer
variable (p : Peer)

def start : Session := p.setup.start p.platform

def run (ops : List Op) : Session := p.start.run p.platform ops

def party : Link.Party Session Op UInt8 where
  step s op := s.step p.platform op
  takes op := receivedBytes [op]
  sent s := sentBytes s.sendSide.writes
  sent_grows s op := by
    obtain ⟨more, h⟩ := Protocol.turns_log_grows (step_turns p.platform s op)
    refine ⟨sentBytes (more.filter ofSending), ?_⟩
    rw [← sentBytes_append]
    change sentBytes (s.host.log.filter ofSending ++ _) = sentBytes ((s.step p.platform op).host.log.filter ofSending)
    rw [← List.filter_append, h]

theorem party_run (ops : List Op) : p.party.run p.start ops = p.run ops := by
  have hrun : ∀ s, p.party.run s ops = s.run p.platform ops := by
    induction ops with
    | nil => exact fun _ => rfl
    | cons op ops ih => exact fun s => ih (s.step p.platform op)
  exact hrun p.start

theorem takes_flatMap (ops : List Op) : ops.flatMap p.party.takes = receivedBytes ops := by
  induction ops with
  | nil => rfl
  | cons op ops ih =>
    rw [List.flatMap_cons, ih, receivedBytes_cons]
    rfl

theorem sent_start : p.party.sent p.start = [] := by
  change sentBytes (p.setup.start p.platform).sendSide.writes = []
  rw [writes_start]
  rfl

theorem run_reaches (ops : List Op) : Reachable p.platform p.setup (p.run ops) := run_reachable _ _ ops

end Peer

/-- Any interleaving of the calls of the two sides, from their start. -/
def Connected (p : Link.Side → Peer) (l : Link.State Session UInt8) : Prop :=
  Link.Steps (fun x => (p x).party) (Link.start fun x => (p x).start) l

section
variable {p : Link.Side → Peer} {l : Link.State Session UInt8}

theorem Connected.move (h : Connected p l) (x : Link.Side) (op : Op) (hop : receivedBytes [op] <+: l.way x.other) :
    Connected p (l.move (fun x => (p x).party) x op) := Relation.ReflTransGen.tail h (.move l x op hop)

/-- Each side has made its calls, and what the other has sent is what it was given and what is on the way. -/
theorem Connected.sides (h : Connected p l) : ∃ calls : Link.Side → List Op, ∀ x, l.party x = (p x).run (calls x) ∧
    sentBytes (l.party x.other).sendSide.writes = receivedBytes (calls x) ++ l.way x.other := by
  obtain ⟨calls, hdone⟩ := Link.steps_accounted (p := fun x => (p x).party) (fun x => (p x).sent_start) h
  refine ⟨calls, fun x => ⟨(hdone x).1.trans ((p x).party_run _), ?_⟩⟩
  rw [← (p x).takes_flatMap]
  exact (hdone x).2

end

/-! The frames of the sender, as the receiver cuts them. -/

section
variable {P : Platform} {u : Setup} {s : Session}

/-- The bytes sent are the first of those of the prepared frames. -/
theorem sent_begins (h : Reachable P u s) : sentBytes s.sendSide.writes <+: frameBytes (preparedFrames s.sendSide.writes) := by
  have hintact := reachable_intact h
  cases hi : s.sendSide.aob.item with
  | none =>
    rw [(hintact.idle hi).2.2]
  | some item =>
    obtain ⟨done, x, hall, -, hbytes, -, hsent⟩ := hintact.active item hi
    rw [hsent, hall, frameBytes_append, ← hbytes]
    refine (List.prefix_append_right_inj _).mpr ?_
    rw [frameBytes, List.flatMap_singleton]
    exact List.take_prefix _ _

theorem exists_frame {bytes : Bytes} (h : SelfDelimiting bytes) : ∃ frame : Spdylay.WireFrame, frame.bytes = bytes := by
  obtain ⟨hlong, hlen⟩ := h
  have hagree : Agree 4 ((bytes.take headLen).drop 4) (bytes.drop 4) := by
    rw [Agree, List.drop_take, List.take_take]
    rfl
  refine ⟨⟨bytes.take headLen, bytes.drop headLen, List.length_take_of_le hlong, ?_⟩, List.take_append_drop _ _⟩
  rw [List.length_drop, ← hlen, payloadLength, hagree.getUint32 (le_refl 4)]
  rfl

theorem exists_frames {xs : List Transport.WireFrame} (h : ∀ x ∈ xs, SelfDelimiting x.bytes) :
    ∃ frames : List Spdylay.WireFrame, frames.map Framing.Frame.bytes = xs.map Transport.WireFrame.bytes := by
  induction xs with
  | nil => exact ⟨[], rfl⟩
  | cons x xs ih =>
    obtain ⟨frames, hframes⟩ := ih (fun y hy => h y (List.mem_cons_of_mem _ hy))
    obtain ⟨frame, hframe⟩ := exists_frame (h x List.mem_cons_self)
    exact ⟨frame :: frames, by rw [List.map_cons, List.map_cons, hframe, hframes]⟩

theorem flatMap_bytes {frames : List Spdylay.WireFrame} {xs : List Transport.WireFrame}
    (h : frames.map Framing.Frame.bytes = xs.map Transport.WireFrame.bytes) :
    frames.flatMap Framing.Frame.bytes = frameBytes xs := by
  rw [frameBytes, List.flatMap_def, List.flatMap_def, h]

theorem take_next {xs rest : List Transport.WireFrame} {n : Nat} {x : Transport.WireFrame} (h : xs.drop n = x :: rest) :
    xs.take (n+1) = xs.take n ++ [x] := by
  rw [List.take_add, h]
  rfl

/-- Whatever the first bytes of a sender are cut into, it is its first frames and a part of the next. -/
theorem frames_of_bytes {xs : List Transport.WireFrame} (hx : ∀ x ∈ xs, SelfDelimiting x.bytes)
    {frames : List Spdylay.WireFrame} {part : Bytes} (hp : Framing.Unfinished headLen payloadLength part)
    (h : frames.flatMap Framing.Frame.bytes ++ part <+: frameBytes xs) :
    ∃ n, frames.map Framing.Frame.bytes = (xs.take n).map Transport.WireFrame.bytes ∧
      (part = [] ∨ ∃ x rest, xs.drop n = x :: rest ∧ part <+: x.bytes) := by
  obtain ⟨all, hall⟩ := exists_frames hx
  have hnil : Framing.Unfinished headLen payloadLength ([] : Bytes) := Framing.unfinished_nil (by decide)
  rw [← flatMap_bytes hall] at h
  have hfirst := h
  rw [← List.append_nil (all.flatMap _)] at hfirst
  obtain ⟨rest, rfl⟩ := Framing.frames_prefix hnil hfirst
  rw [List.map_append] at hall
  obtain ⟨ys, zs, rfl, hys, hzs⟩ := List.map_eq_append_iff.mp hall.symm
  have hlen : frames.length = ys.length := by
    rw [← List.length_map (f := Framing.Frame.bytes), ← hys, List.length_map]
  refine ⟨frames.length, ?_, ?_⟩
  · rw [hlen, List.take_left, hys]
  · rw [hlen, List.drop_left]
    rw [List.flatMap_append, List.prefix_append_right_inj] at h
    rcases hp.part_of_next h with hpart | ⟨g, gs, rfl, hpart⟩
    · exact .inl hpart
    · obtain ⟨x, more, rfl, hx, -⟩ := List.map_eq_cons_iff.mp hzs
      exact .inr ⟨x, more, rfl, hx ▸ hpart⟩

end

/-! What the receiver tells of. -/

/-- A direction of a connection: both sides speak the same version, and zlib of the receiver undoes what
zlib of the sender has done. -/
structure Compatible (p q : Peer) : Prop where
  version : q.setup.version = p.setup.version
  sorts : StableSort.Sorts p.platform.qsort
  sorts' : StableSort.Sorts q.platform.qsort
  restores : Restores p.platform q.platform p.setup.version

/-- No frame was dropped when its block had gone through the compressor, and no CREDENTIAL is too large
for its length field. -/
structure Unspoilt (P : Platform) (w : SendSide) : Prop where
  inStep : Transport.InStep P w
  lengths : ∀ x ∈ preparedFrames w.writes, lengthFits x.ctrl

section
variable {p q : Peer} {s : Session}

theorem deflated_length (P : Platform) (before blocks : List Bytes) : (deflatedAfter P before blocks).length = blocks.length := by
  induction blocks generalizing before with
  | nil => rfl
  | cons block blocks ih => exact congrArg (· + 1) (ih _)

/-- No block is without its frame. -/
theorem Unspoilt.sent (h : Reachable p.platform p.setup s) (hs : Unspoilt p.platform s.sendSide) :
    Sent p.platform p.setup.version (readData s.sendSide.writes) s.sendSide.hdDeflater (preparedFrames s.sendSide.writes) := by
  apply (prepared_of_reachable h).sent.2
  have hlen := congrArg List.length hs.inStep
  rw [deflated, deflated_length, List.length_map] at hlen
  exact le_of_eq hlen

theorem Unspoilt.delimited (hq : StableSort.Sorts p.platform.qsort) (h : Reachable p.platform p.setup s)
    (hs : Unspoilt p.platform s.sendSide) : ∀ x ∈ preparedFrames s.sendSide.writes, SelfDelimiting x.bytes :=
  fun x hx => (reachable_delimited hq h x hx).mpr (hs.lengths x hx)

/-- The blocks of the first frames of the sender come through the inflater. -/
theorem Compatible.inflates (hc : Compatible p q) (h : Reachable p.platform p.setup s) (hs : Unspoilt p.platform s.sendSide)
    {frames : List Spdylay.WireFrame} {n : Nat}
    (hb : frames.map Framing.Frame.bytes = ((preparedFrames s.sendSide.writes).take n).map Transport.WireFrame.bytes) :
    ∃ blocks, blocks <+: s.sendSide.hdDeflater ∧
      Transducer.run (q.platform.push p.setup.version) [] (frames.flatMap WireFrame.block) = some blocks.flatten := by
  obtain ⟨reads, blocks, hfirst, hreads, hblocks⟩ := (hs.sent h).take n
  refine ⟨blocks, hblocks, ?_⟩
  rw [hfirst.blocks_eq (fun r hr => read_numbers h r (hreads.subset hr)) hb]
  exact hfirst.inflated hc.restores

theorem Compatible.not_broken (hc : Compatible p q) (h : Reachable p.platform p.setup s) (hs : Unspoilt p.platform s.sendSide)
    {received : Bytes} (hr : received <+: sentBytes s.sendSide.writes) : ¬ Broken q.platform q.setup.version received := by
  rintro ⟨frames, rest, rfl, hrun⟩
  have hall := ((List.prefix_append _ rest).trans hr).trans (sent_begins h)
  rw [← List.append_nil (frames.flatMap _)] at hall
  obtain ⟨n, hb, -⟩ := frames_of_bytes (hs.delimited hc.sorts h) (Framing.unfinished_nil (by decide)) hall
  obtain ⟨blocks, -, hblocks⟩ := hc.inflates h hs hb
  rw [hc.version, hblocks] at hrun
  cases hrun

/-- What a receiver has told of when it was given the first bytes of a sender. -/
theorem Compatible.told (hc : Compatible p q) (h : Reachable p.platform p.setup s) (hs : Unspoilt p.platform s.sendSide)
    {ops : List Op} (hr : receivedBytes ops <+: sentBytes s.sendSide.writes) (hclean : failures (q.run ops).host.log = []) :
    ∃ (n : Nat) (es es' : List Event), (q.run ops).heard = es ++ es' ∧
      Arrivals p.platform p.setup.version q.setup.server ((preparedFrames s.sendSide.writes).take n) es ∧
      Underway ((preparedFrames s.sendSide.writes).drop n) es' := by
  have hsent := hs.sent h
  have hids := read_numbers h
  have hears := (received_reported q.platform q.setup ops hclean).resolve_left (hc.not_broken h hs hr)
  obtain ⟨frames, part, es, es', hreceived, hpart, hheard, hreports, htold⟩ :=
    hears.cut (run_frameOk q.platform (frameOk_start _ _) ops)
  rw [hreceived] at hr
  obtain ⟨n, hb, hnext⟩ := frames_of_bytes (hs.delimited hc.sorts h) hpart (hr.trans (sent_begins h))
  obtain ⟨reads, blocks, hfirst, hreads, -⟩ := hsent.take n
  refine ⟨n, es, es', hheard, ?_, ?_⟩
  · rw [hc.version] at hreports
    exact hfirst.arrivals hc.sorts hc.sorts' hc.restores (fun r hr => hids r (hreads.subset hr))
      (fun x hx => hs.lengths x (List.mem_of_mem_take hx)) hb hreports
  · rcases hnext with rfl | ⟨x, rest, hdrop, hx⟩
    · rcases htold with rfl | ⟨hlong, -⟩
      · exact .nothing _
      · cases hlong
    · obtain ⟨before, blocks', reads', hbegun, hreads'⟩ := (prepared_of_reachable h).mem (List.mem_of_mem_drop (hdrop ▸ List.mem_cons_self))
      rw [hdrop]
      exact hbegun.underway (fun r hr => hids r (hreads' r hr)) hx htold rest

/-- Everything has been told of when all bytes of all frames have been received. -/
theorem Compatible.told_all (hc : Compatible p q) (h : Reachable p.platform p.setup s) (hs : Unspoilt p.platform s.sendSide)
    {ops : List Op} (hr : receivedBytes ops = sentBytes s.sendSide.writes) (hidle : s.aob.item = none)
    (hclean : failures (q.run ops).host.log = []) : Arrivals p.platform p.setup.version q.setup.server
      (preparedFrames s.sendSide.writes) (q.run ops).heard := by
  have hpre : receivedBytes ops <+: sentBytes s.sendSide.writes := hr ▸ List.prefix_refl _
  obtain ⟨all, hall⟩ := exists_frames (hs.delimited hc.sorts h)
  have hears := (received_reported q.platform q.setup ops hclean).resolve_left (hc.not_broken h hs hpre)
  obtain ⟨frames, part, es, es', hreceived, hpart, hheard, hreports, htold⟩ :=
    hears.cut (run_frameOk q.platform (frameOk_start _ _) ops)
  rw [hr, ((reachable_intact h).idle hidle).2.2, ← flatMap_bytes hall, ← List.append_nil (all.flatMap _)] at hreceived
  obtain ⟨rfl, rfl⟩ := Framing.frames_unique (Framing.unfinished_nil (by decide)) hpart hreceived
  have hnone : es' = [] := by
    rcases htold with hnone | ⟨hlong, -⟩
    · exact hnone
    · cases hlong
  have hall' : (q.run ops).heard = es := hheard.trans (by rw [hnone, List.append_nil])
  rw [hall']
  rw [hc.version] at hreports
  exact (hs.sent h).arrivals hc.sorts hc.sorts' hc.restores (read_numbers h) hs.lengths hall hreports

/-- On each stream it has told of what the sender has read for it: some of the buffers, in their order and
each as a whole but for the last one. -/
theorem Compatible.told_data (hc : Compatible p q) (h : Reachable p.platform p.setup s) (hs : Unspoilt p.platform s.sendSide)
    {ops : List Op} (hr : receivedBytes ops <+: sentBytes s.sendSide.writes) (hclean : failures (q.run ops).host.log = []) :
    ∃ (kept : List (Int × Bytes)) (id : Int) (data part : Bytes), part <+: data ∧
      (kept.Sublist (readData s.sendSide.writes) ∧ part = [] ∨ (kept ++ [(id, data)]).Sublist (readData s.sendSide.writes)) ∧
      ∀ id', onStream id' (heardData (q.run ops).heard) = onStream id' (kept ++ [(id, part)]) := by
  have hids := read_numbers h
  obtain ⟨n, es, es', hheard, harrivals, hunder⟩ := hc.told h hs hr hclean
  obtain ⟨ys, hys⟩ : ∃ ys, (preparedFrames s.sendSide.writes).drop n = ys := ⟨_, rfl⟩
  rw [hys] at hunder
  rw [hheard]
  cases hunder with
  | nothing =>
    obtain ⟨reads, blocks, hfirst, hreads, -⟩ := (hs.sent h).take n
    obtain ⟨kept, hsub, hkept⟩ := hfirst.tells (fun r hr => hids r (hreads.subset hr)) harrivals
    refine ⟨kept, 0, [], [], List.prefix_refl _, .inl ⟨hsub.trans hreads.sublist, rfl⟩, fun id' => ?_⟩
    rw [List.append_nil, hkept, onStream_append]
    simp [onStream]
  | @chunks rest x id data fin pieces hf hid hbytes hpart =>
    obtain ⟨reads, blocks, hfirst, hreads, -⟩ := (hs.sent h).take (n+1)
    rw [take_next hys] at hfirst
    obtain ⟨reads1, reads2, blocks1, blocks2, rfl, hbefore, hbegun⟩ := hfirst.last
    have hids' : ∀ r ∈ reads1 ++ reads2, Numbers r.1 := fun r hr => hids r (hreads.subset hr)
    obtain ⟨hids1, hids2⟩ := List.forall_mem_append.mp hids'
    obtain ⟨kept, hsub, hkept⟩ := hbefore.tells hids1 harrivals
    cases hbegun with
    | plain f hf' _ _ => cases hf.symm.trans hf'
    | headers f n nv hf' _ _ _ => cases hf.symm.trans hf'
    | data id' data' fin' _ _ hbytes' =>
      obtain ⟨rfl, rfl⟩ := dataHead_inj hid (hids2 _ (List.mem_singleton.mpr rfl)) (hbytes'.symm.trans hbytes)
      refine ⟨kept, _, _, pieces.flatten, hpart, .inr ((hsub.append (List.Sublist.refl _)).trans hreads.sublist), fun id' => ?_⟩
      rw [heardData_append, onStream_append, onStream_append, hkept, heardData_pieces, onStream_pieces]

end

/-! A connection: a client asks a server, which has received the request and the first byte of its body. -/

theorem blockPlatform_restores {block out : Bytes} {steps : List (Nat × Bytes)} {v : Version}
    (h : Transducer.run ((blockPlatform block out steps).push v) [] out = some block) :
    Restores (blockPlatform block out steps) (blockPlatform block out steps) v := by
  intro blocks outs b o hd hout
  change (if blocks = [] ∧ b = block then some out else none) = some o at hout
  split at hout
  · rename_i hfirst
    obtain ⟨rfl, rfl⟩ := hfirst
    cases hout
    obtain rfl := List.map_eq_nil_iff.mp hd.symm
    exact h
  · cases hout

def pairBlock : Bytes := [56,234,227,198,167,194,2,166,35,70,16,6,37,108,198,36,0,0,0,0,255,255]

/-- zlib's answers for the one header `a: b`. -/
def pairPlatform : Platform := blockPlatform [0,0,0,1,0,0,0,1,97,0,0,0,1,98] pairBlock
  [(8,[0,0,0]), (9,[1]), (11,[0,0,0,1]), (13,[97,0,0,0]), (14,[1]), (15,[98])]

def talking : Link.Side → Peer
  | .left => ⟨pairPlatform, sampleClient .int32 [.accept 12, .accept 1000, .accept 1000] [.data [7,8,9] true]⟩
  | .right => ⟨pairPlatform, sampleServer [] []⟩

def talkingBytes : Bytes := [128,3,0,1,0,0,0,32,0,0,0,1,0,0,0,0,0,0] ++ pairBlock ++ [0,0,0,1,1,0,0,3,7,8,9]

/-- The client submits a request with a body and sends them, in two pieces. The server is given other pieces. -/
def talked : Link.State Session UInt8 :=
  ((((Link.start fun x => (talking x).start).move (fun x => (talking x).party) .left (.submitRequest 0 [[97],[98]] (some 5))).move
    (fun x => (talking x).party) .left .send).move (fun x => (talking x).party) .right (.memRecv (talkingBytes.take 20))).move
    (fun x => (talking x).party) .right (.memRecv ((talkingBytes.drop 20).take 29))

theorem talked_connected : Connected talking talked := by
  have hstart : Connected talking (Link.start fun x => (talking x).start) := .refl
  have hsubmitted := hstart.move .left (.submitRequest 0 [[97],[98]] (some 5)) List.nil_prefix
  have hsent := hsubmitted.move .left .send List.nil_prefix
  have hfirst := hsent.move .right (.memRecv (talkingBytes.take 20)) (by decide +kernel)
  exact hfirst.move .right (.memRecv ((talkingBytes.drop 20).take 29)) (by decide +kernel)

theorem talking_compatible : Compatible (talking .left) (talking .right) :=
  ⟨rfl, StableSort.insertionSort_stably.toSorts, StableSort.insertionSort_stably.toSorts, blockPlatform_restores (by decide +kernel)⟩

instance (f : Option Frame) : Decidable (lengthFits f) := by
  unfold lengthFits
  split <;> infer_instance

theorem talked_result :
    (deflated pairPlatform (talked.party .left).sendSide.hdDeflater = (sentBlocks (talked.party .left).sendSide.writes).map some ∧
      ∀ x ∈ preparedFrames (talked.party .left).sendSide.writes, lengthFits x.ctrl) ∧
    failures (talked.party .right).host.log = [] ∧
    (talked.party .right).heard =
      [.ctrlRecv (.synStream ⟨⟨3, 0, 32⟩, 1, 0, 0, 0, [([97], [98])]⟩), .frameDone, .dataChunkRecv 1 1 [7]] ∧
    onStream 1 (heardData (talked.party .right).heard) = [7] ∧
    (talked.party .right).hdInflater = ⟨pairBlock, false⟩ := by
  decide +kernel

theorem talked_unspoilt : Unspoilt pairPlatform (talked.party .left).sendSide := by
  obtain ⟨⟨hinStep, hlengths⟩, -⟩ := talked_result
  exact ⟨hinStep, hlengths⟩

theorem talked_clean : failures (talked.party .right).host.log = [] := talked_result.2.1

/-! The connection. -/

section
variable {p : Link.Side → Peer} {l : Link.State Session UInt8}

/-- However the calls of the two sides interleave, and whatever pieces the bytes are sent and received in: what
a side has told of are the first frames of the other, frame after frame and field by field, and DATA of the next one. -/
theorem connection_told (h : Connected p l) (x : Link.Side) (hc : Compatible (p x.other) (p x))
    (hs : Unspoilt (p x.other).platform (l.party x.other).sendSide) (hclean : failures (l.party x).host.log = []) :
    ∃ (n : Nat) (es es' : List Event), (l.party x).heard = es ++ es' ∧
      Arrivals (p x.other).platform (p x.other).setup.version (p x).setup.server
        ((preparedFrames (l.party x.other).sendSide.writes).take n) es ∧
      Underway ((preparedFrames (l.party x.other).sendSide.writes).drop n) es' := by
  obtain ⟨calls, hsides⟩ := h.sides
  obtain ⟨hx, hr⟩ := hsides x
  obtain ⟨hy, -⟩ := hsides x.other
  rw [hx] at hclean ⊢
  rw [hy] at hs hr ⊢
  exact hc.told ((p x.other).run_reaches _) hs ⟨_, hr.symm⟩ hclean

theorem talked_told : (talked.party .right).heard =
      [.ctrlRecv (.synStream ⟨⟨3, 0, 32⟩, 1, 0, 0, 0, [([97], [98])]⟩), .frameDone, .dataChunkRecv 1 1 [7]] ∧
    ∃ (n : Nat) (es es' : List Event), (talked.party .right).heard = es ++ es' ∧
      Arrivals pairPlatform .spdy3 true ((preparedFrames (talked.party .left).sendSide.writes).take n) es ∧
      Underway ((preparedFrames (talked.party .left).sendSide.writes).drop n) es' := by
  obtain ⟨-, -, hheard, -⟩ := talked_result
  exact ⟨hheard, connection_told talked_connected .right talking_compatible talked_unspoilt talked_clean⟩

/-- When nothing is on the way and the other side is between two frames, a side has told of all its frames. -/
theorem connection_told_all (h : Connected p l) (x : Link.Side) (hc : Compatible (p x.other) (p x))
    (hs : Unspoilt (p x.other).platform (l.party x.other).sendSide) (hclean : failures (l.party x).host.log = [])
    (hway : l.way x.other = []) (hidle : (l.party x.other).aob.item = none) :
    Arrivals (p x.other).platform (p x.other).setup.version (p x).setup.server
      (preparedFrames (l.party x.other).sendSide.writes) (l.party x).heard := by
  obtain ⟨calls, hsides⟩ := h.sides
  obtain ⟨hx, hr⟩ := hsides x
  obtain ⟨hy, -⟩ := hsides x.other
  rw [hway, List.append_nil] at hr
  rw [hx] at hclean ⊢
  rw [hy] at hs hr hidle ⊢
  exact hc.told_all ((p x.other).run_reaches _) hs hr.symm hidle hclean

/-- The last two bytes. -/
def finished : Link.State Session UInt8 := talked.move (fun x => (talking x).party) .right (.memRecv [8,9])

theorem finished_result : receivedBytes [.memRecv [8,9]] <+: talked.way .left ∧
    (finished.party .left).aob.item.isNone ∧ failures (finished.party .right).host.log = [] ∧ finished.way .left = [] ∧
    (finished.party .right).heard = [.ctrlRecv (.synStream ⟨⟨3, 0, 32⟩, 1, 0, 0, 0, [([97], [98])]⟩), .frameDone,
      .dataChunkRecv 1 1 [7], .dataChunkRecv 1 1 [8,9], .frameDone] := by
  decide +kernel

theorem finished_connected : Connected talking finished :=
  talked_connected.move .right (.memRecv [8,9]) finished_result.1

theorem finished_unspoilt : Unspoilt pairPlatform (finished.party .left).sendSide := by
  rw [finished, Link.State.move_party _ _ _ (by decide)]
  exact talked_unspoilt

theorem finished_idle : (finished.party .left).aob.item = none := Option.isNone_iff_eq_none.mp finished_result.2.1

theorem finished_clean : failures (finished.party .right).host.log = [] := finished_result.2.2.1

theorem finished_told : (finished.party .right).heard = [.ctrlRecv (.synStream ⟨⟨3, 0, 32⟩, 1, 0, 0, 0, [([97], [98])]⟩), .frameDone,
      .dataChunkRecv 1 1 [7], .dataChunkRecv 1 1 [8,9], .frameDone] ∧
    Arrivals pairPlatform .spdy3 true (preparedFrames (finished.party .left).sendSide.writes) (finished.party .right).heard := by
  obtain ⟨-, -, -, hway, hheard⟩ := finished_result
  exact ⟨hheard, connection_told_all finished_connected .right talking_compatible finished_unspoilt finished_clean
    hway finished_idle⟩

/-- On each stream a side has told of what the other has read for it: some of the buffers, in their order, each
as a whole but perhaps for the last. -/
theorem connection_data (h : Connected p l) (x : Link.Side) (hc : Compatible (p x.other) (p x))
    (hs : Unspoilt (p x.other).platform (l.party x.other).sendSide) (hclean : failures (l.party x).host.log = []) :
    ∃ (kept : List (Int × Bytes)) (id : Int) (data part : Bytes), part <+: data ∧
      (kept.Sublist (readData (l.party x.other).sendSide.writes) ∧ part = [] ∨
        (kept ++ [(id, data)]).Sublist (readData (l.party x.other).sendSide.writes)) ∧
      ∀ id', onStream id' (heardData (l.party x).heard) = onStream id' (kept ++ [(id, part)]) := by
  obtain ⟨calls, hsides⟩ := h.sides
  obtain ⟨hx, hr⟩ := hsides x
  obtain ⟨hy, -⟩ := hsides x.other
  rw [hx] at hclean ⊢
  rw [hy] at hs hr ⊢
  exact hc.told_data ((p x.other).run_reaches _) hs ⟨_, hr.symm⟩ hclean

theorem talked_data : onStream 1 (heardData (talked.party .right).heard) = [7] ∧
    ∃ (kept : List (Int × Bytes)) (id : Int) (data part : Bytes), part <+: data ∧
      (kept.Sublist (readData (talked.party .left).sendSide.writes) ∧ part = [] ∨
        (kept ++ [(id, data)]).Sublist (readData (talked.party .left).sendSide.writes)) ∧
      ∀ id', onStream id' (heardData (talked.party .right).heard) = onStream id' (kept ++ [(id, part)]) := by
  obtain ⟨-, -, -, hstream, -⟩ := talked_result
  exact ⟨hstream, connection_data talked_connected .right talking_compatible talked_unspoilt talked_clean⟩

end

end Spdylay.Peers
