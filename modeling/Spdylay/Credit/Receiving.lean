import Spdylay.Credit.Calm
import Spdylay.Machine.TruncatedHeaders
import Spdylay.Wire.FixedFrames

/-! Received DATA and the receive window: the bytes of a chunk are counted once, and
what has been counted is given back when it comes to half the initial window. -/
namespace Spdylay
open Library Machine

/-- What the code makes of `n` more bytes in a window of `r`: the window afterwards and
the credit it gives back. -/
def CreditSide.tally (w : CreditSide) (r : Int) (n : Nat) : Int × Option Int :=
  let size := if int32Max-n < r then int32Max else r+n
  if !w.noAutoWindowUpdate ∧ (w.localSettings settingsInitialWindowSize : Int) ≤ size*2 % 18446744073709551616 then
    (0,some size)
  else (size,none)

/-- DATA frames have no name/value block. -/
def InboundFrame.Blockless (f : InboundFrame) : Prop :=
  f.state ≠ .head → f.isCtrl = false → f.state ≠ .payloadPreNv ∧ f.state ≠ .payloadNv

namespace Session

/-- No allocation fails. -/
def Ample (s : Session) : Prop := ∀ ok ∈ s.host.mem, ok = true

theorem Ample.of_suffix {s s' : Session} (h : Ample s) (hm : s'.host.mem <:+ s.host.mem) : Ample s' :=
  fun ok hok => h ok (hm.subset hok)

variable {P : Platform} {s : Session}

/-! Giving credit back. -/

theorem pqPush_ample {m : Mem} (h : ∀ ok ∈ m, ok = true) (pq : Pq) (item : OutboundItem) :
    ∃ m' pq', pqPush m pq item = (m',some pq') := by
  rw [pqPush]
  split
  · rw [if_pos (headD_true h)]
    exact ⟨_,_,rfl⟩
  · exact ⟨_,_,rfl⟩

theorem addFrame_ample (h : Ample s) (frame : OutFrame) (aux : Option DataProvider) :
    (s.addFrame frame aux).2 = none := by
  have hpush : ∀ (t : Session) (item : OutboundItem), Ample t → (t.pushItem item).2 = none := by
    intro t item ht
    rw [pushItem,pushObSs,pushOb]
    split
    · obtain ⟨m',pq',heq⟩ := pqPush_ample ht t.obSsPq item
      rw [heq]
    · obtain ⟨m',pq',heq⟩ := pqPush_ample ht t.obPq item
      rw [heq]
  have hmark : Ample (({s.malloc with nextSeq := s.nextSeq+1}).markClosing frame) := by
    refine h.of_suffix ?_
    have hm := (markClosing_changes samplePlatform {s.malloc with nextSeq := s.nextSeq+1} frame).calm.mem
    exact hm.trans (List.tail_suffix _)
  have hok : s.mallocOk = true := headD_true h
  rw [addFrame,if_pos hok]
  dsimp only
  rw [hpush _ _ hmark]

/-- Credit given back is queued once and changes no window. -/
theorem addWindowUpdate_gives (h : Ample s) (id delta : Int) : ∃ item : OutboundItem,
    item.frame = .ctrl (.windowUpdate (frameWindowUpdateInit s.version.num id delta)) ∧
      (s.addWindowUpdate id delta).2 = none ∧
      Credits (fun _ r => r) [.accepted item] s (s.addWindowUpdate id delta).1 := by
  have hm := (malloc_changes samplePlatform s).calm
  have hok : s.mallocOk = true := headD_true h
  let frame : OutFrame := .ctrl (.windowUpdate (frameWindowUpdateInit s.version.num id delta))
  have hadd := addFrame_ample (h.of_suffix hm.mem) frame none
  refine ⟨s.malloc.newItem frame none,rfl,?_⟩
  rw [addWindowUpdate,addCtrl,if_pos hok]
  obtain ⟨s1,hc,heq | ⟨e,heq⟩⟩ := addFrame_reported samplePlatform s.malloc frame none
  · have hnote : Credits (fun _ r => r) [.accepted (s.malloc.newItem frame none)] s1
        (s1.emit (.accepted (s.malloc.newItem frame none))) := .same (creditSide_notes s1 _ rfl) rfl List.suffix_rfl
    rw [heq]
    exact ⟨rfl,(hm.calm hc.calm).trans hnote⟩
  · rw [heq] at hadd
    cases hadd

/-! Counting bytes. -/

/-- What a pass of the receive loop does to the receive windows. -/
inductive Receives (s s' : Session) : Prop
  | opens : Opens s s' → Receives s s'
  | uncounted (flags : Nat) (id : Int) (data : Bytes) :
      s.flowControl = false ∨ data = [] ∨ flagFin flags = true ∨ s.getStream id = none →
      Credits (fun _ r => r) [.dataChunkRecv flags id data] s s' → Receives s s'
  | counted (flags : Nat) (id : Int) (data : Bytes) (st : Stream) (r : Int) : data ≠ [] → s.getStream id = some st →
      s.creditSide.tally st.recvWindowSize data.length = (r,none) →
      Credits (fun k r' => if id = k then r else r') [.dataChunkRecv flags id data] s s' → Receives s s'
  | givenBack (flags : Nat) (id : Int) (data : Bytes) (st : Stream) (delta : Int) (item : OutboundItem) :
      data ≠ [] → s.getStream id = some st → s.creditSide.tally st.recvWindowSize data.length = (0,some delta) →
      item.frame = .ctrl (.windowUpdate (frameWindowUpdateInit s.version.num id delta)) →
      Credits (fun k r => if id = k then 0 else r) [.dataChunkRecv flags id data,.accepted item] s s' → Receives s s'

theorem Receives.calm {s' s2 : Session} (h : Receives s s') (h' : Calm s' s2) : Receives s s2 := by
  cases h with
  | opens h => exact .opens (h.calm h')
  | uncounted flags id data hu h => exact .uncounted flags id data hu (h.calm h')
  | counted flags id data st r hne hst ht h => exact .counted flags id data st r hne hst ht (h.calm h')
  | givenBack flags id data st delta item hne hst ht hi h =>
    exact .givenBack flags id data st delta item hne hst ht hi (h.calm h')

theorem Receives.after {s0 s' : Session} (hw : s.watched = s0.watched) (hm : s.host.mem <:+ s0.host.mem)
    (h : Receives s s') : Receives s0 s' := by
  have hc : Calm s0 s := .of_watched hw hm
  have hs : s.streams = s0.streams := congrArg Watched.streams hw
  have hside : s.creditSide = s0.creditSide := hc.side.trans (CreditSide.notes_nil _)
  have hget : ∀ id, s.getStream id = s0.getStream id := by
    intro id
    rw [getStream,getStream,hs]
  cases h with
  | opens h => exact .opens (.after hc hs h)
  | uncounted flags id data hu h =>
    refine .uncounted flags id data ?_ (hc.trans h)
    rw [hget,show s.flowControl = s0.flowControl from congrArg Watched.flowControl hw] at hu
    exact hu
  | counted flags id data st r hne hst ht h =>
    rw [hget] at hst
    rw [hside] at ht
    exact .counted flags id data st r hne hst ht (hc.trans h)
  | givenBack flags id data st delta item hne hst ht hi h =>
    rw [hget] at hst
    rw [hside] at ht
    rw [show s.version = s0.version from congrArg Watched.version hw] at hi
    exact .givenBack flags id data st delta item hne hst ht hi (hc.trans h)

/-- Counting `n` bytes for a stream that is there. -/
theorem updateRecvWindowSize_spec (ha : Ample s) {id : Int} {st : Stream} (hst : s.getStream id = some st) (n : Nat) :
    (∃ r, s.creditSide.tally st.recvWindowSize n = (r,none) ∧ s.updateRecvWindowSize id n =
        ((s.updateRecvWindowSize id n).1,none) ∧
        Credits (fun k r' => if id = k then r else r') [] s (s.updateRecvWindowSize id n).1) ∨
    ∃ delta item, s.creditSide.tally st.recvWindowSize n = (0,some delta) ∧
      item.frame = .ctrl (.windowUpdate (frameWindowUpdateInit s.version.num id delta)) ∧
      s.updateRecvWindowSize id n = ((s.updateRecvWindowSize id n).1,none) ∧
      Credits (fun k r => if id = k then 0 else r) [.accepted item] s (s.updateRecvWindowSize id n).1 := by
  have hset : ∀ (t : Session) (r : Int), Credits (fun k r' => if id = k then r else r') [] t
      (t.modifyStream id (fun st => {st with recvWindowSize := r})) :=
    fun t r => credits_modifyStream t id _ _ (fun _ => r) (fun _ => rfl) (fun _ h => h)
  simp only [updateRecvWindowSize,hst,CreditSide.tally]
  generalize (if int32Max-n < st.recvWindowSize then int32Max else st.recvWindowSize+n) = size
  have h1 := hset s size
  by_cases hback : (!s.noAutoWindowUpdate) = true ∧
      (s.localSettings settingsInitialWindowSize : Int) ≤ size*2 % 18446744073709551616
  · refine .inr ?_
    have hback1 : (!s.creditSide.noAutoWindowUpdate) = true ∧
      (s.creditSide.localSettings settingsInitialWindowSize : Int) ≤ size*2 % 18446744073709551616 := hback
    have hback2 : (!(s.modifyStream id (fun st => {st with recvWindowSize := size})).noAutoWindowUpdate) = true ∧
      ((s.modifyStream id (fun st => {st with recvWindowSize := size})).localSettings settingsInitialWindowSize : Int) ≤
        size*2 % 18446744073709551616 := hback
    obtain ⟨item,hi,hok,hg⟩ := addWindowUpdate_gives (ha.of_suffix h1.mem) id size
    rw [if_pos hback1,if_pos hback2,hok]
    refine ⟨size,item,rfl,hi,rfl,?_⟩
    have h3 := (h1.trans hg).trans (hset _ 0)
    have hg' : (fun k r => if id = k then 0 else if id = k then size else r) = fun k r : Int => if id = k then 0 else r := by
      funext k r
      split <;> rfl
    rw [← hg']
    exact h3
  · refine .inl ⟨size,?_⟩
    have hback1 : ¬((!s.creditSide.noAutoWindowUpdate) = true ∧
      (s.creditSide.localSettings settingsInitialWindowSize : Int) ≤ size*2 % 18446744073709551616) := hback
    have hback2 : ¬((!(s.modifyStream id (fun st => {st with recvWindowSize := size})).noAutoWindowUpdate) = true ∧
      ((s.modifyStream id (fun st => {st with recvWindowSize := size})).localSettings settingsInitialWindowSize : Int) ≤
        size*2 % 18446744073709551616) := hback
    rw [if_neg hback1,if_neg hback2]
    exact ⟨rfl,rfl,h1⟩

/-! A pass over the payload. -/

theorem openReceived_opens (P : Platform) (f : SynStream) : Opens s (s.openReceived f) := by
  have h := openStream_opens s f.streamId f.hd.flags f.pri .opening
  rw [openReceived]
  split
  · exact (Calm.refl s).opens
  · generalize s.openStream f.streamId f.hd.flags f.pri .opening = o at h
    dsimp only
    split
    · have hr := h.calm (shutRdIf_changes P o.1 (flagFin f.hd.flags = true) f.streamId).calm
      exact hr.calm (shutWrIf_changes P _ (flagUnidirectional f.hd.flags = true) f.streamId).calm
    · exact h

theorem acceptSynStream_opens (P : Platform) (f : SynStream) : Opens s (s.acceptSynStream f) := by
  have h := (openReceived_opens (s := s) P f).calm (calm_emit _ (.ctrlRecv (.synStream f)) rfl)
  rw [acceptSynStream]
  dsimp only
  split
  · have h1 := h.calm (calm_emit _ (.requestRecv f.streamId) rfl)
    split
    · exact h1.calm (calm_emit _ _ rfl)
    · exact h1
  · exact h

theorem onSynStreamReceived_opens (P : Platform) (f : SynStream) : Opens s (s.onSynStreamReceived f).1 := by
  have hseen : Calm s {s with lastRecvStreamId := f.streamId} := .same rfl rfl List.suffix_rfl
  rw [onSynStreamReceived]
  split
  · exact (Calm.refl s).opens
  · split
    · exact (handleInvalidStream_changes P s _ _ _).calm.opens
    · split
      · exact ((calm_emit s _ rfl).calm (failSession_changes P _ _).calm).opens
      · dsimp only
        split
        · exact Opens.after hseen rfl (acceptSynStream_opens P f)
        · exact (hseen.calm (handleInvalidStream_changes P _ _ _ _).calm).opens

theorem dispatchCtrlFrame_opens (P : Platform) (s : Session) : Opens s (s.dispatchCtrlFrame P).1 := by
  by_cases h : FrameType.ofNum (getUint16 (s.iframe.headbuf.drop 2)) = some .synStream
  · obtain ⟨hw,hm⟩ := parseSynStream_same P s
    have hc := Calm.of_watched hw hm
    rw [dispatchCtrlFrame,h]
    dsimp only
    rw [processSynStream]
    dsimp only
    split
    · exact Opens.after hc (congrArg Watched.streams hw) (onSynStreamReceived_opens P _)
    · exact (hc.calm (handleHeadersError_changes P _ _ _ _ _).calm).opens
  · exact (dispatchCtrlFrame_changes P s h).calm.opens

theorem reset_calm (s : Session) : Calm s ({s with iframe := s.iframe.reset}.emit .frameDone) :=
  Credits.calm (.same rfl rfl List.suffix_rfl : Calm s {s with iframe := s.iframe.reset}) (calm_emit _ _ rfl)

theorem endFrame_opens (P : Platform) (s : Session) : Opens s (s.endFrame P).1 := by
  have hframe : Opens s (if s.iframe.isCtrl then s.processCtrlFrame P else s.processDataFrame).1 := by
    split
    · rw [processCtrlFrame,onlyFatal_fst]
      exact dispatchCtrlFrame_opens P s
    · exact (processDataFrame_changes P s).calm.opens
  rw [endFrame]
  split
  · exact (Calm.refl s).opens
  split
  · dsimp only
    split
    · exact hframe.calm (reset_calm _)
    · exact hframe
  · exact (Calm.refl s).opens

theorem endFrame_calm (P : Platform) (s : Session) (h : s.iframe.isCtrl = false) : Calm s (s.endFrame P).1 := by
  have hframe := (processDataFrame_changes P s).calm
  rw [endFrame,h]
  split
  · exact .refl s
  split
  · dsimp only
    split
    · exact hframe.calm (reset_calm _)
    · exact hframe
  · exact .refl s

/-- Reading a chunk does not move to another part of the frame. -/
theorem recvChunk_place (P : Platform) (s : Session) (chunk : Bytes) :
    (s.recvChunk P chunk).iframe.headbuf = s.iframe.headbuf ∧ (s.recvChunk P chunk).iframe.state = s.iframe.state := by
  have hi : (s.inflateChunk P chunk).iframe.headbuf = s.iframe.headbuf ∧
      (s.inflateChunk P chunk).iframe.state = s.iframe.state := by
    rw [inflateChunk]
    split <;> exact ⟨rfl,rfl⟩
  rw [recvChunk]
  dsimp only
  split
  · exact hi
  · split_ifs <;> exact ⟨rfl,rfl⟩

theorem recvChunk_other (P : Platform) (s : Session) (chunk : Bytes)
    (h : s.iframe.isCtrl = true ∨ s.iframe.state = .payloadIgn) :
    (s.recvChunk P chunk).watched = s.watched ∧ (s.recvChunk P chunk).host.mem <:+ s.host.mem := by
  have hi := inflateChunk_same P s chunk
  rw [recvChunk]
  dsimp only
  split
  · exact hi
  · split
    · split <;> exact ⟨rfl,List.suffix_rfl⟩
    · rename_i hc
      rw [if_pos (h.resolve_left hc)]
      exact ⟨rfl,List.suffix_rfl⟩

theorem creditChunk_other {n : Nat} (h : s.iframe.isCtrl = true ∨ s.iframe.state = .payloadIgn) :
    s.creditChunk n = (s,none) := by
  rw [creditChunk]
  refine if_neg ?_
  rintro ⟨-,hign,hc,-⟩
  rcases h with h | h
  · rw [h] at hc
    cases hc
  · exact hign h

/-- A chunk of a DATA frame is reported, then counted. -/
theorem chunk_receives (P : Platform) (ha : Ample s) (hc : s.iframe.isCtrl = false) (hn : s.iframe.state ≠ .payloadNv)
    (hign : s.iframe.state ≠ .payloadIgn) (chunk : Bytes) :
    Receives s ((s.recvChunk P chunk).creditChunk chunk.length).1 := by
  have heq : s.recvChunk P chunk = {s.emit (.dataChunkRecv (s.iframe.headbuf.getD 4 0).toNat
      (getStreamId s.iframe.headbuf) chunk) with iframe := {s.iframe with off := s.iframe.off+chunk.length}} := by
    rw [recvChunk,if_neg hn,hc,if_neg Bool.false_ne_true,if_neg hign]
    rfl
  generalize hf : (s.iframe.headbuf.getD 4 0).toNat = flags at heq
  generalize hid : getStreamId s.iframe.headbuf = id at heq
  have hrep : Credits (fun _ r => r) [.dataChunkRecv flags id chunk] s (s.recvChunk P chunk) := by
    rw [heq]
    exact .same (creditSide_notes s (.dataChunkRecv flags id chunk) rfl) rfl List.suffix_rfl
  have hget : (s.recvChunk P chunk).getStream id = s.getStream id := by
    rw [heq]
    rfl
  have htally : ∀ r n, (s.recvChunk P chunk).creditSide.tally r n = s.creditSide.tally r n := by
    intro r n
    rw [hrep.side]
    rfl
  have hversion : (s.recvChunk P chunk).version = s.version := by
    rw [heq]
    rfl
  rw [creditChunk]
  split
  · rename_i hcount
    have hne : chunk ≠ [] := List.ne_nil_of_length_pos hcount.2.2.2.1
    have hid' : getStreamId (s.recvChunk P chunk).iframe.headbuf = id := by
      rw [heq]
      exact hid
    rw [hid']
    cases hst : s.getStream id with
    | none =>
      refine .uncounted flags id chunk (.inr (.inr (.inr hst))) ?_
      rw [updateRecvWindowSize,hget,hst]
      exact hrep
    | some st =>
      rcases updateRecvWindowSize_spec (ha.of_suffix hrep.mem) (hget.trans hst) chunk.length with
        ⟨r,ht,-,hu⟩ | ⟨delta,item,ht,hi,-,hu⟩
      · rw [htally] at ht
        exact .counted flags id chunk st r hne hst ht (hrep.trans hu)
      · rw [htally] at ht
        rw [hversion] at hi
        exact .givenBack flags id chunk st delta item hne hst ht hi (hrep.trans hu)
  · rename_i hnot
    refine .uncounted flags id chunk ?_ hrep
    rw [heq] at hnot
    by_contra hcon
    simp only [not_or] at hcon
    obtain ⟨hfc,hdata,hfin,-⟩ := hcon
    refine hnot ⟨(Bool.not_eq_false _).mp hfc,hign,?_,?_,.inr ?_⟩
    · change (!s.iframe.isCtrl) = true
      rw [hc]
      rfl
    · exact List.length_pos_of_ne_nil hdata
    · change (!flagFin (s.iframe.headbuf.getD 4 0).toNat) = true
      rw [hf]
      exact (Bool.not_eq_true' _).mpr ((Bool.not_eq_true _).mp hfin)

theorem payloadRead_receives (P : Platform) (ha : Ample s) (hb : s.iframe.Blockless) (hs : s.iframe.state ≠ .head)
    (input : Bytes) : Receives s (s.payloadRead P input).1 ∧
      (s.iframe.isCtrl = true → Calm s (s.payloadRead P input).1 ∧ (s.payloadRead P input).1.streams = s.streams) := by
  obtain ⟨hw,hm⟩ := recvPreNv_same s input (min input.length (s.iframe.payloadlen-s.iframe.off))
  have hpre : s.iframe.isCtrl = false →
      (s.recvPreNv input (min input.length (s.iframe.payloadlen-s.iframe.off))).1 = s := by
    intro hc
    rw [recvPreNv,if_neg (hb hs hc).1]
  have hctrl : (s.recvPreNv input (min input.length (s.iframe.payloadlen-s.iframe.off))).1.iframe.isCtrl =
      s.iframe.isCtrl := by
    rw [recvPreNv]
    split
    · dsimp only
      split <;> rfl
    · rfl
  rw [payloadRead]
  generalize s.recvPreNv input (min input.length (s.iframe.payloadlen-s.iframe.off)) = p at hw hm hpre hctrl
  have hother : p.1.iframe.isCtrl = true ∨ p.1.iframe.state = .payloadIgn →
      Calm s ((p.1.recvChunk P (p.2.1.take p.2.2)).creditChunk (p.2.1.take p.2.2).length).1 ∧
      ((p.1.recvChunk P (p.2.1.take p.2.2)).creditChunk (p.2.1.take p.2.2).length).1.streams = s.streams := by
    intro ho
    obtain ⟨hw1,hm1⟩ := recvChunk_other P p.1 (p.2.1.take p.2.2) ho
    have ho1 : (p.1.recvChunk P (p.2.1.take p.2.2)).iframe.isCtrl = true ∨
        (p.1.recvChunk P (p.2.1.take p.2.2)).iframe.state = .payloadIgn := by
      obtain ⟨hh,hst⟩ := recvChunk_place P p.1 (p.2.1.take p.2.2)
      rw [InboundFrame.isCtrl,hh,hst]
      exact ho
    rw [creditChunk_other ho1]
    exact ⟨.of_watched (hw1.trans hw) (hm ▸ hm1),congrArg Watched.streams (hw1.trans hw)⟩
  refine ⟨?_,fun hc => hother (.inl (hctrl.trans hc))⟩
  cases hc : s.iframe.isCtrl with
  | true => exact .opens (hother (.inl (hctrl.trans hc))).1.opens
  | false =>
    have hp := hpre hc
    by_cases hign : s.iframe.state = .payloadIgn
    · exact .opens (hother (.inr (hp ▸ hign))).1.opens
    · rw [hp]
      exact chunk_receives P ha hc (hb hs hc).2 hign _

/-- The frame being read when the payload has been: it is still the same frame. -/
theorem payloadRead_isCtrl (P : Platform) (input : Bytes) : (s.payloadRead P input).1.iframe.isCtrl = s.iframe.isCtrl := by
  have hpre : ∀ n, (s.recvPreNv input n).1.iframe.headbuf = s.iframe.headbuf := by
    intro n
    rw [recvPreNv]
    split
    · dsimp only
      split <;> rfl
    · rfl
  rw [payloadRead,creditChunk_iframe,InboundFrame.isCtrl,(recvChunk_place P _ _).1,hpre]
  rfl

theorem recvPayload_receives (P : Platform) (ha : Ample s) (hb : s.iframe.Blockless) (hs : s.iframe.state ≠ .head)
    (input : Bytes) : Receives s (s.recvPayload P input).1 := by
  obtain ⟨hr,hctrl⟩ := payloadRead_receives P ha hb hs input
  rcases recvPayload_cases P s input with h | h | h
  · rw [h]
    exact .opens (Calm.refl s).opens
  · rw [h]
    exact hr
  · rw [h]
    cases hc : s.iframe.isCtrl with
    | true => exact .opens (.after (hctrl hc).1 (hctrl hc).2 (endFrame_opens P _))
    | false => exact hr.calm (endFrame_calm P _ ((payloadRead_isCtrl P input).trans hc))

theorem startPayload_blockless (P : Platform) (s : Session) : (s.startPayload P).1.iframe.Blockless := by
  intro _ hc
  have hhead : (s.startPayload P).1.iframe.headbuf = s.iframe.headbuf := by
    rw [startPayload,reserveIframeBuf]
    dsimp only
    split_ifs <;> rfl
  rw [InboundFrame.isCtrl,hhead] at hc
  have hc' : s.iframe.isCtrl = false := hc
  rw [startPayload,hc']
  dsimp only
  split <;> rename_i h <;> try cases h
  split <;> exact ⟨by rintro ⟨⟩,by rintro ⟨⟩⟩

theorem recvHead_blockless (P : Platform) (hs : s.iframe.state = .head) (input : Bytes) :
    (s.recvHead P input).1.iframe.Blockless := by
  rw [recvHead]
  split
  · exact fun h => absurd hs h
  · dsimp only
    split
    · split <;> exact startPayload_blockless P _
    · exact fun h => absurd hs h

theorem recvIter_receives (P : Platform) (ha : Ample s) (hb : s.iframe.Blockless) (hok : FrameOk s.iframe)
    (input : Bytes) : Receives s (s.recvIter P input).1 := by
  rw [recvIter]
  split
  · rename_i hs
    obtain ⟨hw,hm⟩ := recvHead_same P s input
    obtain ⟨-,hbody⟩ := recvHead_sound P s input hok hs
    have hbl := recvHead_blockless P hs input
    dsimp only
    split
    · exact .opens (Calm.of_watched hw hm).opens
    · rename_i hr
      exact .after hw hm (recvPayload_receives P (ha.of_suffix hm) hbl (hbody hr) _)
  · rename_i hs
    exact recvPayload_receives P ha hb hs input

theorem payloadRead_blockless (P : Platform) (hb : s.iframe.Blockless) (input : Bytes) :
    (s.payloadRead P input).1.iframe.Blockless := by
  intro hs hc
  rw [payloadRead_isCtrl] at hc
  have hpre : s.iframe.state ≠ .payloadPreNv := by
    intro hst
    exact (hb (by rw [hst]; exact nofun) hc).1 hst
  have hstate : (s.payloadRead P input).1.iframe.state = s.iframe.state := by
    rw [payloadRead,creditChunk_iframe,(recvChunk_place P _ _).2,recvPreNv,if_neg hpre]
  rw [hstate] at hs ⊢
  exact hb hs hc

theorem recvIter_blockless (P : Platform) (hb : s.iframe.Blockless) (input : Bytes) :
    (s.recvIter P input).1.iframe.Blockless := by
  have hpayload : ∀ (t : Session) (rest : Bytes), t.iframe.Blockless → (t.recvPayload P rest).1.iframe.Blockless := by
    intro t rest ht
    have hr := payloadRead_blockless P ht rest
    rcases recvPayload_cases P t rest with h | h | h
    · rw [h]
      exact ht
    · rw [h]
      exact hr
    · rw [h,endFrame]
      have hp := processFrame_iframe P (t.payloadRead P rest).1
      split
      · exact hr
      split
      · dsimp only
        split
        · exact fun hs => absurd rfl hs
        · rw [hp]
          exact hr
      · exact hr
  rw [recvIter]
  split
  · rename_i hs
    have hh := recvHead_blockless P hs input
    dsimp only
    split
    · exact hh
    · exact hpayload _ _ hh
  · exact hpayload s input hb

/-- Every reachable session reads DATA frames as such. -/
theorem reachable_blockless {u : Setup} (h : Reachable P u s) : s.iframe.Blockless := by
  refine reachable_iframe (I := InboundFrame.Blockless) h ?_ (fun t input ht => recvIter_blockless P ht input)
  rw [Setup.start]
  split <;> exact fun hs => absurd rfl hs

end Session
end Spdylay
