import Spdylay.Session.Runs

/-! The bookkeeping of a session as a machine of its own: who owns each outbound
item, which streams are open and what their windows are. Queues are multisets,
so that nothing here depends on the heap. A step of the machine is one of the
moves below; a call of the interface is a sequence of them. -/
namespace Spdylay.Machine
open Library

/-- What the moves know beside the session: the item that send has taken from a
queue and not placed yet, and two marks. `stuck`: a window change was left half
done for lack of memory. `oversize`: an initial window of 2^31 or more was stored. -/
structure Ghost where
  hand : Option OutboundItem
  stuck : Bool
  oversize : Bool

structure Core where
  server : Bool
  flowControl : Bool
  arith : WindowArith
  nextStreamId : Nat
  lastRecvStreamId : Int
  nextSeq : Nat
  streams : OrderedTable Stream Stream.streamId
  numOutgoing : Nat
  numIncoming : Nat
  remoteSettings : Nat → Nat
  obPq : Multiset OutboundItem
  obSsPq : Multiset OutboundItem
  active : Option OutboundItem
  framebuf : Bytes
  framebufoff : Nat
  iframe : InboundFrame
  inflater : Inflater
  log : List Event
  ghost : Ghost

/-- The bookkeeping part of a session. -/
def core (s : Session) (g : Ghost) : Core where
  server := s.server
  flowControl := s.flowControl
  arith := s.windowArith
  nextStreamId := s.nextStreamId
  lastRecvStreamId := s.lastRecvStreamId
  nextSeq := s.nextSeq
  streams := s.streams
  numOutgoing := s.numOutgoingStreams
  numIncoming := s.numIncomingStreams
  remoteSettings := s.remoteSettings
  obPq := s.obPq.q
  obSsPq := s.obSsPq.q
  active := s.aob.item
  framebuf := s.aob.framebuf
  framebufoff := s.aob.framebufoff
  iframe := s.iframe
  inflater := s.hdInflater
  log := s.host.log
  ghost := g

namespace Core

def isMine (server : Bool) (streamId : Int) : Bool :=
  if streamId = 0 then false
  else if server then streamId.tmod 2 = 0 else streamId.tmod 2 = 1

def note (c : Core) (e : Event) : Core := {c with log := c.log ++ [e]}

def modifyStream (c : Core) (streamId : Int) (f : Stream → Stream)
    (hf : ∀ st, (f st).streamId = st.streamId := by intro _; rfl) : Core :=
  {c with streams := c.streams.modify streamId f hf}

def enqueue (c : Core) (item : OutboundItem) : Core :=
  if item.isSynStream then {c with obSsPq := item ::ₘ c.obSsPq} else {c with obPq := item ::ₘ c.obPq}

def countOpened (c : Core) (streamId : Int) : Core :=
  if isMine c.server streamId then {c with numOutgoing := c.numOutgoing+1} else {c with numIncoming := c.numIncoming+1}

def countClosed (c : Core) (streamId : Int) : Core :=
  if isMine c.server streamId then {c with numOutgoing := c.numOutgoing-1} else {c with numIncoming := c.numIncoming-1}

def freeDeferred (c : Core) (st : Stream) : Core :=
  match st.deferredData with
  | some item => c.note (.finished item.seq (.streamClosed st.streamId))
  | none => c

def close (c : Core) (st : Stream) : Core :=
  ({c.countClosed st.streamId with streams := c.streams.remove st.streamId}).freeDeferred st

theorem detached_streamId (st : Stream) :
    ({st with deferredData := none, deferredFlowControl := false} : Stream).streamId = st.streamId := rfl

def detach (c : Core) (streamId : Int) : Core :=
  c.modifyStream streamId (fun st => {st with deferredData := none, deferredFlowControl := false}) detached_streamId

theorem parked_streamId (item : OutboundItem) (flowControl : Bool) (st : Stream) :
    ({st with deferredData := some item, deferredFlowControl := flowControl} : Stream).streamId = st.streamId := rfl

def park (c : Core) (streamId : Int) (item : OutboundItem) (flowControl : Bool) : Core :=
  c.modifyStream streamId (fun st => {st with deferredData := some item, deferredFlowControl := flowControl})
    (parked_streamId item flowControl)

def setWindow (c : Core) (streamId : Int) (f : Int → Int) : Core :=
  c.modifyStream streamId (fun st => {st with windowSize := f st.windowSize})

/-- The item that a window change of the stream sets free. -/
def released (c : Core) (streamId : Int) : Option OutboundItem :=
  match c.streams.find streamId with
  | some st => if 0 < st.windowSize ∧ st.deferredFlowControl then st.deferredData else none
  | none => none

def release (c : Core) (streamId : Int) : Core :=
  match c.released streamId with
  | some item => {c.detach streamId with obPq := item ::ₘ c.obPq}
  | none => c

/-- Change a window and release what waited for it. -/
def rewindow (c : Core) (streamId : Int) (f : Int → Int) : Core := (c.setWindow streamId f).release streamId

def setRemote (c : Core) (id value : Nat) : Core :=
  {c with remoteSettings := Function.update c.remoteSettings id value}

def rebased (c : Core) (new : Int) (w : Int) : Int :=
  c.arith.store (new-c.arith.store (toInt32 (c.remoteSettings settingsInitialWindowSize)-w))

def rebase (c : Core) (value : Nat) : Core :=
  ((c.streams.entries.map Stream.streamId).foldl (fun c' id => c'.rewindow id (c.rebased value)) c).setRemote
    settingsInitialWindowSize value

def initialWindow (c : Core) : Int := c.arith.store (toInt32 (c.remoteSettings settingsInitialWindowSize))

/-- The active slot is emptied; its item has gone elsewhere. -/
def take (c : Core) : Core := {c with active := none, framebuf := [], framebufoff := 0}

def begin (c : Core) (item : OutboundItem) (frame : Bytes) : Core :=
  {c.note (.prepared item.seq frame) with active := some item, framebuf := frame}

def write (c : Core) (n : Nat) : Core :=
  {c.note (.sent ((c.framebuf.drop c.framebufoff).take n)) with framebufoff := c.framebufoff+n}

def debit (c : Core) (item : OutboundItem) : Core :=
  match item.frame with
  | .data d =>
    if c.flowControl then
      c.setWindow d.streamId (fun w => c.arith.store (w-getUint32 (c.framebuf.drop 4)))
    else c
  | .ctrl _ => c

def setHand (c : Core) (item : Option OutboundItem) : Core := {c with ghost := {c.ghost with hand := item}}

def nextDataRead (c : Core) (st : Stream) : Nat :=
  if !c.flowControl then dataPayloadLength
  else if 0 < st.windowSize then min st.windowSize.toNat dataPayloadLength
  else 0

end Core

/-- Events that only report a callback. -/
def plain : Event → Bool
  | .read _ _ _ | .sent _ | .accepted _ | .prepared _ _ | .finished _ _ | .windowRaised _ _ | .insertFailed _
  | .fatal _ => false
  | _ => true

/-- Changes of a stream that leave its window, its deferred item and its pushed streams alone. -/
structure Restates (f : Stream → Stream) : Prop where
  streamId : ∀ st, (f st).streamId = st.streamId
  windowSize : ∀ st, (f st).windowSize = st.windowSize
  deferredData : ∀ st, (f st).deferredData = st.deferredData
  deferredFlowControl : ∀ st, (f st).deferredFlowControl = st.deferredFlowControl
  pushedStreams : ∀ st, (f st).pushedStreams = st.pushedStreams

/-- Moves of every call. -/
inductive Act : Core → Core → Prop
  | note (c : Core) (e : Event) : plain e → Act c (c.note e)
  | accept (c : Core) (item : OutboundItem) : item.seq = c.nextSeq →
      Act c (({c with nextSeq := c.nextSeq+1}).enqueue item |>.note (.accepted item))
  | skipSeq (c : Core) : Act c {c with nextSeq := c.nextSeq+1}
  | restate (c : Core) (streamId : Int) (f : Stream → Stream) (hf : Restates f) :
      Act c (c.modifyStream streamId f hf.streamId)
  | close (c : Core) (streamId : Int) (st : Stream) : c.streams.find streamId = some st → Act c (c.close st)
  | resume (c : Core) (streamId : Int) (st : Stream) (item : OutboundItem) :
      c.streams.find streamId = some st → st.deferredData = some item →
      Act c {c.detach streamId with obPq := item ::ₘ c.obPq}

/-- An id that the peer may open a stream with. -/
def NewPeerId (c : Core) (streamId : Int) : Prop :=
  streamId ≠ 0 ∧ Core.isMine c.server streamId = false ∧ c.lastRecvStreamId < streamId

/-- Moves of a received frame. -/
inductive Inb : Core → Core → Prop
  | seePeer (c : Core) (streamId : Int) : NewPeerId c streamId → Inb c {c with lastRecvStreamId := streamId}
  | openPeer (c : Core) (st : Stream) (streams) : NewPeerId c st.streamId → st.windowSize = c.initialWindow →
      st.deferredData = none → st.pushedStreams = [] → c.streams.insert st = some streams →
      Inb c (({c with lastRecvStreamId := st.streamId, streams := streams}).countOpened st.streamId)
  | openPeerFailed (c : Core) (st : Stream) : NewPeerId c st.streamId → c.streams.insert st = none →
      Inb c ((({c with lastRecvStreamId := st.streamId}).note (.insertFailed st.streamId)).countOpened st.streamId)
  | raise (c : Core) (streamId delta : Int) (st : Stream) : c.streams.find streamId = some st →
      Inb c ((c.rewindow streamId (fun w => c.arith.store (w+delta))).note (.windowRaised streamId delta))
  | raiseStuck (c : Core) (streamId delta : Int) (st : Stream) : c.streams.find streamId = some st →
      Inb c {(c.setWindow streamId (fun w => c.arith.store (w+delta))).note (.windowRaised streamId delta) with
        ghost := {c.ghost with stuck := true}}
  | rebase (c : Core) (value : Nat) : c.flowControl = true → value < 2147483648 → Inb c (c.rebase value)
  | rebaseStuck (c : Core) (streamId : Int) (f : Int → Int) :
      Inb c {c.setWindow streamId f with ghost := {c.ghost with stuck := true}}
  | setRemote (c : Core) (id value : Nat) : id ≠ settingsInitialWindowSize ∨ c.flowControl = false →
      Inb c (c.setRemote id value)
  | setOversize (c : Core) (value : Nat) : 2147483648 ≤ value →
      Inb c {c.setRemote settingsInitialWindowSize value with ghost := {c.ghost with oversize := true}}

/-- Reading bytes changes the inbound frame and the inflater. -/
inductive Rd : Core → Core → Prop
  | read (c : Core) (f : InboundFrame) (z : Inflater) : Rd c {c with iframe := f, inflater := z}

/-- Two versions of one item: only fields that no place depends on differ. -/
structure SameItem (item item' : OutboundItem) : Prop where
  seq : item'.seq = item.seq
  syn : item'.isSynStream = item.isSynStream
  data : ∀ d, item.frame = .data d → ∃ d', item'.frame = .data d' ∧ d'.streamId = d.streamId
  ctrl : ∀ f, item.frame = .ctrl f → ∃ f', item'.frame = .ctrl f'

/-- A chunk that pack_data accepts for a stream, and the frame it becomes. -/
structure Packs (c : Core) (d : DataFrame) (st : Stream) (bytes frame : Bytes) : Prop where
  find : c.streams.find d.streamId = some st
  free : st.deferredData = none
  positive : 0 < c.nextDataRead st
  room : bytes.length ≤ c.nextDataRead st
  frame : ∃ fin, frame = Session.dataHead d.streamId bytes.length fin ++ bytes

/-- A DATA item that may be deferred in its stream. -/
structure Parks (c : Core) (d : DataFrame) (st : Stream) (flowControl : Bool) : Prop where
  find : c.streams.find d.streamId = some st
  free : st.deferredData = none
  window : flowControl = true → st.windowSize ≤ 0

/-- Moves of the send loop. -/
inductive Outb : Core → Core → Prop
  | takeId (c : Core) : Outb c {c with nextStreamId := c.nextStreamId+2}
  | openOwn (c : Core) (st : Stream) (streams) : st.streamId = c.nextStreamId → st.windowSize = c.initialWindow →
      st.deferredData = none → st.pushedStreams = [] → c.streams.insert st = some streams →
      Outb c (({c with nextStreamId := c.nextStreamId+2, streams := streams}).countOpened st.streamId)
  | openOwnFailed (c : Core) (st : Stream) : st.streamId = c.nextStreamId → c.streams.insert st = none →
      Outb c ((({c with nextStreamId := c.nextStreamId+2}).note (.insertFailed st.streamId)).countOpened st.streamId)
  | pop (c : Core) (item : OutboundItem) (rest) : c.active = none → c.ghost.hand = none →
      c.obPq = item ::ₘ rest → Outb c (({c with obPq := rest}).setHand (some item))
  | popSyn (c : Core) (item : OutboundItem) (rest) : c.active = none → c.ghost.hand = none →
      c.obSsPq = item ::ₘ rest → Outb c (({c with obSsPq := rest}).setHand (some item))
  | retouch (c : Core) (item item' : OutboundItem) : c.ghost.hand = some item → SameItem item item' →
      Outb c (c.setHand (some item'))
  | drop (c : Core) (item : OutboundItem) (e : Err) : c.ghost.hand = some item → e ≠ .deferred →
      e ≠ .credentialPending → Outb c ((c.note (.finished item.seq (.dropped e))).setHand none)
  | requeue (c : Core) (item : OutboundItem) : c.ghost.hand = some item → item.isSynStream = true →
      Outb c (({c with obSsPq := item ::ₘ c.obSsPq}).setHand none)
  | defer (c : Core) (item : OutboundItem) (d : DataFrame) (st : Stream) (flowControl : Bool) :
      c.ghost.hand = some item → c.active = none → item.frame = .data d → Parks c d st flowControl →
      Outb c ((c.park d.streamId item flowControl).setHand none)
  | activate (c : Core) (item : OutboundItem) (f : Frame) (frame : Bytes) : c.ghost.hand = some item →
      c.active = none → item.frame = .ctrl f → frame ≠ [] → Outb c ((c.begin item frame).setHand none)
  | activateData (c : Core) (item : OutboundItem) (d : DataFrame) (st : Stream) (bytes frame : Bytes) :
      c.ghost.hand = some item → c.active = none → item.frame = .data d → Packs c d st bytes frame →
      Outb c (((c.note (.read item.seq d.streamId bytes)).begin item frame).setHand none)
  | write (c : Core) (item : OutboundItem) (n : Nat) : c.active = some item →
      n ≤ c.framebuf.length-c.framebufoff → Outb c ((c.write n).debit item)
  | finish (c : Core) (item : OutboundItem) (cause : Finish) : c.active = some item →
      c.framebufoff = c.framebuf.length → cause.afterWriting = true → Outb c ((c.note (.finished item.seq cause)).take)
  | parkActive (c : Core) (item item' : OutboundItem) (d : DataFrame) (st : Stream) (flowControl : Bool) :
      c.active = some item → c.framebufoff = c.framebuf.length → SameItem item item' → item'.frame = .data d →
      Parks c d st flowControl → Outb c (c.park d.streamId item' flowControl).take
  | requeueActive (c : Core) (item : OutboundItem) : c.active = some item → c.framebufoff = c.framebuf.length →
      item.isSynStream = false → Outb c ({c with obPq := item ::ₘ c.obPq}).take
  | continue (c : Core) (item item' : OutboundItem) (d : DataFrame) (st : Stream) (bytes frame : Bytes) :
      c.active = some item → c.framebufoff = c.framebuf.length → SameItem item item' → item'.frame = .data d →
      Packs c d st bytes frame →
      Outb c {(c.note (.read item.seq d.streamId bytes)).begin item' frame with framebufoff := 0}

/-! What the moves leave alone. -/

/-- A window change touches the streams and the queue only. -/
theorem Core.rewindow_frame (c : Core) (streamId : Int) (f : Int → Int) :
    ∃ streams obPq, c.rewindow streamId f = {c with streams := streams, obPq := obPq} := by
  unfold Core.rewindow Core.release
  split
  · exact ⟨_,_,rfl⟩
  · exact ⟨_,c.obPq,rfl⟩

theorem Core.rewindows_frame (f : Int → Int) (ids : List Int) (c : Core) :
    ∃ streams obPq, ids.foldl (fun c' id => c'.rewindow id f) c = {c with streams := streams, obPq := obPq} := by
  induction ids generalizing c with
  | nil => exact ⟨c.streams,c.obPq,rfl⟩
  | cons id ids ih =>
    obtain ⟨streams,obPq,h⟩ := c.rewindow_frame id f
    obtain ⟨streams',obPq',h'⟩ := ih {c with streams := streams, obPq := obPq}
    exact ⟨streams',obPq',by rw [List.foldl_cons,h,h']⟩

theorem Core.rebase_frame (c : Core) (value : Nat) :
    ∃ streams obPq, c.rebase value = {c.setRemote settingsInitialWindowSize value with
      streams := streams, obPq := obPq} := by
  obtain ⟨streams,obPq,h⟩ := c.rewindows_frame (c.rebased value) (c.streams.entries.map Stream.streamId)
  exact ⟨streams,obPq,by rw [Core.rebase,h]; rfl⟩

/-- A stream after a change of its window, with what waited for it released. -/
def settled (f : Int → Int) (st : Stream) : Stream :=
  if st.deferredData.isSome ∧ 0 < f st.windowSize ∧ st.deferredFlowControl then
    {st with windowSize := f st.windowSize, deferredData := none, deferredFlowControl := false}
  else {st with windowSize := f st.windowSize}

@[simp] theorem settled_windowSize (f : Int → Int) (st : Stream) : (settled f st).windowSize = f st.windowSize := by
  unfold settled
  split <;> rfl

theorem settled_free {f : Int → Int} {st : Stream} (h : st.deferredData = none) : (settled f st).deferredData = none := by
  unfold settled
  split
  · rfl
  · exact h

theorem Core.find_modifyStream (c : Core) (streamId : Int) (f : Stream → Stream) (hf) (id : Int) :
    (c.modifyStream streamId f hf).streams.find id =
      if streamId = id then (c.streams.find id).map f else c.streams.find id :=
  OrderedTable.find_modify c.streams streamId id f hf

theorem Core.find_rewindow (c : Core) (streamId : Int) (f : Int → Int) (id : Int) :
    (c.rewindow streamId f).streams.find id =
      if streamId = id then (c.streams.find id).map (settled f) else c.streams.find id := by
  have hset : ∀ id, (c.setWindow streamId f).streams.find id = if streamId = id then
      (c.streams.find id).map (fun st => {st with windowSize := f st.windowSize}) else c.streams.find id :=
    fun id => by rw [Core.setWindow,Core.find_modifyStream]
  unfold Core.rewindow Core.release Core.released
  rw [hset streamId,if_pos rfl]
  cases hst : c.streams.find streamId with
  | none =>
    dsimp only [Option.map_none]
    rw [hset id]
    split
    · rename_i hid
      rw [← hid,hst]
      rfl
    · rfl
  | some st =>
    dsimp only [Option.map_some]
    split
    · rename_i item hitem
      split at hitem
      · rename_i hw
        dsimp only
        rw [Core.detach,Core.find_modifyStream,hset id]
        split
        · rename_i hid
          rw [← hid,hst]
          simp [settled,hitem,hw.1,hw.2]
        · rfl
      · cases hitem
    · rename_i hnone
      rw [hset id]
      split
      · rename_i hid
        rw [← hid,hst]
        have hn : ¬(st.deferredData.isSome ∧ 0 < f st.windowSize ∧ st.deferredFlowControl) := by
          rintro ⟨h1,h2,h3⟩
          rw [if_pos ⟨h2,h3⟩] at hnone
          rw [hnone] at h1
          cases h1
        simp [settled,hn]
      · rfl

theorem Core.find_rewindows (f : Int → Int) (ids : List Int) (hn : ids.Nodup) (c : Core) (id : Int) :
    (ids.foldl (fun c' id => c'.rewindow id f) c).streams.find id =
      if id ∈ ids then (c.streams.find id).map (settled f) else c.streams.find id := by
  induction ids generalizing c with
  | nil => rfl
  | cons x ids ih =>
    rw [List.nodup_cons] at hn
    rw [List.foldl_cons,ih hn.2,Core.find_rewindow]
    by_cases hx : x = id
    · subst hx
      simp [hn.1]
    · simp [hx,Ne.symm hx]

/-- A new initial window changes every stream. -/
theorem Core.find_rebase (c : Core) (value : Nat) (id : Int) :
    (c.rebase value).streams.find id = (c.streams.find id).map (settled (c.rebased value)) := by
  have h := Core.find_rewindows (c.rebased value) _ c.streams.keys_nodup c id
  unfold Core.rebase Core.setRemote
  dsimp only
  rw [h]
  split
  · rfl
  · rename_i hid
    have hnone : c.streams.find id = none :=
      OrderedTable.find_eq_none.mpr (fun st hst he => hid (List.mem_map.mpr ⟨st,hst,he⟩))
    rw [hnone]
    rfl

@[simp] theorem Core.countOpened_log (c : Core) (streamId : Int) : (c.countOpened streamId).log = c.log := by
  unfold Core.countOpened
  split <;> rfl

@[simp] theorem Core.countClosed_log (c : Core) (streamId : Int) : (c.countClosed streamId).log = c.log := by
  unfold Core.countClosed
  split <;> rfl

@[simp] theorem Core.enqueue_log (c : Core) (item : OutboundItem) : (c.enqueue item).log = c.log := by
  unfold Core.enqueue
  split <;> rfl

@[simp] theorem Core.debit_log (c : Core) (item : OutboundItem) : (c.debit item).log = c.log := by
  unfold Core.debit
  split
  · split <;> rfl
  · rfl

theorem Core.close_log (c : Core) (st : Stream) :
    (c.close st).log = c.log ++
      (st.deferredData.map (fun item => Event.finished item.seq (.streamClosed st.streamId))).toList := by
  unfold Core.close Core.freeDeferred
  split
  · rename_i item h
    rw [h]
    exact congrArg (· ++ [Event.finished item.seq (.streamClosed st.streamId)]) (c.countClosed_log st.streamId)
  · rename_i h
    rw [h]
    simp

/-- The log stays as it is or gets one event of a kind. -/
def Notes (kind : Event → Bool) (c c' : Core) : Prop := c'.log = c.log ∨ ∃ e, kind e = true ∧ c'.log = c.log ++ [e]

theorem Notes.log_prefix {kind : Event → Bool} {c c' : Core} (h : Notes kind c c') : c.log <+: c'.log := by
  obtain h | ⟨e,-,h⟩ := h
  · exact h ▸ List.prefix_refl _
  · exact h ▸ List.prefix_append _ _

/-- The events of the moves of every call. -/
def notedByAct : Event → Bool
  | .accepted _ | .finished _ _ => true
  | e => plain e

/-- The events of a received frame's moves. -/
def notedByInb : Event → Bool
  | .insertFailed _ | .windowRaised _ _ => true
  | _ => false

theorem notedByAct_plain {e : Event} (h : plain e = true) : notedByAct e = true := by
  cases e <;> first | exact h | rfl

theorem Act.notes {c c' : Core} (h : Act c c') : Notes notedByAct c c' := by
  cases h with
  | note e he => exact .inr ⟨e,notedByAct_plain he,rfl⟩
  | accept item hs => exact .inr ⟨.accepted item,rfl,by simp [Core.note]⟩
  | skipSeq => exact .inl rfl
  | restate streamId f hf => exact .inl rfl
  | close streamId st hst =>
    rw [Notes,Core.close_log]
    cases st.deferredData with
    | none => exact .inl (List.append_nil _)
    | some item => exact .inr ⟨.finished item.seq (.streamClosed st.streamId),rfl,rfl⟩
  | resume streamId st item hst hi => exact .inl rfl

theorem Inb.notes {c c' : Core} (h : Inb c c') : Notes notedByInb c c' := by
  cases h with
  | seePeer streamId hn => exact .inl rfl
  | openPeer st streams hn hw hd hp hi => exact .inl (by simp)
  | openPeerFailed st hn hi => exact .inr ⟨.insertFailed st.streamId,rfl,by simp [Core.note]⟩
  | raise streamId delta st hst =>
    obtain ⟨streams,obPq,he⟩ := c.rewindow_frame streamId (fun w => c.arith.store (w+delta))
    rw [he]
    exact .inr ⟨.windowRaised streamId delta,rfl,rfl⟩
  | raiseStuck streamId delta st hst => exact .inr ⟨.windowRaised streamId delta,rfl,rfl⟩
  | rebase value hf hv =>
    obtain ⟨streams,obPq,he⟩ := c.rebase_frame value
    rw [he]
    exact .inl rfl
  | rebaseStuck streamId f => exact .inl rfl
  | setRemote id value hid => exact .inl rfl
  | setOversize value hv => exact .inl rfl

/-- The log only grows. -/
theorem Act.log_prefix {c c' : Core} (h : Act c c') : c.log <+: c'.log := h.notes.log_prefix

theorem Inb.log_prefix {c c' : Core} (h : Inb c c') : c.log <+: c'.log := h.notes.log_prefix

theorem Outb.log_prefix {c c' : Core} (h : Outb c c') : c.log <+: c'.log := by
  cases h <;> simp [Core.note,Core.begin,Core.setHand,Core.take,Core.park,Core.modifyStream,Core.write]

theorem Rd.log_prefix {c c' : Core} (h : Rd c c') : c.log <+: c'.log := by
  cases h
  exact List.prefix_refl _

/-- The fields that a move of every call can change. -/
theorem Act.frame {c c' : Core} (h : Act c c') : ∃ nextSeq streams numOutgoing numIncoming obPq obSsPq log,
    c' = {c with
      nextSeq := nextSeq, streams := streams, numOutgoing := numOutgoing, numIncoming := numIncoming
      obPq := obPq, obSsPq := obSsPq, log := log} := by
  cases h with
  | note e he => exact ⟨_,_,_,_,_,_,_,rfl⟩
  | accept item hs =>
    unfold Core.enqueue
    split <;> exact ⟨_,_,_,_,_,_,_,rfl⟩
  | skipSeq => exact ⟨_,_,_,_,_,_,_,rfl⟩
  | restate streamId f hf => exact ⟨_,_,_,_,_,_,_,rfl⟩
  | close streamId st hst =>
    unfold Core.close Core.freeDeferred Core.countClosed
    split <;> split <;> exact ⟨_,_,_,_,_,_,_,rfl⟩
  | resume streamId st item hst hi => exact ⟨_,_,_,_,_,_,_,rfl⟩

/-- The fields that a received frame can change. -/
theorem Inb.frame {c c' : Core} (h : Inb c c') : ∃ lastRecvStreamId streams numOutgoing numIncoming remoteSettings obPq
    log ghost, c' = {c with
      lastRecvStreamId := lastRecvStreamId, streams := streams, numOutgoing := numOutgoing
      numIncoming := numIncoming, remoteSettings := remoteSettings, obPq := obPq, log := log, ghost := ghost} := by
  cases h with
  | openPeer st streams hn hw hd hp hi =>
    unfold Core.countOpened
    split <;> exact ⟨_,_,_,_,_,_,_,_,rfl⟩
  | openPeerFailed st hn hi =>
    unfold Core.countOpened
    split <;> exact ⟨_,_,_,_,_,_,_,_,rfl⟩
  | raise streamId delta st hst =>
    obtain ⟨streams,obPq,he⟩ := c.rewindow_frame streamId (fun w => c.arith.store (w+delta))
    rw [he]
    exact ⟨_,_,_,_,_,_,_,_,rfl⟩
  | rebase value hf hv =>
    obtain ⟨streams,obPq,he⟩ := c.rebase_frame value
    rw [he]
    exact ⟨_,_,_,_,_,_,_,_,rfl⟩
  | _ => exact ⟨_,_,_,_,_,_,_,_,rfl⟩

/-- The fields that the send loop can change. -/
theorem Outb.frame {c c' : Core} (h : Outb c c') : ∃ nextStreamId streams numOutgoing numIncoming obPq obSsPq active
    framebuf framebufoff log hand, c' = {c with
      nextStreamId := nextStreamId, streams := streams, numOutgoing := numOutgoing, numIncoming := numIncoming
      obPq := obPq, obSsPq := obSsPq, active := active
      framebuf := framebuf, framebufoff := framebufoff, log := log, ghost := {c.ghost with hand := hand}} := by
  cases h with
  | openOwn st streams hid hw hd hp hi =>
    unfold Core.countOpened
    split <;> exact ⟨_,_,_,_,_,_,_,_,_,_,_,rfl⟩
  | openOwnFailed st hid hi =>
    unfold Core.countOpened
    split <;> exact ⟨_,_,_,_,_,_,_,_,_,_,_,rfl⟩
  | write item n ha hn =>
    unfold Core.debit
    split
    · split <;> exact ⟨_,_,_,_,_,_,_,_,_,_,_,rfl⟩
    · exact ⟨_,_,_,_,_,_,_,_,_,_,_,rfl⟩
  | _ => exact ⟨_,_,_,_,_,_,_,_,_,_,_,rfl⟩

/-- The part of the core that only the send loop changes. -/
def Core.aob (c : Core) : Option OutboundItem × Bytes × Nat := (c.active,c.framebuf,c.framebufoff)

theorem Act.aob_eq {c c' : Core} (h : Act c c') : c'.aob = c.aob := by
  obtain ⟨_,_,_,_,_,_,_,rfl⟩ := h.frame
  rfl

theorem Inb.aob_eq {c c' : Core} (h : Inb c c') : c'.aob = c.aob := by
  obtain ⟨_,_,_,_,_,_,_,_,rfl⟩ := h.frame
  rfl

theorem Rd.aob_eq {c c' : Core} (h : Rd c c') : c'.aob = c.aob := by
  cases h
  rfl

/-- The part of the core that only reading changes. -/
def Core.reading (c : Core) : InboundFrame × Inflater := (c.iframe,c.inflater)

theorem Act.reading_eq {c c' : Core} (h : Act c c') : c'.reading = c.reading := by
  obtain ⟨_,_,_,_,_,_,_,rfl⟩ := h.frame
  rfl

theorem Inb.reading_eq {c c' : Core} (h : Inb c c') : c'.reading = c.reading := by
  obtain ⟨_,_,_,_,_,_,_,_,rfl⟩ := h.frame
  rfl

theorem Outb.reading_eq {c c' : Core} (h : Outb c c') : c'.reading = c.reading := by
  obtain ⟨_,_,_,_,_,_,_,_,_,_,_,rfl⟩ := h.frame
  rfl

/-! Sequences of moves. -/

abbrev Steps : Core → Core → Prop := Relation.ReflTransGen Act

abbrev InSteps : Core → Core → Prop := Relation.ReflTransGen (fun c c' => Act c c' ∨ Inb c c')

abbrev ReadSteps : Core → Core → Prop := Relation.ReflTransGen (fun c c' => Act c c' ∨ Inb c c' ∨ Rd c c')

abbrev OutSteps : Core → Core → Prop := Relation.ReflTransGen (fun c c' => Act c c' ∨ Outb c c')

theorem Act.steps {c c' : Core} (h : Act c c') : Steps c c' := .single h

theorem Inb.steps {c c' : Core} (h : Inb c c') : InSteps c c' := .single (.inr h)

theorem Outb.steps {c c' : Core} (h : Outb c c') : OutSteps c c' := .single (.inr h)

theorem Steps.inSteps {c c' : Core} (h : Steps c c') : InSteps c c' :=
  Relation.ReflTransGen.mono (fun _ _ => .inl) _ _ h

theorem InSteps.readSteps {c c' : Core} (h : InSteps c c') : ReadSteps c c' :=
  Relation.ReflTransGen.mono (fun _ _ => Or.imp_right .inl) _ _ h

theorem Rd.steps {c c' : Core} (h : Rd c c') : ReadSteps c c' := .single (.inr (.inr h))

theorem Steps.outSteps {c c' : Core} (h : Steps c c') : OutSteps c c' :=
  Relation.ReflTransGen.mono (fun _ _ => .inl) _ _ h

theorem Steps.aob_eq {c c' : Core} (h : Steps c c') : c'.aob = c.aob := by
  induction h with
  | refl => rfl
  | tail _ hm ih => exact hm.aob_eq.trans ih

theorem ReadSteps.aob_eq {c c' : Core} (h : ReadSteps c c') : c'.aob = c.aob := by
  induction h with
  | refl => rfl
  | tail _ hm ih => exact (hm.elim Act.aob_eq (Or.elim · Inb.aob_eq Rd.aob_eq)).trans ih

theorem InSteps.reading_eq {c c' : Core} (h : InSteps c c') : c'.reading = c.reading := by
  induction h with
  | refl => rfl
  | tail _ hm ih => exact (hm.elim Act.reading_eq Inb.reading_eq).trans ih

theorem OutSteps.reading_eq {c c' : Core} (h : OutSteps c c') : c'.reading = c.reading := by
  induction h with
  | refl => rfl
  | tail _ hm ih => exact (hm.elim Act.reading_eq Outb.reading_eq).trans ih

theorem ReadSteps.log_prefix {c c' : Core} (h : ReadSteps c c') : c.log <+: c'.log := by
  induction h with
  | refl => exact List.prefix_refl _
  | tail _ hm ih => exact ih.trans (hm.elim Act.log_prefix (Or.elim · Inb.log_prefix Rd.log_prefix))

theorem OutSteps.log_prefix {c c' : Core} (h : OutSteps c c') : c.log <+: c'.log := by
  induction h with
  | refl => exact List.prefix_refl _
  | tail _ hm ih => exact ih.trans (hm.elim Act.log_prefix Outb.log_prefix)

end Spdylay.Machine
