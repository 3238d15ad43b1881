import Spdylay.Peers.Announced
import Spdylay.Peers.Reception
import Spdylay.Protocol.StreamIds
import Spdylay.Wire.FieldWidths

/-! The ids of the streams that DATA is read for. An id of this side was given by it, and one of the
peer was read off a SYN_STREAM. -/
namespace Spdylay.Peers
open Library Session Machine

/-- Some parser has made the frame. -/
def Legible (P : Platform) (g : Frame) : Prop :=
  ∃ (v : Version) (server : Bool) (head payload : Bytes) (n : Nat) (inflated : Option Bytes), Read P v server head payload n inflated g

/-- What `s'` has told beside what `s` had told has been read. -/
def Tidings (P : Platform) (s s' : Session) : Prop := ∀ g, .ctrlRecv g ∈ s'.heard → .ctrlRecv g ∈ s.heard ∨ Legible P g

section
variable {P : Platform} {s s' s'' : Session}

theorem Tidings.of_heard (h : s'.heard = s.heard) : Tidings P s s' := by
  intro g hg
  rw [h] at hg
  exact .inl hg

theorem Tidings.trans (h : Tidings P s s') (h' : Tidings P s' s'') : Tidings P s s'' := by
  intro g hg
  rcases h' g hg with hg | hg
  · exact h g hg
  · exact .inr hg

theorem TellsRead.tidings (h : TellsRead P s s') : Tidings P s s' := by
  rcases h with h | ⟨g, hread, h⟩
  · exact .of_heard h
  · intro g' hg'
    rw [h] at hg'
    rcases List.mem_append.mp hg' with hg' | hg'
    · exact .inl hg'
    · cases List.mem_singleton.mp hg'
      exact .inr ⟨_, _, _, _, _, _, hread⟩

theorem Tidings.note {e : Event} (he : ∀ g, e ≠ .ctrlRecv g) : Tidings P s (s.emit e) := by
  intro g hg
  rcases List.mem_append.mp (List.mem_of_mem_filter hg) with hg' | hg'
  · exact .inl (List.mem_filter.mpr ⟨hg', rfl⟩)
  · exact absurd (List.mem_singleton.mp hg').symm (he g)

/-! A pass of the receive loop. -/

theorem heard_inflateChunk (chunk : Bytes) : (s.inflateChunk P chunk).heard = s.heard := by
  rw [inflateChunk]
  dsimp only
  split
  · rfl
  · rfl

theorem recvChunk_tidings (chunk : Bytes) : Tidings P s (s.recvChunk P chunk) := by
  rw [recvChunk]
  dsimp only
  split
  · exact .of_heard (heard_inflateChunk chunk)
  split
  · split
    · exact .of_heard rfl
    · exact .of_heard rfl
  split
  · exact .of_heard rfl
  · exact .note (by rintro _ ⟨⟩)

theorem endFrame_tidings : Tidings P s (s.endFrame P).1 := by
  have hprocess : Tidings P s (if s.iframe.isCtrl then s.processCtrlFrame P else s.processDataFrame).1 := by
    split
    · rw [processCtrlFrame, onlyFatal_fst]
      exact dispatchCtrlFrame_tells.tidings
    · exact .of_heard (heard_processDataFrame s)
  rw [endFrame]
  split
  · exact .of_heard rfl
  split
  · dsimp only
    split
    · exact hprocess.trans (.trans (.of_heard rfl) (.note (by rintro _ ⟨⟩)))
    · exact hprocess
  · exact .of_heard rfl

theorem recvPayload_tidings (input : Bytes) : Tidings P s (s.recvPayload P input).1 := by
  rw [recvPayload]
  split
  · exact .of_heard rfl
  · have hpre : ∀ n, (s.recvPreNv input n).1.heard = s.heard := by
      intro n
      rw [recvPreNv]
      dsimp only
      split
      · rfl
      · rfl
    have hchunk : ∀ n chunk, Tidings P s (((s.recvPreNv input n).1.recvChunk P chunk).creditChunk chunk.length).1 := by
      intro n chunk
      exact (Tidings.of_heard (hpre n)).trans ((recvChunk_tidings chunk).trans (.of_heard (heard_creditChunk _ _)))
    dsimp only
    split
    · exact hchunk _ _
    · split
      · exact (hchunk _ _).trans endFrame_tidings
      · exact (hchunk _ _).trans endFrame_tidings

theorem heard_recvHead (input : Bytes) : (s.recvHead P input).1.heard = s.heard := by
  have hreserve : ∀ (t : Session) n, (t.reserveIframeBuf P n).1.heard = t.heard := by
    intro t n
    rw [reserveIframeBuf]
    split_ifs <;> rfl
  have hstart : ∀ t : Session, (t.startPayload P).1.heard = t.heard := by
    intro t
    rw [startPayload]
    dsimp only
    split
    · exact hreserve _ _
    · rfl
  rw [recvHead]
  split
  · rfl
  · dsimp only
    split
    · split
      · exact hstart _
      · exact hstart _
    · rfl

theorem recvIter_tidings (input : Bytes) : Tidings P s (s.recvIter P input).1 := by
  have hhead : Tidings P s (s.recvHead P input).1 := .of_heard (heard_recvHead input)
  rw [recvIter]
  split
  · dsimp only
    split
    · exact hhead
    · exact hhead.trans (recvPayload_tidings _)
  · exact recvPayload_tidings input

theorem heard_prepareNext : (s.prepareNext P).heard = s.heard := by
  rw [prepareNext]
  split
  · rfl
  · rename_i item s1 hpop
    have hprep := (s1.heard_prepFrame P item).trans (s.heard_popNextObItem hpop)
    dsimp only
    split
    · exact (heard_activate _ _ _).trans hprep
    · exact hprep
    · exact hprep
    · exact (heard_dropItem _ _ _).trans hprep

theorem turn_tidings (h : Turn P s s') : Tidings P s s' := by
  cases h with
  | prepare hn => exact .of_heard heard_prepareNext
  | write item hi => exact .of_heard (s.heard_sendWrite item)
  | recv input => exact recvIter_tidings input
  | submit op hs hr => exact .of_heard (s.heard_call P op hr)
  | report e => exact .of_heard (s.heard_emit rfl)

/-- Every control frame that the application is told of has been read by a parser. -/
theorem reachable_legible {u : Setup} (h : Reachable P u s) {g : Frame} (hg : .ctrlRecv g ∈ s.host.log) : Legible P g := by
  have hheard : .ctrlRecv g ∈ s.heard := List.mem_filter.mpr ⟨hg, rfl⟩
  clear hg
  induction h with
  | refl =>
    rw [heard, log_start P u] at hheard
    cases hheard
  | tail _ ht ih =>
    rcases turn_tidings ht g hheard with hold | hnew
    · exact ih hold
    · exact hnew

end

/-! Ids. -/

/-- An id of a stream. -/
def Numbers (id : Int) : Prop := 0 < id ∧ id ≤ int32Max

theorem getStreamId_le (d : Bytes) : getStreamId d ≤ int32Max := by
  rw [getStreamId, int32Max]
  have hlt : getUint32 d % streamIdMask < streamIdMask := Nat.mod_lt _ (by decide)
  rw [streamIdMask] at hlt ⊢
  omega

theorem Legible.synStream {P : Platform} {f : SynStream} (h : Legible P (.synStream f)) : f.streamId ≤ int32Max := by
  obtain ⟨v, server, head, payload, n, inflated, hread⟩ := h
  cases hread with
  | synStream m m' f' block ht hb hu =>
    obtain ⟨nv, rfl, -⟩ := frameUnpackSynStream_ok hu
    exact getStreamId_le payload

open Protocol Protocol.Conn in
/-- The id is one that this side has given, or the peer has opened the stream. -/
def Named (c : Conn) (id : Int) : Prop :=
  0 < id ∧ (id ≤ int32Max ∨ ∃ f : SynStream, f.streamId = id ∧ .ctrlRecv (.synStream f) ∈ c.log)

section
open Protocol Protocol.Conn
variable {c c' : Conn}

structure NamedIds (c : Conn) : Prop where
  last : 0 ≤ c.lastRecvStreamId
  streams : ∀ id l, c.streams id = some l → Named c id
  reads : ∀ seq id bytes, .read seq id bytes ∈ c.log → Named c id

theorem Named.later (h : Protocol.Step c c') {id : Int} (hn : Named c id) : Named c' id := by
  refine ⟨hn.1, hn.2.imp_right ?_⟩
  rintro ⟨f, hid, hf⟩
  exact ⟨f, hid, h.log_grows.subset hf⟩

/-- A stream that is opened has the next id, or comes with a SYN_STREAM. -/
theorem born_named (h : Protocol.Step c c') (hi : Ids c) (hlast : 0 ≤ c.lastRecvStreamId) {id : Int} {l : Life}
    (hb : Born c c' id l) : Named c' id := by
  rcases hb with ⟨rfl, hnext, -⟩ | ⟨hpeer, -, f, hid, -, hf⟩
  · have hpos := hi.next
    refine ⟨by omega, .inl ?_⟩
    rcases h.next with hsame | ⟨hle, -⟩
    · omega
    · exact hle
  · exact ⟨lt_of_le_of_lt hlast hpeer.2.2, .inr ⟨f, hid, hf⟩⟩

theorem NamedIds.step (hi : Ids c) (hn : NamedIds c) (h : Protocol.Step c c') : NamedIds c' := by
  refine ⟨hn.last.trans h.later.last, ?_, ?_⟩
  · intro id l hl
    rcases h.lives id l hl with ⟨-, -, hb⟩ | ⟨l0, hl0, -⟩
    · exact born_named h hi hn.last hb
    · exact (hn.streams id l0 hl0).later h
  · intro seq id bytes hread
    rcases h.mem_log hread with hold | ⟨-, -, d, rfl, ⟨l, hl, -⟩, -⟩
    · exact (hn.reads seq id bytes hold).later h
    · exact (hn.streams _ l hl.1).later h

theorem namedIds_invariant : Invariant (fun c => Ids c ∧ NamedIds c) := by
  refine ids_invariant.with ?_ (fun c c' h hi _ hn => hn.step hi h)
  intro P u
  refine ⟨le_refl _, ?_, ?_⟩
  · rintro id l ⟨⟩
  · rintro seq id bytes ⟨⟩

end

theorem mem_readData {log : List Event} {r : Int × Bytes} (h : r ∈ readData log) : ∃ seq, .read seq r.1 r.2 ∈ log := by
  obtain ⟨e, he, hr⟩ := List.mem_filterMap.mp h
  cases e with
  | read seq id data =>
    cases hr
    exact ⟨seq, he⟩
  | _ => cases hr

/-- DATA is read only for streams whose ids fit the header of a DATA frame. -/
theorem read_numbers {P : Platform} {u : Setup} {s : Session} (h : Reachable P u s) :
    ∀ r ∈ readData s.sendSide.writes, Numbers r.1 := by
  intro r hr
  obtain ⟨seq, hmem⟩ := mem_readData hr
  obtain ⟨-, hn⟩ := namedIds_invariant.reachable h
  obtain ⟨hpos, hle | ⟨f, hid, hf⟩⟩ := hn.reads seq r.1 r.2 (List.mem_of_mem_filter hmem)
  · exact ⟨hpos, hle⟩
  · rw [← hid] at hpos ⊢
    exact ⟨hpos, (reachable_legible h hf).synStream⟩

end Spdylay.Peers
