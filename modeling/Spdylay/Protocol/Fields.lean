import Spdylay.Protocol.Runs

/-! What each operation on the protocol state leaves alone. -/
namespace Spdylay.Protocol
open Library Conn

namespace Conn

attribute [simp] note notes hold take skipSeq setStream modify pushOb pushObSs close sentData

/-- The streams after an RST_STREAM has marked one. -/
def marked (streams : Int → Option Life) : OutFrame → Int → Option Life
  | .ctrl (.rstStream f) => Function.update streams f.streamId
      ((streams f.streamId).map (fun l => {l with state := .closing}))
  | _ => streams

/-- The streams after a control frame is complete. -/
def completed (streams : Int → Option Life) : Frame → Int → Option Life
  | .synStream f => Function.update streams f.streamId ((streams f.streamId).map (fun l => {l with
      state := .opening, shutWr := l.shutWr || flagFin f.hd.flags, shutRd := l.shutRd || flagUnidirectional f.hd.flags}))
  | .synReply f => Function.update streams f.streamId ((streams f.streamId).map (fun l => {l with
      state := .opened, shutWr := l.shutWr || flagFin f.hd.flags}))
  | .headers f => Function.update streams f.streamId ((streams f.streamId).map (fun l => {l with
      shutWr := l.shutWr || flagFin f.hd.flags}))
  | _ => streams

variable (c : Conn)

@[simp] theorem mark_streams (frame : OutFrame) : (c.mark frame).streams = marked c.streams frame := by
  unfold mark marked
  split <;> simp

@[simp] theorem sent_streams (f : Frame) : (c.sent f).streams = completed c.streams f := by
  unfold sent completed
  split <;> simp

@[simp] theorem sent_goawaySend (f : Frame) :
    (c.sent f).goawaySend = (c.goawaySend || match f with | .goaway _ => true | _ => false) := by
  unfold sent
  dsimp only
  split <;> simp

@[simp] theorem sent_lastPing (f : Frame) :
    (c.sent f).lastPingUniqueId = match f with | .ping f => f.uniqueId | _ => c.lastPingUniqueId := by
  unfold sent
  dsimp only
  split <;> simp

@[simp] theorem mark_fields (frame : OutFrame) :
    (c.mark frame).server = c.server ∧ (c.mark frame).nextStreamId = c.nextStreamId ∧
    (c.mark frame).lastRecvStreamId = c.lastRecvStreamId ∧ (c.mark frame).nextSeq = c.nextSeq ∧
    (c.mark frame).obPq = c.obPq ∧ (c.mark frame).obSsPq = c.obSsPq ∧ (c.mark frame).active = c.active ∧
    (c.mark frame).hand = c.hand ∧ (c.mark frame).goawaySend = c.goawaySend ∧
    (c.mark frame).goawayRecv = c.goawayRecv ∧ (c.mark frame).goawayFailOnSend = c.goawayFailOnSend ∧
    (c.mark frame).lastPingUniqueId = c.lastPingUniqueId ∧ (c.mark frame).cliCertvec = c.cliCertvec ∧
    (c.mark frame).iframe = c.iframe ∧ (c.mark frame).log = c.log := by
  unfold mark
  split <;> simp

@[simp] theorem accept_fields (item : OutboundItem) :
    (c.accept item).server = c.server ∧ (c.accept item).nextStreamId = c.nextStreamId ∧
    (c.accept item).lastRecvStreamId = c.lastRecvStreamId ∧ (c.accept item).nextSeq = c.nextSeq+1 ∧
    (c.accept item).streams = marked c.streams item.frame ∧
    (c.accept item).obPq = (if item.isSynStream then c.obPq else BinaryHeap.push outboundItemCompar c.obPq item) ∧
    (c.accept item).obSsPq = (if item.isSynStream then BinaryHeap.push outboundItemCompar c.obSsPq item else c.obSsPq) ∧
    (c.accept item).active = c.active ∧ (c.accept item).hand = c.hand ∧ (c.accept item).goawaySend = c.goawaySend ∧
    (c.accept item).goawayRecv = c.goawayRecv ∧ (c.accept item).goawayFailOnSend = c.goawayFailOnSend ∧
    (c.accept item).lastPingUniqueId = c.lastPingUniqueId ∧ (c.accept item).cliCertvec = c.cliCertvec ∧
    (c.accept item).iframe = c.iframe ∧ (c.accept item).log = c.log ++ [.accepted item] := by
  unfold accept push
  split <;> simp

@[simp] theorem sent_fields (f : Frame) :
    (c.sent f).server = c.server ∧ (c.sent f).nextStreamId = c.nextStreamId ∧
    (c.sent f).lastRecvStreamId = c.lastRecvStreamId ∧ (c.sent f).nextSeq = c.nextSeq ∧ (c.sent f).obPq = c.obPq ∧
    (c.sent f).obSsPq = c.obSsPq ∧ (c.sent f).active = c.active ∧ (c.sent f).hand = c.hand ∧
    (c.sent f).goawayRecv = c.goawayRecv ∧ (c.sent f).goawayFailOnSend = c.goawayFailOnSend ∧
    (c.sent f).cliCertvec = c.cliCertvec ∧ (c.sent f).iframe = c.iframe ∧
    (c.sent f).log = c.log ++ [.ctrlSend f] := by
  unfold sent
  dsimp only
  split <;> simp

theorem isMine_congr {c c' : Conn} (h : c'.server = c.server) (id : Int) : c'.isMine id = c.isMine id := by
  unfold isMine
  rw [h]

end Conn

theorem mem_closeEvents {id : Int} {l : Life} {statusCode : Nat} {e : Event} (h : e ∈ closeEvents id l statusCode) :
    e = .streamClose id statusCode ∨ ∃ seq, e = .finished seq (.streamClosed id) := by
  unfold closeEvents at h
  rcases List.mem_append.mp h with h | h
  · split at h
    · exact .inl (List.mem_singleton.mp h)
    · cases h
  · simp only [Option.mem_toList,Option.map_eq_some_iff] at h
    obtain ⟨item,-,rfl⟩ := h
    exact .inr ⟨item.seq,rfl⟩

theorem mem_admitEvents {f : SynStream} {e : Event} (h : e ∈ admitEvents f) :
    e = .ctrlRecv (.synStream f) ∨ e = .requestRecv f.streamId ∨ e = .streamClose f.streamId statusOk := by
  unfold admitEvents at h
  split at h
  · split at h
    · simpa using h
    · simp only [List.mem_cons,List.not_mem_nil,or_false] at h
      rcases h with h | h
      · exact .inl h
      · exact .inr (.inl h)
  · exact .inl (List.mem_singleton.mp h)

/-- Events of control frames received, of streams closed and of frames completed. -/
def aside : Event → Bool
  | .accepted _ | .read _ _ _ | .prepared _ _ | .beforeCtrlSend _ | .dataChunkRecv _ _ _ => false
  | _ => true

theorem aside_of_quiet {e : Event} (h : quiet e = true) : aside e = true := by
  cases e with
  | accepted _ | read _ _ _ | prepared _ _ | beforeCtrlSend _ | dataChunkRecv _ _ _ => cases h
  | _ => rfl

theorem aside_closeEvents {id : Int} {l : Life} {statusCode : Nat} : ∀ e ∈ closeEvents id l statusCode, aside e = true := by
  intro e he
  rcases mem_closeEvents he with rfl | ⟨seq,rfl⟩ <;> rfl

theorem aside_admitEvents {f : SynStream} : ∀ e ∈ admitEvents f, aside e = true := by
  intro e he
  rcases mem_admitEvents he with rfl | rfl | rfl <;> rfl

/-- The queue of SYN_STREAMs, the hand and the active item are not touched. -/
structure Aside (c c' : Conn) : Prop where
  obSsPq : c'.obSsPq = c.obSsPq
  hand : c'.hand = c.hand
  active : c'.active = c.active
  log : ∃ es, c'.log = c.log ++ es ∧ ∀ e ∈ es, aside e = true

theorem Aside.silent {c c' : Conn} (h1 : c'.obSsPq = c.obSsPq) (h2 : c'.hand = c.hand) (h3 : c'.active = c.active)
    (h4 : c'.log = c.log) : Aside c c' := ⟨h1,h2,h3,[],by rw [h4,List.append_nil],nofun⟩

theorem Aside.logged {c c' : Conn} {e : Event} (h1 : c'.obSsPq = c.obSsPq) (h2 : c'.hand = c.hand)
    (h3 : c'.active = c.active) (h4 : c'.log = c.log ++ [e]) (he : Protocol.aside e = true) : Aside c c' :=
  ⟨h1,h2,h3,[e],h4,by simpa using he⟩

theorem Side.aside {c c' : Conn} (h : Side c c') : Aside c c' := by
  cases h with
  | note e he => exact .logged rfl rfl rfl rfl (aside_of_quiet he)
  | close id l statusCode h => exact ⟨rfl,rfl,rfl,_,rfl,aside_closeEvents⟩
  | admitStream f h1 h2 h3 h4 => exact ⟨rfl,rfl,rfl,_,rfl,aside_admitEvents⟩
  | admitUnopened f es h1 h2 h3 =>
    refine ⟨rfl,rfl,rfl,es ++ admitEvents f,by simp,?_⟩
    intro e he
    rcases List.mem_append.mp he with he | he
    · exact aside_of_quiet (h3 e he)
    · exact aside_admitEvents e he
  | recvSynReply | recvHeaders | recvData | recvRequest | recvPing | recvPingReply | recvGoaway | completeData =>
    exact .logged rfl rfl rfl rfl rfl
  | complete item f h1 h2 =>
    exact .logged (e := .ctrlSend f) (by simp) (by simp) (by simp) (by simp) rfl
  | refuse frame => exact .silent (by simp) (by simp) (by simp) (by simp)
  | resume | shutRd | read | seePeer | fail | resize | setOrigin | loseCredential | takeId =>
    exact .silent rfl rfl rfl rfl

end Spdylay.Protocol
