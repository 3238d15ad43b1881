import Spdylay.Protocol.Fields

/-! What one step of the protocol can do: to ids and flags, to the log, to the life
of a stream and to the active item. The invariants are derived from these alone. -/
namespace Spdylay.Protocol
open Library Conn

/-- An id that this side has taken, or the peer has reached. -/
def Conn.Used (c : Conn) (id : Int) : Prop :=
  if c.isMine id then id < c.nextStreamId else id ≤ c.lastRecvStreamId

/-- This frame is the active item's. -/
def Conn.Writes (c : Conn) (x : OutFrame) : Prop := ∃ item, c.active = some item ∧ item.frame = x

/-! Ids and flags only grow. -/

structure Later (c c' : Conn) : Prop where
  server : c'.server = c.server
  next : c.nextStreamId ≤ c'.nextStreamId
  parity : c'.nextStreamId % 2 = c.nextStreamId % 2
  last : c.lastRecvStreamId ≤ c'.lastRecvStreamId
  goawaySend : c.goawaySend = true → c'.goawaySend = true
  goawayRecv : c.goawayRecv = true → c'.goawayRecv = true
  goawayFailOnSend : c.goawayFailOnSend = true → c'.goawayFailOnSend = true

theorem Later.same {c c' : Conn} (h1 : c'.server = c.server) (h2 : c'.nextStreamId = c.nextStreamId)
    (h3 : c'.lastRecvStreamId = c.lastRecvStreamId) (h4 : c'.goawaySend = c.goawaySend)
    (h5 : c'.goawayRecv = c.goawayRecv) (h6 : c'.goawayFailOnSend = c.goawayFailOnSend) : Later c c' :=
  ⟨h1,h2.ge,by rw [h2],h3.ge,h4.symm ▸ id,h5.symm ▸ id,h6.symm ▸ id⟩

theorem Side.later {c c' : Conn} (h : Side c c') : Later c c' := by
  cases h with
  | seePeer k h1 h2 => exact ⟨rfl,le_refl _,rfl,h2.2.2.le,id,id,id⟩
  | admitStream f h1 h2 h3 h4 => exact ⟨rfl,le_refl _,rfl,h2.2.2.le,id,id,id⟩
  | admitUnopened f es h1 h2 h3 => exact ⟨rfl,le_refl _,rfl,h2.2.2.le,id,id,id⟩
  | takeId => exact ⟨rfl,Nat.le_add_right _ _,Nat.add_mod_right _ _,le_refl _,id,id,id⟩
  | recvGoaway f => exact ⟨rfl,le_refl _,rfl,le_refl _,id,fun _ => rfl,id⟩
  | fail => exact ⟨rfl,le_refl _,rfl,le_refl _,id,id,fun _ => rfl⟩
  | complete item f h1 h2 =>
    refine ⟨by simp,by simp,by simp,by simp,?_,by simp,by simp⟩
    intro hg
    simp [hg]
  | refuse frame => exact .same (by simp) (by simp) (by simp) (by simp) (by simp) (by simp)
  | note | close | resume | shutRd | read | recvSynReply | recvHeaders | recvData | recvRequest | recvPing | recvPingReply
  | resize | setOrigin | loseCredential | completeData => exact .same rfl rfl rfl rfl rfl rfl

theorem Move.later {c c' : Conn} (h : Move c c') : Later c c' := by
  cases h with
  | side h => exact h.later
  | accept item ha => exact .same (by simp) (by simp) (by simp) (by simp) (by simp) (by simp)
  | credential => exact .same (by simp) (by simp) (by simp) (by simp) (by simp) (by simp)
  | startOwn item f bytes h1 h2 h3 h4 h5 h6 =>
    exact ⟨rfl,Nat.le_add_right _ _,Nat.add_mod_right _ _,le_refl _,id,id,id⟩
  | pop | popSyn | retouch | drop | requeue | defer | start | startData | finish | parkActive | requeueActive
  | «continue» => exact .same rfl rfl rfl rfl rfl rfl

theorem Step.later {c c' : Conn} (h : Step c c') : Later c c' := by
  cases h with
  | move h => exact h.later
  | chunk => exact .same rfl rfl rfl rfl rfl rfl

theorem Later.isMine {c c' : Conn} (h : Later c c') (id : Int) : c'.isMine id = c.isMine id := isMine_congr h.server id

theorem Later.used {c c' : Conn} (h : Later c c') {id : Int} (hu : c.Used id) : c'.Used id := by
  have h1 := h.next
  have h2 := h.last
  unfold Conn.Used at hu ⊢
  rw [h.isMine]
  split_ifs at hu ⊢ <;> omega

theorem Later.shutDown {c c' : Conn} (h : Later c c') (hd : c.shutDown = true) : c'.shutDown = true := by
  simp only [Conn.shutDown,Bool.or_eq_true] at hd ⊢
  rcases hd with (hd | hd) | hd
  · exact .inl (.inl (h.goawaySend hd))
  · exact .inl (.inr (h.goawayRecv hd))
  · exact .inr (h.goawayFailOnSend hd)

/-! Events. -/

/-- What is known when an event is logged. -/
def Meets (c c' : Conn) : Event → Prop
  | .beforeCtrlSend (.synStream f) => c.active = none ∧ c.shutDown = false ∧ f.streamId = c.nextStreamId ∧
      c'.nextStreamId = c.nextStreamId+2 ∧ c'.Writes (.ctrl (.synStream f)) ∧ c.streams f.streamId = none
  | .beforeCtrlSend f => c.active = none ∧ c.MayStart (.ctrl f) ∧ c'.Writes (.ctrl f) ∧ c'.streams = c.streams
  | .read _ id _ => (c.active = none ∨ ∃ d, c.Writes (.data d)) ∧ c'.streams = c.streams ∧
      ∃ d, d.streamId = id ∧ c.MayStart (.data d) ∧ c'.Writes (.data d)
  | .ctrlSend f => c.Writes (.ctrl f) ∧ c'.active = c.active ∧ (∀ g, f = .goaway g → c'.goawaySend = true) ∧
      c'.streams = completed c.streams f
  | .dataSend flags id _ => ∃ d, c.Writes (.data d) ∧ d.streamId = id ∧ flags = (if d.eof then d.flags else 0) ∧
      c'.active = c.active ∧ c'.streams = Function.update c.streams id ((c.streams id).map (fun l => {l with
        shutWr := l.shutWr || (d.eof && flagFin d.flags)}))
  | .ctrlRecv (.synStream f) => c.shutDown = false ∧ c.NewPeerId f.streamId ∧ c'.lastRecvStreamId = f.streamId ∧
      c'.active = c.active ∧
      ((flagFin f.hd.flags && flagUnidirectional f.hd.flags) = true → .streamClose f.streamId statusOk ∈ c'.log) ∧
      (c'.streams = c.streams ∨
        ((flagFin f.hd.flags && flagUnidirectional f.hd.flags) = false ∧
          c'.streams = Function.update c.streams f.streamId (some (admitted f))))
  | .ctrlRecv (.synReply f) => c.streams f.streamId ≠ none
  | .ctrlRecv (.headers f) => c.streams f.streamId ≠ none
  | .dataRecv _ id _ => c.streams id ≠ none
  | .requestRecv id => c.streams id ≠ none ∨ (c.NewPeerId id ∧ c'.lastRecvStreamId = id)
  | .streamClose id _ => (∃ l, c.streams id = some l ∧ l.state ≠ .initial ∧ c'.streams id = none) ∨
      (c.NewPeerId id ∧ c'.lastRecvStreamId = id ∧ c'.streams = c.streams ∧
        ∃ f, .ctrlRecv (.synStream f) ∈ c'.log ∧ f.streamId = id)
  | .ctrlRecv (.ping f) => (c.lastPingUniqueId ≠ f.uniqueId ∧ c'.lastPingUniqueId = c.lastPingUniqueId) ∨
      (c.lastPingUniqueId = f.uniqueId ∧ c'.lastPingUniqueId = 0)
  | .ctrlRecv (.goaway _) => c'.goawayRecv = true
  | .dataChunkRecv _ id _ => Delivers c.iframe id
  | .accepted item => c'.active = c.active ∧ c'.hand = c.hand ∧ c'.streams = marked c.streams item.frame ∧
      c'.lastRecvStreamId = c.lastRecvStreamId ∧ ∀ f, item.frame = .ctrl (.goaway f) →
        f.lastGoodStreamId = c.lastRecvStreamId
  | _ => True

/-- Events of the same step that may come before one. -/
def Ahead : Event → Event → Prop
  | .beforeCtrlSend _, .prepared _ _ => True
  | .prepared _ _, .read _ _ _ => True
  | .finished _ _, .streamClose _ _ => True
  | .requestRecv id, .ctrlRecv (.synStream f) => f.streamId = id
  | .streamClose id _, .ctrlRecv (.synStream f) => f.streamId = id
  | .streamClose id _, .requestRecv k => k = id
  | _, x => quiet x = true

/-- A stream that is not in the table is closed only in the report of its SYN_STREAM. -/
def Reported (c : Conn) (pre : List Event) : Event → Prop
  | .streamClose id _ => c.streams id ≠ none ∨ ∃ f : SynStream, f.streamId = id ∧ .ctrlRecv (.synStream f) ∈ pre
  | _ => True

/-- The other version of a DATA frame is one of the same stream. -/
theorem data_of_sameFrame {x : OutFrame} {y : OutFrame} {d : DataFrame} (h : SameFrame x y) (hy : y = .data d) :
    ∃ d0, x = .data d0 ∧ d0.streamId = d.streamId := by
  subst hy
  cases x with
  | data d0 => exact ⟨d0,rfl,Eq.symm h⟩
  | ctrl f => cases f <;> cases h

/-- The events of a step, each with what is known of it. -/
def Logs (c c' : Conn) : Prop :=
  ∃ es, c'.log = c.log ++ es ∧ Guarded (fun pre e => Meets c c' e ∧ (∀ x ∈ pre, Ahead e x) ∧ Reported c pre e) es

theorem Logs.none {c c' : Conn} (h : c'.log = c.log) : Logs c c' := ⟨[],by rw [h,List.append_nil],guarded_nil⟩

theorem reported_of {c : Conn} {pre : List Event} {e : Event} (h : ∀ id statusCode, e ≠ .streamClose id statusCode) :
    Reported c pre e := by
  cases e with
  | streamClose id statusCode => exact absurd rfl (h id statusCode)
  | _ => trivial

theorem Logs.one {c c' : Conn} {e : Event} (h : c'.log = c.log ++ [e]) (he : Meets c c' e)
    (hc : ∀ id statusCode, e ≠ .streamClose id statusCode) : Logs c c' :=
  ⟨[e],h,guarded_concat.mpr ⟨guarded_nil,he,List.forall_mem_nil _,reported_of hc⟩⟩

theorem Logs.two {c c' : Conn} {e x : Event} (h : c'.log = c.log ++ [e,x]) (he : Meets c c' e) (hx : Meets c c' x)
    (ha : Ahead x e) (hc : ∀ id statusCode, e ≠ .streamClose id statusCode)
    (hc' : ∀ id statusCode, x ≠ .streamClose id statusCode) : Logs c c' :=
  ⟨[e,x],h,guarded_concat.mpr ⟨guarded_concat.mpr ⟨guarded_nil,he,List.forall_mem_nil _,reported_of hc⟩,hx,
    by simpa using ha,reported_of hc'⟩⟩

theorem meets_quiet {c c' : Conn} {e : Event} (h : quiet e = true) : Meets c c' e := by
  cases e with
  | ctrlRecv f =>
    cases f with
    | rstStream | settings | windowUpdate | credential => trivial
    | _ => cases h
  | invalidCtrlRecv | ctrlRecvParseError | unknownCtrlRecv | ctrlNotSend | sent | windowRaised | insertFailed | frameDone
  | fatal => trivial
  | _ => cases h

theorem quiet_ne_close {e : Event} (h : quiet e = true) (id : Int) (statusCode : Nat) : e ≠ .streamClose id statusCode := by
  rintro rfl
  cases h

theorem ahead_quiet {e x : Event} (h : quiet x = true) : Ahead e x := by
  unfold Ahead
  split
  · trivial
  · trivial
  · trivial
  · cases h
  · cases h
  · cases h
  · exact h

theorem Logs.close {c c' : Conn} {id : Int} {l : Life} {statusCode : Nat}
    (h : c'.log = c.log ++ closeEvents id l statusCode) (hl : c.streams id = some l) (hn : c'.streams id = .none) :
    Logs c c' := by
  refine ⟨closeEvents id l statusCode,h,?_⟩
  have hclose : l.state ≠ .initial → Meets c c' (.streamClose id statusCode) := fun hs => .inl ⟨l,hl,hs,hn⟩
  have hrep : Reported c [] (.streamClose id statusCode) := .inl (by rw [hl]; nofun)
  unfold closeEvents
  split
  · rename_i hs
    cases l.deferred with
    | none => exact guarded_concat.mpr ⟨guarded_nil,hclose hs,List.forall_mem_nil _,hrep⟩
    | some item =>
      refine guarded_concat.mpr ⟨guarded_concat.mpr ⟨guarded_nil,hclose hs,List.forall_mem_nil _,hrep⟩,trivial,?_,trivial⟩
      intro x hx
      cases List.mem_singleton.mp hx
      trivial
  · cases l.deferred with
    | none => exact guarded_nil
    | some item => exact guarded_concat.mpr ⟨guarded_nil,trivial,List.forall_mem_nil _,trivial⟩

/-- The reports of an accepted SYN_STREAM, after events that say nothing. -/
theorem Logs.admitStream {c c' : Conn} {f : SynStream} (es : List Event) (h : c'.log = c.log ++ (es ++ admitEvents f))
    (hq : ∀ e ∈ es, quiet e = true) (hrecv : Meets c c' (.ctrlRecv (.synStream f)))
    (hsame : (flagFin f.hd.flags && flagUnidirectional f.hd.flags) = true → c'.streams = c.streams) : Logs c c' := by
  have hq' : Guarded (fun pre e => Meets c c' e ∧ (∀ x ∈ pre, Ahead e x) ∧ Reported c pre e) es := by
    intro pre e post he
    have hqe := hq e (he ▸ List.mem_append_right _ (.head _))
    refine ⟨meets_quiet hqe,?_,reported_of (quiet_ne_close hqe)⟩
    exact fun x hx => ahead_quiet (hq x (he ▸ List.mem_append_left _ hx))
  have h1 := guarded_concat.mpr ⟨hq',hrecv,fun x hx => ahead_quiet (hq x hx),trivial⟩
  have hmem : .ctrlRecv (.synStream f) ∈ c'.log := by
    rw [h]
    simp [admitEvents]
  refine ⟨es ++ admitEvents f,h,?_⟩
  unfold admitEvents
  split
  · rename_i hfin
    have hreq : Meets c c' (.requestRecv f.streamId) := .inr ⟨hrecv.2.1,hrecv.2.2.1⟩
    have hreq' : ∀ x ∈ es ++ [.ctrlRecv (.synStream f)], Ahead (.requestRecv f.streamId) x := by
      intro x hx
      rcases List.mem_append.mp hx with hx | hx
      · exact ahead_quiet (hq x hx)
      · cases List.mem_singleton.mp hx
        exact rfl
    have h2 := guarded_concat.mpr ⟨h1,hreq,hreq',trivial⟩
    split
    · rename_i huni
      have hclose : Meets c c' (.streamClose f.streamId statusOk) :=
        .inr ⟨hrecv.2.1,hrecv.2.2.1,hsame (by rw [hfin,huni]; rfl),f,hmem,rfl⟩
      have hclose' : ∀ x ∈ es ++ [.ctrlRecv (.synStream f)] ++ [.requestRecv f.streamId],
          Ahead (.streamClose f.streamId statusOk) x := by
        intro x hx
        simp only [List.mem_append,List.mem_singleton] at hx
        rcases hx with (hx | rfl) | rfl
        · exact ahead_quiet (hq x hx)
        · exact rfl
        · exact rfl
      have h3 := guarded_concat.mpr ⟨h2,hclose,hclose',.inr ⟨f,rfl,by simp⟩⟩
      rwa [List.append_assoc,List.append_assoc] at h3
    · rwa [List.append_assoc] at h2
  · exact h1

theorem Side.logs {c c' : Conn} (h : Side c c') : Logs c c' := by
  cases h with
  | note e he => exact .one rfl (meets_quiet he) (quiet_ne_close he)
  | close id l statusCode h => exact .close rfl h (Function.update_self _ _ _)
  | admitStream f h1 h2 h3 h4 =>
    have hno : (flagFin f.hd.flags && flagUnidirectional f.hd.flags) ≠ true := by
      rw [h4]
      nofun
    exact .admitStream [] rfl nofun ⟨h1,h2,rfl,rfl,fun hfu => absurd hfu hno,.inr ⟨h4,rfl⟩⟩
      (fun hfu => absurd hfu hno)
  | admitUnopened f es h1 h2 h3 =>
    refine .admitStream es (by simp) h3 ⟨h1,h2,rfl,rfl,?_,.inl rfl⟩ (fun _ => rfl)
    intro hfu
    obtain ⟨hfin,huni⟩ := Bool.and_eq_true_iff.mp hfu
    refine List.mem_append_right _ ?_
    simp [admitEvents,hfin,huni]
  | recvSynReply f l h1 h2 h3 h4 => exact .one rfl (by simp [Meets,h1]) nofun
  | recvHeaders f l h1 h2 => exact .one rfl (by simp [Meets,h1]) nofun
  | recvData flags id length l h1 h2 => exact .one rfl (by simp [Meets,h1]) nofun
  | recvRequest id l h1 => exact .one rfl (.inl (by simp [h1])) nofun
  | recvPing f h1 => exact .one rfl (.inl ⟨h1,rfl⟩) nofun
  | recvPingReply f h1 h2 => exact .one rfl (.inr ⟨h1,rfl⟩) nofun
  | recvGoaway f => exact .one rfl rfl nofun
  | complete item f h1 h2 =>
    refine .one (e := .ctrlSend f) (by simp) ⟨⟨item,h1,h2⟩,by simp,?_,by simp⟩ nofun
    rintro g rfl
    simp
  | completeData item d length h1 h2 => exact .one rfl ⟨d,⟨item,h1,h2⟩,rfl,rfl,rfl,rfl⟩ nofun
  | refuse frame => exact .none (by simp)
  | resume | shutRd | read | seePeer | fail | resize | setOrigin | loseCredential | takeId => exact .none rfl

theorem Move.logs {c c' : Conn} (h : Move c c') : Logs c c' := by
  cases h with
  | side h => exact h.logs
  | accept item ha =>
    refine .one (e := .accepted item) (by simp) ⟨by simp,by simp,by simp,by simp,?_⟩ nofun
    intro f hf
    have h2 := ha.2
    rw [hf] at h2
    exact h2
  | credential syn item f origin h1 h2 h3 h4 h5 h6 =>
    refine .one (e := .accepted item) (by simp) ⟨by simp,by simp,by simp,by simp,?_⟩ nofun
    intro g hg
    rw [h4] at hg
    cases hg
  | drop item e h1 => exact .one rfl trivial nofun
  | start item f bytes h1 h2 h3 h4 =>
    refine .two rfl trivial ?_ trivial nofun nofun
    have hw : Writes (((({c with active := some item} : Conn).notes
      [.prepared item.seq bytes,.beforeCtrlSend f]).hold .none)) (.ctrl f) := ⟨item,rfl,h3⟩
    cases f with
    | synStream f => exact h4.elim
    | _ => exact ⟨h2,h4,hw,rfl⟩
  | startOwn item f bytes h1 h2 h3 h4 h5 h6 => exact .two rfl trivial ⟨h2,h6,h4,rfl,⟨item,rfl,h3⟩,h5⟩ trivial nofun nofun
  | startData item d bytes frame h1 h2 h3 h4 =>
    exact .two rfl ⟨.inl h2,rfl,d,rfl,h4,item,rfl,h3⟩ trivial trivial nofun nofun
  | finish item cause h1 h2 h3 => exact .one rfl trivial nofun
  | «continue» item item' d bytes frame h1 h2 h3 h4 h5 =>
    obtain ⟨d0,h0,-⟩ := data_of_sameFrame h3 h4
    exact .two rfl ⟨.inr ⟨d0,item,h1,h0⟩,rfl,d,rfl,h5,item',rfl,h4⟩ trivial trivial nofun nofun
  | pop | popSyn | retouch | requeue | defer | parkActive | requeueActive => exact .none rfl

theorem Step.logs {c c' : Conn} (h : Step c c') : Logs c c' := by
  cases h with
  | move h => exact h.logs
  | chunk flags id data hd => exact .one rfl hd nofun

theorem Step.log_grows {c c' : Conn} (h : Step c c') : c.log <+: c'.log := by
  obtain ⟨es,he,-⟩ := h.logs
  exact ⟨es,he.symm⟩

theorem Steps.log_grows {c c' : Conn} (h : Steps c c') : c.log <+: c'.log := by
  induction h with
  | refl => exact List.prefix_rfl
  | tail _ h ih => exact ih.trans h.log_grows

/-- To keep the log guarded, look at each event a step can log. -/
theorem Step.guarded {c c' : Conn} {p : List Event → Event → Prop} (h : Step c c') (hg : Guarded p c.log)
    (hp : ∀ e es, Meets c c' e → (∀ x ∈ es, Ahead e x) → Reported c es e → p (c.log ++ es) e) :
    Guarded p c'.log := by
  obtain ⟨es,he,hes⟩ := h.logs
  rw [he]
  intro pre e post hcut
  rcases append_eq_append_cons hcut with ⟨post',-,hcut'⟩ | ⟨pre',rfl,hcut'⟩
  · exact hg pre e post' hcut'
  · obtain ⟨hm,ha,hrep⟩ := hes pre' e post hcut'
    exact hp e pre' hm ha hrep

/-- An event of the new log is old, or is known to be allowed. -/
theorem Step.mem_log {c c' : Conn} (h : Step c c') {e : Event} (he : e ∈ c'.log) : e ∈ c.log ∨ Meets c c' e := by
  obtain ⟨es,hl,hes⟩ := h.logs
  rw [hl] at he
  rcases List.mem_append.mp he with he | he
  · exact .inl he
  · obtain ⟨pre,post,hcut⟩ := List.append_of_mem he
    exact .inr (hes pre e post hcut).1

/-- A cut of the new log is a cut of the old one, or is made at a new event. -/
theorem Step.cut_log {c c' : Conn} (h : Step c c') {e : Event} {a b : List Event} (he : c'.log = a ++ e :: b) :
    (∃ b', c.log = a ++ e :: b') ∨ (Meets c c' e ∧ ∃ es, a = c.log ++ es ∧ ∀ x ∈ es, Ahead e x) := by
  obtain ⟨es,hl,hes⟩ := h.logs
  rw [hl] at he
  rcases append_eq_append_cons he with ⟨b',-,he'⟩ | ⟨pre,rfl,he'⟩
  · exact .inl ⟨b',he'⟩
  · obtain ⟨hm,ha,-⟩ := hes pre e b he'
    exact .inr ⟨hm,pre,rfl,ha⟩

/-! The life of a stream. -/

/-- A step has opened the stream: for a SYN_STREAM that it begins to write, or for one
that it has received. -/
def Born (c c' : Conn) (id : Int) (l : Life) : Prop :=
  (id = c.nextStreamId ∧ c'.nextStreamId = c.nextStreamId+2 ∧ l.state = .initial ∧
    ∃ f : SynStream, f.streamId = id ∧ c'.Writes (.ctrl (.synStream f)) ∧ .beforeCtrlSend (.synStream f) ∈ c'.log) ∨
  (c.NewPeerId id ∧ c'.lastRecvStreamId = id ∧ ∃ f : SynStream, f.streamId = id ∧ l = admitted f ∧
    .ctrlRecv (.synStream f) ∈ c'.log)

/-- What a step can make of a life. -/
structure Grown (c c' : Conn) (id : Int) (l l' : Life) : Prop where
  shutWr : l.shutWr = true → l'.shutWr = true
  state : l'.state = l.state ∨ l'.state = .closing ∨
    (c.isMine id = true ∧ l.state = .opening ∧ l'.state = .opened) ∨
    (∃ f : SynStream, f.streamId = id ∧ c.Writes (.ctrl (.synStream f)) ∧
      c'.log = c.log ++ [.ctrlSend (.synStream f)] ∧ l'.state = .opening) ∨
    (∃ f : StreamHeaders, f.streamId = id ∧ c.Writes (.ctrl (.synReply f)) ∧
      c'.log = c.log ++ [.ctrlSend (.synReply f)] ∧ l'.state = .opened)

def Lives (c c' : Conn) : Prop := ∀ id l', c'.streams id = some l' →
  (c.streams id = none ∧ c.shutDown = false ∧ Born c c' id l') ∨ ∃ l, c.streams id = some l ∧ Grown c c' id l l'

theorem Grown.same {c c' : Conn} {id : Int} {l l' : Life} (h1 : l'.state = l.state) (h2 : l.shutWr = true → l'.shutWr = true) :
    Grown c c' id l l' := ⟨h2,.inl h1⟩

theorem Grown.refl (c c' : Conn) (id : Int) (l : Life) : Grown c c' id l l := .same rfl (fun h => h)

theorem Lives.same {c c' : Conn} (h : c'.streams = c.streams) : Lives c c' := by
  intro id l' hl
  rw [h] at hl
  exact .inr ⟨l',hl,.refl c c' id l'⟩

/-- One life is changed. -/
theorem Lives.map {c c' : Conn} {k : Int} {g : Life → Life}
    (h : c'.streams = Function.update c.streams k ((c.streams k).map g))
    (hg : ∀ l, c.streams k = some l → Grown c c' k l (g l)) : Lives c c' := by
  intro id l' hl
  rw [h,Function.update_apply] at hl
  split at hl
  · rename_i hk
    subst hk
    obtain ⟨l,hl',rfl⟩ := Option.map_eq_some_iff.mp hl
    exact .inr ⟨l,hl',hg l hl'⟩
  · exact .inr ⟨l',hl,.refl c c' id l'⟩

theorem Lives.set {c c' : Conn} {k : Int} {l l' : Life} (h : c'.streams = Function.update c.streams k (some l'))
    (hl : c.streams k = some l) (hg : Grown c c' k l l') : Lives c c' := by
  refine .map (g := fun _ => l') (by rw [h,hl]; rfl) ?_
  intro l0 h0
  rw [hl] at h0
  cases h0
  exact hg

theorem Lives.born {c c' : Conn} {k : Int} {l : Life} (h : c'.streams = Function.update c.streams k (some l))
    (hn : c.streams k = none) (hd : c.shutDown = false) (hb : Born c c' k l) : Lives c c' := by
  intro id l' hl
  rw [h,Function.update_apply] at hl
  split at hl
  · rename_i hk
    subst hk
    cases hl
    exact .inl ⟨hn,hd,hb⟩
  · exact .inr ⟨l',hl,.refl c c' id l'⟩

theorem Lives.marked {c c' : Conn} (frame : OutFrame) (h : c'.streams = marked c.streams frame) : Lives c c' := by
  unfold Conn.marked at h
  split at h
  · refine .map h ?_
    intro l hl
    exact ⟨id,.inr (.inl rfl)⟩
  · exact .same h

theorem Lives.completed {c c' : Conn} {f : Frame} (h : c'.streams = completed c.streams f) (hw : c.Writes (.ctrl f))
    (hl : c'.log = c.log ++ [.ctrlSend f]) : Lives c c' := by
  have hor : ∀ (l : Life) (b : Bool), l.shutWr = true → (l.shutWr || b) = true := by
    intro l b hs
    rw [hs]
    rfl
  unfold Conn.completed at h
  split at h
  · rename_i f
    refine .map h ?_
    intro l _
    exact ⟨hor l _,.inr (.inr (.inr (.inl ⟨f,rfl,hw,hl,rfl⟩)))⟩
  · rename_i f
    refine .map h ?_
    intro l _
    exact ⟨hor l _,.inr (.inr (.inr (.inr ⟨f,rfl,hw,hl,rfl⟩)))⟩
  · refine .map h ?_
    intro l _
    exact .same rfl (hor l _)
  · exact .same h

theorem Side.lives {c c' : Conn} (h : Side c c') : Lives c c' := by
  cases h with
  | refuse frame => exact .marked frame (by simp)
  | close k l statusCode h =>
    intro id l' hl
    change Function.update c.streams k none id = some l' at hl
    rw [Function.update_apply] at hl
    split at hl
    · cases hl
    · exact .inr ⟨l',hl,.refl c _ id l'⟩
  | resume k l item h1 h2 => exact .set rfl h1 (.same rfl id)
  | shutRd k =>
    refine .map (k := k) rfl ?_
    intro l hl
    exact .same rfl id
  | admitStream f h1 h2 h3 h4 =>
    refine .born rfl h3 h1 (.inr ⟨h2,rfl,f,rfl,rfl,?_⟩)
    exact List.mem_append_right _ (.head _)
  | recvSynReply f l h1 h2 h3 h4 => exact .set rfl h1 ⟨id,.inr (.inr (.inl ⟨h2,h4,rfl⟩))⟩
  | complete item f h1 h2 => exact .completed (f := f) (by simp) ⟨item,h1,h2⟩ (by simp)
  | completeData item d length h1 h2 =>
    refine .map (k := d.streamId) rfl ?_
    intro l _
    refine .same rfl ?_
    intro hs
    simp [hs]
  | note | read | seePeer | admitUnopened | recvHeaders | recvData | recvRequest | recvPing | recvPingReply | recvGoaway
  | fail | resize | setOrigin | loseCredential | takeId => exact .same rfl

theorem Move.lives {c c' : Conn} (h : Move c c') : Lives c c' := by
  cases h with
  | side h => exact h.lives
  | accept item ha => exact .marked item.frame (by simp)
  | credential syn item => exact .marked item.frame (by simp)
  | defer item d l h1 h2 h3 h4 => exact .set rfl h3 (.same rfl id)
  | parkActive item item' d l h1 h2 h3 h4 h5 h6 => exact .set rfl h5 (.same rfl id)
  | startOwn item f bytes h1 h2 h3 h4 h5 h6 => 
    refine .born rfl h5 h6 (.inl ⟨h4,rfl,rfl,f,rfl,⟨item,rfl,h3⟩,?_⟩)
    exact List.mem_append_right _ (.tail _ (.head _))
  | pop | popSyn | retouch | drop | requeue | start | startData | finish | requeueActive | «continue» => exact .same rfl

theorem Step.lives {c c' : Conn} (h : Step c c') : Lives c c' := by
  cases h with
  | move h => exact h.lives
  | chunk => exact .same rfl

/-- A stream disappears by being closed. -/
theorem Step.removed {c c' : Conn} (h : Step c c') {id : Int} {l : Life} (hl : c.streams id = some l)
    (hn : c'.streams id = none) : ∃ statusCode, c'.log = c.log ++ closeEvents id l statusCode := by
  have hput : ∀ {streams : Int → Option Life} {k : Int} {l' : Life}, streams = Function.update c.streams k (some l') →
      streams id ≠ none := by
    rintro _ k l' rfl
    rw [Function.update_apply]
    split
    · nofun
    · rw [hl]
      nofun
  have hmap : ∀ {streams : Int → Option Life} {k : Int} {g : Life → Life},
      streams = Function.update c.streams k ((c.streams k).map g) → streams id ≠ none := by
    rintro _ k g rfl
    rw [Function.update_apply]
    split
    · rename_i hk
      rw [← hk,hl]
      nofun
    · rw [hl]
      nofun
  have hsame : ∀ {streams : Int → Option Life}, streams = c.streams → streams id ≠ none := by
    rintro _ rfl
    rw [hl]
    nofun
  have hmark : ∀ {streams : Int → Option Life} (frame : OutFrame), streams = Conn.marked c.streams frame →
      streams id ≠ none := by
    intro streams frame hs
    unfold Conn.marked at hs
    split at hs
    · exact hmap hs
    · exact hsame hs
  cases h with
  | chunk => exact absurd hn (hsame rfl)
  | move h =>
    cases h with
    | side h =>
      cases h with
      | close k l' statusCode h =>
        change Function.update c.streams k none id = none at hn
        rw [Function.update_apply] at hn
        split at hn
        · rename_i hk
          subst hk
          rw [h] at hl
          cases hl
          exact ⟨statusCode,rfl⟩
        · rw [hl] at hn
          cases hn
      | refuse frame => exact absurd hn (hmark frame (by simp))
      | complete item f h1 h2 =>
        refine absurd hn ?_
        rw [sent_streams]
        unfold Conn.completed
        split
        · exact hmap rfl
        · exact hmap rfl
        · exact hmap rfl
        · exact hsame rfl
      | resume | admitStream | recvSynReply => exact absurd hn (hput rfl)
      | shutRd k => exact absurd hn (hmap (k := k) rfl)
      | completeData item d => exact absurd hn (hmap (k := d.streamId) rfl)
      | _ => exact absurd hn (hsame rfl)
    | accept item ha => exact absurd hn (hmark item.frame (by simp))
    | credential syn item => exact absurd hn (hmark item.frame (by simp))
    | defer | parkActive | startOwn => exact absurd hn (hput rfl)
    | _ => exact absurd hn (hsame rfl)

/-! The active item. -/

/-- What a step can do with the active item: leave it, begin a frame, free it when it
is complete, or go on with a body or lay it aside. -/
inductive Acts (c c' : Conn) : Prop
  | same : c'.active = c.active → Acts c c'
  | begins (item : OutboundItem) : c.active = none → c'.active = some item →
      (∀ f, item.frame = .ctrl f → .beforeCtrlSend f ∈ c'.log ∧ Meets c c' (.beforeCtrlSend f)) →
      (∀ d, item.frame = .data d → c.MayStart (.data d)) → Acts c c'
  | frees (item : OutboundItem) : c.active = some item → c'.active = none → (∃ cause, .finished item.seq cause ∈ c'.log) →
      c'.streams = c.streams → (∀ f, item.frame = .ctrl f → .ctrlSend f ∈ c.log) →
      (∀ f, item.frame = .ctrl (.rstStream f) → c.streams f.streamId = none) → Acts c c'
  | data (item : OutboundItem) (d : DataFrame) : c.active = some item → item.frame = .data d →
      (∀ item', c'.active = some item' → ∃ d', item'.frame = .data d' ∧ d'.streamId = d.streamId) → Acts c c'

theorem Step.acts {c c' : Conn} (h : Step c c') : Acts c c' := by
  cases h with
  | chunk => exact .same rfl
  | move h =>
    cases h with
    | side h => exact .same h.aside.active
    | accept item ha => exact .same (by simp)
    | credential syn item => exact .same (by simp)
    | start item f bytes h1 h2 h3 h4 =>
      refine .begins item h2 rfl ?_ ?_
      · intro g hg
        rw [h3] at hg
        cases hg
        refine ⟨List.mem_append_right _ (.tail _ (.head _)),?_⟩
        cases f with
        | synStream f => exact h4.elim
        | _ => exact ⟨h2,h4,⟨item,rfl,h3⟩,rfl⟩
      · intro d hd
        rw [h3] at hd
        cases hd
    | startOwn item f bytes h1 h2 h3 h4 h5 h6 =>
      refine .begins item h2 rfl ?_ ?_
      · intro g hg
        rw [h3] at hg
        cases hg
        exact ⟨List.mem_append_right _ (.tail _ (.head _)),h2,h6,h4,rfl,⟨item,rfl,h3⟩,h5⟩
      · intro d hd
        rw [h3] at hd
        cases hd
    | startData item d bytes frame h1 h2 h3 h4 =>
      refine .begins item h2 rfl ?_ ?_
      · intro g hg
        rw [h3] at hg
        cases hg
      · intro d' hd
        rw [h3] at hd
        cases hd
        exact h4
    | finish item cause h1 h2 h3 =>
      exact .frees item h1 rfl ⟨cause,List.mem_append_right _ (.head _)⟩ rfl h2 h3
    | parkActive item item' d l h1 h2 h3 h4 h5 h6 =>
      obtain ⟨d0,h0⟩ := data_of_sameFrame h3 h4
      exact .data item d0 h1 h0.1 nofun
    | requeueActive item d h1 h2 => exact .data item d h1 h2 nofun
    | «continue» item item' d bytes frame h1 h2 h3 h4 h5 =>
      obtain ⟨d0,h0⟩ := data_of_sameFrame h3 h4
      refine .data item d0 h1 h0.1 ?_
      intro x hx
      cases hx
      exact ⟨d,h4,h0.2.symm⟩
    | pop | popSyn | retouch | drop | requeue | defer => exact .same rfl

end Spdylay.Protocol
