import Spdylay.Session.Changes

/-! The receiving side of flow control: the receive windows of the streams, and what
is logged of received bytes and of windows given back. The moves of a session that
leave it alone, and those that open a stream. -/
namespace Spdylay
open Library

/-- The settings that decide when a window is given back, and the events that count. -/
structure CreditSide where
  flowControl : Bool
  localSettings : Nat → Nat
  noAutoWindowUpdate : Bool
  events : List Event

def CreditSide.notes (w : CreditSide) (es : List Event) : CreditSide := {w with events := w.events ++ es}

namespace Session

def creditSide (s : Session) : CreditSide where
  flowControl := s.flowControl
  localSettings := s.localSettings
  noAutoWindowUpdate := s.noAutoWindowUpdate
  events := s.host.log.filter ofCredit

/-- On the way from `s` to `s'` the receive window of a stream that stays goes from `r`
to `g id r`, and the events `es` are added. -/
structure Credits (g : Int → Int → Int) (es : List Event) (s s' : Session) : Prop where
  side : s'.creditSide = s.creditSide.notes es
  streams : ∀ id st', s'.getStream id = some st' → ∃ st, s.getStream id = some st ∧
    st'.recvWindowSize = g id st.recvWindowSize ∧ (st'.shutRd = false → st.shutRd = false)
  mem : s'.host.mem <:+ s.host.mem

abbrev Calm : Session → Session → Prop := Credits (fun _ r => r) []

/-- A new stream has received nothing. -/
structure Opens (s s' : Session) : Prop where
  side : s'.creditSide = s.creditSide
  streams : ∀ id st', s'.getStream id = some st' → (∃ st, s.getStream id = some st ∧
    st'.recvWindowSize = st.recvWindowSize ∧ (st'.shutRd = false → st.shutRd = false)) ∨
    s.getStream id = none ∧ st'.recvWindowSize = 0
  mem : s'.host.mem <:+ s.host.mem

theorem CreditSide.notes_nil (w : CreditSide) : w.notes [] = w := by
  rw [CreditSide.notes,List.append_nil]

theorem CreditSide.notes_notes (w : CreditSide) (es es' : List Event) : (w.notes es).notes es' = w.notes (es ++ es') := by
  rw [CreditSide.notes,CreditSide.notes,CreditSide.notes,List.append_assoc]

theorem Credits.trans {g g' : Int → Int → Int} {es es' : List Event} {s s1 s2 : Session} (h : Credits g es s s1)
    (h' : Credits g' es' s1 s2) : Credits (fun id r => g' id (g id r)) (es ++ es') s s2 := by
  refine ⟨?_,?_,h'.mem.trans h.mem⟩
  · rw [h'.side,h.side,CreditSide.notes_notes]
  · intro id st2 h2
    obtain ⟨st1,h1,hr1,hs1⟩ := h'.streams id st2 h2
    obtain ⟨st,h0,hr,hs⟩ := h.streams id st1 h1
    exact ⟨st,h0,hr ▸ hr1,fun h => hs (hs1 h)⟩

theorem Credits.calm {g : Int → Int → Int} {es : List Event} {s s1 s2 : Session} (h : Credits g es s s1)
    (h' : Calm s1 s2) : Credits g es s s2 := by
  have ht := h.trans h'
  rw [List.append_nil] at ht
  exact ht

/-- Sessions with the same streams. -/
theorem Credits.same {es : List Event} {s s' : Session} (hc : s'.creditSide = s.creditSide.notes es)
    (hs : s'.streams = s.streams) (hm : s'.host.mem <:+ s.host.mem) : Credits (fun _ r => r) es s s' := by
  refine ⟨hc,?_,hm⟩
  intro id st h
  rw [getStream,hs] at h
  exact ⟨st,h,rfl,fun h => h⟩

theorem Calm.same {s s' : Session} (hc : s'.creditSide = s.creditSide) (hs : s'.streams = s.streams)
    (hm : s'.host.mem <:+ s.host.mem) : Calm s s' := by
  refine Credits.same ?_ hs hm
  rw [CreditSide.notes_nil]
  exact hc

theorem Calm.refl (s : Session) : Calm s s := .same rfl rfl List.suffix_rfl

theorem Calm.of_watched {s s' : Session} (h : s'.watched = s.watched) (hm : s'.host.mem <:+ s.host.mem) : Calm s s' := by
  refine .same ?_ (congrArg Watched.streams h) hm
  exact congrArg (fun w : Watched =>
    CreditSide.mk w.flowControl w.localSettings w.noAutoWindowUpdate (w.log.filter ofCredit)) h

theorem creditSide_emit (s : Session) (e : Event) (h : ofCredit e = false) : (s.emit e).creditSide = s.creditSide := by
  have hlog : (s.host.log ++ [e]).filter ofCredit = s.host.log.filter ofCredit := by
    rw [List.filter_append,List.filter_singleton,h]
    exact List.append_nil _
  exact congrArg (fun es => {s.creditSide with events := es}) hlog

theorem creditSide_notes (s : Session) (e : Event) (h : ofCredit e = true) :
    (s.emit e).creditSide = s.creditSide.notes [e] := by
  have hlog : (s.host.log ++ [e]).filter ofCredit = s.host.log.filter ofCredit ++ [e] := by
    rw [List.filter_append,List.filter_singleton,h]
    rfl
  exact congrArg (fun es => {s.creditSide with events := es}) hlog

theorem calm_emit (s : Session) (e : Event) (h : ofCredit e = false) : Calm s (s.emit e) :=
  .same (creditSide_emit s e h) rfl List.suffix_rfl

theorem getStream_modifyStream (s : Session) (id k : Int) (f : Stream → Stream) (hf) :
    (s.modifyStream id f hf).getStream k = if id = k then (s.getStream k).map f else s.getStream k :=
  OrderedTable.find_modify s.streams id k f hf

/-- One stream is changed. -/
theorem credits_modifyStream (s : Session) (id : Int) (f : Stream → Stream) (hf) (g : Int → Int)
    (hg : ∀ st, (f st).recvWindowSize = g st.recvWindowSize) (hr : ∀ st, (f st).shutRd = false → st.shutRd = false) :
    Credits (fun k r => if id = k then g r else r) [] s (s.modifyStream id f hf) := by
  refine ⟨(CreditSide.notes_nil _).symm,?_,List.suffix_rfl⟩
  intro k st' h
  rw [getStream_modifyStream] at h
  by_cases hk : id = k
  · rw [if_pos hk] at h
    obtain ⟨st,hst,rfl⟩ := Option.map_eq_some_iff.mp h
    exact ⟨st,hst,(hg st).trans (if_pos hk).symm,hr st⟩
  · rw [if_neg hk] at h
    exact ⟨st',h,(if_neg hk).symm,fun h => h⟩

theorem calm_modifyStream (s : Session) (id : Int) (f : Stream → Stream) (hf) (h : KeepsCredit f) :
    Calm s (s.modifyStream id f hf) := by
  have hc := credits_modifyStream s id f hf (fun r => r) h.recvWindowSize h.shutRd
  simp only [ite_self] at hc
  exact hc

theorem Change.calm {P : Platform} {s s' : Session} (h : Change P s s') : Calm s s' := by
  cases h with
  | same h hm => exact .of_watched h hm
  | note e _ h => exact calm_emit s e h
  | accept item _ h => exact calm_emit s _ h
  | restate id f hf h => exact calm_modifyStream s id f hf h
  | remove id =>
    refine ⟨(CreditSide.notes_nil _).symm,?_,List.suffix_rfl⟩
    intro k st h
    change (s.streams.remove id).find k = some st at h
    rw [OrderedTable.find_remove] at h
    split at h
    · cases h
    · exact ⟨st,h,rfl,fun h => h⟩

theorem Changes.calm {P : Platform} {s s' : Session} (h : Changes P s s') : Calm s s' :=
  h.rule Calm.refl Credits.calm Change.calm

/-! Opening. -/

theorem Credits.opens {s s' : Session} (h : Calm s s') : Opens s s' :=
  ⟨h.side.trans (CreditSide.notes_nil _),fun id st' h' => .inl (h.streams id st' h'),h.mem⟩

theorem Opens.calm {s s1 s2 : Session} (h : Opens s s1) (h' : Calm s1 s2) : Opens s s2 := by
  refine ⟨?_,?_,h'.mem.trans h.mem⟩
  · rw [h'.side,h.side,CreditSide.notes_nil]
  · intro id st2 h2
    obtain ⟨st1,h1,hr1,hs1⟩ := h'.streams id st2 h2
    rcases h.streams id st1 h1 with ⟨st,h0,hr,hs⟩ | ⟨h0,hr⟩
    · exact .inl ⟨st,h0,hr1.trans hr,fun h => hs (hs1 h)⟩
    · exact .inr ⟨h0,hr1.trans hr⟩

/-- Before the opening no stream may have been closed. -/
theorem Opens.after {s s1 s2 : Session} (h : Calm s s1) (hs : s1.streams = s.streams) (h' : Opens s1 s2) : Opens s s2 := by
  refine ⟨?_,?_,h'.mem.trans h.mem⟩
  · rw [h'.side,h.side,CreditSide.notes_nil]
  · intro id st h2
    have hst : s1.getStream id = s.getStream id := by
      rw [getStream,getStream,hs]
    have h3 := h'.streams id st h2
    rw [hst] at h3
    exact h3

theorem countOpened_calm (s : Session) (id : Int) : Calm s (s.countOpened id) := by
  rw [countOpened]
  split <;> exact .same rfl rfl List.suffix_rfl

theorem openStream_opens (s : Session) (id : Int) (flags pri : Nat) (state : StreamState) :
    Opens s (s.openStream id flags pri state).1 := by
  have hmalloc : Calm s s.malloc := .same rfl rfl (List.tail_suffix _)
  rw [openStream]
  split
  · dsimp only
    split
    · rename_i streams hins
      have hopen : Opens s {s.malloc with streams := streams} := by
        refine ⟨rfl,?_,List.tail_suffix _⟩
        intro k st h
        change streams.find k = some st at h
        rw [OrderedTable.find_insert hins] at h
        split at h
        · rename_i hk
          cases h
          refine .inr ⟨?_,rfl⟩
          rw [getStream,← hk]
          exact OrderedTable.find_of_insert hins
        · exact .inl ⟨st,h,rfl,fun h => h⟩
      exact hopen.calm (countOpened_calm _ id)
    · exact ((hmalloc.calm (calm_emit _ (.insertFailed id) rfl)).calm (countOpened_calm _ id)).opens
  · exact hmalloc.opens

/-! Preparing a frame. -/

theorem reserveFramebuf_calm (s : Session) (n : Nat) : Calm s (s.reserveFramebuf n).1 := by
  rw [reserveFramebuf]
  split_ifs
  · exact .same rfl rfl (List.tail_suffix _)
  · exact .same rfl rfl (List.tail_suffix _)
  · exact .refl s

theorem reserveFramebuf_streams (s : Session) (n : Nat) : (s.reserveFramebuf n).1.streams = s.streams := by
  rw [reserveFramebuf]
  split_ifs <;> rfl

theorem reserveNvbuf_calm (s : Session) (n : Nat) : Calm s (s.reserveNvbuf n).1 := by
  rw [reserveNvbuf]
  split_ifs
  · exact .same rfl rfl (List.tail_suffix _)
  · exact .same rfl rfl (List.tail_suffix _)
  · exact .refl s

theorem reserveNvbuf_streams (s : Session) (n : Nat) : (s.reserveNvbuf n).1.streams = s.streams := by
  rw [reserveNvbuf]
  split_ifs <;> rfl

theorem frameAllocPackNv_calm (P : Platform) (s : Session) (nv : Nv) (nvOffset lenSize : Nat) :
    Calm s (s.frameAllocPackNv P nv nvOffset lenSize).1 ∧
      (s.frameAllocPackNv P nv nvOffset lenSize).1.streams = s.streams := by
  have h1 := reserveNvbuf_calm s (frameCountNvSpace nv lenSize)
  have hs1 := reserveNvbuf_streams s (frameCountNvSpace nv lenSize)
  rw [frameAllocPackNv]
  dsimp only
  split
  · exact ⟨h1,hs1⟩
  · generalize (s.reserveNvbuf (frameCountNvSpace nv lenSize)).1 = s1 at h1 hs1
    generalize nvOffset+P.deflateBound s.hdDeflater (frameCountNvSpace nv lenSize) = n
    have h2 := h1.calm (reserveFramebuf_calm s1 n)
    have hs2 := (reserveFramebuf_streams s1 n).trans hs1
    split
    · exact ⟨h2,hs2⟩
    · have h3 : ∀ blocks, Calm s {(s1.reserveFramebuf n).1 with hdDeflater := blocks} :=
        fun _ => h2.calm (.same rfl rfl List.suffix_rfl)
      split
      · exact ⟨h3 _,hs2⟩
      · split
        · exact ⟨h3 _,hs2⟩
        · exact ⟨h3 _,hs2⟩

theorem prepSynStreamPack_opens (P : Platform) (s : Session) (item : OutboundItem) (f : SynStream) :
    Opens s (prepSynStreamPack P s item f).ses := by
  have h1 : Calm s {s with nextStreamId := s.nextStreamId+2} := .same rfl rfl List.suffix_rfl
  rw [prepSynStreamPack]
  dsimp only
  split
  · exact h1.opens
  · obtain ⟨hp,hs⟩ := frameAllocPackNv_calm P {s with nextStreamId := s.nextStreamId+2} (s.wireNv P f.nv)
      synStreamNvOffset (frameGetLenSize f.hd.version)
    have hp := h1.calm hp
    generalize frameAllocPackNv P {s with nextStreamId := s.nextStreamId+2} (s.wireNv P f.nv)
      synStreamNvOffset (frameGetLenSize f.hd.version) = r at hp hs
    split
    · exact hp.opens
    · have ho := Opens.after hp hs (openStream_opens r.1 s.nextStreamId f.hd.flags f.pri .initial)
      split
      · exact ho
      · exact ho

/-- Queueing another frame than an RST_STREAM leaves the streams as they are. -/
theorem addFrame_credential_streams (s : Session) (f : Credential) (aux : Option DataProvider) :
    (s.addFrame (.ctrl (.credential f)) aux).1.streams = s.streams := by
  have hpush : ∀ (s : Session) (item : OutboundItem), (s.pushItem item).1.streams = s.streams := by
    intro s item
    rw [pushItem,pushObSs,pushOb]
    split <;> split <;> rfl
  rw [addFrame]
  split
  · have h := hpush {s.malloc with nextSeq := s.nextSeq+1} (s.newItem (.ctrl (.credential f)) aux)
    dsimp only [markClosing]
    split
    · exact h
    · exact h
  · rfl

theorem mallocs_streams (n : Nat) (s : Session) : (mallocs n s).1.streams = s.streams := by
  induction n generalizing s with
  | zero => rfl
  | succ n ih =>
    rw [mallocs]
    split
    · exact ih s.malloc
    · rfl

theorem prepCredential_streams (s : Session) (f : SynStream) : (s.prepCredential f).1.streams = s.streams := by
  have hqueue : ∀ (s : Session) (origin : Origin) (answer : CredentialAnswer),
      (s.queueCredential origin answer).1.streams = s.streams := by
    intro s origin answer
    rw [queueCredential]
    split
    · rfl
    · dsimp only
      split
      · rfl
      · have hm := mallocs_streams (answer.certs.length+2)
          {s.malloc.malloc with cliCertvec := (s.malloc.cliCertvec.put origin).1}
        split
        · have ha := addFrame_credential_streams (mallocs (answer.certs.length+2)
            {s.malloc.malloc with cliCertvec := (s.malloc.cliCertvec.put origin).1}).1
            (frameCredentialInit s.version.num (s.malloc.cliCertvec.put origin).2 answer.proof answer.certs) none
          split <;> exact ha.trans hm
        · exact hm
  rw [prepCredential]
  split
  · rfl
  · split
    · rfl
    · dsimp only
      split
      · rfl
      · split
        · rfl
        · split
          · rfl
          · exact hqueue _ _ _

theorem prepSynStream_opens (P : Platform) (s : Session) (item : OutboundItem) (f : SynStream) :
    Opens s (prepSynStream P s item f).ses := by
  have hc := (prepCredential_changes P s f).calm
  have hs := prepCredential_streams s f
  rw [prepSynStream]
  split
  · exact (Calm.refl s).opens
  · split
    · dsimp only
      split
      · have hp := hc.calm (pushObSs_changes P (s.prepCredential f).1 {item with pri := obPriAfterCredential}).calm
        split
        · exact hp.opens
        · exact hp.opens
      · exact Opens.after hc hs (prepSynStreamPack_opens P _ item _)
      · exact Opens.after hc hs (prepSynStreamPack_opens P _ item _)
    · exact prepSynStreamPack_opens P s item f

theorem prepStreamHeaders_calm (P : Platform) (s : Session) (item : OutboundItem) (type : FrameType)
    (wrap : StreamHeaders → Frame) (f : StreamHeaders) : Calm s (prepStreamHeaders P s item type wrap f).ses := by
  rw [prepStreamHeaders]
  dsimp only
  split
  · exact .refl s
  · split
    · exact .refl s
    · rename_i nvOffset _
      have h := (frameAllocPackNv_calm P s (s.wireNv P f.nv) nvOffset (frameGetLenSize f.hd.version)).1
      split <;> exact h

theorem prepFixed_calm (s : Session) (item : OutboundItem) (bytes : Bytes) : Calm s (s.prepFixed item bytes).ses := by
  have h := reserveFramebuf_calm s bytes.length
  rw [prepFixed]
  split <;> exact h

theorem prepPacked_calm (s : Session) (item : OutboundItem) (r : Except Err Bytes) : Calm s (s.prepPacked item r).ses := by
  cases r with
  | ok bytes => exact prepFixed_calm s item bytes
  | error e => exact .refl s

theorem packData_calm (s : Session) (seq : Nat) (d : DataFrame) (datamax : Nat) :
    Calm s (s.packData seq d datamax).1 := by
  have h := reserveFramebuf_calm s (datamax+8)
  have htail : ∀ s : Session, Calm s {s with host := {s.host with reads := s.host.reads.tail}} :=
    fun _ => .same rfl rfl List.suffix_rfl
  rw [packData]
  split
  · exact h
  · have h1 := h.calm (htail _)
    dsimp only
    split
    · exact h1
    · exact h1
    · exact h1
    · split
      · exact h1
      · exact h1.calm (calm_emit _ _ rfl)

theorem prepData_calm (P : Platform) (s : Session) (item : OutboundItem) (d : DataFrame) : Calm s (s.prepData item d).ses := by
  rw [prepData]
  split
  · exact .refl s
  · split
    · exact .refl s
    · rename_i st _
      dsimp only
      split
      · exact (deferData_changes P s st item true).calm
      · have h := packData_calm s item.seq d (s.nextDataRead st)
        split
        · exact h
        · exact h.calm (deferData_changes P _ _ _ _).calm
        · exact h.calm (addRstStream_changes P _ _ _).calm
        · exact h

theorem prepFrame_opens (P : Platform) (s : Session) (item : OutboundItem) : Opens s (prepFrame P s item).ses := by
  rw [prepFrame]
  split
  · exact prepSynStream_opens P s item _
  · split
    · exact (Calm.refl s).opens
    · exact (prepStreamHeaders_calm P s item _ _ _).opens
  · exact (prepFixed_calm s item _).opens
  · exact (prepPacked_calm s item _).opens
  · exact (prepFixed_calm s item _).opens
  · split
    · exact (Calm.refl s).opens
    · exact (prepStreamHeaders_calm P s item _ _ _).opens
  · split
    · exact (Calm.refl s).opens
    · exact (prepFixed_calm s item _).opens
  · split
    · exact (Calm.refl s).opens
    · exact (prepPacked_calm s item _).opens
  · exact (prepFixed_calm s item _).opens
  · exact (prepData_calm P s item _).opens

theorem activate_calm (s : Session) (item : OutboundItem) (bytes : Bytes) : Calm s (s.activate item bytes) := by
  have h : Calm s {s.emit (.prepared item.seq bytes) with aob := {s.aob with item := some item, framebuf := bytes}} :=
    (calm_emit s _ rfl).calm (.same rfl rfl List.suffix_rfl)
  unfold activate
  dsimp only
  split
  · exact h.calm (calm_emit _ _ rfl)
  · exact h

theorem popNextObItem_calm {s s1 : Session} {item : OutboundItem} (h : s.popNextObItem = some (item,s1)) :
    Calm s s1 ∧ s1.streams = s.streams := by
  rw [popNextObItem] at h
  split at h
  · cases h
  · split at h
    · cases h
    · cases h
      exact ⟨.same rfl rfl List.suffix_rfl,rfl⟩
  · cases h
    exact ⟨.same rfl rfl List.suffix_rfl,rfl⟩
  · cases h
    exact ⟨.same rfl rfl List.suffix_rfl,rfl⟩

theorem prepareNext_opens (P : Platform) (s : Session) : Opens s (s.prepareNext P) := by
  rw [prepareNext]
  split
  · exact (Calm.refl s).opens
  · rename_i item s1 hpop
    obtain ⟨hc,hs⟩ := popNextObItem_calm hpop
    have h := Opens.after hc hs (prepFrame_opens P s1 item)
    dsimp only
    split
    · exact h.calm (activate_calm _ _ _)
    · exact h
    · exact h
    · exact h.calm (dropItem_changes P _ _ _).calm

/-! Writing a frame. -/

theorem activeReset_calm (s : Session) (cause : Finish) : Calm s (s.activeReset cause) := by
  have htake : ∀ s : Session, Calm s {s with aob := {s.aob with item := none, framebuf := [], framebufoff := 0}} :=
    fun _ => .same rfl rfl List.suffix_rfl
  rw [activeReset]
  split
  · exact (calm_emit s _ rfl).calm (htake _)
  · exact htake s

theorem activeTake_calm (s : Session) : Calm s s.activeTake := .same rfl rfl List.suffix_rfl

theorem continueData_calm (P : Platform) (s : Session) (item : OutboundItem) (d : DataFrame) (st : Stream) :
    Calm s (s.continueData item d st).1 := by
  rw [continueData]
  dsimp only
  split
  · have h := (deferData_changes P s st item true).calm
    split
    · exact h.calm (activeTake_calm _)
    · exact h
  · have h := packData_calm s item.seq d (s.nextDataRead st)
    split
    · exact (h.calm (calm_emit _ _ rfl)).calm (.same rfl rfl List.suffix_rfl)
    · have hd := h.calm (deferData_changes P (s.packData item.seq d (s.nextDataRead st)).1 st
        {item with frame := .data (s.packData item.seq d (s.nextDataRead st)).2.1} false).calm
      split
      · exact hd.calm (activeTake_calm _)
      · exact hd
    · exact (h.calm (addRstStream_changes P _ _ _).calm).calm (activeReset_calm _ _)
    · exact h.calm (activeReset_calm _ _)

theorem afterDataSent_calm (P : Platform) (s : Session) (item : OutboundItem) (d : DataFrame) :
    Calm s (s.afterDataSent item d).1 := by
  rw [afterDataSent]
  dsimp only
  have h := (calm_emit s (.dataSend (if d.eof then d.flags else 0) d.streamId (s.aob.framebuf.length-headLen)) rfl).calm
    (afterDataFin_changes P _ d).calm
  generalize afterDataFin _ d = s1 at h
  split
  · exact h.calm (activeReset_calm s1 _)
  · split
    · split
      · exact h
      · exact h.calm (continueData_calm P s1 item d _)
    · have hp := h.calm (pushOb_changes P s1 item).calm
      split
      · exact hp.calm (activeTake_calm _)
      · exact hp.calm (activeReset_calm _ _)

theorem afterFrameSent_calm (P : Platform) (s : Session) : Calm s s.afterFrameSent.1 := by
  rw [afterFrameSent]
  split
  · exact .refl s
  · rename_i item _
    split
    · rename_i f _
      have h := (calm_emit s (.ctrlSend f) rfl).calm (afterCtrlSent_changes P _ item f).calm
      dsimp only
      split
      · exact h.calm (activeReset_calm _ _)
      · exact h
    · exact afterDataSent_calm P s item _

theorem sendAccepted_calm (P : Platform) (s : Session) (item : OutboundItem) (n : Nat) :
    Calm s (s.sendAccepted item n).1 := by
  rw [sendAccepted]
  dsimp only
  have hoff : ∀ (s : Session) (k : Nat), Calm s {s with aob := {s.aob with framebufoff := k}} :=
    fun _ _ => .same rfl rfl List.suffix_rfl
  generalize min n (s.aob.framebuf.length-s.aob.framebufoff) = k
  generalize hs1 : debit _ item = s1
  have h : Calm s s1 := by
    subst hs1
    have hsent := calm_emit s (.sent ((s.aob.framebuf.drop s.aob.framebufoff).take k)) rfl
    exact (hsent.calm (hoff _ (s.aob.framebufoff+k))).calm (debit_changes P _ item).calm
  split
  · have ha := h.calm (afterFrameSent_calm P s1)
    split <;> exact ha
  · exact h

theorem sendWrite_calm (P : Platform) (s : Session) (item : OutboundItem) : Calm s (s.sendWrite item).1 := by
  have htail : Calm s {s with host := {s.host with sends := s.host.sends.tail}} := .same rfl rfl List.suffix_rfl
  rw [sendWrite]
  dsimp only
  split
  · exact htail
  · exact htail
  · exact htail.calm (sendAccepted_calm P _ item _)

end Session
end Spdylay
