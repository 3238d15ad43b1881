import Spdylay.Machine.Queueing

/-! The receive loop as moves of the machine. -/
namespace Spdylay.Machine
open Library Session

/-- A SETTINGS frame with an initial window of 2^31 or more has been reported. -/
def Oversize (log : List Event) : Prop :=
  ∃ f e, Event.ctrlRecv (.settings f) ∈ log ∧ e ∈ f.iv ∧ e.settingsId = settingsInitialWindowSize ∧
    2147483648 ≤ e.value

def Fatal (r : Option Err) : Prop := ∃ e, r = some e ∧ isFatal e = true

/-- A function of the receiving side: its moves, and what explains a new mark. -/
structure Receives (s : Session) (g : Ghost) (s' : Session) (r : Option Err) (g' : Ghost) : Prop where
  steps : InSteps (core s g) (core s' g')
  hand : g'.hand = g.hand
  stuck : g'.stuck = true → g.stuck = true ∨ Fatal r
  oversize : g'.oversize = true → g.oversize = true ∨ Fatal r ∨ Oversize s'.host.log

theorem Oversize.mono {l l' : List Event} (h : l <+: l') (ho : Oversize l) : Oversize l' := by
  obtain ⟨f,e,hf,he,hi,hv⟩ := ho
  exact ⟨f,e,h.subset hf,he,hi,hv⟩

theorem Receives.ofSteps {s s' : Session} {g : Ghost} (r : Option Err) (h : InSteps (core s g) (core s' g)) :
    Receives s g s' r g := ⟨h,rfl,.inl,.inl⟩

/-- A part of the receive loop, which also moves on in the inbound frame. -/
structure Reads (s : Session) (g : Ghost) (s' : Session) (r : Option Err) (g' : Ghost) : Prop where
  steps : ReadSteps (core s g) (core s' g')
  hand : g'.hand = g.hand
  stuck : g'.stuck = true → g.stuck = true ∨ Fatal r
  oversize : g'.oversize = true → g.oversize = true ∨ Fatal r ∨ Oversize s'.host.log

theorem Receives.reads {s s' : Session} {g g' : Ghost} {r : Option Err} (h : Receives s g s' r g') :
    Reads s g s' r g' := ⟨h.steps.readSteps,h.hand,h.stuck,h.oversize⟩

theorem Reads.ofSteps {s s' : Session} {g : Ghost} (r : Option Err) (h : ReadSteps (core s g) (core s' g)) :
    Reads s g s' r g := ⟨h,rfl,.inl,.inl⟩

theorem Reads.trans {s s1 s2 : Session} {g g1 g2 : Ghost} {r : Option Err}
    (h1 : Reads s g s1 none g1) (h2 : Reads s1 g1 s2 r g2) : Reads s g s2 r g2 where
  steps := h1.steps.trans h2.steps
  hand := h2.hand.trans h1.hand
  stuck h := by
    rcases h2.stuck h with h | h
    · rcases h1.stuck h with h | ⟨e,he,-⟩
      · exact .inl h
      · cases he
    · exact .inr h
  oversize h := by
    rcases h2.oversize h with h | h
    · rcases h1.oversize h with h | ⟨e,he,-⟩ | h
      · exact .inl h
      · cases he
      · exact .inr (.inr (h.mono h2.steps.log_prefix))
    · exact .inr h

/-! Opening. -/

theorem newPeerId {s : Session} {streamId : Int} (g : Ghost) (h : s.isNewPeerStreamId streamId = true) :
    NewPeerId (core s g) streamId := by
  unfold isNewPeerStreamId at h
  unfold NewPeerId Core.isMine
  change streamId ≠ 0 ∧ (if streamId = 0 then false else if s.server = true then decide (streamId.tmod 2 = 0)
    else decide (streamId.tmod 2 = 1)) = false ∧ s.lastRecvStreamId < streamId
  split_ifs at h ⊢ with h0 hs <;> simp_all

/-- Opening a stream for the peer uses up its id, whether or not memory is there. -/
theorem openStream_peer_steps {s : Session} {streamId : Int} (flags pri : Nat) (state : StreamState) (g : Ghost)
    (h : NewPeerId (core s g) streamId) :
    InSteps (core s g)
      (core (({s with lastRecvStreamId := streamId}).openStream streamId flags pri state).1 g) := by
  unfold openStream
  split
  · dsimp only
    split
    · rename_i streams hi
      have hx := Inb.openPeer (core s g) (streamInit streamId flags pri state _) streams h rfl rfl rfl hi
      convert hx.steps using 1
      unfold Session.countOpened Core.countOpened
      change core (if s.isMyStreamId streamId then _ else _) g = if s.isMyStreamId streamId then _ else _
      cases s.isMyStreamId streamId <;> rfl
    · rename_i hi
      have hx := Inb.openPeerFailed (core s g) (streamInit streamId flags pri state _) h hi
      convert hx.steps using 1
      unfold Session.countOpened Core.countOpened
      change core (if s.isMyStreamId streamId then _ else _) g = if s.isMyStreamId streamId then _ else _
      cases s.isMyStreamId streamId <;> rfl
  · exact (Inb.seePeer _ streamId h).steps

theorem openReceived_steps {s : Session} {f : SynStream} (g : Ghost) (h : NewPeerId (core s g) f.streamId) :
    InSteps (core s g) (core (({s with lastRecvStreamId := f.streamId}).openReceived f) g) := by
  unfold openReceived
  split
  · exact (Inb.seePeer _ f.streamId h).steps
  · have ho := openStream_peer_steps f.hd.flags f.pri .opening g h
    dsimp only
    split
    · refine ho.trans (Steps.inSteps ?_)
      exact (ite_steps (shutdownRd_steps _ _ g)).trans (ite_steps (shutdownWr_steps _ _ g))
    · exact ho

theorem acceptSynStream_steps {s : Session} {f : SynStream} (g : Ghost) (h : NewPeerId (core s g) f.streamId) :
    InSteps (core s g) (core (({s with lastRecvStreamId := f.streamId}).acceptSynStream f) g) := by
  have ho := (openReceived_steps g h).trans (emit_steps _ (.ctrlRecv (.synStream f)) g rfl).inSteps
  unfold acceptSynStream
  dsimp only
  split
  · refine ho.trans (Steps.inSteps ?_)
    exact (emit_steps _ (.requestRecv f.streamId) g rfl).trans (ite_steps (emit_steps _ _ g rfl))
  · exact ho

/-! Handlers that only queue, report and close. -/

theorem handleInvalidStream_steps (s : Session) (streamId : Int) (f : Frame) (statusCode : Nat) (g : Ghost) :
    Steps (core s g) (core (s.handleInvalidStream streamId f statusCode).1 g) := by
  have ha : Steps (core s g) (core (s.addRstStream streamId statusCode).1 g) := addCtrl_steps _ _ g
  unfold handleInvalidStream
  dsimp only
  split
  · exact ha
  · exact ha.trans (emit_steps _ _ g rfl)

theorem failSession_steps (s : Session) (statusCode : Nat) (g : Ghost) :
    Steps (core s g) (core (s.failSession statusCode).1 g) :=
  addCtrl_steps ({s with goawayFailOnSend := true}) _ g

theorem finReceived_steps (s : Session) (streamId : Int) (g : Ghost) :
    Steps (core s g) (core (s.finReceived streamId) g) :=
  (shutdownRd_steps s streamId g).trans (closeStreamIfShutRdwr_steps _ streamId g)

theorem onSynStreamReceived_steps (s : Session) (f : SynStream) (g : Ghost) :
    InSteps (core s g) (core (s.onSynStreamReceived f).1 g) := by
  unfold onSynStreamReceived
  split
  · exact .refl
  · split
    · exact (handleInvalidStream_steps s _ _ _ g).inSteps
    · split
      · exact Steps.inSteps ((emit_steps s _ g rfl).trans (failSession_steps _ _ g))
      · rename_i hnew
        have hn := newPeerId g (by simpa using hnew)
        dsimp only
        split
        · exact acceptSynStream_steps g hn
        · have hs : InSteps (core s g) (core ({s with lastRecvStreamId := f.streamId}) g) :=
            (Inb.seePeer _ _ hn).steps
          exact hs.trans (handleInvalidStream_steps _ _ _ _ g).inSteps

theorem onSynReplyReceived_steps (s : Session) (f : StreamHeaders) (g : Ghost) :
    Steps (core s g) (core (s.onSynReplyReceived f).1 g) := by
  unfold onSynReplyReceived
  dsimp only
  split
  · exact .refl
  · split
    · exact handleInvalidStream_steps s _ _ _ g
    · split
      · exact handleInvalidStream_steps s _ _ _ g
      · split
        · have h := (setState_steps s f.streamId .opened g).trans (emit_steps _ (.ctrlRecv (.synReply f)) g rfl)
          exact h.trans (ite_steps (finReceived_steps _ _ g))
        · exact .refl
        · exact handleInvalidStream_steps s _ _ _ g

theorem onRstStreamReceived_steps (s : Session) (f : RstStream) (g : Ghost) :
    Steps (core s g) (core (s.onRstStreamReceived f).1 g) := by
  unfold onRstStreamReceived
  split
  · exact .refl
  · have h := emit_steps s (.ctrlRecv (.rstStream f)) g rfl
    exact h.trans ((ite_steps (closePushedStreams_steps _ _ _ g)).trans (closeStream_steps _ _ _ g))

theorem onPingReceived_steps (s : Session) (f : Ping) (g : Ghost) :
    Steps (core s g) (core (s.onPingReceived f).1 g) := by
  unfold onPingReceived
  split
  · exact .refl
  · split
    · exact emit_steps s _ g rfl
    · split
      · exact (addCtrl_steps s _ g).trans (emit_steps _ _ g rfl)
      · exact .refl

theorem onGoawayReceived_steps (s : Session) (f : Goaway) (g : Ghost) :
    Steps (core s g) (core (s.onGoawayReceived f).1 g) := by
  unfold onGoawayReceived
  split
  · exact .refl
  · exact emit_steps s _ g rfl

theorem onCredentialReceived_steps (s : Session) (f : Credential) (g : Ghost) :
    Steps (core s g) (core (s.onCredentialReceived f).1 g) := by
  unfold onCredentialReceived
  split
  · exact .refl
  · exact emit_steps s _ g rfl

theorem onHeadersReceived_steps (s : Session) (f : StreamHeaders) (g : Ghost) :
    Steps (core s g) (core (s.onHeadersReceived f).1 g) := by
  have hr := emit_steps s (.ctrlRecv (.headers f)) g rfl
  unfold onHeadersReceived
  dsimp only
  split
  · exact .refl
  · split
    · exact handleInvalidStream_steps s _ _ _ g
    · split
      · exact handleInvalidStream_steps s _ _ _ g
      · split
        · split
          · exact hr.trans (ite_steps (finReceived_steps _ _ g))
          · exact .refl
          · exact handleInvalidStream_steps s _ _ _ g
        · split
          · exact .refl
          · exact hr.trans (ite_steps ((emit_steps _ _ g rfl).trans (finReceived_steps _ _ g)))

theorem onDataReceived_steps (s : Session) (flags length : Nat) (streamId : Int) (g : Ghost) :
    Steps (core s g) (core (s.onDataReceived flags length streamId).1 g) := by
  have hr := emit_steps s (.dataRecv flags streamId length) g rfl
  unfold onDataReceived
  dsimp only
  split
  · exact addCtrl_steps s _ g
  · split
    · exact addCtrl_steps s _ g
    · split
      · split
        · exact hr.trans (ite_steps (finReceived_steps _ _ g))
        · exact .refl
        · exact addCtrl_steps s _ g
      · split
        · exact .refl
        · exact hr.trans (ite_steps ((emit_steps _ _ g rfl).trans (finReceived_steps _ _ g)))

/-! Window changes. -/

/-- Releasing succeeds as the machine does, or fails for lack of memory and leaves
everything in place. -/
theorem releaseDeferred_cases (s : Session) (streamId : Int) :
    ((s.releaseDeferred streamId).2 = none ∧
      ∀ g, core (s.releaseDeferred streamId).1 g = (core s g).release streamId) ∨
    ((s.releaseDeferred streamId).2 = some .nomem ∧
      ∀ g, core (s.releaseDeferred streamId).1 g = core s g) := by
  have hfind : ∀ g, (core s g).streams.find streamId = s.getStream streamId := fun _ => rfl
  cases hst : s.getStream streamId with
  | none =>
    have hr : ∀ g, (core s g).released streamId = none := by
      intro g
      rw [Core.released,hfind,hst]
    unfold releaseDeferred
    rw [hst]
    exact .inl ⟨rfl,fun g => by unfold Core.release; rw [hr]⟩
  | some st =>
    have hr : ∀ g, (core s g).released streamId =
        if 0 < st.windowSize ∧ st.deferredFlowControl then st.deferredData else none := by
      intro g
      rw [Core.released,hfind,hst]
    unfold releaseDeferred
    rw [hst]
    dsimp only
    cases hd : st.deferredData with
    | none =>
      refine .inl ⟨rfl,fun g => ?_⟩
      unfold Core.release
      rw [hr,hd,ite_self]
    | some item =>
      dsimp only
      by_cases hp : 0 < st.windowSize ∧ st.deferredFlowControl = true
      · rw [if_pos hp]
        rcases pushOb_cases s item with ⟨hn,he⟩ | ⟨hn,he⟩
        · rw [hn]
          refine .inl ⟨rfl,fun g => ?_⟩
          unfold Core.release
          rw [hr,if_pos hp,hd]
          change (core (s.pushOb item).1 g).detach streamId = _
          rw [he]
          rfl
        · rw [hn]
          exact .inr ⟨rfl,he⟩
      · rw [if_neg hp]
        refine .inl ⟨rfl,fun g => ?_⟩
        unfold Core.release
        rw [hr,if_neg hp]

/-- One stream of the loop over all streams. -/
theorem rebaseStream_cases (s : Session) (new old : Int) (id : Int) :
    let r := (s.modifyStream id (streamUpdateInitialWindowSize s.windowArith new old)).releaseDeferred id
    let f := fun w => s.windowArith.store (new-s.windowArith.store (old-w))
    (r.2 = none ∧ ∀ g, core r.1 g = (core s g).rewindow id f) ∨
    (r.2 = some .nomem ∧ ∀ g, core r.1 g = (core s g).setWindow id f) := by
  intro r f
  exact releaseDeferred_cases (s.modifyStream id (streamUpdateInitialWindowSize s.windowArith new old)) id

/-- A release is a move of its own once the window has been set. -/
theorem release_steps (c : Core) (streamId : Int) : Steps c (c.release streamId) := by
  unfold Core.release
  cases hr : c.released streamId with
  | none => exact .refl
  | some item =>
    unfold Core.released at hr
    cases hf : c.streams.find streamId with
    | none =>
      rw [hf] at hr
      cases hr
    | some st =>
      rw [hf] at hr
      dsimp only at hr
      split at hr
      · exact (Act.resume c streamId st item hf hr).steps
      · cases hr

/-- The whole loop, when memory suffices. -/
theorem updateInitialWindowSizeLoop_ok (new old : Int) (arith : WindowArith) (ids : List Int) (s : Session)
    (ha : s.windowArith = arith) (h : (updateInitialWindowSizeLoop new old ids s).2 = none) (g : Ghost) :
    core (updateInitialWindowSizeLoop new old ids s).1 g =
      ids.foldl (fun c id => c.rewindow id (fun w => arith.store (new-arith.store (old-w)))) (core s g) := by
  induction ids generalizing s with
  | nil => rfl
  | cons id ids ih =>
    unfold updateInitialWindowSizeLoop at h ⊢
    subst ha
    dsimp only at h ⊢
    rcases rebaseStream_cases s new old id with ⟨hn,he⟩ | ⟨hn,he⟩
    · rw [hn] at h ⊢
      dsimp only at h ⊢
      have harith : ((s.modifyStream id (streamUpdateInitialWindowSize s.windowArith new old)).releaseDeferred
          id).1.windowArith = s.windowArith := by
        obtain ⟨streams,obPq,hfr⟩ := (core s g).rewindow_frame id
          (fun w => s.windowArith.store (new-s.windowArith.store (old-w)))
        exact congrArg Core.arith ((he g).trans hfr)
      rw [ih _ harith h,he]
      rfl
    · rw [hn] at h
      cases h

/-- The loop stopped by lack of memory leaves the mark. -/
theorem updateInitialWindowSizeLoop_fail (new old : Int) (ids : List Int) (s : Session) (e : Err)
    (h : (updateInitialWindowSizeLoop new old ids s).2 = some e) (g : Ghost) :
    e = .nomem ∧ InSteps (core s g) (core (updateInitialWindowSizeLoop new old ids s).1 {g with stuck := true}) := by
  induction ids generalizing s g with
  | nil => cases h
  | cons id ids ih =>
    unfold updateInitialWindowSizeLoop at h ⊢
    dsimp only at h ⊢
    have hw := Inb.rebaseStuck (core s g) id (fun w => s.windowArith.store (new-s.windowArith.store (old-w)))
    rcases rebaseStream_cases s new old id with ⟨hn,he⟩ | ⟨hn,he⟩
    · rw [hn] at h ⊢
      dsimp only at h ⊢
      obtain ⟨rfl,hs⟩ := ih _ h {g with stuck := true}
      refine ⟨rfl,hw.steps.trans (.trans ?_ hs)⟩
      rw [he]
      exact (release_steps _ id).inSteps
    · rw [hn] at h ⊢
      cases h
      refine ⟨rfl,?_⟩
      rw [he]
      exact hw.steps

theorem updateInitialWindowSize_ok (s : Session) (value : Nat) (h : (s.updateInitialWindowSize value).2 = none)
    (g : Ghost) : (core (s.updateInitialWindowSize value).1 g).setRemote settingsInitialWindowSize value =
      (core s g).rebase value := by
  unfold updateInitialWindowSize at h ⊢
  rw [updateInitialWindowSizeLoop_ok _ _ s.windowArith _ s rfl h g]
  rfl

theorem fatal_assertFatal {e : Err} (h : Fatal (some e)) : Fatal (some (assertFatal e)) := by
  obtain ⟨e',he,hf⟩ := h
  cases he
  exact ⟨e,by rw [assertFatal,if_pos hf],hf⟩

theorem fatal_nomem : Fatal (some .nomem) := ⟨.nomem,rfl,rfl⟩

/-- An entry either keeps the books, or runs out of memory, or stores an initial
window that is out of range. -/
theorem applySettingsEntry_receives (s : Session) (e : SettingsEntry) (g : Ghost) :
    ∃ g', InSteps (core s g) (core (s.applySettingsEntry e).1 g') ∧ g'.hand = g.hand ∧
      (g'.stuck = true → g.stuck = true ∨ Fatal (s.applySettingsEntry e).2.2) ∧
      (g'.oversize = true → g.oversize = true ∨
        ((s.applySettingsEntry e).2.1.settingsId = settingsInitialWindowSize ∧
          2147483648 ≤ (s.applySettingsEntry e).2.1.value)) := by
  unfold applySettingsEntry
  dsimp only
  split
  · rename_i h7
    obtain ⟨h7,hfc⟩ := h7
    split
    · rename_i hv
      cases hr : (s.updateInitialWindowSize (e.value : Int)).2 with
      | none =>
        have hok := updateInitialWindowSize_ok s e.value hr g
        have hx := (Inb.rebase (core s g) e.value hfc hv).steps
        rw [← hok,← h7] at hx
        exact ⟨g,hx,rfl,.inl,.inl⟩
      | some err =>
        obtain ⟨rfl,hs⟩ := updateInitialWindowSizeLoop_fail _ _ _ s err hr g
        exact ⟨{g with stuck := true},hs,rfl,fun _ => .inr fatal_nomem,.inl⟩
    · rename_i hv
      have hx := (Inb.setOversize (core s g) e.value (not_lt.mp hv)).steps
      rw [← h7] at hx
      exact ⟨{g with oversize := true},hx,rfl,.inl,fun _ => .inr ⟨h7,not_lt.mp hv⟩⟩
  · rename_i h7
    have hid : e.settingsId ≠ settingsInitialWindowSize ∨ (core s g).flowControl = false := by
      by_cases h : e.settingsId = settingsInitialWindowSize
      · exact .inr (Bool.eq_false_iff.mpr (fun hf => h7 ⟨h,hf⟩))
      · exact .inl h
    split
    · cases s.cliCertvec.resize s.host.mem (min e.value maxClientCertVectorLength) with
      | mk m r =>
        cases r with
        | ok v => exact ⟨g,(Inb.setRemote (core s g) e.settingsId _ hid).steps,rfl,.inl,.inl⟩
        | error err => exact ⟨g,.refl,rfl,.inl,.inl⟩
    · exact ⟨g,(Inb.setRemote (core s g) e.settingsId _ hid).steps,rfl,.inl,.inl⟩

theorem settingsLoop_done (iv : List SettingsEntry) (check : List Nat) (done : List SettingsEntry) (s : Session) :
    ∀ e ∈ done, e ∈ (settingsLoop iv check done s).2.1 := by
  induction iv generalizing check done s with
  | nil => exact fun e he => he
  | cons e0 rest ih =>
    intro e he
    unfold settingsLoop
    split
    · exact ih _ _ _ e (List.mem_append_left _ he)
    · dsimp only
      split
      · exact ih _ _ _ e (List.mem_append_left _ he)
      · exact List.mem_append_left _ he

theorem settingsLoop_receives (iv : List SettingsEntry) (check : List Nat) (done : List SettingsEntry) (s : Session)
    (g : Ghost) :
    let r := settingsLoop iv check done s
    ∃ g', InSteps (core s g) (core r.1 g') ∧ g'.hand = g.hand ∧
      (g'.stuck = true → g.stuck = true ∨ Fatal r.2.2) ∧
      (g'.oversize = true → g.oversize = true ∨
        ∃ e ∈ r.2.1, e.settingsId = settingsInitialWindowSize ∧ 2147483648 ≤ e.value) := by
  induction iv generalizing check done s g with
  | nil => exact ⟨g,.refl,rfl,.inl,.inl⟩
  | cons e rest ih =>
    intro r
    obtain ⟨g1,hs1,hh1,hst1,ho1⟩ := applySettingsEntry_receives s e g
    revert r
    unfold settingsLoop
    split
    · exact ih _ _ s g
    · dsimp only
      cases he : (s.applySettingsEntry e).2.2 with
      | none =>
        obtain ⟨g2,hs2,hh2,hst2,ho2⟩ := ih (e.settingsId :: check) (done ++ [(s.applySettingsEntry e).2.1])
          (s.applySettingsEntry e).1 g1
        refine ⟨g2,hs1.trans hs2,hh2.trans hh1,?_,?_⟩
        · intro h
          rcases hst2 h with h | h
          · rcases hst1 h with h | ⟨e',he',-⟩
            · exact .inl h
            · rw [he] at he'
              cases he'
          · exact .inr h
        · intro h
          rcases ho2 h with h | h
          · rcases ho1 h with h | h
            · exact .inl h
            · exact .inr ⟨_,settingsLoop_done _ _ _ _ _ (by simp),h⟩
          · exact .inr h
      | some err =>
        rw [he] at hst1
        refine ⟨g1,hs1,hh1,hst1,?_⟩
        intro h
        rcases ho1 h with h | h
        · exact .inl h
        · exact .inr ⟨_,by simp,h⟩

/-- The only error of applying SETTINGS is lack of memory. -/
theorem applySettingsEntry_error (s : Session) (e : SettingsEntry) (err : Err)
    (h : (s.applySettingsEntry e).2.2 = some err) : err = .nomem := by
  unfold applySettingsEntry at h
  dsimp only at h
  split at h
  · split at h
    · cases hr : (s.updateInitialWindowSize (e.value : Int)).2 with
      | none =>
        rw [hr] at h
        cases h
      | some e' =>
        rw [hr] at h
        cases h
        exact (updateInitialWindowSizeLoop_fail _ _ _ s _ hr ⟨none,false,false⟩).1
    · cases h
  · split at h
    · unfold ClientCertVector.resize at h
      split at h
      · rename_i heq
        split_ifs at heq <;> cases heq <;> cases h
      · rename_i heq
        split_ifs at heq <;> cases heq
        cases h
        rfl
    · cases h

theorem settingsLoop_error (iv : List SettingsEntry) (check : List Nat) (done : List SettingsEntry) (s : Session)
    (err : Err) (h : (settingsLoop iv check done s).2.2 = some err) : err = .nomem := by
  induction iv generalizing check done s with
  | nil => cases h
  | cons e rest ih =>
    unfold settingsLoop at h
    split at h
    · exact ih _ _ _ h
    · dsimp only at h
      cases he : (s.applySettingsEntry e).2.2 with
      | none =>
        rw [he] at h
        exact ih _ _ _ h
      | some e' =>
        rw [he] at h
        cases h
        exact applySettingsEntry_error s e _ he

theorem onSettingsReceived_receives (s : Session) (f : Settings) (g : Ghost) :
    ∃ g', Receives s g (s.onSettingsReceived f).1 (s.onSettingsReceived f).2 g' := by
  unfold onSettingsReceived
  split
  · exact ⟨g,.ofSteps _ .refl⟩
  · obtain ⟨g',hs,hh,hst,ho⟩ := settingsLoop_receives f.iv [] [] s g
    dsimp only at hs hst ho ⊢
    cases hr : (settingsLoop f.iv [] [] s).2.2 with
    | some e =>
      have he := settingsLoop_error _ _ _ _ _ hr
      subst he
      exact ⟨g',hs,hh,fun _ => .inr fatal_nomem,fun _ => .inr (.inl fatal_nomem)⟩
    | none =>
      refine ⟨g',hs.trans (emit_steps _ _ g' rfl).inSteps,hh,?_,?_⟩
      · intro h
        rcases hst h with h | ⟨e,he,-⟩
        · exact .inl h
        · rw [hr] at he
          cases he
      · intro h
        rcases ho h with h | ⟨e,he,hi,hv⟩
        · exact .inl h
        · exact .inr (.inr ⟨_,e,List.mem_append_right _ (List.mem_singleton.mpr rfl),he,hi,hv⟩)

/-- A release does not see what was noted before it. -/
theorem Core.release_note (c : Core) (streamId : Int) (e : Event) :
    (c.note e).release streamId = (c.release streamId).note e := by
  have hr : (c.note e).released streamId = c.released streamId := rfl
  unfold Core.release
  rw [hr]
  cases c.released streamId <;> rfl

theorem onWindowUpdateReceived_receives (s : Session) (f : WindowUpdate) (g : Ghost) :
    ∃ g', Receives s g (s.onWindowUpdateReceived f).1 (s.onWindowUpdateReceived f).2 g' := by
  unfold onWindowUpdateReceived
  split
  · exact ⟨g,.ofSteps _ .refl⟩
  · split
    · exact ⟨g,.ofSteps _ .refl⟩
    · rename_i st hst
      split
      · exact ⟨g,.ofSteps _ (handleInvalidStream_steps s _ _ _ g).inSteps⟩
      · dsimp only
        rcases releaseDeferred_cases (s.raiseWindow f.streamId f.deltaWindowSize) f.streamId with
          ⟨hn,he⟩ | ⟨hn,he⟩
        · rw [hn]
          refine ⟨g,.ofSteps _ (.trans ?_ (emit_steps _ (.ctrlRecv (.windowUpdate f)) g rfl).inSteps)⟩
          rw [he]
          convert (Inb.raise (core s g) f.streamId f.deltaWindowSize st hst).steps using 1
          exact Core.release_note ((core s g).setWindow f.streamId (fun w => s.windowArith.store (w+f.deltaWindowSize)))
            f.streamId (.windowRaised f.streamId f.deltaWindowSize)
        · rw [hn]
          refine ⟨{g with stuck := true},?_,rfl,fun _ => .inr fatal_nomem,.inl⟩
          rw [he]
          exact (Inb.raiseStuck (core s g) f.streamId f.deltaWindowSize st hst).steps

/-! Complete frames. -/

theorem handleUnparsed_steps (s : Session) (type : Nat) (e : Err) (g : Ghost) :
    Steps (core s g) (core (s.handleUnparsed type e).1 g) := by
  unfold handleUnparsed
  split
  · exact (emit_steps s _ g rfl).trans (failSession_steps _ _ g)
  · exact .refl

theorem handleHeadersError_steps (s : Session) (type : Nat) (streamId : Int) (f : Frame) (e : Err) (g : Ghost) :
    Steps (core s g) (core (s.handleHeadersError type streamId f e).1 g) := by
  unfold handleHeadersError
  split
  · exact handleInvalidStream_steps s _ _ _ g
  · exact handleUnparsed_steps s _ _ g

theorem core_parseSynStream (P : Platform) (s : Session) (g : Ghost) :
    core (s.parseSynStream P).1 g = core s g := by
  unfold parseSynStream
  dsimp only
  split <;> rfl

theorem core_parseStreamHeaders (P : Platform) (s : Session) (type : FrameType) (g : Ghost) :
    core (s.parseStreamHeaders P type).1 g = core s g := by
  unfold parseStreamHeaders
  dsimp only
  split <;> rfl

theorem processSynStream_steps (P : Platform) (s : Session) (g : Ghost) :
    InSteps (core s g) (core (s.processSynStream P).1 g) := by
  unfold processSynStream
  dsimp only
  rw [← core_parseSynStream P s g]
  split
  · exact onSynStreamReceived_steps _ _ g
  · exact (handleHeadersError_steps _ _ _ _ _ g).inSteps

theorem processSynReply_steps (P : Platform) (s : Session) (g : Ghost) :
    Steps (core s g) (core (s.processSynReply P).1 g) := by
  unfold processSynReply
  dsimp only
  rw [← core_parseStreamHeaders P s .synReply g]
  split
  · exact onSynReplyReceived_steps _ _ g
  · exact handleHeadersError_steps _ _ _ _ _ g

theorem processHeaders_steps (P : Platform) (s : Session) (g : Ghost) :
    Steps (core s g) (core (s.processHeaders P).1 g) := by
  unfold processHeaders
  dsimp only
  rw [← core_parseStreamHeaders P s .headers g]
  split
  · exact onHeadersReceived_steps _ _ g
  · exact handleHeadersError_steps _ _ _ _ _ g

theorem processPlain_receives {α : Type} (s : Session) (type : FrameType) (on : Session → α → Session × Option Err)
    (u : Except Err α) (g : Ghost) (h : ∀ f, ∃ g', Receives s g (on s f).1 (on s f).2 g') :
    ∃ g', Receives s g (s.processPlain type on u).1 (s.processPlain type on u).2 g' := by
  cases u with
  | ok f => exact h f
  | error e => exact ⟨g,.ofSteps _ (handleUnparsed_steps s _ _ g).inSteps⟩

theorem dispatchCtrlFrame_receives (P : Platform) (s : Session) (g : Ghost) :
    ∃ g', Receives s g (s.dispatchCtrlFrame P).1 (s.dispatchCtrlFrame P).2 g' := by
  unfold dispatchCtrlFrame
  dsimp only
  split
  · exact ⟨g,.ofSteps _ (processSynStream_steps P s g)⟩
  · exact ⟨g,.ofSteps _ (processSynReply_steps P s g).inSteps⟩
  · exact processPlain_receives s _ _ _ g (fun f => ⟨g,.ofSteps _ (onRstStreamReceived_steps s f g).inSteps⟩)
  · have h := processPlain_receives (s.setMem (frameUnpackSettings s.host.mem s.iframe.headbuf s.iframe.buf
      s.iframe.buflen).1) .settings onSettingsReceived (frameUnpackSettings s.host.mem s.iframe.headbuf s.iframe.buf
      s.iframe.buflen).2 g (fun f => onSettingsReceived_receives _ f g)
    obtain ⟨g',h⟩ := h
    exact ⟨g',h.steps,h.hand,h.stuck,h.oversize⟩
  · exact ⟨g,.ofSteps _ .refl⟩
  · exact processPlain_receives s _ _ _ g (fun f => ⟨g,.ofSteps _ (onPingReceived_steps s f g).inSteps⟩)
  · exact processPlain_receives s _ _ _ g (fun f => ⟨g,.ofSteps _ (onGoawayReceived_steps s f g).inSteps⟩)
  · exact ⟨g,.ofSteps _ (processHeaders_steps P s g).inSteps⟩
  · exact processPlain_receives s _ _ _ g (fun f => onWindowUpdateReceived_receives s f g)
  · have h := processPlain_receives (s.setMem (frameUnpackCredential s.host.mem s.iframe.headbuf s.iframe.buf
      s.iframe.buflen).1) .credential onCredentialReceived (frameUnpackCredential s.host.mem s.iframe.headbuf
      s.iframe.buf s.iframe.buflen).2 g (fun f => ⟨g,.ofSteps _ (onCredentialReceived_steps _ f g).inSteps⟩)
    obtain ⟨g',h⟩ := h
    exact ⟨g',h.steps,h.hand,h.stuck,h.oversize⟩
  · exact ⟨g,.ofSteps _ (emit_steps s _ g rfl).inSteps⟩

/-- Dropping non-fatal results keeps what explains the marks. -/
theorem Receives.onlyFatal {s : Session} {g g' : Ghost} {r : Session × Option Err} (h : Receives s g r.1 r.2 g') :
    Receives s g (Session.onlyFatal r).1 (Session.onlyFatal r).2 g' := by
  obtain ⟨s',r⟩ := r
  cases r with
  | none => exact h
  | some e =>
    unfold Session.onlyFatal
    dsimp only
    split
    · exact h
    · rename_i hf
      have hn : ¬Fatal (some e) := by
        rintro ⟨e',he,hf'⟩
        cases he
        exact hf hf'
      refine ⟨h.steps,h.hand,fun hs => .inl ((h.stuck hs).resolve_right hn),fun hs => ?_⟩
      rcases h.oversize hs with hs | hs | hs
      · exact .inl hs
      · exact absurd hs hn
      · exact .inr (.inr hs)

/-- Changes that the books do not record, up to the inbound frame. -/
theorem reading_steps {s s' : Session} {g : Ghost}
    (h : core s' g = {core s g with iframe := s'.iframe, inflater := s'.hdInflater}) :
    ReadSteps (core s g) (core s' g) := by
  rw [h]
  exact (Rd.read _ _ _).steps

theorem endFrame_reads (P : Platform) (s : Session) (g : Ghost) :
    ∃ g', Reads s g (s.endFrame P).1 (s.endFrame P).2 g' := by
  have hp : ∃ g', Receives s g (if s.iframe.isCtrl then s.processCtrlFrame P else s.processDataFrame).1
      (if s.iframe.isCtrl then s.processCtrlFrame P else s.processDataFrame).2 g' := by
    split
    · obtain ⟨g',h⟩ := dispatchCtrlFrame_receives P s g
      exact ⟨g',h.onlyFatal⟩
    · exact ⟨g,Receives.onlyFatal (.ofSteps _ (onDataReceived_steps s _ _ _ g).inSteps)⟩
  obtain ⟨g',h⟩ := hp
  unfold endFrame
  split
  · exact ⟨g,.ofSteps _ .refl⟩
  split
  · dsimp only
    cases hr : (if s.iframe.isCtrl then s.processCtrlFrame P else s.processDataFrame).2 with
    | none =>
      rw [hr] at h
      generalize (if s.iframe.isCtrl then s.processCtrlFrame P else s.processDataFrame).1 = s1 at h ⊢
      have hreset : ReadSteps (core s1 g') (core ({s1 with iframe := s1.iframe.reset}) g') := reading_steps rfl
      exact ⟨g',h.reads.trans (.ofSteps _ (hreset.trans (emit_steps _ .frameDone g' rfl).inSteps.readSteps))⟩
    | some e =>
      rw [hr] at h
      exact ⟨g',h.reads⟩
  · exact ⟨g,.ofSteps _ .refl⟩

/-! The loop. -/

theorem startPayload_steps (P : Platform) (s : Session) (g : Ghost) :
    ReadSteps (core s g) (core (s.startPayload P).1 g) := by
  refine reading_steps ?_
  unfold startPayload reserveIframeBuf
  dsimp only
  split
  · split_ifs <;> rfl
  · rfl

theorem recvHead_steps (P : Platform) (s : Session) (input : Bytes) (g : Ghost) :
    ReadSteps (core s g) (core (s.recvHead P input).1 g) := by
  unfold recvHead
  split
  · exact .refl
  · dsimp only
    have h1 : ∀ bytes, ReadSteps (core s g) (core (s.takeHead bytes) g) := fun bytes => reading_steps rfl
    split
    · split
      · exact (h1 _).trans (startPayload_steps P _ g)
      · exact (h1 _).trans (startPayload_steps P _ g)
    · exact h1 _

theorem recvPreNv_steps (s : Session) (input : Bytes) (readlen : Nat) (g : Ghost) :
    ReadSteps (core s g) (core (s.recvPreNv input readlen).1 g) := by
  refine reading_steps ?_
  unfold recvPreNv
  dsimp only
  split <;> rfl

theorem inflateChunk_steps (P : Platform) (s : Session) (chunk : Bytes) (g : Ghost) :
    ReadSteps (core s g) (core (s.inflateChunk P chunk) g) := by
  refine reading_steps ?_
  unfold inflateChunk
  dsimp only
  split <;> rfl

theorem recvChunk_steps (P : Platform) (s : Session) (chunk : Bytes) (g : Ghost) :
    ReadSteps (core s g) (core (s.recvChunk P chunk) g) := by
  have hoff : ∀ s : Session, ReadSteps (core s g)
      (core ({s with iframe := {s.iframe with off := s.iframe.off+chunk.length}}) g) := fun s => reading_steps rfl
  unfold recvChunk
  dsimp only
  split_ifs
  · exact (inflateChunk_steps P s chunk g).trans (hoff _)
  · exact hoff s
  · exact reading_steps rfl
  · exact hoff s
  · exact (emit_steps s _ g rfl).inSteps.readSteps.trans (hoff _)

theorem updateRecvWindowSize_steps (s : Session) (streamId : Int) (delta : Nat) (g : Ghost) :
    Steps (core s g) (core (s.updateRecvWindowSize streamId delta).1 g) := by
  unfold updateRecvWindowSize
  split
  · exact .refl
  · rename_i st hst
    dsimp only
    generalize (if int32Max-(delta : Int) < st.recvWindowSize then int32Max else st.recvWindowSize+delta) = size
    have h1 := modifyStream_steps s streamId (fun st => {st with recvWindowSize := size}) (fun _ => rfl)
      (by constructor <;> intro _ <;> rfl) g
    split
    · have h2 := h1.trans (addCtrl_steps _ (.windowUpdate (frameWindowUpdateInit s.version.num streamId size)) g)
      split
      · exact h2.trans (modifyStream_steps _ streamId _ _ (by constructor <;> intro _ <;> rfl) g)
      · exact h2
    · exact h1

theorem recvPayload_reads (P : Platform) (s : Session) (input : Bytes) (g : Ghost) :
    ∃ g', Reads s g (s.recvPayload P input).1 ((s.recvPayload P input).2.2.getD none) g' := by
  unfold recvPayload
  dsimp only
  split
  · exact ⟨g,.ofSteps _ .refl⟩
  · have hp := recvPreNv_steps s input (min input.length (s.iframe.payloadlen-s.iframe.off)) g
    generalize s.recvPreNv input _ = p at hp ⊢
    have hc : ReadSteps (core s g) (core ((p.1.recvChunk P (p.2.1.take p.2.2)).creditChunk
        (p.2.1.take p.2.2).length).1 g) := by
      refine hp.trans ((recvChunk_steps P p.1 (p.2.1.take p.2.2) g).trans ?_)
      unfold creditChunk
      dsimp only
      split
      · exact (updateRecvWindowSize_steps _ _ _ g).inSteps.readSteps
      · exact .refl
    split
    · exact ⟨g,.ofSteps _ hc⟩
    · obtain ⟨g',h⟩ := endFrame_reads P
        ((p.1.recvChunk P (p.2.1.take p.2.2)).creditChunk (p.2.1.take p.2.2).length).1 g
      have h' := Reads.trans (.ofSteps none hc) h
      split
      · rename_i e he
        rw [he] at h'
        refine ⟨g',h'.steps,h'.hand,?_,?_⟩
        · exact fun hs => (h'.stuck hs).imp_right fatal_assertFatal
        · exact fun hs => (h'.oversize hs).imp_right (Or.imp_left fatal_assertFatal)
      · rename_i he
        rw [he] at h'
        exact ⟨g',h'⟩

theorem recvIter_reads (P : Platform) (s : Session) (input : Bytes) (g : Ghost) :
    ∃ g', Reads s g (s.recvIter P input).1 ((s.recvIter P input).2.2.getD none) g' := by
  unfold recvIter
  split
  · have hh := recvHead_steps P s input g
    dsimp only
    split
    · exact ⟨g,.ofSteps _ hh⟩
    · obtain ⟨g',h⟩ := recvPayload_reads P (s.recvHead P input).1 (s.recvHead P input).2.1 g
      exact ⟨g',.trans (.ofSteps none hh) h⟩
  · exact recvPayload_reads P s input g

theorem recvLoop_reads (P : Platform) (fuel : Nat) (s : Session) (input : Bytes) (g : Ghost) :
    ∃ g', Reads s g (s.recvLoop P fuel input).1 (s.recvLoop P fuel input).2 g' := by
  induction fuel generalizing s input g with
  | zero => exact ⟨g,.ofSteps _ .refl⟩
  | succ fuel ih =>
    obtain ⟨g1,h1⟩ := recvIter_reads P s input g
    unfold recvLoop
    dsimp only
    split
    · rename_i r hr
      rw [hr] at h1
      exact ⟨g1,h1⟩
    · rename_i hr
      rw [hr] at h1
      obtain ⟨g2,h2⟩ := ih (s.recvIter P input).1 (s.recvIter P input).2.1 g1
      exact ⟨g2,h1.trans h2⟩

end Spdylay.Machine
