import Spdylay.Machine.WindowDebit
import Spdylay.Machine.WindowLedger

/-! Send windows in the machine's arithmetic while SETTINGS and WINDOW_UPDATE
frames are received. -/
namespace Spdylay
open Library Machine

/-- Received frames that change send windows. -/
inductive WindowFrame
  | settings (f : Settings)
  | windowUpdate (f : WindowUpdate)
  deriving DecidableEq

def isInt32 (n : Int) : Prop := -2147483648 ≤ n ∧ n ≤ int32Max

/-- The value a SETTINGS frame gives the initial window: the first one counts. -/
def settingsWindow (iv : List SettingsEntry) : Option Nat :=
  (iv.find? (fun e => e.settingsId = settingsInitialWindowSize)).map SettingsEntry.value

namespace Session

def initialSendWindow (s : Session) : Nat := s.remoteSettings settingsInitialWindowSize

def receiveWindowFrame (s : Session) : WindowFrame → Session × Option Err
  | .settings f => s.onSettingsReceived f
  | .windowUpdate f => s.onWindowUpdateReceived f

/-- One frame after the other, up to the first fatal error. -/
def receiveWindowFrames (s : Session) : List WindowFrame → Session × Option Err
  | [] => (s,none)
  | f :: fs =>
    match (s.receiveWindowFrame f).2 with
    | none => (s.receiveWindowFrame f).1.receiveWindowFrames fs
    | some e => ((s.receiveWindowFrame f).1,some e)

/-- The signed operations on the window of a stream while a frame is received, by
their exact values. -/
def windowOps (s : Session) (st : Stream) : WindowFrame → List Int
  | .settings f =>
    match settingsWindow f.iv with
    | some v =>
      if s.checkVersion f.hd.version ∧ s.flowControl ∧ v < 2147483648 then
        [toInt32 s.initialSendWindow-st.windowSize,v-(toInt32 s.initialSendWindow-st.windowSize)]
      else []
    | none => []
  | .windowUpdate f =>
    if s.checkVersion f.hd.version ∧ s.flowControl ∧ f.streamId = st.streamId then
      (int32Max-f.deltaWindowSize) ::
        if int32Max-f.deltaWindowSize < st.windowSize then [] else [st.windowSize+f.deltaWindowSize]
    else []

/-- A SETTINGS frame gives the initial window a value below 2^31 that the stream's
window can follow. WINDOW_UPDATE frames are checked by the code. -/
def WindowFits (s : Session) (id : Int) : WindowFrame → Prop
  | .settings f => s.checkVersion f.hd.version → ∀ v, settingsWindow f.iv = some v → v < 2147483648 ∧
      ∀ st, s.getStream id = some st → s.initialSendWindow-st.windowSize ≤ int32Max ∧
        v-(s.initialSendWindow-st.windowSize) ≤ int32Max
  | .windowUpdate _ => True

def WindowsFit (s : Session) (id : Int) : List WindowFrame → Prop
  | [] => True
  | f :: fs => s.WindowFits id f ∧
      ((s.receiveWindowFrame f).2 = none → (s.receiveWindowFrame f).1.WindowsFit id fs)

/-- The window of a stream as its ledger says, over the integers, `sent` being
what has been sent. -/
structure Balanced (s : Session) (id sent : Int) : Prop where
  flowControl : s.flowControl = true
  arith : s.windowArith = .int32
  remote : s.initialSendWindow < 2147483648
  stream : ∃ st, s.getStream id = some st ∧ isInt32 st.windowSize ∧
    st.windowSize = s.initialSendWindow+raised id s.host.log-sent

/-- An RST_STREAM with FLOW_CONTROL_ERROR is queued for the stream. -/
def resetBy (id : Int) : Event → Bool
  | .accepted item =>
    match item.frame with
    | .ctrl (.rstStream f) => f.streamId = id ∧ f.statusCode = flowControlError
    | _ => false
  | _ => false

/-- Receiving a frame overflows nothing and leaves the stream reset or its window
at what the ledger says, and streams opened later start with the initial window. -/
def KeepsLedger (s : Session) (id sent : Int) (f : WindowFrame) : Prop :=
  (∀ st, s.getStream id = some st → ∀ n ∈ s.windowOps st f, isInt32 n) ∧
  ((s.receiveWindowFrame f).2 = none →
    ((∃ e ∈ (s.receiveWindowFrame f).1.host.log, resetBy id e = true) ∨
      ∃ st, (s.receiveWindowFrame f).1.getStream id = some st ∧ st.windowSize =
        (s.receiveWindowFrame f).1.initialSendWindow+raised id (s.receiveWindowFrame f).1.host.log-sent) ∧
    ∀ streamId flags pri state, ((s.receiveWindowFrame f).1.openStream streamId flags pri state).2 = true →
      ∃ st, ((s.receiveWindowFrame f).1.openStream streamId flags pri state).1.getStream streamId = some st ∧
        st.windowSize = (s.receiveWindowFrame f).1.initialSendWindow)

end Session
end Spdylay

namespace Spdylay.Machine
open Library Session

/-! What a SETTINGS frame does to the windows. -/

structure Rewindows (s s' : Session) (remote : Nat) (f : Int → Int) : Prop where
  flowControl : s'.flowControl = s.flowControl
  arith : s'.windowArith = s.windowArith
  raised : ∀ id, raised id s'.host.log = raised id s.host.log
  remote : s'.initialSendWindow = remote
  windows : ∀ id, (s'.getStream id).map Stream.windowSize = (s.getStream id).map (fun st => f st.windowSize)

theorem Rewindows.trans {s1 s2 s3 : Session} {r r' : Nat} {f f' : Int → Int} (h : Rewindows s1 s2 r f)
    (h' : Rewindows s2 s3 r' f') : Rewindows s1 s3 r' (f' ∘ f) := by
  refine ⟨h'.flowControl.trans h.flowControl,h'.arith.trans h.arith,fun id => (h'.raised id).trans (h.raised id),
    h'.remote,?_⟩
  intro id
  have h2 := congrArg (Option.map f') (h.windows id)
  simp only [Option.map_map] at h2
  exact (h'.windows id).trans h2

/-- The window of each stream after the initial window is set to `v`. -/
def newWindow (s : Session) (v : Nat) (w : Int) : Int :=
  if v < 2147483648 then (core s cleanGhost).rebased v w else w

theorem applySettingsEntry_window {s : Session} {e : SettingsEntry} (hf : s.flowControl = true)
    (hid : e.settingsId = settingsInitialWindowSize) (h : (s.applySettingsEntry e).2.2 = none) :
    Rewindows s (s.applySettingsEntry e).1 e.value (newWindow s e.value) := by
  have hset : ∀ g : Nat → Nat, Function.update g settingsInitialWindowSize e.value settingsInitialWindowSize = e.value :=
    fun g => Function.update_self _ _ g
  unfold applySettingsEntry at h ⊢
  rw [if_pos ⟨hid,hf⟩] at h ⊢
  unfold newWindow
  split_ifs at h ⊢ with hv
  · dsimp only at h ⊢
    cases hr : (s.updateInitialWindowSize (e.value : Int)).2 with
    | some err =>
      rw [hr] at h
      cases h
    | none =>
      have hok := updateInitialWindowSize_ok s e.value hr cleanGhost
      obtain ⟨streams,obPq,hframe⟩ := (core s cleanGhost).rebase_frame e.value
      have hfind := (core s cleanGhost).find_rebase e.value
      rw [← hok] at hframe hfind
      dsimp only
      refine ⟨congrArg Core.flowControl hframe,congrArg Core.arith hframe,fun id => ?_,?_,fun id => ?_⟩
      · exact congrArg (fun c : Core => raised id c.log) hframe
      · rw [initialSendWindow,hid]
        exact hset (s.updateInitialWindowSize e.value).1.remoteSettings
      · refine (congrArg (Option.map Stream.windowSize) (hfind id)).trans ?_
        rw [Option.map_map]
        exact congrArg (fun g => Option.map g (s.getStream id)) (funext (settled_windowSize _))
  · refine ⟨rfl,rfl,fun _ => rfl,?_,fun _ => rfl⟩
    rw [initialSendWindow,hid]
    exact hset s.remoteSettings

theorem applySettingsEntry_other {s : Session} {e : SettingsEntry} (hid : e.settingsId ≠ settingsInitialWindowSize) :
    Rewindows s (s.applySettingsEntry e).1 s.initialSendWindow (fun w => w) := by
  have hupdate : ∀ v, Function.update s.remoteSettings e.settingsId v settingsInitialWindowSize = s.initialSendWindow :=
    fun v => Function.update_of_ne hid.symm _ _
  unfold applySettingsEntry
  rw [if_neg (fun h => hid h.1)]
  dsimp only
  split
  · cases s.cliCertvec.resize s.host.mem (min e.value maxClientCertVectorLength) with
    | mk m r =>
      cases r with
      | ok v => exact ⟨rfl,rfl,fun _ => rfl,hupdate _,fun _ => rfl⟩
      | error err => exact ⟨rfl,rfl,fun _ => rfl,rfl,fun _ => rfl⟩
  · exact ⟨rfl,rfl,fun _ => rfl,hupdate _,fun _ => rfl⟩

theorem Rewindows.newWindow_eq {s s' : Session} {f : Int → Int} (h : Rewindows s s' s.initialSendWindow f) (v : Nat) :
    newWindow s' v = newWindow s v := by
  have hr : s'.remoteSettings settingsInitialWindowSize = s.remoteSettings settingsInitialWindowSize := h.remote
  have he : (core s' cleanGhost).rebased v = (core s cleanGhost).rebased v := by
    funext w
    exact congrArg₂ (fun (a : WindowArith) (n : Nat) => a.store (v-a.store (toInt32 n-w))) h.arith hr
  funext w
  unfold newWindow
  rw [he]

theorem settingsWindow_cons_eq {e : SettingsEntry} {rest : List SettingsEntry}
    (h : e.settingsId = settingsInitialWindowSize) : settingsWindow (e :: rest) = some e.value := by
  simp [settingsWindow,h]

theorem settingsWindow_cons_ne {e : SettingsEntry} {rest : List SettingsEntry}
    (h : e.settingsId ≠ settingsInitialWindowSize) : settingsWindow (e :: rest) = settingsWindow rest := by
  simp [settingsWindow,h]

/-- The loop applies the first value of the initial window, if it has none yet. -/
theorem settingsLoop_windows (iv : List SettingsEntry) (check : List Nat) (done : List SettingsEntry) (s : Session)
    (hf : s.flowControl = true) (h : (settingsLoop iv check done s).2.2 = none) :
    (settingsInitialWindowSize ∈ check ∨ settingsWindow iv = none →
      Rewindows s (settingsLoop iv check done s).1 s.initialSendWindow (fun w => w)) ∧
    (∀ v, settingsInitialWindowSize ∉ check → settingsWindow iv = some v →
      Rewindows s (settingsLoop iv check done s).1 v (newWindow s v)) := by
  induction iv generalizing check done s with
  | nil => exact ⟨fun _ => ⟨rfl,rfl,fun _ => rfl,rfl,fun _ => rfl⟩,nofun⟩
  | cons e rest ih =>
    unfold settingsLoop at h ⊢
    split
    · rename_i hskip
      rw [if_pos hskip] at h
      obtain ⟨h1,h2⟩ := ih check _ s hf h
      -- a skipped entry is no first value of the initial window
      have hne : settingsInitialWindowSize ∉ check → e.settingsId ≠ settingsInitialWindowSize := by
        rintro hc he
        rw [he] at hskip
        rcases hskip with hs | hs | hs
        · exact absurd hs (by decide)
        · exact absurd hs (by decide)
        · exact hc hs
      refine ⟨fun hx => h1 ?_,fun v hc hv => h2 v hc ?_⟩
      · by_cases hc : settingsInitialWindowSize ∈ check
        · exact .inl hc
        · refine .inr ?_
          have hx := hx.resolve_left hc
          rwa [settingsWindow_cons_ne (hne hc)] at hx
      · rwa [settingsWindow_cons_ne (hne hc)] at hv
    · rename_i hskip
      rw [if_neg hskip] at h
      dsimp only at h ⊢
      cases he : (s.applySettingsEntry e).2.2 with
      | some err =>
        rw [he] at h
        cases h
      | none =>
        rw [he] at h
        by_cases hid : e.settingsId = settingsInitialWindowSize
        · have hw := applySettingsEntry_window hf hid he
          have hrest := (ih (e.settingsId :: check) _ _ (hw.flowControl.trans hf) h).1 (.inl (by simp [hid]))
          rw [hw.remote] at hrest
          refine ⟨fun hx => ?_,fun v hc hv => ?_⟩
          · rcases hx with hx | hx
            · exact absurd (.inr (.inr (hid ▸ hx))) hskip
            · rw [settingsWindow_cons_eq hid] at hx
              cases hx
          · rw [settingsWindow_cons_eq hid] at hv
            cases hv
            exact hw.trans hrest
        · have hw := applySettingsEntry_other hid (s := s)
          obtain ⟨h1,h2⟩ := ih (e.settingsId :: check) _ _ (hw.flowControl.trans hf) h
          rw [hw.remote] at h1
          rw [settingsWindow_cons_ne hid]
          refine ⟨fun hx => hw.trans (h1 ?_),fun v hc hv => ?_⟩
          · exact hx.imp_left (List.mem_cons_of_mem _)
          · have hn := hw.trans (h2 v (by simp [hc,Ne.symm hid]) hv)
            rwa [hw.newWindow_eq] at hn

/-! A refused WINDOW_UPDATE resets the stream and changes no window. -/

theorem addCtrl_ok {s : Session} {f : Frame} (h : (s.addCtrl f).2 = none) (g : Ghost) :
    ∃ item, item.frame = .ctrl f ∧ core (s.addCtrl f).1 g =
      ({core (s.markClosing (.ctrl f)) g with nextSeq := s.nextSeq+1}.enqueue item).note (.accepted item) := by
  unfold addCtrl at h ⊢
  split_ifs at h ⊢
  unfold addFrame at h ⊢
  split_ifs at h ⊢
  dsimp only at h ⊢
  refine ⟨s.malloc.newItem (.ctrl f) none,rfl,?_⟩
  rcases pushItem_cases (({s.malloc.malloc with nextSeq := s.malloc.nextSeq+1}).markClosing (.ctrl f))
    (s.malloc.newItem (.ctrl f) none) with ⟨hn,he⟩ | ⟨hn,-⟩
  · rw [hn]
    refine (congrArg (fun c : Core => c.note (.accepted (s.malloc.newItem (.ctrl f) none))) (he g)).trans ?_
    refine congrArg (fun c : Core => (c.enqueue _).note _) ?_
    unfold markClosing
    split <;> rfl
  · rw [hn] at h
    cases h

theorem handleInvalidStream_ok {s : Session} {streamId : Int} {f : Frame} {statusCode : Nat}
    (h : (s.handleInvalidStream streamId f statusCode).2 = none) :
    Rewindows s (s.handleInvalidStream streamId f statusCode).1 s.initialSendWindow (fun w => w) ∧
    ((statusCode = flowControlError) → ∃ e ∈ (s.handleInvalidStream streamId f statusCode).1.host.log,
      resetBy streamId e = true) := by
  unfold handleInvalidStream addRstStream at h ⊢
  dsimp only at h ⊢
  cases hr : (s.addCtrl (.rstStream (frameRstStreamInit s.version.num streamId statusCode))).2 with
  | some e =>
    rw [hr] at h
    cases h
  | none =>
    dsimp only
    obtain ⟨item,hitem,hc⟩ := addCtrl_ok hr cleanGhost
    generalize (s.addCtrl (.rstStream (frameRstStreamInit s.version.num streamId statusCode))).1 = s1 at hc ⊢
    have hframe : ∃ q q', core s1 cleanGhost = {core (s.setState streamId .closing) cleanGhost with
        nextSeq := s.nextSeq+1, obPq := q, obSsPq := q', log := s.host.log ++ [.accepted item]} := by
      rw [hc]
      unfold Core.enqueue
      split
      · exact ⟨_,_,rfl⟩
      · exact ⟨_,_,rfl⟩
    obtain ⟨q,q',hframe⟩ := hframe
    have hlog : s1.host.log = s.host.log ++ [.accepted item] := congrArg Core.log hframe
    refine ⟨⟨congrArg Core.flowControl hframe,congrArg Core.arith hframe,fun id => ?_,?_,fun id => ?_⟩,fun hs => ?_⟩
    · simp [emit,hlog,raised,raisedBy]
    · exact congrArg (fun c : Core => c.remoteSettings settingsInitialWindowSize) hframe
    · have hst : s1.streams = _ := congrArg Core.streams hframe
      have hfind := OrderedTable.find_modify s.streams streamId id (fun st => {st with state := .closing}) (fun _ => rfl)
      change Option.map Stream.windowSize (s1.streams.find id) = _
      rw [hst]
      refine (congrArg (Option.map Stream.windowSize) hfind).trans ?_
      split
      · rw [Option.map_map]
        rfl
      · rfl
    · refine ⟨.accepted item,by simp [emit,hlog],?_⟩
      simp [resetBy,hitem,frameRstStreamInit,hs]

/-! The ledger, frame by frame. -/

theorem newWindow_fits {s : Session} {v : Nat} {w : Int} (ha : s.windowArith = .int32)
    (hr : s.initialSendWindow < 2147483648) (hv : v < 2147483648) (hw : isInt32 w)
    (h1 : s.initialSendWindow-w ≤ int32Max) (h2 : v-(s.initialSendWindow-w) ≤ int32Max) :
    newWindow s v w = v-(s.initialSendWindow-w) ∧ isInt32 (toInt32 s.initialSendWindow-w) ∧
      isInt32 (v-(toInt32 s.initialSendWindow-w)) := by
  have hcast : toInt32 s.initialSendWindow = s.initialSendWindow := toInt32_eq_self.mpr (by omega)
  unfold isInt32 at hw ⊢
  unfold int32Max at hw h1 h2 ⊢
  have hd : toInt32 (s.initialSendWindow-w) = s.initialSendWindow-w := toInt32_eq_self.mpr (by omega)
  have hn : toInt32 (v-(s.initialSendWindow-w)) = v-(s.initialSendWindow-w) := toInt32_eq_self.mpr (by omega)
  refine ⟨?_,by omega,by omega⟩
  have he : newWindow s v w = s.windowArith.store (v-s.windowArith.store (toInt32 s.initialSendWindow-w)) := by
    unfold newWindow
    rw [if_pos hv]
    rfl
  rw [he,ha,hcast]
  exact (congrArg (fun n => toInt32 (v-n)) hd).trans hn

theorem Rewindows.balanced {s s' : Session} {id sent : Int} {r : Nat} {f : Int → Int} (h : Rewindows s s' r f)
    (hb : s.Balanced id sent) (hr : r < 2147483648) (hf : ∀ st, s.getStream id = some st →
      isInt32 (f st.windowSize) ∧ f st.windowSize = st.windowSize+r-s.initialSendWindow) : s'.Balanced id sent := by
  obtain ⟨st,hst,hw,hl⟩ := hb.stream
  obtain ⟨hi,he⟩ := hf st hst
  have hwin := h.windows id
  rw [hst] at hwin
  obtain ⟨st',hst',hw'⟩ := Option.map_eq_some_iff.mp hwin
  refine ⟨h.flowControl.trans hb.flowControl,h.arith.trans hb.arith,by rw [h.remote]; exact hr,st',hst',?_,?_⟩
  · rw [hw']
    exact hi
  · rw [hw',h.remote,h.raised]
    dsimp only
    omega

theorem Balanced.settings {s : Session} {id sent : Int} {f : Settings} (hb : s.Balanced id sent)
    (hfit : s.WindowFits id (.settings f)) (h : (s.onSettingsReceived f).2 = none) :
    (s.onSettingsReceived f).1.Balanced id sent := by
  unfold onSettingsReceived at h ⊢
  split
  · exact hb
  · rename_i hver
    rw [if_neg hver] at h
    have hver : s.checkVersion f.hd.version = true := by simpa using hver
    dsimp only at h ⊢
    cases hr : (settingsLoop f.iv [] [] s).2.2 with
    | some e =>
      rw [hr] at h
      cases h
    | none =>
      dsimp only
      obtain ⟨h1,h2⟩ := settingsLoop_windows f.iv [] [] s hb.flowControl hr
      have hb' : (settingsLoop f.iv [] [] s).1.Balanced id sent := by
        cases hw : settingsWindow f.iv with
        | none =>
          refine (h1 (.inr hw)).balanced hb hb.remote (fun st hst => ?_)
          obtain ⟨st0,hst0,hi,-⟩ := hb.stream
          rw [hst0] at hst
          cases hst
          exact ⟨hi,by simp⟩
        | some v =>
          obtain ⟨hv,hfit⟩ := hfit hver v hw
          refine (h2 v List.not_mem_nil hw).balanced hb hv (fun st hst => ?_)
          obtain ⟨st0,hst0,hi,-⟩ := hb.stream
          rw [hst0] at hst
          cases hst
          obtain ⟨f1,f2⟩ := hfit st hst0
          obtain ⟨hn,-,hr'⟩ := newWindow_fits hb.arith hb.remote hv hi f1 f2
          have hcast : toInt32 s.initialSendWindow = s.initialSendWindow :=
            toInt32_eq_self.mpr (by have := hb.remote; omega)
          rw [hcast] at hr'
          rw [hn]
          exact ⟨hr',by omega⟩
      obtain ⟨st,hst,hi,hl⟩ := hb'.stream
      refine ⟨hb'.flowControl,hb'.arith,hb'.remote,st,hst,hi,?_⟩
      simpa [emit,raisedBy,initialSendWindow] using hl

theorem Balanced.windowUpdate {s : Session} {id sent : Int} {f : WindowUpdate} (hb : s.Balanced id sent)
    (hd : 0 ≤ f.deltaWindowSize) (h : (s.onWindowUpdateReceived f).2 = none) :
    (s.onWindowUpdateReceived f).1.Balanced id sent := by
  unfold onWindowUpdateReceived at h ⊢
  split
  · exact hb
  rename_i hver
  rw [if_neg hver] at h
  cases hst0 : s.getStream f.streamId with
  | none => exact hb
  | some st0 =>
    rw [hst0] at h
    dsimp only at h ⊢
    obtain ⟨st,hst,hi,hl⟩ := hb.stream
    split
    · rename_i hbig
      rw [if_pos hbig] at h
      refine (handleInvalidStream_ok h).1.balanced hb hb.remote (fun st' hst' => ?_)
      rw [hst] at hst'
      cases hst'
      exact ⟨hi,by simp⟩
    · rename_i hbig
      rw [if_neg hbig] at h
      rcases releaseDeferred_cases (s.raiseWindow f.streamId f.deltaWindowSize) f.streamId with ⟨hn,he⟩ | ⟨hn,he⟩
      · rw [hn]
        dsimp only
        have hcore : core ((s.raiseWindow f.streamId f.deltaWindowSize).releaseDeferred f.streamId).1 cleanGhost =
            ((core s cleanGhost).rewindow f.streamId (fun w => s.windowArith.store (w+f.deltaWindowSize))).note
              (.windowRaised f.streamId f.deltaWindowSize) :=
          (he cleanGhost).trans (Core.release_note ((core s cleanGhost).setWindow f.streamId
            (fun w => s.windowArith.store (w+f.deltaWindowSize))) f.streamId
              (.windowRaised f.streamId f.deltaWindowSize))
        generalize ((s.raiseWindow f.streamId f.deltaWindowSize).releaseDeferred f.streamId).1 = s1 at hcore
        obtain ⟨streams,obPq,hframe⟩ := (core s cleanGhost).rewindow_frame f.streamId
          (fun w => s.windowArith.store (w+f.deltaWindowSize))
        have hfind := (core s cleanGhost).find_rewindow f.streamId
          (fun w => s.windowArith.store (w+f.deltaWindowSize)) id
        have hstreams : s1.getStream id = if f.streamId = id then (s.getStream id).map
            (settled (fun w => s.windowArith.store (w+f.deltaWindowSize))) else s.getStream id :=
          (congrArg (fun c : Core => c.streams.find id) hcore).trans hfind
        rw [hframe] at hcore
        have hlog : s1.host.log = s.host.log ++ [.windowRaised f.streamId f.deltaWindowSize] :=
          congrArg Core.log hcore
        have hrem : s1.initialSendWindow = s.initialSendWindow :=
          congrArg (fun c : Core => c.remoteSettings settingsInitialWindowSize) hcore
        have hsmall : s1.initialSendWindow < 2147483648 := by
          rw [hrem]
          exact hb.remote
        refine ⟨(congrArg Core.flowControl hcore).trans hb.flowControl,(congrArg Core.arith hcore).trans hb.arith,
          hsmall,?_⟩
        change ∃ st', s1.getStream id = some st' ∧ isInt32 st'.windowSize ∧ st'.windowSize =
          s1.initialSendWindow+raised id (s1.host.log ++ [Event.ctrlRecv (.windowUpdate f)])-sent
        rw [hstreams,hrem,hlog]
        by_cases hid : f.streamId = id
        · subst hid
          rw [hst] at hst0
          cases hst0
          unfold isInt32 int32Max at hi ⊢
          unfold int32Max at hbig
          have hstore : s.windowArith.store (st0.windowSize+f.deltaWindowSize) = st0.windowSize+f.deltaWindowSize := by
            rw [hb.arith]
            exact toInt32_eq_self.mpr (by omega)
          refine ⟨settled (fun w => s.windowArith.store (w+f.deltaWindowSize)) st0,by rw [if_pos rfl,hst]; rfl,?_,?_⟩
          · rw [settled_windowSize,hstore]
            omega
          · rw [settled_windowSize,hstore]
            simp only [raised_append,raised_singleton,raisedBy,if_pos]
            omega
        · refine ⟨st,by rw [if_neg hid,hst],hi,?_⟩
          simp only [raised_append,raised_singleton,raisedBy,if_neg hid]
          omega
      · rw [hn] at h
        cases h

theorem Balanced.step {s : Session} {id sent : Int} {f : WindowFrame} (hb : s.Balanced id sent)
    (hfit : s.WindowFits id f) (hd : ∀ g, f = .windowUpdate g → 0 ≤ g.deltaWindowSize)
    (h : (s.receiveWindowFrame f).2 = none) : (s.receiveWindowFrame f).1.Balanced id sent := by
  cases f with
  | settings g => exact Balanced.settings hb hfit h
  | windowUpdate g => exact Balanced.windowUpdate hb (hd g rfl) h

theorem Balanced.ops {s : Session} {id sent : Int} {f : WindowFrame} (hb : s.Balanced id sent)
    (hfit : s.WindowFits id f)
    (hd : ∀ g, f = .windowUpdate g → 0 ≤ g.deltaWindowSize ∧ g.deltaWindowSize ≤ int32Max) :
    ∃ st, s.getStream id = some st ∧ ∀ n ∈ s.windowOps st f, isInt32 n := by
  obtain ⟨st,hst,hi,-⟩ := hb.stream
  refine ⟨st,hst,?_⟩
  intro n hn
  cases f with
  | settings g =>
    simp only [windowOps] at hn
    cases hv : settingsWindow g.iv with
    | none =>
      rw [hv] at hn
      cases hn
    | some v =>
      rw [hv] at hn
      dsimp only at hn
      split at hn
      · rename_i hcond
        obtain ⟨hv',hfit⟩ := hfit hcond.1 v hv
        obtain ⟨h1,h2⟩ := hfit st hst
        obtain ⟨-,h3,h4⟩ := newWindow_fits hb.arith hb.remote hv' hi h1 h2
        simp only [List.mem_cons,List.not_mem_nil,or_false] at hn
        rcases hn with hn | hn
        · rw [hn]
          exact h3
        · rw [hn]
          exact h4
      · cases hn
  | windowUpdate g =>
    obtain ⟨h1,h2⟩ := hd g rfl
    unfold isInt32 int32Max at *
    unfold windowOps int32Max at hn
    dsimp only at hn
    split at hn
    · rcases List.mem_cons.mp hn with rfl | hn
      · omega
      · split at hn
        · cases hn
        · obtain rfl := List.mem_singleton.mp hn
          omega
    · cases hn

theorem Balanced.opened {s : Session} {id sent : Int} (hb : s.Balanced id sent) {streamId : Int} {flags pri : Nat}
    {state : StreamState} (h : (s.openStream streamId flags pri state).2 = true) :
    ∃ st, (s.openStream streamId flags pri state).1.getStream streamId = some st ∧
      st.windowSize = s.initialSendWindow := by
  have hcast : s.windowArith.store (toInt32 s.initialSendWindow) = s.initialSendWindow := by
    have hx : toInt32 s.initialSendWindow = s.initialSendWindow := toInt32_eq_self.mpr (by have := hb.remote; omega)
    rw [hb.arith,hx]
    exact hx
  unfold openStream at h ⊢
  split
  · rename_i hm
    rw [if_pos hm] at h
    dsimp only at h ⊢
    cases hi : s.streams.insert (streamInit streamId flags pri state
        (s.windowArith.store (toInt32 (s.remoteSettings settingsInitialWindowSize)))) with
    | none =>
      rw [hi] at h
      cases h
    | some streams =>
      refine ⟨streamInit streamId flags pri state
        (s.windowArith.store (toInt32 (s.remoteSettings settingsInitialWindowSize))),?_,hcast⟩
      have hfind : streams.find streamId = _ := OrderedTable.find_insert hi streamId
      rw [if_pos (by rfl)] at hfind
      dsimp only
      unfold countOpened
      split <;> exact hfind
  · rename_i hm
    rw [if_neg hm] at h
    cases h

theorem Balanced.keeps {s : Session} {id sent : Int} {f : WindowFrame} (hb : s.Balanced id sent)
    (hfit : s.WindowFits id f)
    (hd : ∀ g, f = .windowUpdate g → 0 ≤ g.deltaWindowSize ∧ g.deltaWindowSize ≤ int32Max) :
    s.KeepsLedger id sent f := by
  refine ⟨fun st hst => ?_,fun h => ?_⟩
  · obtain ⟨st',hst',hops⟩ := Balanced.ops hb hfit hd
    rw [hst'] at hst
    cases hst
    exact hops
  · have hb' := Balanced.step hb hfit (fun g hg => (hd g hg).1) h
    obtain ⟨st,hst,-,hl⟩ := hb'.stream
    exact ⟨.inr ⟨st,hst,hl⟩,fun _ _ _ _ ho => Balanced.opened hb' ho⟩

end Spdylay.Machine

namespace Spdylay
open Machine Session

/-- While the SETTINGS that arrive fit the stream, its window is what the ledger
says after each SETTINGS and WINDOW_UPDATE, and no signed operation overflows. -/
theorem send_window_keeps_ledger (s : Session) (id sent : Int) (frames : List WindowFrame)
    (hdelta : ∀ g, WindowFrame.windowUpdate g ∈ frames → 0 ≤ g.deltaWindowSize ∧ g.deltaWindowSize ≤ int32Max)
    (hb : s.Balanced id sent) (hfit : s.WindowsFit id frames) (pre post : List WindowFrame) (f : WindowFrame)
    (hp : frames = pre ++ f :: post) (hok : (s.receiveWindowFrames pre).2 = none) :
    (s.receiveWindowFrames pre).1.KeepsLedger id sent f := by
  subst hp
  induction pre generalizing s with
  | nil => exact Balanced.keeps hb hfit.1 (fun g hg => hdelta g (by simp [hg]))
  | cons f0 pre ih =>
    obtain ⟨h0,hrest⟩ := hfit
    unfold receiveWindowFrames at hok ⊢
    cases hr : (s.receiveWindowFrame f0).2 with
    | some e =>
      rw [hr] at hok
      cases hok
    | none =>
      rw [hr] at hok
      have hb' := Balanced.step hb h0 (fun g hg => (hdelta g (by simp [hg])).1) hr
      exact ih _ hb' hok (fun g hg => hdelta g (List.mem_cons_of_mem _ hg)) (hrest hr)

/-- A client whose first request is sent and whose body waits. -/
def openUpload : Session :=
  ((sampleClient .int32 [.accept 1000] []).start samplePlatform).run samplePlatform
    [.submitRequest 0 [] (some 0),.send]

/-- The upload, and its window after a WINDOW_UPDATE and after SETTINGS. -/
theorem openUpload_run :
    (openUpload.flowControl = true ∧ openUpload.windowArith = .int32 ∧ openUpload.initialSendWindow < 2147483648 ∧
      openUpload.getStream 1 = some
        ⟨1,.opening,0,0,false,false,[],some ⟨.data ⟨1,1,false,0⟩,none,0,1⟩,false,1048576,0⟩ ∧
      (1048576 : Int) = openUpload.initialSendWindow+raised 1 openUpload.host.log-0) ∧
    ((openUpload.receiveWindowFrames [.windowUpdate ⟨⟨3,0,8⟩,1,5⟩]).2 = none ∧
      (openUpload.receiveWindowFrame (.windowUpdate ⟨⟨3,0,8⟩,1,5⟩)).1.getStream 1 = some
        ⟨1,.opening,0,0,false,false,[],some ⟨.data ⟨1,1,false,0⟩,none,0,1⟩,false,1048581,0⟩ ∧
      (openUpload.receiveWindowFrame (.windowUpdate ⟨⟨3,0,8⟩,1,5⟩)).1.initialSendWindow = 1048576) ∧
    ((openUpload.receiveWindowFrame (.settings ⟨⟨3,0,12⟩,[⟨7,0,2147483648⟩]⟩)).2 = none ∧
      (∀ e ∈ (openUpload.receiveWindowFrame (.settings ⟨⟨3,0,12⟩,[⟨7,0,2147483648⟩]⟩)).1.host.log,
        resetBy 1 e = false) ∧
      (openUpload.receiveWindowFrame (.settings ⟨⟨3,0,12⟩,[⟨7,0,2147483648⟩]⟩)).1.getStream 1 = some
        ⟨1,.opening,0,0,false,false,[],some ⟨.data ⟨1,1,false,0⟩,none,0,1⟩,false,1048576,0⟩ ∧
      (1048576 : Int) ≠ (openUpload.receiveWindowFrame (.settings ⟨⟨3,0,12⟩,[⟨7,0,2147483648⟩]⟩)).1.initialSendWindow+
        raised 1 (openUpload.receiveWindowFrame (.settings ⟨⟨3,0,12⟩,[⟨7,0,2147483648⟩]⟩)).1.host.log-0) ∧
    (openUpload.receiveWindowFrames [.windowUpdate ⟨⟨3,0,8⟩,1,2146435071⟩]).1.getStream 1 = some
      ⟨1,.opening,0,0,false,false,[],some ⟨.data ⟨1,1,false,0⟩,none,0,1⟩,false,2147483647,0⟩ ∧
    2147483648 ∈ (openUpload.receiveWindowFrames [.windowUpdate ⟨⟨3,0,8⟩,1,2146435071⟩]).1.windowOps
      ⟨1,.opening,0,0,false,false,[],some ⟨.data ⟨1,1,false,0⟩,none,0,1⟩,false,2147483647,0⟩
      (.settings ⟨⟨3,0,12⟩,[⟨7,0,1048577⟩]⟩) := by
  decide +kernel

theorem openUpload_balanced : openUpload.Balanced 1 0 := by
  obtain ⟨⟨hflow,harith,hremote,hstream,hwindow⟩,-⟩ := openUpload_run
  exact ⟨hflow,harith,hremote,_,hstream,⟨by decide,by decide⟩,hwindow⟩

theorem small_settings_keep_ledger :
    (openUpload.receiveWindowFrames [.windowUpdate ⟨⟨3,0,8⟩,1,5⟩]).1.KeepsLedger 1 0
      (.settings ⟨⟨3,0,12⟩,[⟨7,0,100⟩]⟩) := by
  obtain ⟨-,⟨hok,h,hr⟩,-⟩ := openUpload_run
  refine send_window_keeps_ledger openUpload 1 0 [.windowUpdate ⟨⟨3,0,8⟩,1,5⟩,.settings ⟨⟨3,0,12⟩,[⟨7,0,100⟩]⟩] ?_
    openUpload_balanced ?_ [.windowUpdate ⟨⟨3,0,8⟩,1,5⟩] [] _ rfl hok
  · intro g hg
    simp only [List.mem_cons,WindowFrame.windowUpdate.injEq,reduceCtorEq,List.not_mem_nil,or_false] at hg
    subst hg
    exact ⟨by decide,by decide⟩
  · refine ⟨trivial,fun _ => ⟨fun _ v hv => ?_,fun _ => trivial⟩⟩
    cases hv
    refine ⟨by decide,fun st hst => ?_⟩
    rw [h] at hst
    cases hst
    rw [hr]
    decide

/-- An initial window of 2^31 is stored and the open streams keep their windows;
and a window raised to its maximum overflows when the initial window grows. -/
theorem large_settings_leave_ledger :
    openUpload.Balanced 1 0 ∧ ¬openUpload.KeepsLedger 1 0 (.settings ⟨⟨3,0,12⟩,[⟨7,0,2147483648⟩]⟩) ∧
    ¬(openUpload.receiveWindowFrames [.windowUpdate ⟨⟨3,0,8⟩,1,2146435071⟩]).1.KeepsLedger 1 0
      (.settings ⟨⟨3,0,12⟩,[⟨7,0,1048577⟩]⟩) := by
  obtain ⟨-,-,⟨hok,hreset,hstream,hwindow⟩,hraised,hoverflow⟩ := openUpload_run
  refine ⟨openUpload_balanced,?_,?_⟩
  · rintro ⟨-,h⟩
    rcases (h hok).1 with ⟨e,he,hr⟩ | ⟨st,hst,hw⟩
    · rw [hreset e he] at hr
      cases hr
    · rw [hstream] at hst
      cases hst
      exact hwindow hw
  · rintro ⟨h,-⟩
    have h2 := h _ hraised 2147483648 hoverflow
    exact absurd h2.2 (by decide)

end Spdylay
