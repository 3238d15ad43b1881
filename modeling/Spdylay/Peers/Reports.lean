import Spdylay.Peers.Hearing
import Spdylay.Transport.Framing
import Spdylay.Wire.PayloadMemory

/-! What a received frame can tell the application: nothing, or the frame that the parser of
its type has made of it. -/
namespace Spdylay.Peers
open Library Session

/-- The list as the application gets it. -/
def receivedList : Version → Nv → Nv
  | .spdy2, nv => frameNv2to3 nv
  | .spdy3, nv => nv

/-- A client bounds the size of its certificate vector. -/
def reportedEntry (server : Bool) (e : SettingsEntry) : SettingsEntry :=
  if e.settingsId = settingsClientCertificateVectorSize ∧ !server then
    {e with value := min e.value maxClientCertVectorLength}
  else e

/-- The entries of a SETTINGS as they are reported; only the first one of an id counts. -/
def reportedEntries (server : Bool) : List SettingsEntry → List Nat → List SettingsEntry
  | [], _ => []
  | e :: rest, check =>
    if settingsMax < e.settingsId ∨ e.settingsId = 0 ∨ e.settingsId ∈ check then
      e :: reportedEntries server rest check
    else reportedEntry server e :: reportedEntries server rest (e.settingsId :: check)

def headType (head : Bytes) : Option FrameType := FrameType.ofNum (getUint16 (head.drop 2))

/-- What the parser of the type makes of a header, the first `n` bytes of a payload and an inflated
block. -/
inductive Read (P : Platform) (v : Version) (server : Bool) (head payload : Bytes) (n : Nat) (inflated : Option Bytes) :
    Frame → Prop
  | synStream (m m' : Mem) (f : SynStream) (block : Bytes) : headType head = some .synStream → inflated = some block →
      frameUnpackSynStream P.qsort m head payload n block = (m', f, none) →
      Read P v server head payload n inflated (.synStream {f with nv := receivedList v f.nv})
  | synReply (m m' : Mem) (f : StreamHeaders) (block : Bytes) : headType head = some .synReply → inflated = some block →
      frameUnpackSynReply P.qsort m head payload n block = (m', f, none) →
      Read P v server head payload n inflated (.synReply {f with nv := receivedList v f.nv})
  | headers (m m' : Mem) (f : StreamHeaders) (block : Bytes) : headType head = some .headers → inflated = some block →
      frameUnpackHeaders P.qsort m head payload n block = (m', f, none) →
      Read P v server head payload n inflated (.headers {f with nv := receivedList v f.nv})
  | rstStream (f : RstStream) : headType head = some .rstStream → frameUnpackRstStream head payload n = .ok f →
      Read P v server head payload n inflated (.rstStream f)
  | settings (m : Mem) (f : Settings) : headType head = some .settings → (frameUnpackSettings m head payload n).2 = .ok f →
      Read P v server head payload n inflated (.settings {f with iv := reportedEntries server f.iv []})
  | ping (f : Ping) : headType head = some .ping → frameUnpackPing head payload n = .ok f →
      Read P v server head payload n inflated (.ping f)
  | goaway (f : Goaway) : headType head = some .goaway → frameUnpackGoaway head payload n = .ok f →
      Read P v server head payload n inflated (.goaway f)
  | windowUpdate (f : WindowUpdate) : headType head = some .windowUpdate → frameUnpackWindowUpdate head payload n = .ok f →
      Read P v server head payload n inflated (.windowUpdate f)
  | credential (m : Mem) (f : Credential) : headType head = some .credential →
      (frameUnpackCredential m head payload n).2 = .ok f → Read P v server head payload n inflated (.credential f)

/-- The parsers look at the first `n` bytes only. -/
theorem Read.agree {P : Platform} {v : Version} {server : Bool} {head p q : Bytes} {n : Nat} {inflated inflated' : Option Bytes}
    {g : Frame} (h : Read P v server head p n inflated g) (hpq : Agree n p q)
    (hin : ∀ block, inflated = some block → inflated' = some block) : Read P v server head q n inflated' g := by
  cases h with
  | synStream m m' f block ht hb hu =>
    rw [frameUnpackSynStream_agree _ _ _ hpq] at hu
    exact .synStream m m' f block ht (hin block hb) hu
  | synReply m m' f block ht hb hu =>
    rw [frameUnpackSynReply, unpackStreamHeaders_agree _ _ _ _ hpq _ (fun _ => Transport.frameNvOffset_ge)] at hu
    exact .synReply m m' f block ht (hin block hb) hu
  | headers m m' f block ht hb hu =>
    rw [frameUnpackHeaders, unpackStreamHeaders_agree _ _ _ _ hpq _ (fun _ => Transport.frameNvOffset_ge)] at hu
    exact .headers m m' f block ht (hin block hb) hu
  | rstStream f ht hu => exact .rstStream f ht (frameUnpackRstStream_agree head hpq ▸ hu)
  | settings m f ht hu => exact .settings m f ht (frameUnpackSettings_agree m head hpq ▸ hu)
  | ping f ht hu => exact .ping f ht (frameUnpackPing_agree head hpq ▸ hu)
  | goaway f ht hu => exact .goaway f ht (frameUnpackGoaway_agree head hpq ▸ hu)
  | windowUpdate f ht hu => exact .windowUpdate f ht (frameUnpackWindowUpdate_agree head hpq ▸ hu)
  | credential m f ht hu => exact .credential m f ht (frameUnpackCredential_agree m head hpq ▸ hu)

/-- At most `g` is told on the way from `s` to `s'`. -/
def Tells (g : Frame) (s s' : Session) : Prop := s'.heard = s.heard ∨ s'.heard = s.heard ++ [.ctrlRecv g]

section
variable {g : Frame} {s s' s'' : Session}

theorem Tells.none (h : s'.heard = s.heard) : Tells g s s' := .inl h

theorem Tells.tell (h : s'.heard = s.heard) : Tells g s (s'.emit (.ctrlRecv g)) := by
  right
  rw [heard_hear _ rfl, h]

theorem Tells.then (h : Tells g s s') (h' : s''.heard = s'.heard) : Tells g s s'' := by
  rw [Tells, h']
  exact h

theorem Tells.after (h : Tells g s' s'') (h' : s'.heard = s.heard) : Tells g s s'' := by
  rw [Tells, ← h']
  exact h

end

/-! Complete frames. -/

variable (s : Session)

theorem heard_openReceived (f : SynStream) : (s.openReceived f).heard = s.heard := by
  have hopen := s.heard_openStream f.streamId f.hd.flags f.pri .opening
  unfold openReceived
  split
  · rfl
  · dsimp only
    split
    · split <;> split <;> exact hopen
    · exact hopen

theorem acceptSynStream_tells (f : SynStream) : Tells (.synStream f) s (s.acceptSynStream f) := by
  have h : Tells (.synStream f) s ((s.openReceived f).emit (.ctrlRecv (.synStream f))) :=
    .tell (heard_openReceived s f)
  unfold acceptSynStream
  dsimp only
  split
  · split
    · exact (h.then (heard_emit _ rfl)).then (heard_emit _ rfl)
    · exact h.then (heard_emit _ rfl)
  · exact h

theorem onSynStreamReceived_tells (f : SynStream) : Tells (.synStream f) s (s.onSynStreamReceived f).1 := by
  unfold onSynStreamReceived
  split
  · exact .none rfl
  · split
    · exact .none (s.heard_handleInvalidStream _ _ _)
    · split
      · exact .none ((heard_failSession _ _).trans (s.heard_emit rfl))
      · dsimp only
        split
        · exact acceptSynStream_tells {s with lastRecvStreamId := f.streamId} f
        · exact .none (heard_handleInvalidStream {s with lastRecvStreamId := f.streamId} _ _ _)

theorem onSynReplyReceived_tells (f : StreamHeaders) : Tells (.synReply f) s (s.onSynReplyReceived f).1 := by
  have hinvalid : ∀ statusCode, Tells (.synReply f) s (s.handleInvalidStream f.streamId (.synReply f) statusCode).1 :=
    fun statusCode => .none (s.heard_handleInvalidStream _ _ _)
  unfold onSynReplyReceived
  dsimp only
  split
  · exact .none rfl
  · split
    · exact hinvalid _
    · split
      · exact hinvalid _
      · split
        · have h : Tells (.synReply f) s ((s.setState f.streamId .opened).emit (.ctrlRecv (.synReply f))) := .tell rfl
          dsimp only
          split
          · exact h.then (heard_finReceived _ _)
          · exact h
        · exact .none rfl
        · exact hinvalid _

theorem onHeadersReceived_tells (f : StreamHeaders) : Tells (.headers f) s (s.onHeadersReceived f).1 := by
  have hinvalid : Tells (.headers f) s (s.handleInvalidStream f.streamId (.headers f) protocolError).1 :=
    .none (s.heard_handleInvalidStream _ _ _)
  have h : Tells (.headers f) s (s.emit (.ctrlRecv (.headers f))) := .tell rfl
  unfold onHeadersReceived
  dsimp only
  split
  · exact .none rfl
  · split
    · exact hinvalid
    · split
      · exact hinvalid
      · split
        · split
          · dsimp only
            split
            · exact h.then (heard_finReceived _ _)
            · exact h
          · exact .none rfl
          · exact hinvalid
        · split
          · exact .none rfl
          · dsimp only
            split
            · exact (h.then (heard_emit _ rfl)).then (heard_finReceived _ _)
            · exact h

theorem onRstStreamReceived_tells (f : RstStream) : Tells (.rstStream f) s (s.onRstStreamReceived f).1 := by
  unfold onRstStreamReceived
  split
  · exact .none rfl
  · have h : Tells (.rstStream f) s (s.emit (.ctrlRecv (.rstStream f))) := .tell rfl
    dsimp only
    split
    · exact (h.then (heard_closePushedStreams _ _ _)).then (heard_closeStream _ _ _)
    · exact h.then (heard_closeStream _ _ _)

theorem applySettingsEntry_reported (e : SettingsEntry) : (s.applySettingsEntry e).2.1 = reportedEntry s.server e := by
  unfold applySettingsEntry reportedEntry
  by_cases hinit : e.settingsId = settingsInitialWindowSize ∧ s.flowControl
  · have hother : ¬(e.settingsId = settingsClientCertificateVectorSize ∧ !s.server) := by
      rw [hinit.1]
      exact fun h => absurd h.1 (by decide)
    rw [if_neg hother]
    dsimp only
    rw [if_pos hinit]
    split
    · split <;> rfl
    · rfl
  · dsimp only
    rw [if_neg hinit]
    split
    · split <;> rfl
    · rfl

theorem server_applySettingsEntry (e : SettingsEntry) : (s.applySettingsEntry e).1.server = s.server := by
  have hrelease : ∀ (s : Session) id, (s.releaseDeferred id).1.server = s.server := by
    intro s id
    unfold releaseDeferred pushOb
    split
    · rfl
    · split
      · rfl
      · split
        · dsimp only
          split <;> split <;> rfl
        · rfl
  have hloop : ∀ (new old : Int) (ids : List Int) (s : Session),
      (updateInitialWindowSizeLoop new old ids s).1.server = s.server := by
    intro new old ids
    induction ids with
    | nil => exact fun _ => rfl
    | cons id ids ih =>
      intro s
      have hone := hrelease (s.modifyStream id (streamUpdateInitialWindowSize s.windowArith new old)) id
      unfold updateInitialWindowSizeLoop
      dsimp only
      split
      · exact (ih _).trans hone
      · exact hone
  unfold applySettingsEntry
  dsimp only
  split
  · split
    · split <;> exact hloop _ _ _ s
    · rfl
  · split
    · split <;> rfl
    · rfl

theorem settingsLoop_reported (iv : List SettingsEntry) (check : List Nat) (done : List SettingsEntry)
    (h : (settingsLoop iv check done s).2.2 = none) :
    (settingsLoop iv check done s).2.1 = done ++ reportedEntries s.server iv check := by
  induction iv generalizing s check done with
  | nil => exact (List.append_nil _).symm
  | cons e rest ih =>
    unfold settingsLoop at h ⊢
    unfold reportedEntries
    split
    · rename_i hskip
      rw [if_pos hskip] at h
      rw [ih s _ _ h, List.append_assoc]
      rfl
    · rename_i hskip
      rw [if_neg hskip] at h
      dsimp only at h ⊢
      cases he : (s.applySettingsEntry e).2.2 with
      | some err =>
        rw [he] at h
        cases h
      | none =>
        rw [he] at h
        dsimp only at h ⊢
        rw [ih _ _ _ h, server_applySettingsEntry, applySettingsEntry_reported s e, List.append_assoc]
        rfl

theorem onSettingsReceived_tells (f : Settings) :
    Tells (.settings {f with iv := reportedEntries s.server f.iv []}) s (s.onSettingsReceived f).1 := by
  have hloop := s.heard_settingsLoop f.iv [] []
  unfold onSettingsReceived
  split
  · exact .none rfl
  · dsimp only
    cases he : (settingsLoop f.iv [] [] s).2.2 with
    | some e => exact .none hloop
    | none =>
      dsimp only
      rw [settingsLoop_reported s _ _ _ he, List.nil_append]
      exact .tell hloop

theorem onPingReceived_tells (f : Ping) : Tells (.ping f) s (s.onPingReceived f).1 := by
  unfold onPingReceived
  split
  · exact .none rfl
  · split
    · exact .tell rfl
    · split
      · exact .tell (s.heard_addCtrl _)
      · exact .none rfl

theorem onGoawayReceived_tells (f : Goaway) : Tells (.goaway f) s (s.onGoawayReceived f).1 := by
  unfold onGoawayReceived
  split
  · exact .none rfl
  · exact .tell rfl

theorem onWindowUpdateReceived_tells (f : WindowUpdate) :
    Tells (.windowUpdate f) s (s.onWindowUpdateReceived f).1 := by
  unfold onWindowUpdateReceived
  split
  · exact .none rfl
  · split
    · exact .none rfl
    · split
      · exact .none (s.heard_handleInvalidStream _ _ _)
      · have hrelease : ((s.raiseWindow f.streamId f.deltaWindowSize).releaseDeferred f.streamId).1.heard = s.heard := by
          rw [heard_releaseDeferred, raiseWindow, heard_emit _ rfl]
          rfl
        dsimp only
        split
        · exact .none hrelease
        · exact .tell hrelease

theorem onCredentialReceived_tells (f : Credential) : Tells (.credential f) s (s.onCredentialReceived f).1 := by
  unfold onCredentialReceived
  split
  · exact .none rfl
  · exact .tell rfl

/-! The dispatch on the type. -/

/-- The output of the inflater, for a frame without an error. -/
def readBlock (f : InboundFrame) : Option Bytes := if f.errorCode = none then some f.inflatebuf.bytes else none

theorem receivedNv_eq (s : Session) (nv : Nv) : s.receivedNv nv = receivedList s.version nv := by
  unfold receivedNv receivedList
  cases s.version <;> rfl

/-- Nothing is told, or a frame that has been read. -/
def TellsRead (P : Platform) (s s' : Session) : Prop := s'.heard = s.heard ∨
  ∃ g, Read P s.version s.server s.iframe.headbuf s.iframe.buf s.iframe.buflen (readBlock s.iframe) g ∧
    s'.heard = s.heard ++ [.ctrlRecv g]

variable {P : Platform} {s}

theorem Tells.read {g : Frame} {s' : Session} (h : Tells g s s')
    (hread : Read P s.version s.server s.iframe.headbuf s.iframe.buf s.iframe.buflen (readBlock s.iframe) g) :
    TellsRead P s s' := h.imp_right (fun hg => ⟨g, hread, hg⟩)

theorem TellsRead.of_mem {m : Mem} {s' : Session} (h : TellsRead P (s.setMem m) s') : TellsRead P s s' := h

theorem processPlain_tells {α : Type} {type : FrameType} {onReceived : Session → α → Session × Option Err}
    {wrap : α → Frame} (hon : ∀ f, Tells (wrap f) s (onReceived s f).1) (r : Except Err α)
    (hread : ∀ f, r = .ok f →
      Read P s.version s.server s.iframe.headbuf s.iframe.buf s.iframe.buflen (readBlock s.iframe) (wrap f)) :
    TellsRead P s (s.processPlain type onReceived r).1 := by
  cases r with
  | ok f => exact (hon f).read (hread f rfl)
  | error e => exact .inl (s.heard_handleUnparsed _ _)

theorem processSynStream_tells (htype : headType s.iframe.headbuf = some .synStream) :
    TellsRead P s (s.processSynStream P).1 := by
  have herror : ∀ (u : Session) id f e, u.heard = s.heard →
      TellsRead P s (u.handleHeadersError FrameType.synStream.num id f e).1 :=
    fun u id f e h => .inl ((u.heard_handleHeadersError _ _ _ _).trans h)
  rw [processSynStream, parseSynStream]
  dsimp only
  cases herr : s.iframe.errorCode with
  | some e =>
    cases e with
    | frameTooLarge => exact herror s _ _ _ rfl
    | _ => exact herror s _ _ _ rfl
  | none =>
    dsimp only
    cases hu : frameUnpackSynStream P.qsort s.host.mem s.iframe.headbuf s.iframe.buf s.iframe.buflen
        s.iframe.inflatebuf.bytes with
    | mk m r =>
      obtain ⟨f, e⟩ := r
      cases e with
      | some e => exact herror (s.setMem m) _ _ _ rfl
      | none =>
        dsimp only
        rw [receivedNv_eq]
        have htells := onSynStreamReceived_tells (s.setMem m) {f with nv := receivedList s.version f.nv}
        exact Tells.read (s := s) (htells.after rfl) (.synStream _ _ f _ htype (if_pos herr) hu)

/-- SYN_REPLY and HEADERS. -/
theorem parseStreamHeaders_tells {type : FrameType} {wrap : StreamHeaders → Frame}
    {onReceived : Session → StreamHeaders → Session × Option Err}
    (hon : ∀ s f, Tells (wrap f) s (onReceived s f).1)
    (hread : ∀ m m' f block, readBlock s.iframe = some block →
      unpackStreamHeaders type P.qsort m s.iframe.headbuf s.iframe.buf s.iframe.buflen block = (m', f, none) →
      Read P s.version s.server s.iframe.headbuf s.iframe.buf s.iframe.buflen (readBlock s.iframe)
        (wrap {f with nv := receivedList s.version f.nv}))
    (n : Nat) :
    let u := s.parseStreamHeaders P type
    let r := match u.2.2 with
      | none => onReceived u.1 {u.2.1 with nv := s.receivedNv u.2.1.nv}
      | some e => u.1.handleHeadersError n u.2.1.streamId (wrap u.2.1) e
    TellsRead P s r.1 := by
  have herror : ∀ (u : Session) id f e, u.heard = s.heard → TellsRead P s (u.handleHeadersError n id f e).1 :=
    fun u id f e h => .inl ((u.heard_handleHeadersError _ _ _ _).trans h)
  dsimp only
  rw [parseStreamHeaders]
  cases herr : s.iframe.errorCode with
  | some e =>
    cases e with
    | frameTooLarge => exact herror s _ _ _ rfl
    | _ => exact herror s _ _ _ rfl
  | none =>
    dsimp only
    cases hu : unpackStreamHeaders type P.qsort s.host.mem s.iframe.headbuf s.iframe.buf s.iframe.buflen
        s.iframe.inflatebuf.bytes with
    | mk m r =>
      obtain ⟨f, e⟩ := r
      cases e with
      | some e => exact herror (s.setMem m) _ _ _ rfl
      | none =>
        dsimp only
        rw [receivedNv_eq]
        have htells := hon (s.setMem m) {f with nv := receivedList s.version f.nv}
        exact Tells.read (s := s) (htells.after rfl) (hread _ _ f _ (if_pos herr) hu)

/-- Processing a control frame tells the application at most the frame that has been read. -/
theorem dispatchCtrlFrame_tells : TellsRead P s (s.dispatchCtrlFrame P).1 := by
  cases htype : headType s.iframe.headbuf with
  | none =>
    rw [headType] at htype
    rw [dispatchCtrlFrame, htype]
    exact .inl (s.heard_emit rfl)
  | some type =>
    have hdispatch := htype
    rw [headType] at hdispatch
    rw [dispatchCtrlFrame, hdispatch]
    cases type with
    | synStream => exact processSynStream_tells htype
    | synReply => exact parseStreamHeaders_tells onSynReplyReceived_tells (fun _ _ f _ => .synReply _ _ f _ htype) _
    | headers => exact parseStreamHeaders_tells onHeadersReceived_tells (fun _ _ f _ => .headers _ _ f _ htype) _
    | rstStream => exact processPlain_tells (onRstStreamReceived_tells s) _ (fun f => .rstStream f htype)
    | settings =>
      refine TellsRead.of_mem (processPlain_tells (onSettingsReceived_tells (s.setMem _)) _ ?_)
      exact fun f => .settings s.host.mem f htype
    | noop => exact .inl rfl
    | ping => exact processPlain_tells (onPingReceived_tells s) _ (fun f => .ping f htype)
    | goaway => exact processPlain_tells (onGoawayReceived_tells s) _ (fun f => .goaway f htype)
    | windowUpdate => exact processPlain_tells (onWindowUpdateReceived_tells s) _ (fun f => .windowUpdate f htype)
    | credential =>
      refine TellsRead.of_mem (processPlain_tells (onCredentialReceived_tells (s.setMem _)) _ ?_)
      exact fun f => .credential s.host.mem f htype

/-- What comes of a DATA frame was told with its chunks. -/
theorem heard_processDataFrame (s : Session) : s.processDataFrame.1.heard = s.heard := by
  have hrst : ∀ id statusCode, (s.addRstStream id statusCode).1.heard = s.heard := fun _ _ => s.heard_addCtrl _
  rw [processDataFrame, onlyFatal_fst, onDataReceived]
  dsimp only
  split
  · exact hrst _ _
  · split
    · exact hrst _ _
    · split
      · split
        · dsimp only
          split
          · exact (heard_finReceived _ _).trans (s.heard_emit rfl)
          · exact s.heard_emit rfl
        · rfl
        · exact hrst _ _
      · split
        · rfl
        · dsimp only
          split
          · exact ((heard_finReceived _ _).trans (heard_emit _ rfl)).trans (s.heard_emit rfl)
          · exact s.heard_emit rfl

end Spdylay.Peers
