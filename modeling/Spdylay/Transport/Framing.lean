import Spdylay.Library.StableSort
import Spdylay.Protocol.CredentialOrder
import Spdylay.Transport.Sending

/-! The length field. Each frame that is prepared says where it ends, but for a
CREDENTIAL of 2^24 bytes or more: its length is written without the check that the
frames with a name/value block have. -/
namespace Spdylay.Transport
open Library Session

/-- The 24 bits after the flags are the number of the bytes after the header. -/
def SelfDelimiting (bytes : Bytes) : Prop :=
  headLen ≤ bytes.length ∧ getUint32 (bytes.drop 4) % (lengthMask+1) = bytes.length-headLen

/-- A prepared frame: the item it belongs to, its bytes and, unless it is DATA, what it is. -/
structure WireFrame where
  seq : Nat
  bytes : Bytes
  ctrl : Option Frame

/-- The frames that have been prepared, in order. A control frame is announced to the
application right after its preparation. -/
def preparedFrames : List Event → List WireFrame
  | .prepared seq bytes :: .beforeCtrlSend f :: log => ⟨seq,bytes,some f⟩ :: preparedFrames log
  | .prepared seq bytes :: log => ⟨seq,bytes,none⟩ :: preparedFrames log
  | _ :: log => preparedFrames log
  | [] => []

/-- A CREDENTIAL that the length field has room for. -/
def lengthFits : Option Frame → Prop
  | some (.credential f) => 6+f.proof.length+(f.certs.map (fun c => 4+c.length)).sum ≤ lengthMask
  | _ => True

theorem preparedFrames_append {log log' : List Event} (h : ∀ f, log'.head? ≠ some (.beforeCtrlSend f)) :
    preparedFrames (log ++ log') = preparedFrames log ++ preparedFrames log' := by
  induction log using preparedFrames.induct with
  | case1 seq bytes f log ih =>
    change _ :: preparedFrames (log ++ log') = _
    rw [ih]
    rfl
  | case2 seq bytes log hn ih =>
    cases log with
    | nil =>
      cases log' with
      | nil => rfl
      | cons e log' =>
        cases e with
        | beforeCtrlSend f => exact absurd rfl (h f)
        | _ => rfl
    | cons e log =>
      cases e with
      | beforeCtrlSend f => exact absurd rfl (hn f log)
      | _ => exact congrArg (_ :: ·) ih
  | case3 e log hn hn' ih =>
    cases e with
    | prepared seq bytes => exact absurd rfl (hn' seq bytes)
    | _ => exact ih
  | case4 => rfl

/-! Lengths. -/

theorem getUint32_flags (flags : UInt8) (n : Nat) (rest : Bytes) :
    getUint32 (flags :: (putUint32be n).tail ++ rest) % (lengthMask+1) = n % (lengthMask+1) := by
  simp only [getUint32,putUint32be,lengthMask,List.tail_cons,List.cons_append,List.nil_append,List.getD_cons_zero,
    List.getD_cons_succ,UInt8.toNat_ofNat']
  omega

theorem selfDelimiting_ctrl (type : FrameType) (hd : CtrlHd) (rest : Bytes) :
    SelfDelimiting (framePackCtrlHd type hd ++ rest) ↔ hd.length % (lengthMask+1) = rest.length := by
  have hdrop : (framePackCtrlHd type hd ++ rest).drop 4 =
      UInt8.ofNat hd.flags :: (putUint32be hd.length).tail ++ rest := rfl
  have hlen : (framePackCtrlHd type hd ++ rest).length = headLen+rest.length := by
    rw [List.length_append]
    rfl
  unfold SelfDelimiting
  rw [hdrop,getUint32_flags,hlen,Nat.add_sub_cancel_left]
  exact and_iff_right (Nat.le_add_right _ _)

theorem selfDelimiting_ctrl_of {type : FrameType} {hd : CtrlHd} {rest : Bytes} (n : Nat) (hn : hd.length = n)
    (h : rest.length = n) (hm : n ≤ lengthMask) : SelfDelimiting (framePackCtrlHd type hd ++ rest) := by
  rw [selfDelimiting_ctrl,hn,h]
  exact Nat.mod_eq_of_lt (Nat.lt_succ_of_le hm)

theorem selfDelimiting_data (id : Int) (data : Bytes) (fin : Bool) (h : data.length ≤ dataPayloadLength) :
    SelfDelimiting (dataHead id data.length fin ++ data) := by
  have hdrop : (dataHead id data.length fin ++ data).drop 4 =
      (if fin then 1 else 0) :: (putUint32be data.length).tail ++ data := rfl
  have hlen : (dataHead id data.length fin ++ data).length = headLen+data.length := by
    rw [List.length_append]
    rfl
  have hmask : data.length < lengthMask+1 := Nat.lt_of_le_of_lt h (by decide)
  refine ⟨by omega,?_⟩
  rw [hdrop,getUint32_flags,hlen,Nat.add_sub_cancel_left]
  exact Nat.mod_eq_of_lt hmask

/-! The frames of fixed layout, and SETTINGS and CREDENTIAL. -/

/-- Distinct ids between 1 and 8. -/
theorem settingsUnique_length {iv : List SettingsEntry} (h : settingsUnique iv = true) : iv.length ≤ settingsMax := by
  have hids : (iv.map SettingsEntry.settingsId).Nodup ∧
      ∀ k ∈ iv.map SettingsEntry.settingsId, k ∈ Finset.Icc 1 settingsMax := by
    induction iv with
    | nil => exact ⟨List.nodup_nil,nofun⟩
    | cons e iv ih =>
      unfold settingsUnique at h
      rw [Bool.and_eq_true,Bool.and_eq_true,Bool.and_eq_true,decide_eq_true_iff,decide_eq_true_iff,
        List.all_eq_true] at h
      obtain ⟨⟨⟨hpos,hle⟩,hne⟩,hrest⟩ := h
      obtain ⟨hnodup,hmem⟩ := ih hrest
      refine ⟨List.nodup_cons.mpr ⟨?_,hnodup⟩,List.forall_mem_cons.mpr ⟨Finset.mem_Icc.mpr ⟨hpos,hle⟩,hmem⟩⟩
      intro hin
      obtain ⟨e',he',heq⟩ := List.mem_map.mp hin
      exact of_decide_eq_true (hne e' he') heq
  have hcard := Finset.card_le_card (s := (iv.map SettingsEntry.settingsId).toFinset) (t := Finset.Icc 1 settingsMax)
    (fun k hk => hids.2 k (List.mem_toFinset.mp hk))
  rw [List.toFinset_card_of_nodup hids.1,List.length_map,Nat.card_Icc] at hcard
  exact hcard

theorem frameIvSort_length {P : Platform} (hq : StableSort.Sorts P.qsort) (iv : List SettingsEntry) :
    (frameIvSort P iv).length = iv.length := (frameIvSort_perm hq iv).length_eq

theorem packSettingsEntry_length (version : Nat) (e : SettingsEntry) : (packSettingsEntry version e).length = 8 := by
  unfold packSettingsEntry
  split <;> rfl

theorem flatMap_packSettingsEntry_length (version : Nat) (iv : List SettingsEntry) :
    (iv.flatMap (packSettingsEntry version)).length = iv.length*8 := by
  induction iv with
  | nil => rfl
  | cons e iv ih =>
    rw [List.flatMap_cons,List.length_append,packSettingsEntry_length,ih,List.length_cons]
    omega

theorem flatMap_cert_length (certs : List Bytes) :
    (certs.flatMap (fun c => putUint32be c.length ++ c)).length = (certs.map (fun c => 4+c.length)).sum := by
  rw [List.length_flatMap]
  refine congrArg List.sum (List.map_congr_left ?_)
  intro c _
  rw [List.length_append]
  rfl

theorem selfDelimiting_credential (version slot : Nat) (proof : Bytes) (certs : List Bytes) :
    SelfDelimiting (framePackCredential (frameCredentialInit version slot proof certs)) ↔
      lengthFits (some (.credential (frameCredentialInit version slot proof certs))) := by
  have hrest : (putUint16be slot ++ putUint32be proof.length ++ proof ++
      certs.flatMap (fun c => putUint32be c.length ++ c)).length =
        6+proof.length+(certs.map (fun c => 4+c.length)).sum := by
    rw [List.length_append,flatMap_cert_length,List.length_append,List.length_append]
    rfl
  have hpack : framePackCredential (frameCredentialInit version slot proof certs) =
      framePackCtrlHd .credential (frameCredentialInit version slot proof certs).hd ++
        (putUint16be slot ++ putUint32be proof.length ++ proof ++
          certs.flatMap (fun c => putUint32be c.length ++ c)) := by
    unfold framePackCredential
    simp only [List.append_assoc]
    rfl
  have hlen : (frameCredentialInit version slot proof certs).hd.length =
      6+proof.length+(certs.map (fun c => 4+c.length)).sum := rfl
  rw [hpack,selfDelimiting_ctrl,hrest,hlen]
  unfold lengthFits
  change _ ↔ 6+proof.length+(certs.map (fun c => 4+c.length)).sum ≤ lengthMask
  constructor
  · intro h
    rw [← h]
    exact Nat.le_of_lt_succ (Nat.mod_lt _ (Nat.succ_pos _))
  · exact fun h => Nat.mod_eq_of_lt (Nat.lt_succ_of_le h)

/-- The frames without a name/value block. -/
theorem selfDelimiting_plain {P : Platform} (hq : StableSort.Sorts P.qsort) {v : Version} {f : Frame} {bytes : Bytes}
    (hf : Formed P v (.ctrl f)) (hb : packedPlain f = some bytes) : SelfDelimiting bytes ↔ lengthFits (some f) := by
  cases f with
  | synStream f => cases hb
  | synReply f => cases hb
  | headers f => cases hb
  | rstStream f =>
    obtain ⟨id,statusCode,rfl⟩ := hf
    cases hb
    refine iff_of_true ?_ trivial
    unfold framePackRstStream
    rw [List.append_assoc]
    exact selfDelimiting_ctrl_of 8 rfl rfl (by decide)
  | ping f =>
    obtain ⟨uniqueId,rfl⟩ := hf
    cases hb
    exact iff_of_true (selfDelimiting_ctrl_of 4 rfl rfl (by decide)) trivial
  | windowUpdate f =>
    obtain ⟨id,delta,rfl⟩ := hf
    cases hb
    refine iff_of_true ?_ trivial
    unfold framePackWindowUpdate
    rw [List.append_assoc]
    exact selfDelimiting_ctrl_of 8 rfl rfl (by decide)
  | goaway f =>
    obtain ⟨id,statusCode,rfl⟩ := hf
    refine iff_of_true ?_ trivial
    cases v with
    | spdy2 =>
      cases hb
      exact selfDelimiting_ctrl_of 4 rfl rfl (by decide)
    | spdy3 =>
      cases hb
      rw [List.append_assoc]
      exact selfDelimiting_ctrl_of 8 rfl rfl (by decide)
  | settings f =>
    obtain ⟨flags,iv,hiv,rfl⟩ := hf
    refine iff_of_true ?_ trivial
    have hpacked : framePackSettings (frameSettingsInit v.num flags (frameIvSort P iv)) =
        .ok (framePackCtrlHd .settings (frameSettingsInit v.num flags (frameIvSort P iv)).hd ++
          putUint32be (frameIvSort P iv).length ++ (frameIvSort P iv).flatMap (packSettingsEntry v.num)) := by
      cases v <;> rfl
    change (framePackSettings _).toOption = some bytes at hb
    rw [hpacked] at hb
    cases hb
    rw [List.append_assoc]
    have hle := settingsUnique_length hiv
    rw [← frameIvSort_length hq] at hle
    refine selfDelimiting_ctrl_of (4+(frameIvSort P iv).length*8) rfl ?_ ?_
    · rw [List.length_append,flatMap_packSettingsEntry_length]
      rfl
    · have h8 : settingsMax = 8 := rfl
      have hm : lengthMask = 16777215 := rfl
      omega
  | credential f =>
    obtain ⟨slot,proof,certs,rfl⟩ := hf
    cases hb
    exact selfDelimiting_credential _ _ _ _

/-! The frames with a name/value block. -/

theorem frameNvOffset_ge {type : FrameType} {version nvOffset : Nat} (h : frameNvOffset type version = some nvOffset) :
    12 ≤ nvOffset := by
  cases type with
  | synStream =>
    cases h
    decide
  | synReply =>
    unfold frameNvOffset at h
    dsimp only at h
    split_ifs at h <;> cases h <;> decide
  | headers =>
    unfold frameNvOffset at h
    dsimp only at h
    split_ifs at h <;> cases h <;> decide
  | _ => cases h

theorem selfDelimiting_streamHeaders {type : FrameType} {nvOffset : Nat} {f : StreamHeaders} {out : Bytes}
    (ho : 12 ≤ nvOffset) (hf : Fits nvOffset out) : SelfDelimiting (framePackStreamHeaders type nvOffset f out) := by
  unfold framePackStreamHeaders
  rw [List.append_assoc,List.append_assoc]
  have hh : headLen = 8 := rfl
  refine selfDelimiting_ctrl_of (nvOffset-headLen+out.length) rfl ?_ ?_
  · rw [List.length_append,List.length_append,List.length_replicate]
    change 4+(nvOffset-12+out.length) = _
    omega
  · unfold Fits at hf
    omega

theorem selfDelimiting_compressed {P : Platform} {blocks : List Bytes} {f : Frame} {block bytes : Bytes}
    (h : Compressed P blocks f block bytes) : SelfDelimiting bytes ∧ lengthFits (some f) := by
  obtain ⟨nvOffset,out,ho,-,hf,hb⟩ := h
  cases f with
  | synStream f =>
    cases ho
    cases hb
    refine ⟨?_,trivial⟩
    unfold framePackSynStream
    rw [List.append_assoc,List.append_assoc,List.append_assoc]
    refine selfDelimiting_ctrl_of (10+out.length) rfl ?_ ?_
    · rw [List.length_append,List.length_append,List.length_append]
      change 4+(4+(2+out.length)) = _
      omega
    · change 18+out.length-8 ≤ lengthMask at hf
      omega
  | synReply f =>
    cases hb
    exact ⟨selfDelimiting_streamHeaders (@frameNvOffset_ge .synReply _ _ ho) hf,trivial⟩
  | headers f =>
    cases hb
    exact ⟨selfDelimiting_streamHeaders (@frameNvOffset_ge .headers _ _ ho) hf,trivial⟩
  | _ => cases hb

/-! Runs. -/

/-- The frames prepared so far end where they say, the too large CREDENTIALs apart. -/
def Delimited (w : SendSide) : Prop := ∀ x ∈ preparedFrames w.writes, SelfDelimiting x.bytes ↔ lengthFits x.ctrl

theorem Delimited.notes {w w' : SendSide} {es : List Event} (h : Delimited w) (hw : w'.writes = w.writes ++ es)
    (hes : ∀ f, es.head? ≠ some (.beforeCtrlSend f))
    (hnew : ∀ x ∈ preparedFrames es, SelfDelimiting x.bytes ↔ lengthFits x.ctrl) : Delimited w' := by
  unfold Delimited
  rw [hw,preparedFrames_append hes]
  exact List.forall_mem_append.mpr ⟨h,hnew⟩

theorem SendStep.delimited {P : Platform} {L : Prop} (hq : StableSort.Sorts P.qsort) {w w' : SendSide}
    (h : SendStep P L w w')
    (hw : Delimited w) : Delimited w' := by
  cases h with
  | reserve n hn => exact hw
  | lose f block e hL hl => exact hw
  | leave item hi hend => exact hw
  | begin item f bytes hn hi hf hb =>
    refine hw.notes rfl nofun ?_
    exact List.forall_mem_singleton.mpr (selfDelimiting_plain hq hf hb)
  | beginHeaders item f block bytes hn hi hc =>
    obtain ⟨hd,hf⟩ := selfDelimiting_compressed hc
    refine hw.notes rfl nofun ?_
    exact List.forall_mem_singleton.mpr (iff_of_true hd hf)
  | beginData item d data bytes fin hn hi hlen hb =>
    subst hb
    refine hw.notes rfl nofun ?_
    exact List.forall_mem_singleton.mpr (iff_of_true (selfDelimiting_data _ _ _ hlen) trivial)
  | «continue» item item' d data bytes fin hi hend hi' hseq hlen hb =>
    subst hb
    refine hw.notes rfl nofun ?_
    exact List.forall_mem_singleton.mpr (iff_of_true (selfDelimiting_data _ _ _ hlen) trivial)
  | write item n hi hn => exact hw.notes rfl nofun nofun
  | complete item f hi hf hend => exact hw.notes rfl nofun nofun
  | completeData item d hi hf hend => exact hw.notes rfl nofun nofun

theorem SendSteps.delimited {P : Platform} {L : Prop} (hq : StableSort.Sorts P.qsort) {w w' : SendSide}
    (h : SendSteps P L w w')
    (hw : Delimited w) : Delimited w' := by
  induction h with
  | refl => exact hw
  | tail _ hstep ih => exact hstep.delimited hq ih

theorem writes_start (P : Platform) (u : Setup) : (u.start P).sendSide.writes = [] := by
  change (u.start P).host.log.filter ofSending = []
  rw [Machine.log_start P u]
  rfl

theorem reachable_delimited {P : Platform} (hq : StableSort.Sorts P.qsort) {u : Setup} {s : Session}
    (h : Reachable P u s) : Delimited s.sendSide := by
  refine (reachable_sends h).1.delimited hq ?_
  unfold Delimited
  rw [writes_start]
  nofun

/-- In every reachable state each frame that was prepared has its length in the length
field exactly if it is no CREDENTIAL of 2^24 bytes or more. -/
theorem frames_delimit_iff {P : Platform} (hq : StableSort.Sorts P.qsort) {u : Setup} {s : Session}
    (h : Reachable P u s) (x : WireFrame) (hx : x ∈ preparedFrames s.sendSide.writes) :
    SelfDelimiting x.bytes ↔ lengthFits x.ctrl :=
  reachable_delimited hq h x hx

/-- A PING of a client. -/
theorem ping_delimits :
    SelfDelimiting [128,3,0,6,0,0,0,4,0,0,0,1] ∧ lengthFits (some (.ping ⟨⟨3,0,4⟩,1⟩)) := by
  have hlog : preparedFrames ((((sampleClient .int32 [] []).start samplePlatform).run samplePlatform
      [.submitPing,.send]).sendSide.writes) = [⟨0,[128,3,0,6,0,0,0,4,0,0,0,1],some (.ping ⟨⟨3,0,4⟩,1⟩)⟩] := by
    rfl
  have hiff := frames_delimit_iff StableSort.insertionSort_stably.toSorts
    (run_reachable samplePlatform (sampleClient .int32 [] []) [.submitPing,.send])
    ⟨0,[128,3,0,6,0,0,0,4,0,0,0,1],some (.ping ⟨⟨3,0,4⟩,1⟩)⟩ (by rw [hlog]; exact List.mem_singleton_self _)
  exact ⟨hiff.mpr trivial,trivial⟩

/-! A proof of 2^24 bytes. -/

theorem prepareNext_keeps (P : Platform) {s s1 : Session} {item x : OutboundItem}
    (hpop : s.popNextObItem = some (item,s1)) (hx : x ∈ s.obPq.q) (hne : x ≠ item) : x ∈ (s.prepareNext P).obPq.q := by
  have hx1 := ((Protocol.popNextObItem_same hpop).1 x hx).resolve_left hne
  exact (Protocol.prepareNext_same P hpop).1.subset ((Protocol.prepFrame_grows P s1 item).subset hx1)

/-- With memory left, the CREDENTIAL that waits alone is prepared whatever its size. -/
theorem prepareNext_credential_begins (P : Platform) {s : Session} {x : OutboundItem} {g : Credential}
    (hq : s.obPq.q = [x]) (hs : s.obSsPq.q = []) (hg : x.frame = .ctrl (.credential g)) (hm : s.host.mem = []) :
    ⟨x.seq,framePackCredential g,some (.credential g)⟩ ∈ preparedFrames (s.prepareNext P).sendSide.writes := by
  have hpop : s.popNextObItem = some (x,{s with obPq := pqPop s.obPq}) := by
    unfold popNextObItem pqTop
    rw [hq,hs]
    rfl
  have hprep : prepFrame P {s with obPq := pqPop s.obPq} x =
      ({s with obPq := pqPop s.obPq} : Session).prepFixed x (framePackCredential g) := by
    unfold prepFrame
    rw [hg]
  obtain ⟨s2,hfix,⟨⟨n,-,hside⟩,-⟩⟩ := prepFixed_ok (P := P) (s := {s with obPq := pqPop s.obPq}) x (framePackCredential g)
    (.inl (congrArg (fun m => m.headD true) hm))
  have hok : (s.prepareNext P).sendSide.writes =
      s.sendSide.writes ++ [.prepared x.seq (framePackCredential g),.beforeCtrlSend (.credential g)] := by
    unfold prepareNext
    rw [hpop]
    dsimp only
    rw [hprep,hfix]
    dsimp only
    rw [activate_ctrl _ hg,hside]
    rfl
  rw [hok,preparedFrames_append (by nofun)]
  exact List.mem_append_right _ (List.mem_singleton_self _)

def largeProof : Bytes := List.replicate 16777216 0

def largeProofClient : Setup := ⟨false,.spdy3,.int32,true,⟨[],[.accept 100],[],[⟨largeProof,[[8]]⟩],[]⟩⟩

def largeRequested : Session := ((largeProofClient.start Protocol.originPlatform).call Protocol.originPlatform Protocol.originRequest).1

/-- The SYN_STREAM is begun before its CREDENTIAL. -/
def largeBegun : Session := (largeRequested.prepareNext Protocol.originPlatform).prepareNext Protocol.originPlatform

def largeRequest : OutboundItem :=
  ⟨.ctrl (.synStream ⟨⟨3,1,47⟩,1,0,0,1,[([58,104,111,115,116],[97]),
    ([58,115,99,104,101,109,101],[104,116,116,112,115])]⟩),none,-1,0⟩

def largeWaits : Session := (largeBegun.sendWrite largeRequest).1

theorem largeRequested_places : Protocol.Places Protocol.originPlatform largeRequested ⟨[104,116,116,112,115],[97],443⟩ 1 :=
  ⟨by decide +kernel,by decide +kernel,by decide +kernel,by decide +kernel⟩

theorem largeWaits_reachable : Reachable Protocol.originPlatform largeProofClient (largeWaits.prepareNext Protocol.originPlatform) := by
  have hsubmit : Reachable Protocol.originPlatform largeProofClient largeRequested :=
    .single (.submit _ Protocol.originRequest nofun nofun)
  have hbegun : Reachable Protocol.originPlatform largeProofClient largeBegun :=
    (hsubmit.tail (.prepare _ (by decide +kernel))).tail (.prepare _ (by decide +kernel))
  exact (hbegun.tail (.write _ largeRequest (by decide +kernel))).tail (.prepare _ (by decide +kernel))

/-- The CREDENTIAL with the proof waits alone when the SYN_STREAM has been written. -/
theorem largeWaits_credential : ∃ x g, largeWaits.obPq.q = [x] ∧ x.frame = .ctrl (.credential g) ∧ g.proof = largeProof := by
  have horder : Protocol.InOrder largeRequested := by
    have hb : (match largeRequested.popNextObItem with
        | some (item, s1) => Protocol.inOrder s1 item
        | none => true) = true := by decide +kernel
    intro item s1 hpop
    rw [hpop] at hb
    exact hb
  obtain ⟨answer,rest,g,x,hcred,-,hproof,hg,hw⟩ := largeRequested_places.waits horder
  have hlarge : largeRequested.host.credentials = [⟨largeProof,[[8]]⟩] := rfl
  rw [hlarge] at hcred
  cases hcred
  -- neither active nor sent yet
  have hx : x ∈ (largeRequested.prepareNext Protocol.originPlatform).obPq.q := by
    rcases hw.place with h | h | h
    · exact h
    · have hidle : (largeRequested.prepareNext Protocol.originPlatform).aob.item = none := by decide +kernel
      rw [hidle] at h
      cases h
    · have hlog : ((largeRequested.prepareNext Protocol.originPlatform).host.log.drop largeRequested.host.log.length).all
          (fun e => !ofSending e) = true := by decide +kernel
      exact absurd (List.all_eq_true.mp hlog _ h) Bool.false_ne_true
  refine ⟨x,g,?_,hg,hproof⟩
  have hone : largeWaits.obPq.q.length = 1 := by decide +kernel
  obtain ⟨y,hy⟩ := List.length_eq_one_iff.mp hone
  have hin : x ∈ largeWaits.obPq.q := by
    refine (Protocol.sendWrite_grows largeBegun largeRequest).subset ?_
    cases hpop : (largeRequested.prepareNext Protocol.originPlatform).popNextObItem with
    | none =>
      have hsome : (largeRequested.prepareNext Protocol.originPlatform).popNextObItem.isSome = true := by decide +kernel
      rw [hpop] at hsome
      cases hsome
    | some r =>
      refine prepareNext_keeps Protocol.originPlatform hpop hx ?_
      rintro rfl
      have hsyn : (match (largeRequested.prepareNext Protocol.originPlatform).popNextObItem with
          | some (item, _) => item.isSynStream
          | none => false) = true := by decide +kernel
      rw [hpop] at hsyn
      unfold OutboundItem.isSynStream at hsyn
      dsimp only at hsyn
      rw [hg] at hsyn
      cases hsyn
  rw [hy] at hin ⊢
  rw [List.mem_singleton.mp hin]

/-- The CREDENTIAL goes out with the length 11 in its header, as its length is taken
modulo 2^24. -/
theorem large_credential_overruns :
    Reachable Protocol.originPlatform largeProofClient (largeWaits.prepareNext Protocol.originPlatform) ∧
      ∃ x ∈ preparedFrames (largeWaits.prepareNext Protocol.originPlatform).sendSide.writes, ¬ SelfDelimiting x.bytes := by
  refine ⟨largeWaits_reachable,?_⟩
  obtain ⟨x,g,hq,hg,hproof⟩ := largeWaits_credential
  have hin := prepareNext_credential_begins Protocol.originPlatform hq (by decide +kernel) hg (by decide +kernel)
  refine ⟨_,hin,?_⟩
  rw [reachable_delimited StableSort.insertionSort_stably.toSorts largeWaits_reachable _ hin]
  unfold lengthFits
  dsimp only
  have hlen : largeProof.length = 16777216 := List.length_replicate
  rw [hproof,hlen]
  unfold lengthMask
  omega

end Spdylay.Transport
