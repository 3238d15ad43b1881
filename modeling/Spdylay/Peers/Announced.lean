import Spdylay.Transport.Compression
import Spdylay.Transport.HeaderNames
import Spdylay.Transport.WireIntegrity

/-! What a session has put into its frames: how each frame that was prepared came by its bytes, and
which list went through the compressor for it. -/
namespace Spdylay.Peers
open Library Session Transport

/-- A list as it goes into a block. -/
def wireList (P : Platform) : Version → Nv → Nv
  | .spdy2, nv => frameNvSort P.qsort (frameNv3to2 nv)
  | .spdy3, nv => nv

/-- A list as it stays in the frame, from what has gone into the block. -/
def keptList (P : Platform) : Version → Nv → Nv
  | .spdy2, nv => frameNvSort P.qsort (frameNv2to3 nv)
  | .spdy3, nv => nv

theorem wireNv_eq (P : Platform) (s : Session) (nv : Nv) : s.wireNv P nv = wireList P s.version nv := by
  unfold wireNv wireList
  cases s.version <;> rfl

theorem appNv_eq (P : Platform) (s : Session) (nv : Nv) : s.appNv P nv = keptList P s.version nv := by
  unfold appNv keptList
  cases s.version <;> rfl

/-- The DATA that has been read for the streams, in order. -/
def readData (log : List Event) : List (Int × Bytes) :=
  log.filterMap (fun | .read _ id data => some (id, data) | _ => none)

theorem readData_append (log log' : List Event) : readData (log ++ log') = readData log ++ readData log' :=
  List.filterMap_append

/-- How a frame comes by its bytes: what is read for it, and the block given to the compressor for it
after `blocks`. -/
inductive Begun (P : Platform) (v : Version) (blocks : List Bytes) (x : Transport.WireFrame) :
    List (Int × Bytes) → List Bytes → Prop
  | plain (f : Frame) : x.ctrl = some f → Formed P v (.ctrl f) → packedPlain f = some x.bytes → Begun P v blocks x [] []
  | headers (f : Frame) (n : Nat) (nv : Nv) : x.ctrl = some f → headerList f = some (n, keptList P v (wireList P v nv)) →
      frameGetLenSize n ≠ 0 → Compressed P blocks f (packedBlock (wireList P v nv) (frameGetLenSize n)) x.bytes →
      Begun P v blocks x [] [packedBlock (wireList P v nv) (frameGetLenSize n)]
  | data (id : Int) (data : Bytes) (fin : Bool) : x.ctrl = none → data.length ≤ dataPayloadLength →
      x.bytes = dataHead id data.length fin ++ data → Begun P v blocks x [(id, data)] []

/-- The DATA that has been read, the blocks given to the compressor and the frames prepared. -/
inductive Prepared (P : Platform) (v : Version) : List (Int × Bytes) → List Bytes → List Transport.WireFrame → Prop
  | nil : Prepared P v [] [] []
  /-- A block whose frame is not sent. -/
  | lost {reads blocks xs} (block : Bytes) : Prepared P v reads blocks xs → Prepared P v reads (blocks ++ [block]) xs
  | snoc {reads reads' blocks blocks' xs} (x : Transport.WireFrame) : Prepared P v reads blocks xs →
      Begun P v blocks x reads' blocks' → Prepared P v (reads ++ reads') (blocks ++ blocks') (xs ++ [x])

section
variable {P : Platform} {v : Version} {reads : List (Int × Bytes)} {blocks : List Bytes} {xs : List Transport.WireFrame}

theorem Prepared.plain (h : Prepared P v reads blocks xs) (seq : Nat) {f : Frame} {bytes : Bytes}
    (hf : Formed P v (.ctrl f)) (hb : packedPlain f = some bytes) : Prepared P v reads blocks (xs ++ [⟨seq, bytes, some f⟩]) := by
  have hnext := h.snoc ⟨seq, bytes, some f⟩ (.plain f rfl hf hb)
  rwa [List.append_nil, List.append_nil] at hnext

theorem Prepared.headers (h : Prepared P v reads blocks xs) (seq : Nat) {f : Frame} {n : Nat} {nv : Nv} {bytes : Bytes}
    (hl : headerList f = some (n, keptList P v (wireList P v nv))) (hn : frameGetLenSize n ≠ 0)
    (hc : Compressed P blocks f (packedBlock (wireList P v nv) (frameGetLenSize n)) bytes) :
    Prepared P v reads (blocks ++ [packedBlock (wireList P v nv) (frameGetLenSize n)]) (xs ++ [⟨seq, bytes, some f⟩]) := by
  have hnext := h.snoc ⟨seq, bytes, some f⟩ (.headers f n nv rfl hl hn hc)
  rwa [List.append_nil] at hnext

theorem Prepared.data (h : Prepared P v reads blocks xs) (seq : Nat) (id : Int) (data : Bytes) (fin : Bool)
    (hlen : data.length ≤ dataPayloadLength) :
    Prepared P v (reads ++ [(id, data)]) blocks (xs ++ [⟨seq, dataHead id data.length fin ++ data, none⟩]) := by
  have hnext := h.snoc ⟨seq, dataHead id data.length fin ++ data, none⟩ (.data id data fin rfl hlen rfl)
  rwa [List.append_nil] at hnext

end

/-- The books of a sending side. -/
def Accounts (P : Platform) (w : SendSide) : Prop :=
  Prepared P w.version (readData w.writes) w.hdDeflater (preparedFrames w.writes)

/-- zlib without an output. Writing does not call it. -/
def mute (P : Platform) : Platform := {P with deflate := fun _ _ => none}

section
variable {P : Platform} {w w' : SendSide}

/-- Nothing is read for a control frame. -/
theorem reads_only (h : Accounts P w) {seq : Nat} {bytes : Bytes} {f : Frame} :
    Prepared P w.version (readData w.writes ++ readData [.prepared seq bytes, .beforeCtrlSend f]) w.hdDeflater
      (preparedFrames w.writes) := by
  have hnone : readData [.prepared seq bytes, .beforeCtrlSend f] = [] := rfl
  rw [hnone, List.append_nil]
  exact h

theorem Accounts.notes (h : Accounts P w) {es : List Event} (hv : w'.version = w.version) (hd : w'.hdDeflater = w.hdDeflater)
    (hw : w'.writes = w.writes ++ es) (hhead : ∀ f, es.head? ≠ some (.beforeCtrlSend f)) (hnone : preparedFrames es = [])
    (hread : readData es = []) : Accounts P w' := by
  rw [Accounts, hv, hd, hw, preparedFrames_append hhead, readData_append, hnone, hread, List.append_nil, List.append_nil]
  exact h

/-- A DATA frame. -/
theorem Accounts.data (h : Accounts P w) (seq : Nat) {id : Int} {data bytes : Bytes} {fin : Bool} (hv : w'.version = w.version)
    (hd : w'.hdDeflater = w.hdDeflater) (hw : w'.writes = w.writes ++ [.read seq id data, .prepared seq bytes])
    (hlen : data.length ≤ dataPayloadLength) (hb : bytes = dataHead id data.length fin ++ data) : Accounts P w' := by
  subst hb
  rw [Accounts, hv, hd, hw, preparedFrames_append (by rintro _ ⟨⟩), readData_append]
  exact Prepared.data h seq id data fin hlen

theorem Accounts.plain (h : Accounts P w) {seq : Nat} {f : Frame} {bytes : Bytes} (hv : w'.version = w.version)
    (hd : w'.hdDeflater = w.hdDeflater) (hw : w'.writes = w.writes ++ [.prepared seq bytes, .beforeCtrlSend f])
    (hf : Formed P w.version (.ctrl f)) (hb : packedPlain f = some bytes) : Accounts P w' := by
  rw [Accounts, hv, hd, hw, preparedFrames_append (by rintro _ ⟨⟩), readData_append]
  exact (reads_only h).plain seq hf hb

/-- No frame with a block is begun without the compressor. -/
theorem Accounts.step (hstep : SendStep (mute P) False w w') (h : Accounts P w) : Accounts P w' := by
  cases hstep with
  | reserve n hn => exact h
  | lose f block e hL hl => cases hL
  | leave item hi hend => exact h
  | begin item f bytes hn hi hf hb => exact h.plain rfl rfl rfl hf hb
  | beginHeaders item f block bytes hn hi hc =>
    obtain ⟨nvOffset, out, -, hd, -⟩ := hc
    cases hd
  | beginData item d data bytes fin hn hi hlen hb => exact h.data _ rfl rfl rfl hlen hb
  | «continue» item item' d data bytes fin hi hend hi' hseq hlen hb => exact h.data _ rfl rfl rfl hlen hb
  | write item n hi hn => exact h.notes rfl rfl rfl (by rintro _ ⟨⟩) rfl rfl
  | complete item f hi hf hend => exact h.notes rfl rfl rfl (by rintro _ ⟨⟩) rfl rfl
  | completeData item d hi hf hend => exact h.notes rfl rfl rfl (by rintro _ ⟨⟩) rfl rfl

theorem Accounts.steps (hsteps : SendSteps (mute P) False w w') (h : Accounts P w) : Accounts P w' := by
  induction hsteps with
  | refl => exact h
  | tail _ hstep ih => exact ih.step hstep

end

/-! Preparing. -/

section
variable {P : Platform} {s : Session} {item : OutboundItem}

theorem prepSynStreamPack_lenSize {f : SynStream} {bytes : Bytes} (h : (prepSynStreamPack P s item f).result = .ok bytes) :
    frameGetLenSize f.hd.version ≠ 0 := by
  rw [prepSynStreamPack] at h
  dsimp only at h
  split at h
  · cases h
  · assumption

theorem prepStreamHeaders_lenSize {type : FrameType} {wrap : StreamHeaders → Frame} {f : StreamHeaders} {bytes : Bytes}
    (h : (prepStreamHeaders P s item type wrap f).result = .ok bytes) : frameGetLenSize f.hd.version ≠ 0 := by
  rw [prepStreamHeaders] at h
  dsimp only at h
  split at h
  · cases h
  · assumption

theorem prepSynStream_kept {f : SynStream} {bytes : Bytes} (h : (prepSynStream P s item f).result = .ok bytes) :
    itemList (prepSynStream P s item f).item = some (f.hd.version, keptList P s.version (wireList P s.version f.nv)) ∧
      frameGetLenSize f.hd.version ≠ 0 := by
  have hpack : ∀ (t : Session) (f' : SynStream), t.version = s.version → f'.hd = f.hd → f'.nv = f.nv →
      (prepSynStreamPack P t item f').result = .ok bytes → itemList (prepSynStreamPack P t item f').item =
        some (f.hd.version, keptList P s.version (wireList P s.version f.nv)) ∧ frameGetLenSize f.hd.version ≠ 0 := by
    intro t f' hv hhd hnv hok
    have hlen := prepSynStreamPack_lenSize hok
    rw [prepSynStreamPack_list hok, wireNv_eq, appNv_eq, hv, hhd, hnv]
    rw [hhd] at hlen
    exact ⟨rfl, hlen⟩
  have hc := (prepCredential_changes P s f).version
  rw [prepSynStream] at h ⊢
  split at h
  · cases h
  split
  · rename_i hcred
    rw [if_pos hcred] at h
    dsimp only at h ⊢
    split at h
    · split at h <;> cases h
    · exact hpack _ _ hc rfl rfl h
    · exact hpack _ _ hc rfl rfl h
  · rename_i hcred
    rw [if_neg hcred] at h
    exact hpack _ _ rfl rfl rfl h

/-- A frame that was prepared keeps the list that its block was made of. -/
theorem prepFrame_kept {n : Nat} {nv : Nv} (hi : itemList item = some (n, nv)) {bytes : Bytes}
    (h : (prepFrame P s item).result = .ok bytes) :
    itemList (prepFrame P s item).item = some (n, keptList P s.version (wireList P s.version nv)) ∧ frameGetLenSize n ≠ 0 := by
  rw [itemList] at hi
  rw [prepFrame] at h ⊢
  split at h
  · rename_i f hf
    rw [hf] at hi
    cases hi
    exact prepSynStream_kept h
  · rename_i f hf
    rw [hf] at hi
    cases hi
    split at h
    · cases h
    · rw [prepStreamHeaders_list (fun _ => rfl) h, wireNv_eq, appNv_eq]
      exact ⟨rfl, prepStreamHeaders_lenSize h⟩
  case h_6 f hf =>
    rw [hf] at hi
    cases hi
    split at h
    · cases h
    · rw [prepStreamHeaders_list (fun _ => rfl) h, wireNv_eq, appNv_eq]
      exact ⟨rfl, prepStreamHeaders_lenSize h⟩
  all_goals
    rename_i hf
    rw [hf] at hi
    cases hi

theorem Accounts.room {s' : Session} (ha : Accounts P s.sendSide) (h : Room P s' s) : Accounts P s'.sendSide := by
  obtain ⟨⟨n, -, hs⟩, -⟩ := h
  rw [hs]
  exact ha

/-- An item that was prepared is begun with the list its block was made of. -/
theorem prepared_accounts (hf : ∀ f, item.frame = .ctrl f → (packedPlain f).isSome → Formed P s.version (.ctrl f))
    (ha : Accounts P s.sendSide) :
    (∀ bytes, (prepFrame P s item).result = .ok bytes →
      Accounts P ((prepFrame P s item).ses.activate (prepFrame P s item).item bytes).sendSide) ∧
      ∀ e, (prepFrame P s item).result = .error e → Accounts P (prepFrame P s item).ses.sendSide := by
  have hkept := @prepFrame_kept P s item
  cases prepFrame_outcome (P := P) s item with
  | refused e he hr =>
    refine ⟨fun bytes hb => ?_, fun _ _ => ha.room hr⟩
    cases he.symm.trans hb
  | lost f block e he hi hp hb hloss hs =>
    refine ⟨fun bytes hok => ?_, fun _ _ => ?_⟩
    · cases he.symm.trans hok
    · obtain ⟨⟨s1, hr, hside⟩, -⟩ := hs
      rw [hside]
      exact .lost block (ha.room hr)
  | plain f bytes hok hitem hi hb hr =>
    refine ⟨fun bytes' hok' => ?_, fun e he => ?_⟩
    · cases hok.symm.trans hok'
      rw [hitem, activate_ctrl _ hi]
      refine (ha.room hr).plain rfl rfl rfl ?_ hb
      have hform := hf f hi (hb ▸ rfl)
      rw [← hr.version] at hform
      exact hform
    · cases hok.symm.trans he
  | headers f f' block bytes hok hi hi' hb hc hs =>
    refine ⟨fun bytes' hok' => ?_, fun e he => ?_⟩
    · cases hok.symm.trans hok'
      obtain ⟨⟨s1, hr, hside⟩, -⟩ := hs
      rw [blockOf] at hb
      obtain ⟨⟨n, nv⟩, hlist, hblock⟩ := Option.map_eq_some_iff.mp hb
      have hitem : itemList item = some (n, nv) := by
        rw [itemList, hi]
        exact hlist
      obtain ⟨hlist', hlen⟩ := hkept hitem hok
      rw [itemList, hi'] at hlist'
      rw [activate_ctrl _ hi', hside]
      rw [wireNv_eq] at hblock
      subst hblock
      obtain ⟨⟨m, -, hroom⟩, -⟩ := hr
      rw [hroom, Accounts]
      change Prepared P s.version (readData (s.sendSide.writes ++ _)) (s.hdDeflater ++ [_])
        (preparedFrames (s.sendSide.writes ++ _))
      rw [preparedFrames_append (by rintro _ ⟨⟩), readData_append]
      exact (reads_only ha).headers _ hlist' hlen hc
    · cases hok.symm.trans he
  | data d data bytes fin s1 hok hi hlen hbytes hr hfeeds hside =>
    refine ⟨fun bytes' hok' => ?_, fun e he => ?_⟩
    · cases hok.symm.trans hok'
      rw [activate_data _ hi, hside]
      exact (ha.room hr).data (prepFrame P s item).item.seq rfl rfl (List.append_assoc _ _ _) hlen hbytes
    · cases hok.symm.trans he

theorem prepareNext_accounts (hs : Stocked P s) (ha : Accounts P s.sendSide) : Accounts P (s.prepareNext P).sendSide := by
  unfold prepareNext
  split
  · exact ha
  · rename_i item s1 hpop
    have hp : Beside P s1 s := by
      obtain ⟨-, pq, pq', rfl⟩ := Protocol.popNextObItem_same hpop
      exact .same rfl rfl
    obtain ⟨hok, herr⟩ := @prepared_accounts P s1 item
      (fun f hi hf => hp.version ▸ hs item s1 hpop f hi hf) (hp.1 ▸ ha)
    dsimp only
    split
    · rename_i bytes hr
      exact hok bytes hr
    · rename_i hr
      exact herr _ hr
    · rename_i hr
      exact herr _ hr
    · rename_i e _ _ hr
      rw [(dropItem_changes P _ _ _).beside.1]
      exact herr e hr

end

/-- Every session knows how its frames came about. -/
theorem reachable_accounts {P : Platform} {u : Setup} {s : Session} (h : Reachable P u s) : Accounts P s.sendSide := by
  induction h with
  | refl =>
    have hd : (u.start P).hdDeflater = [] := by
      unfold Setup.start
      split <;> rfl
    rw [Accounts, writes_start]
    change Prepared P _ _ (u.start P).hdDeflater []
    rw [hd]
    exact .nil
  | tail h ht ih =>
    cases ht with
    | prepare hn => exact prepareNext_accounts (stocked_of_reachable h (reachable_sends h).2) ih
    | write item hi => exact ih.steps (sendWrite_sends hi).1
    | recv input =>
      rw [(beside_recvIter P _ input).1]
      exact ih
    | submit op hs hr =>
      rw [(beside_submission P _ op hs hr).1]
      exact ih
    | report e =>
      rw [(beside_emit P _ (.fatal e) rfl).1]
      exact ih

end Spdylay.Peers
