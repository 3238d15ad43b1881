import Spdylay.Wire.FixedFrames
import Spdylay.Wire.HeaderRoundTrip

/-! What a frame keeps of its fields on the wire. A field is cut to its width, whatever its value is, and
a name/value block keeps the pairs of its list. -/
namespace Spdylay
open Library

/-! Words. -/

/-- The bits of a stream id or of a window. -/
def low31 (n : Int) : Int := n % 2147483648

theorem getUint32_putUint32be (n : Nat) (rest : Bytes) : getUint32 (putUint32be n ++ rest) = n % 4294967296 := by
  simp only [getUint32, putUint32be, List.cons_append, List.nil_append, List.getD_cons_zero,
    List.getD_cons_succ, UInt8.toNat_ofNat']
  omega

theorem getStreamId_low31 (n : Int) (rest : Bytes) : getStreamId (putUint32be (toUint32 n) ++ rest) = low31 n := by
  rw [getStreamId, getUint32_putUint32be, toUint32, streamIdMask, low31]
  omega

theorem ofNat_mod (n : Nat) : UInt8.ofNat (n % 256) = UInt8.ofNat n := by
  rw [← UInt8.toNat_inj, UInt8.toNat_ofNat', UInt8.toNat_ofNat']
  exact Nat.mod_mod _ _

theorem ofNat_congr {a b : Nat} (h : a % 256 = b % 256) : UInt8.ofNat a = UInt8.ofNat b := by
  rw [← ofNat_mod a, h, ofNat_mod]

theorem putUint32be_mod (n : Nat) : putUint32be (n % 4294967296) = putUint32be n := by
  unfold putUint32be
  rw [ofNat_congr (a := n % 4294967296/16777216) (b := n/16777216) (by omega),
    ofNat_congr (a := n % 4294967296/65536) (b := n/65536) (by omega),
    ofNat_congr (a := n % 4294967296/256) (b := n/256) (by omega), ofNat_congr (a := n % 4294967296) (b := n) (by omega)]

theorem putUint16be_mod (n : Nat) : putUint16be (n % 65536) = putUint16be n := by
  unfold putUint16be
  rw [ofNat_congr (a := n % 65536/256) (b := n/256) (by omega), ofNat_congr (a := n % 65536) (b := n) (by omega)]

/-! Headers. -/

def CtrlHd.carried (hd : CtrlHd) : CtrlHd := ⟨hd.version, hd.flags % 256, hd.length % 16777216⟩

theorem CtrlHd.carried_length {hd : CtrlHd} (h : hd.length ≤ lengthMask) : hd.carried.length = hd.length := by
  rw [lengthMask] at h
  exact Nat.mod_eq_of_lt (by omega)

theorem framePackCtrlHd_carried (type : FrameType) (hd : CtrlHd) :
    framePackCtrlHd type hd.carried = framePackCtrlHd type hd := by
  unfold framePackCtrlHd CtrlHd.carried
  dsimp only
  rw [ofNat_mod, putUint32be_tail (Nat.mod_mod _ _)]

theorem unpack_pack_head {hd : CtrlHd} (hv : hd.version < 32768) (type : FrameType) :
    frameUnpackCtrlHd (framePackCtrlHd type hd) = hd.carried := by
  rw [← framePackCtrlHd_carried]
  have hflags : hd.flags % 256 < 256 := Nat.mod_lt _ (by decide)
  have hlength : hd.length % 16777216 < 16777216 := Nat.mod_lt _ (by decide)
  have hfits : hd.carried.Fits := ⟨hv, hflags, hlength⟩
  exact frameUnpackCtrlHd_pack hfits type

theorem length_framePackCtrlHd (type : FrameType) (hd : CtrlHd) : (framePackCtrlHd type hd).length = headLen := rfl

/-- The two parts of a control frame. -/
theorem split_head {type : FrameType} {hd : CtrlHd} {head body rest : Bytes} (hlen : head.length = headLen)
    (h : framePackCtrlHd type hd ++ rest = head ++ body) : head = framePackCtrlHd type hd ∧ body = rest := by
  obtain ⟨hhead, hbody⟩ := List.append_inj h ((length_framePackCtrlHd type hd).trans hlen.symm)
  exact ⟨hhead.symm, hbody.symm⟩

/-! Frames without a name/value block. -/

def Ping.carried (f : Ping) : Ping := ⟨f.hd.carried, f.uniqueId % 4294967296⟩

/-- A GOAWAY of SPDY/2 has no place for a status code. -/
def Goaway.carried (f : Goaway) : Goaway :=
  ⟨f.hd.carried, low31 f.lastGoodStreamId, if f.hd.version = 2 then 0 else f.statusCode % 4294967296⟩

def RstStream.carried (f : RstStream) : RstStream := ⟨f.hd.carried, low31 f.streamId, f.statusCode % 4294967296⟩

def WindowUpdate.carried (f : WindowUpdate) : WindowUpdate := ⟨f.hd.carried, low31 f.streamId, low31 f.deltaWindowSize⟩

def SettingsEntry.carried (e : SettingsEntry) : SettingsEntry :=
  ⟨e.settingsId % 16777216, e.flags % 256, e.value % 4294967296⟩

def Settings.carried (f : Settings) : Settings := ⟨f.hd.carried, f.iv.map SettingsEntry.carried⟩

def Credential.carried (f : Credential) : Credential := ⟨f.hd.carried, f.slot % 65536, f.proof, f.certs⟩

section
variable {head body : Bytes}

theorem frameUnpackPing_carried {f g : Ping} (hv : f.hd.version < 32768) (hlen : head.length = headLen)
    (hb : framePackPing f = head ++ body) {n : Nat} (h : frameUnpackPing head body n = .ok g) : g = f.carried := by
  obtain ⟨rfl, rfl⟩ := split_head hlen hb
  unfold frameUnpackPing at h
  split at h
  · cases h
  · cases h
    have hword := getUint32_putUint32be f.uniqueId []
    rw [List.append_nil] at hword
    rw [unpack_pack_head hv, hword]
    rfl

theorem frameUnpackRstStream_carried {f g : RstStream} (hv : f.hd.version < 32768) (hlen : head.length = headLen)
    (hb : framePackRstStream f = head ++ body) {n : Nat} (h : frameUnpackRstStream head body n = .ok g) : g = f.carried := by
  rw [framePackRstStream, List.append_assoc] at hb
  obtain ⟨rfl, rfl⟩ := split_head hlen hb
  unfold frameUnpackRstStream at h
  split at h
  · cases h
  · cases h
    have hword := getUint32_putUint32be f.statusCode []
    rw [List.append_nil] at hword
    rw [unpack_pack_head hv, getStreamId_low31, drop_putUint32be, hword]
    rfl

theorem frameUnpackWindowUpdate_carried {f g : WindowUpdate} (hv : f.hd.version < 32768) (hlen : head.length = headLen)
    (hb : framePackWindowUpdate f = head ++ body) {n : Nat} (h : frameUnpackWindowUpdate head body n = .ok g) :
    g = f.carried := by
  rw [framePackWindowUpdate, List.append_assoc] at hb
  obtain ⟨rfl, rfl⟩ := split_head hlen hb
  unfold frameUnpackWindowUpdate at h
  split at h
  · cases h
  · cases h
    have hword := getStreamId_low31 f.deltaWindowSize []
    rw [List.append_nil] at hword
    rw [unpack_pack_head hv, getStreamId_low31, drop_putUint32be, hword]
    rfl

theorem frameUnpackGoaway_carried {f g : Goaway} (hv : f.hd.version < 32768) (hlen : head.length = headLen)
    (hb : framePackGoaway f = .ok (head ++ body)) {n : Nat} (h : frameUnpackGoaway head body n = .ok g) : g = f.carried := by
  unfold framePackGoaway at hb
  split at hb
  · rename_i hv2
    obtain ⟨rfl, rfl⟩ := split_head hlen (Except.ok.inj hb)
    have hhd := unpack_pack_head hv .goaway
    have hversion : f.hd.carried.version = 2 := hv2
    have hword := getStreamId_low31 f.lastGoodStreamId []
    rw [List.append_nil] at hword
    unfold frameUnpackGoaway at h
    dsimp only at h
    rw [hhd, if_pos hversion] at h
    split at h
    · cases h
    · cases h
      rw [hword, Goaway.carried, if_pos hv2]
  · rename_i hv2
    split at hb
    · rename_i hv3
      rw [List.append_assoc] at hb
      obtain ⟨rfl, rfl⟩ := split_head hlen (Except.ok.inj hb)
      have hhd := unpack_pack_head hv .goaway
      have hversion : f.hd.carried.version = 3 := hv3
      have hword := getUint32_putUint32be f.statusCode []
      rw [List.append_nil] at hword
      unfold frameUnpackGoaway at h
      dsimp only at h
      rw [hhd, if_neg (by omega), if_pos hversion] at h
      split at h
      · cases h
      · cases h
        rw [getStreamId_low31, drop_putUint32be, hword, Goaway.carried, if_neg hv2]
    · cases hb

theorem packSettingsEntry_carried (version : Nat) (e : SettingsEntry) :
    packSettingsEntry version e.carried = packSettingsEntry version e := by
  unfold packSettingsEntry SettingsEntry.carried
  dsimp only
  rw [putUint32be_mod, ofNat_mod, putUint32be_tail (Nat.mod_mod _ _),
    ofNat_congr (a := e.settingsId % 16777216) (b := e.settingsId) (by omega),
    ofNat_congr (a := e.settingsId % 16777216/256) (b := e.settingsId/256) (by omega),
    ofNat_congr (a := e.settingsId % 16777216/65536) (b := e.settingsId/65536) (by omega)]

theorem SettingsEntry.carried_fits (e : SettingsEntry) : e.carried.Fits :=
  ⟨Nat.mod_lt _ (by omega), Nat.mod_lt _ (by omega), Nat.mod_lt _ (by omega)⟩

theorem framePackSettings_carried (f : Settings) : framePackSettings f.carried = framePackSettings f := by
  have hentries : (f.iv.map SettingsEntry.carried).flatMap (packSettingsEntry f.hd.version) =
      f.iv.flatMap (packSettingsEntry f.hd.version) := by
    rw [List.flatMap_map]
    exact List.flatMap_congr (fun e _ => packSettingsEntry_carried _ e)
  unfold framePackSettings Settings.carried
  dsimp only
  rw [framePackCtrlHd_carried, List.length_map]
  change (if f.hd.version = 2 ∨ f.hd.version = 3 then _ else _) = _
  rw [show f.hd.carried.version = f.hd.version from rfl, hentries]

theorem framePackCredential_carried (f : Credential) : framePackCredential f.carried = framePackCredential f := by
  unfold framePackCredential Credential.carried
  dsimp only
  rw [framePackCtrlHd_carried, putUint16be_mod]

/-- Where there was memory for a frame there is with memory at will. -/
theorem frameUnpackSettings_mem {m : Mem} {n : Nat} {g : Settings} (h : (frameUnpackSettings m head body n).2 = .ok g) :
    (frameUnpackSettings [] head body n).2 = .ok g := by
  unfold frameUnpackSettings at h ⊢
  dsimp only at h ⊢
  split
  · rename_i hsmall
    rw [if_pos hsmall] at h
    cases h
  · rename_i hsmall
    rw [if_neg hsmall] at h
    split
    · rename_i hversion
      rw [if_pos hversion] at h
      cases h
    · rename_i hversion
      rw [if_neg hversion] at h
      split
      · rename_i hcount
        rw [if_pos hcount] at h
        cases h
      · rename_i hcount
        rw [if_neg hcount] at h
        split at h
        · exact h
        · cases h

theorem frameUnpackCredential_mem {m : Mem} {n : Nat} {g : Credential}
    (h : (frameUnpackCredential m head body n).2 = .ok g) : (frameUnpackCredential [] head body n).2 = .ok g := by
  unfold frameUnpackCredential at h ⊢
  dsimp only at h ⊢
  split
  · rename_i hsmall
    rw [if_pos hsmall] at h
    cases h
  · rename_i hsmall
    rw [if_neg hsmall] at h
    split
    · rename_i hproof
      rw [if_pos hproof] at h
      cases h
    · rename_i hproof
      rw [if_neg hproof] at h
      split at h
      · rw [if_pos List.headD_nil]
        cases hloop : countUnpackCertLoop (body.drop (6+getUint32 (body.drop 2))) (n-(6+getUint32 (body.drop 2))) n 0 with
        | error e =>
          rw [hloop] at h
          cases h
        | ok certs =>
          rw [hloop] at h
          dsimp only at h ⊢
          rw [if_pos (mallocEach_true (by rintro _ ⟨⟩))]
          split at h
          · exact h
          · cases h
      · cases h

/-- What comes back of a frame comes back of its bytes. -/
theorem comesBack_unpacks {x : FixedFrame} (h : x.ComesBack []) (hlen : head.length = headLen)
    (hb : x.pack = .ok (head ++ body)) : FixedFrame.unpack [] x.type head body body.length = some (.ok x.received) := by
  obtain ⟨head', body', hpack, hhead, -, hunpack⟩ := h
  obtain ⟨rfl, rfl⟩ := List.append_inj (Except.ok.inj (hb.symm.trans hpack)) (hlen.trans hhead.length.symm)
  exact hunpack

theorem frameUnpackSettings_carried {f g : Settings} (hv : f.hd.version = 2 ∨ f.hd.version = 3)
    (hsize : f.hd.length = 4+f.iv.length*8) (hsmall : f.hd.length ≤ lengthMask) (hlen : head.length = headLen)
    (hb : framePackSettings f = .ok (head ++ body)) {m : Mem} (h : (frameUnpackSettings m head body body.length).2 = .ok g) :
    g = f.carried := by
  have hpayload : (FixedFrame.settings f.carried).payloadLength = f.hd.length := by
    rw [hsize, FixedFrame.payloadLength, Settings.carried, List.length_map]
  have hrange : (FixedFrame.settings f.carried).InRange := by
    refine ⟨hv, Nat.mod_lt _ (by omega), ?_, ?_, ?_⟩
    · rw [hpayload]
      exact CtrlHd.carried_length hsmall
    · rw [hpayload]
      exact Nat.lt_succ_of_le hsmall
    · intro e he
      obtain ⟨e', -, rfl⟩ := List.mem_map.mp he
      exact e'.carried_fits
  have hback := comesBack_unpacks (FixedFrame.settings_comesBack (by rintro _ ⟨⟩) hrange) hlen
    ((framePackSettings_carried f).trans hb)
  change some ((frameUnpackSettings [] head body body.length).2.map FixedFrame.settings) = _ at hback
  rw [frameUnpackSettings_mem h] at hback
  exact FixedFrame.settings.inj (Except.ok.inj (Option.some.inj hback))

/-- A CREDENTIAL without a certificate is refused. -/
theorem frameUnpackCredential_certs {f g : Credential} (hlen : head.length = headLen)
    (hb : framePackCredential f = head ++ body) (hsmall : f.proof.length ≤ lengthMask) {m : Mem}
    (h : (frameUnpackCredential m head body body.length).2 = .ok g) : f.certs ≠ [] := by
  intro hnone
  have hbytes : framePackCtrlHd .credential f.hd ++ (putUint16be f.slot ++ (putUint32be f.proof.length ++ f.proof)) =
      head ++ body := by
    rw [← hb, framePackCredential, hnone, List.flatMap_nil, List.append_nil]
    simp only [List.append_assoc]
  obtain ⟨rfl, rfl⟩ := split_head hlen hbytes
  have hproof : getUint32 (putUint32be f.proof.length ++ f.proof) = f.proof.length :=
    getUint32_put _ _ (by rw [lengthMask] at hsmall; omega)
  have htotal : (putUint16be f.slot ++ (putUint32be f.proof.length ++ f.proof)).length = 6+f.proof.length := by
    simp
    omega
  have hloop : ∀ p : Bytes, countUnpackCertLoop p 0 (6+f.proof.length) 0 = .error .invalidFrame := by
    intro p
    rw [Nat.add_comm, countUnpackCertLoop, if_pos (by decide)]
  rw [htotal] at h
  unfold frameUnpackCredential at h
  rw [drop_putUint16be, hproof] at h
  split at h
  · cases h
  · dsimp only at h
    split at h
    · cases h
    · split at h
      · rw [Nat.sub_self, hloop] at h
        cases h
      · cases h

theorem frameUnpackCredential_carried {f g : Credential} (hv : f.hd.version = 2 ∨ f.hd.version = 3)
    (hsize : f.hd.length = 6+f.proof.length+(f.certs.map (fun c => 4+c.length)).sum) (hsmall : f.hd.length ≤ lengthMask)
    (hlen : head.length = headLen) (hb : framePackCredential f = head ++ body) {m : Mem}
    (h : (frameUnpackCredential m head body body.length).2 = .ok g) : g = f.carried := by
  have hcerts := frameUnpackCredential_certs hlen hb (by omega) h
  have hpayload : (FixedFrame.credential f.carried).payloadLength = f.hd.length := hsize.symm
  have hrange : (FixedFrame.credential f.carried).InRange := by
    refine ⟨hv, Nat.mod_lt _ (by omega), ?_, ?_, Nat.mod_lt _ (by omega), hcerts⟩
    · rw [hpayload]
      exact CtrlHd.carried_length hsmall
    · rw [hpayload]
      exact Nat.lt_succ_of_le hsmall
  have hback := comesBack_unpacks (FixedFrame.credential_comesBack (by rintro _ ⟨⟩) hrange) hlen
    (congrArg Except.ok ((framePackCredential_carried f).trans hb))
  change some ((frameUnpackCredential [] head body body.length).2.map FixedFrame.credential) = _ at hback
  rw [frameUnpackCredential_mem h] at hback
  exact FixedFrame.credential.inj (Except.ok.inj (Option.some.inj hback))

/-! Frames with a name/value block. -/

/-- `length` is the length of the payload. -/
def SynStream.carried (f : SynStream) (length : Nat) (nv : Nv) : SynStream :=
  ⟨⟨f.hd.version, f.hd.flags % 256, length⟩, low31 f.streamId, low31 f.assocStreamId, f.pri % 4,
    if f.hd.version = 3 then f.slot % 256 else 0, nv⟩

def StreamHeaders.carried (f : StreamHeaders) (length : Nat) (nv : Nv) : StreamHeaders :=
  ⟨⟨f.hd.version, f.hd.flags % 256, length⟩, low31 f.streamId, nv⟩

theorem frameUnpackSynStream_ok {qsort : Qsort} {m m' : Mem} {n : Nat} {block : Bytes} {g : SynStream}
    (h : frameUnpackSynStream qsort m head body n block = (m', g, none)) : ∃ nv,
      g = ⟨frameUnpackCtrlHd head, getStreamId body, getStreamId (body.drop 4), (body.getD 8 0).toNat/64,
        if (frameUnpackCtrlHd head).version = 3 then (body.getD 9 0).toNat else 0, nv⟩ ∧
      frameUnpackNv qsort m block (frameGetLenSize (frameUnpackCtrlHd head).version) = (m', nv, none) := by
  have hfields : (frameUnpackSynStreamWithoutNv head body n).2 = none → (frameUnpackSynStreamWithoutNv head body n).1 =
      ⟨frameUnpackCtrlHd head, getStreamId body, getStreamId (body.drop 4), (body.getD 8 0).toNat/64,
        if (frameUnpackCtrlHd head).version = 3 then (body.getD 9 0).toNat else 0, []⟩ := by
    rw [frameUnpackSynStreamWithoutNv]
    split
    · rintro ⟨⟩
    · exact fun _ => rfl
  unfold frameUnpackSynStream at h
  generalize frameUnpackSynStreamWithoutNv head body n = r at *
  obtain ⟨f, e⟩ := r
  dsimp only at hfields h
  split at h
  · cases h
  · cases e with
    | some e => cases h
    | none =>
      obtain rfl := hfields rfl
      obtain ⟨rfl, hrest⟩ := Prod.mk.inj h
      obtain ⟨rfl, hnone⟩ := Prod.mk.inj hrest
      exact ⟨_, rfl, Prod.ext rfl (Prod.ext rfl hnone)⟩

theorem unpackStreamHeaders_ok {type : FrameType} {qsort : Qsort} {m m' : Mem} {n : Nat} {block : Bytes} {g : StreamHeaders}
    (h : unpackStreamHeaders type qsort m head body n block = (m', g, none)) : ∃ nv,
      g = ⟨frameUnpackCtrlHd head, getStreamId body, nv⟩ ∧
      frameUnpackNv qsort m block (frameGetLenSize (frameUnpackCtrlHd head).version) = (m', nv, none) := by
  have hfields : (unpackStreamHeadersWithoutNv type head body n).2 = none →
      (unpackStreamHeadersWithoutNv type head body n).1 = ⟨frameUnpackCtrlHd head, getStreamId body, []⟩ := by
    rw [unpackStreamHeadersWithoutNv]
    split
    · rintro ⟨⟩
    · split
      · rintro ⟨⟩
      · exact fun _ => rfl
  unfold unpackStreamHeaders at h
  generalize unpackStreamHeadersWithoutNv type head body n = r at *
  obtain ⟨f, e⟩ := r
  dsimp only at hfields h
  cases e with
  | some e => cases h
  | none =>
    obtain rfl := hfields rfl
    dsimp only at h
    split at h
    · cases h
    · obtain ⟨rfl, hrest⟩ := Prod.mk.inj h
      obtain ⟨rfl, hnone⟩ := Prod.mk.inj hrest
      exact ⟨_, rfl, Prod.ext rfl (Prod.ext rfl hnone)⟩

theorem frameUnpackSynStream_carried {f g : SynStream} {out : Bytes} (hv : f.hd.version < 32768)
    (hsmall : synStreamNvOffset+out.length-headLen ≤ lengthMask) (hlen : head.length = headLen)
    (hb : framePackSynStream f out = head ++ body) {qsort : Qsort} {m m' : Mem} {n : Nat} {block : Bytes}
    (h : frameUnpackSynStream qsort m head body n block = (m', g, none)) : ∃ nv, g = f.carried body.length nv ∧
      frameUnpackNv qsort m block (frameGetLenSize f.hd.version) = (m', nv, none) := by
  rw [framePackSynStream, List.append_assoc, List.append_assoc, List.append_assoc] at hb
  obtain ⟨rfl, rfl⟩ := split_head hlen hb
  obtain ⟨nv, rfl, hnv⟩ := frameUnpackSynStream_ok h
  have hhd := @unpack_pack_head {f.hd with length := synStreamNvOffset-headLen+out.length} hv .synStream
  rw [hhd] at hnv ⊢
  refine ⟨nv, ?_, hnv⟩
  have hlength : (synStreamNvOffset-headLen+out.length) % 16777216 = 10+out.length := by
    rw [synStreamNvOffset, headLen, lengthMask] at hsmall
    rw [synStreamNvOffset, headLen]
    omega
  have hbody : (putUint32be (toUint32 f.streamId) ++ (putUint32be (toUint32 f.assocStreamId) ++
      ([UInt8.ofNat (f.pri*64), if f.hd.version = 3 then UInt8.ofNat f.slot else 0] ++ out))).length = 10+out.length := by
    simp
    omega
  have hpri : (UInt8.ofNat (f.pri*64)).toNat/64 = f.pri % 4 := by
    rw [UInt8.toNat_ofNat']
    omega
  have hslot : (if f.hd.version = 3 then (if f.hd.version = 3 then UInt8.ofNat f.slot else 0).toNat else 0) =
      if f.hd.version = 3 then f.slot % 256 else 0 := by
    split
    · exact UInt8.toNat_ofNat'
    · rfl
  rw [getStreamId_low31, drop_putUint32be, getStreamId_low31, SynStream.carried, hbody]
  unfold CtrlHd.carried
  dsimp only
  rw [hlength, ← hpri, ← hslot]
  rfl

theorem unpackStreamHeaders_carried {type : FrameType} {f g : StreamHeaders} {out : Bytes} {nvOffset : Nat}
    (hv : f.hd.version < 32768) (hoffset : 12 ≤ nvOffset) (hsmall : nvOffset+out.length-headLen ≤ lengthMask)
    (hlen : head.length = headLen) (hb : framePackStreamHeaders type nvOffset f out = head ++ body) {qsort : Qsort}
    {m m' : Mem} {n : Nat} {block : Bytes} (h : unpackStreamHeaders type qsort m head body n block = (m', g, none)) :
    ∃ nv, g = f.carried body.length nv ∧ frameUnpackNv qsort m block (frameGetLenSize f.hd.version) = (m', nv, none) := by
  rw [framePackStreamHeaders, List.append_assoc, List.append_assoc] at hb
  obtain ⟨rfl, rfl⟩ := split_head hlen hb
  obtain ⟨nv, rfl, hnv⟩ := unpackStreamHeaders_ok h
  have hhd := @unpack_pack_head {f.hd with length := nvOffset-headLen+out.length} hv type
  rw [hhd] at hnv ⊢
  refine ⟨nv, ?_, hnv⟩
  rw [headLen, lengthMask] at hsmall
  have hlength : (nvOffset-headLen+out.length) % 16777216 = nvOffset-8+out.length := by
    rw [headLen]
    omega
  have hbody : (putUint32be (toUint32 f.streamId) ++ (List.replicate (nvOffset-12) 0 ++ out)).length =
      nvOffset-8+out.length := by
    simp
    omega
  rw [getStreamId_low31, StreamHeaders.carried, hbody]
  unfold CtrlHd.carried
  dsimp only
  rw [hlength]

end

/-! Name/value blocks. -/

/-- A list in the order of its names and without an empty name, and no value holds a NUL. -/
structure NormalList (nv : Nv) : Prop where
  sorted : StableSort.Sorted (fun a b => strcmp a.1 b.1) nv
  names : ∀ p ∈ nv, p.1 ≠ []
  values : ∀ p ∈ nv, ∀ c ∈ p.2, c ≠ 0

/-- What the parser accepts of a packed list are its pairs. -/
theorem unpacked_perm {qsort : Qsort} (hq : StableSort.Sorts qsort) {lenSize : Nat} (hl : lenSize = 2 ∨ lenSize = 4)
    {wire nv nv' : Nv} (ho : NormalList wire) (hp : wire.Perm nv) (hfits : SizesFit lenSize nv) {m m' : Mem}
    (h : frameUnpackNv qsort m (framePackNv wire lenSize) lenSize = (m', nv', none)) : nv'.Perm wire := by
  obtain ⟨es, hnodup, rfl⟩ := exists_entries ho.sorted ho.values
  have hes : Fits lenSize es := (fits_iff hnodup hp lenSize).mpr hfits
  rw [framePackNv_entries hnodup] at h
  obtain ⟨-, -, es', hes', hblock, rfl⟩ := (frameUnpackNv_ok_iff hq hl m m' _ nv').mp h
  -- both lists of entries are read off the same block
  have hread := unpackNvLoop_block hl hes
  rw [hblock, unpackNvLoop_block hl hes'.fits] at hread
  obtain ⟨hindex, hinvalid⟩ := Prod.mk.inj hread
  have hvalid : ∀ e ∈ es, invalidEntry e = false := by
    have hnone : es'.any invalidEntry = false := by
      rw [List.any_eq_false]
      intro e he
      rw [hes'.valid e he]
      decide
    rw [hinvalid] at hnone
    intro e he
    exact Bool.eq_false_of_not_eq_true (List.any_eq_false.mp hnone e he)
  calc
    (unpackedNv qsort es').Perm (es'.flatMap entryPairs) := unpackedNv_perm hq hes'.valid
    _ = indexNv (entryIndex 0 es') := (indexNv_entryIndex 0 hes'.valid).symm
    _ = indexNv (entryIndex 0 es) := by rw [hindex]
    _ = es.flatMap entryPairs := indexNv_entryIndex 0 hvalid

end Spdylay
