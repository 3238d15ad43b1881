import Spdylay.Peers.DataIds

/-! What the other side can make of a frame: the announced frame with its fields cut to their widths, and
with the pairs of its list. -/
namespace Spdylay.Peers
open Library Session Transport

/-! Lists. -/

/-- What is read of a list are its pairs, if the list is in normal form and fits its fields. -/
def CarriedList (P : Platform) (v : Version) (lenSize : Nat) (nv nv' : Nv) : Prop :=
  NormalList (wireList P v nv) → SizesFit lenSize (wireList P v nv) → nv'.Perm nv

theorem name3to2_not_new (name : Bytes) : name3to2 name ∉ nv3to2.map Prod.fst := by
  rw [name3to2]
  cases hfind : nv3to2.find? (fun t => t.1 = name) with
  | none =>
    intro hmem
    obtain ⟨t, ht, hname⟩ := List.mem_map.mp hmem
    exact List.find?_eq_none.mp hfind t ht (decide_eq_true hname)
  | some t =>
    have ht := List.mem_of_find?_eq_some hfind
    have hrows : ∀ t ∈ nv3to2, t.2 ∉ nv3to2.map Prod.fst := by decide
    exact hrows t ht

/-- A name of SPDY/2 comes back. -/
theorem name3to2_name2to3 {name : Bytes} (h : name ∉ nv3to2.map Prod.fst) : name3to2 (name2to3 name) = name := by
  by_cases hold : name ∈ oldNames
  · obtain ⟨t, ht, rfl⟩ := List.mem_map.mp hold
    rw [name2to3_row t ht, name3to2_row t ht]
  · rw [name2to3_other hold, name3to2_other h]

theorem frameNv3to2_names (nv : Nv) : ∀ p ∈ frameNv3to2 nv, p.1 ∉ nv3to2.map Prod.fst := by
  rw [frameNv3to2_eq]
  intro p hp
  obtain ⟨q, -, rfl⟩ := List.mem_map.mp hp
  exact name3to2_not_new q.1

theorem frameNv3to2_frameNv2to3 {nv : Nv} (h : ∀ p ∈ nv, p.1 ∉ nv3to2.map Prod.fst) :
    frameNv3to2 (frameNv2to3 nv) = nv := by
  rw [frameNv2to3_eq, frameNv3to2_eq, List.map_map]
  refine (List.map_congr_left fun p hp => ?_).trans (List.map_id _)
  exact congrArg (·, p.2) (name3to2_name2to3 (h p hp))

section
variable {P : Platform} {v : Version} (hq : StableSort.Sorts P.qsort)
include hq

/-- The list that was packed, up to its order, from the list that the frame keeps. -/
theorem wireList_keptList (nv : Nv) : (wireList P v nv).Perm (wireList P v (keptList P v (wireList P v nv))) := by
  cases v with
  | spdy3 => exact .refl _
  | spdy2 =>
    have hnames : ∀ p ∈ wireList P .spdy2 nv, p.1 ∉ nv3to2.map Prod.fst := by
      intro p hp
      exact frameNv3to2_names nv p ((frameNvSort_perm hq _).subset hp)
    have hback : frameNv3to2 (frameNv2to3 (wireList P .spdy2 nv)) = wireList P .spdy2 nv := frameNv3to2_frameNv2to3 hnames
    have hkept : (keptList P .spdy2 (wireList P .spdy2 nv)).Perm (frameNv2to3 (wireList P .spdy2 nv)) := frameNvSort_perm hq _
    have hrenamed : (frameNv3to2 (keptList P .spdy2 (wireList P .spdy2 nv))).Perm (wireList P .spdy2 nv) := by
      rw [frameNv3to2_eq]
      refine (hkept.map _).trans (.of_eq ?_)
      rw [← frameNv3to2_eq, hback]
    exact ((frameNvSort_perm hq _).trans hrenamed).symm

/-- A packed list that is read is the list the frame keeps. -/
theorem carriedList_of_unpacked {Q : Platform} (hr : StableSort.Sorts Q.qsort) {lenSize : Nat} (hl : lenSize = 2 ∨ lenSize = 4)
    {nv nv' : Nv} {m m' : Mem}
    (h : frameUnpackNv Q.qsort m (packedBlock (wireList P v nv) lenSize) lenSize = (m', nv', none)) :
    CarriedList P v lenSize (keptList P v (wireList P v nv)) (receivedList v nv') := by
  intro hnormal hfits
  have hperm := wireList_keptList (v := v) hq nv
  have hwire : NormalList (wireList P v nv) := by
    refine ⟨?_, fun p hp => hnormal.names p (hperm.subset hp), fun p hp => hnormal.values p (hperm.subset hp)⟩
    cases v with
    | spdy3 => exact hnormal.sorted
    | spdy2 => exact hq.sorted _ _ _ (name_order (fun p : Bytes × Bytes => p.1))
  rw [packedBlock, ← framePackNv_length hl hwire.names, List.take_length] at h
  have hread := unpacked_perm hr hl hwire hperm hfits h
  cases v with
  | spdy3 => exact hread
  | spdy2 => exact (frameNv2to3_perm hread).trans (frameNvSort_perm hq _).symm

end

/-! Frames. -/

/-- What a side that is a server or not makes of a frame whose payload has `n` bytes. -/
inductive Carries (P : Platform) (v : Version) (server : Bool) (n : Nat) : Frame → Frame → Prop
  | synStream (f : SynStream) (nv : Nv) : CarriedList P v (frameGetLenSize f.hd.version) f.nv nv →
      Carries P v server n (.synStream f) (.synStream (f.carried n nv))
  | synReply (f : StreamHeaders) (nv : Nv) : CarriedList P v (frameGetLenSize f.hd.version) f.nv nv →
      Carries P v server n (.synReply f) (.synReply (f.carried n nv))
  | headers (f : StreamHeaders) (nv : Nv) : CarriedList P v (frameGetLenSize f.hd.version) f.nv nv →
      Carries P v server n (.headers f) (.headers (f.carried n nv))
  | rstStream (f : RstStream) : Carries P v server n (.rstStream f) (.rstStream f.carried)
  | settings (f : Settings) : Carries P v server n (.settings f)
      (.settings {f.carried with iv := reportedEntries server f.carried.iv []})
  | ping (f : Ping) : Carries P v server n (.ping f) (.ping f.carried)
  | goaway (f : Goaway) : Carries P v server n (.goaway f) (.goaway f.carried)
  | windowUpdate (f : WindowUpdate) : Carries P v server n (.windowUpdate f) (.windowUpdate f.carried)
  | credential (f : Credential) : Carries P v server n (.credential f) (.credential f.carried)

def frameType : Frame → FrameType
  | .synStream _ => .synStream
  | .synReply _ => .synReply
  | .rstStream _ => .rstStream
  | .settings _ => .settings
  | .ping _ => .ping
  | .goaway _ => .goaway
  | .headers _ => .headers
  | .windowUpdate _ => .windowUpdate
  | .credential _ => .credential

theorem Read.type {P : Platform} {v : Version} {server : Bool} {head p : Bytes} {n : Nat} {inflated : Option Bytes} {g : Frame}
    (h : Read P v server head p n inflated g) : headType head = some (frameType g) := by
  cases h <;> assumption

theorem headType_pack (type : FrameType) (hd : CtrlHd) (rest : Bytes) : headType (framePackCtrlHd type hd ++ rest) = some type := by
  have hnum : getUint16 ((framePackCtrlHd type hd ++ rest).drop 2) = type.num := by
    have hlt : type.num < 65536 := by cases type <;> decide
    unfold framePackCtrlHd
    rw [List.append_assoc, List.append_assoc, drop_putUint16be, getUint16_put _ _ hlt]
  rw [headType, hnum]
  cases type <;> rfl

/-- A control frame begins with its type, and its first bit is set. -/
theorem packed_head {type : FrameType} {hd : CtrlHd} {head body rest : Bytes} (hv : hd.version < 32768)
    (hlen : head.length = headLen) (h : framePackCtrlHd type hd ++ rest = head ++ body) :
    headType head = some type ∧ frameIsCtrlFrame (head.getD 0 0) = true ∧ getUint16 head % 32768 = hd.version := by
  obtain ⟨rfl, -⟩ := split_head hlen h
  have htype := headType_pack type hd []
  rw [List.append_nil] at htype
  have hversion : getUint16 (framePackCtrlHd type hd) = hd.version+32768 := by
    unfold framePackCtrlHd
    rw [or_high_bit hv, List.append_assoc, getUint16_put _ _ (by omega)]
  refine ⟨htype, ?_, by rw [hversion]; omega⟩
  have hlt := ((framePackCtrlHd type hd).getD 1 0).toNat_lt
  rw [getUint16] at hversion
  rw [frameIsCtrlFrame, decide_eq_true_eq, UInt8.le_iff_toNat_le]
  change 128 ≤ _
  omega

theorem num_lt (v : Version) : v.num < 32768 := by
  cases v <;> decide

theorem num_cases (v : Version) : v.num = 2 ∨ v.num = 3 := by
  cases v
  · exact .inl rfl
  · exact .inr rfl

section
variable {P Q : Platform} {v : Version} {server : Bool} {head body : Bytes} {n : Nat} {inflated : Option Bytes} {g : Frame}

theorem packedPlain_begins {f : Frame} (hf : Formed P v (.ctrl f)) {bytes : Bytes} (hb : packedPlain f = some bytes) :
    ∃ (hd : CtrlHd) (rest : Bytes), hd.version = v.num ∧ framePackCtrlHd (frameType f) hd ++ rest = bytes := by
  cases f with
  | synStream f => cases hb
  | synReply f => cases hb
  | headers f => cases hb
  | rstStream f =>
    obtain ⟨id, statusCode, rfl⟩ := hf
    cases hb
    exact ⟨_, _, rfl, (List.append_assoc _ _ _).symm⟩
  | ping f =>
    obtain ⟨uniqueId, rfl⟩ := hf
    cases hb
    exact ⟨_, _, rfl, rfl⟩
  | windowUpdate f =>
    obtain ⟨id, delta, rfl⟩ := hf
    cases hb
    exact ⟨_, _, rfl, (List.append_assoc _ _ _).symm⟩
  | goaway f =>
    obtain ⟨id, statusCode, rfl⟩ := hf
    cases v with
    | spdy2 =>
      cases hb
      exact ⟨_, _, rfl, rfl⟩
    | spdy3 =>
      cases hb
      exact ⟨_, _, rfl, (List.append_assoc _ _ _).symm⟩
  | settings f =>
    obtain ⟨flags, iv, -, rfl⟩ := hf
    cases v with
    | spdy2 =>
      cases hb
      exact ⟨_, _, rfl, (List.append_assoc _ _ _).symm⟩
    | spdy3 =>
      cases hb
      exact ⟨_, _, rfl, (List.append_assoc _ _ _).symm⟩
  | credential f =>
    obtain ⟨slot, proof, certs, rfl⟩ := hf
    cases hb
    unfold framePackCredential
    rw [List.append_assoc, List.append_assoc, List.append_assoc]
    exact ⟨_, _, rfl, rfl⟩

/-- The header of a frame without a name/value block. -/
theorem plain_head {f : Frame} (hf : Formed P v (.ctrl f)) (hlen : head.length = headLen)
    (hb : packedPlain f = some (head ++ body)) : headType head = some (frameType f) ∧ frameIsCtrlFrame (head.getD 0 0) = true := by
  obtain ⟨hd, rest, hv, hbytes⟩ := packedPlain_begins hf hb
  obtain ⟨htype, hctrl, -⟩ := packed_head (by rw [hv]; exact num_lt v) hlen hbytes
  exact ⟨htype, hctrl⟩

/-- What is read of a frame without a name/value block. -/
theorem read_plain (hq : StableSort.Sorts P.qsort) {f : Frame} (hf : Formed P v (.ctrl f)) (hfits : lengthFits (some f))
    (hlen : head.length = headLen) (hb : packedPlain f = some (head ++ body))
    (h : Read Q v server head body body.length inflated g) : Carries P v server n f g := by
  have htype := Option.some.inj ((plain_head hf hlen hb).1.symm.trans h.type)
  cases f with
  | synStream f => cases hb
  | synReply f => cases hb
  | headers f => cases hb
  | rstStream f =>
    obtain ⟨id, statusCode, rfl⟩ := hf
    cases h with
    | rstStream g _ hu =>
      rw [frameUnpackRstStream_carried (num_lt v) hlen (Option.some.inj hb) hu]
      exact .rstStream _
    | _ => cases htype
  | ping f =>
    obtain ⟨uniqueId, rfl⟩ := hf
    cases h with
    | ping g _ hu =>
      rw [frameUnpackPing_carried (num_lt v) hlen (Option.some.inj hb) hu]
      exact .ping _
    | _ => cases htype
  | windowUpdate f =>
    obtain ⟨id, delta, rfl⟩ := hf
    cases h with
    | windowUpdate g _ hu =>
      rw [frameUnpackWindowUpdate_carried (num_lt v) hlen (Option.some.inj hb) hu]
      exact .windowUpdate _
    | _ => cases htype
  | goaway f =>
    obtain ⟨id, statusCode, rfl⟩ := hf
    have hpack : framePackGoaway (frameGoawayInit v.num id statusCode) = .ok (head ++ body) := by
      cases v with
      | spdy2 => exact congrArg Except.ok (Option.some.inj hb)
      | spdy3 => exact congrArg Except.ok (Option.some.inj hb)
    have hv : (frameGoawayInit v.num id statusCode).hd.version < 32768 := by
      cases v <;> exact of_decide_eq_true rfl
    cases h with
    | goaway g _ hu =>
      rw [frameUnpackGoaway_carried hv hlen hpack hu]
      exact .goaway _
    | _ => cases htype
  | settings f =>
    obtain ⟨flags, iv, hiv, rfl⟩ := hf
    have hpack : framePackSettings (frameSettingsInit v.num flags (frameIvSort P iv)) = .ok (head ++ body) := by
      cases v with
      | spdy2 => exact congrArg Except.ok (Option.some.inj hb)
      | spdy3 => exact congrArg Except.ok (Option.some.inj hb)
    have hsmall : (frameSettingsInit v.num flags (frameIvSort P iv)).hd.length ≤ lengthMask := by
      have hle := settingsUnique_length hiv
      rw [← frameIvSort_length hq, settingsMax] at hle
      change 4+(frameIvSort P iv).length*8 ≤ lengthMask
      rw [lengthMask]
      omega
    cases h with
    | settings m g _ hu =>
      rw [frameUnpackSettings_carried (num_cases v) rfl hsmall hlen hpack hu]
      exact .settings _
    | _ => cases htype
  | credential f =>
    obtain ⟨slot, proof, certs, rfl⟩ := hf
    have hsize : (frameCredentialInit v.num slot proof certs).hd.length =
        6+proof.length+(certs.map (fun c => 4+c.length)).sum := rfl
    cases h with
    | credential m g _ hu =>
      rw [frameUnpackCredential_carried (num_cases v) hsize (hsize ▸ hfits) hlen (Option.some.inj hb) hu]
      exact .credential _
    | _ => cases htype

theorem lenSize_cases {version : Nat} (h : frameGetLenSize version ≠ 0) :
    (frameGetLenSize version = 2 ∨ frameGetLenSize version = 4) ∧ version < 32768 := by
  unfold frameGetLenSize at h ⊢
  split
  · exact ⟨.inl rfl, by omega⟩
  · rename_i h2
    rw [if_neg h2] at h
    split
    · exact ⟨.inr rfl, by omega⟩
    · rename_i h3
      rw [if_neg h3] at h
      exact absurd rfl h

theorem packedHeaders_begins {f : Frame} {version : Nat} {nv : Nv} (hl : headerList f = some (version, nv)) {nvOffset : Nat}
    {out bytes : Bytes} (hb : packedHeaders f nvOffset out = some bytes) :
    ∃ (hd : CtrlHd) (rest : Bytes), hd.version = version ∧ framePackCtrlHd (frameType f) hd ++ rest = bytes := by
  cases f with
  | synStream f =>
    cases hl
    cases hb
    rw [framePackSynStream, List.append_assoc, List.append_assoc, List.append_assoc]
    refine ⟨_, _, ?_, rfl⟩
    rfl
  | synReply f =>
    cases hl
    cases hb
    rw [framePackStreamHeaders, List.append_assoc, List.append_assoc]
    refine ⟨_, _, ?_, rfl⟩
    rfl
  | headers f =>
    cases hl
    cases hb
    rw [framePackStreamHeaders, List.append_assoc, List.append_assoc]
    refine ⟨_, _, ?_, rfl⟩
    rfl
  | _ => cases hl

/-- Where the block of a SYN_REPLY or HEADERS begins. -/
theorem blockStart_streamHeaders {type : FrameType} {version nvOffset : Nat} (htype : type = .synReply ∨ type = .headers)
    (ho : frameNvOffset type version = some nvOffset) (hhead : headType head = some type)
    (hctrl : frameIsCtrlFrame (head.getD 0 0) = true) (hv : getUint16 head % 32768 = version) :
    blockStart head = some (nvOffset-headLen) := by
  have hversions : (if version = 2 then some 14 else if version = 3 then some 12 else none) = some nvOffset := by
    rcases htype with rfl | rfl
    · exact ho
    · exact ho
  have hstart : blockStart head = if version = 2 then some 6 else if version = 3 then some 4 else none := by
    rw [headType] at hhead
    rw [blockStart, if_pos hctrl, hhead, hv]
    rcases htype with rfl | rfl
    · rfl
    · rfl
  rw [hstart]
  split
  · rename_i h2
    rw [if_pos h2] at hversions
    cases hversions
    rfl
  · rename_i h2
    rw [if_neg h2] at hversions
    split
    · rename_i h3
      rw [if_pos h3] at hversions
      cases hversions
      rfl
    · rename_i h3
      rw [if_neg h3] at hversions
      cases hversions

/-- The header of a frame with a name/value block, and the block behind it. -/
theorem headers_head {f : Frame} {version : Nat} {nv : Nv} (hl : headerList f = some (version, nv))
    (hv : frameGetLenSize version ≠ 0) {nvOffset : Nat} {out : Bytes} (ho : blockOffset f = some nvOffset)
    (hlen : head.length = headLen) (hb : packedHeaders f nvOffset out = some (head ++ body)) :
    headType head = some (frameType f) ∧ frameIsCtrlFrame (head.getD 0 0) = true ∧ blockIn head body = out := by
  obtain ⟨-, hsmall⟩ := lenSize_cases hv
  have hstream : ∀ {type : FrameType} {f : StreamHeaders}, type = .synReply ∨ type = .headers → f.hd.version = version →
      frameNvOffset type version = some nvOffset → framePackStreamHeaders type nvOffset f out = head ++ body →
      headType head = some type ∧ frameIsCtrlFrame (head.getD 0 0) = true ∧ blockIn head body = out := by
    intro type f htype hversion hoffset hbytes
    have hge := frameNvOffset_ge hoffset
    rw [framePackStreamHeaders, List.append_assoc, List.append_assoc] at hbytes
    obtain ⟨htypes, hctrl, hversions⟩ := packed_head (by dsimp only; rw [hversion]; exact hsmall) hlen hbytes
    obtain ⟨-, rfl⟩ := split_head hlen hbytes
    have hstart := blockStart_streamHeaders htype hoffset htypes hctrl (hversions.trans hversion)
    refine ⟨htypes, hctrl, ?_⟩
    rw [blockIn, hstart, ← List.append_assoc]
    apply List.drop_left'
    rw [List.length_append, List.length_replicate, length_putUint32be, headLen]
    omega
  cases f with
  | synStream f =>
    cases hl
    cases ho
    have hbytes := Option.some.inj hb
    rw [framePackSynStream, List.append_assoc, List.append_assoc, List.append_assoc] at hbytes
    obtain ⟨htypes, hctrl, -⟩ := packed_head (by exact hsmall) hlen hbytes
    obtain ⟨-, rfl⟩ := split_head hlen hbytes
    refine ⟨htypes, hctrl, ?_⟩
    have hstart : blockStart head = some 10 := by
      rw [headType] at htypes
      rw [blockStart, if_pos hctrl, htypes]
    rw [blockIn, hstart]
    rfl
  | synReply f =>
    cases hl
    exact hstream (.inl rfl) rfl ho (Option.some.inj hb)
  | headers f =>
    cases hl
    exact hstream (.inr rfl) rfl ho (Option.some.inj hb)
  | _ => cases hl

/-- What is read of a frame with a name/value block, if the block is inflated to the packed list. -/
theorem read_headers (hq : StableSort.Sorts P.qsort) (hr : StableSort.Sorts Q.qsort) {f : Frame} {version : Nat} {nv : Nv}
    (hl : headerList f = some (version, keptList P v (wireList P v nv))) (hv : frameGetLenSize version ≠ 0) {nvOffset : Nat}
    {out : Bytes} (ho : blockOffset f = some nvOffset) (hfits : Transport.Fits nvOffset out) (hlen : head.length = headLen)
    (hb : packedHeaders f nvOffset out = some (head ++ body))
    (h : Read Q v server head body n (some (packedBlock (wireList P v nv) (frameGetLenSize version))) g) :
    Carries P v server body.length f g := by
  obtain ⟨hsize, hsmall⟩ := lenSize_cases hv
  have htype := Option.some.inj ((headers_head hl hv ho hlen hb).1.symm.trans h.type)
  cases f with
  | synStream f =>
    obtain ⟨rfl, hkept⟩ := Prod.mk.inj (Option.some.inj hl)
    cases ho
    cases h with
    | synStream m m' g block _ hblock hu =>
      cases hblock
      obtain ⟨nv', rfl, hnv⟩ := frameUnpackSynStream_carried hsmall hfits hlen (Option.some.inj hb) hu
      have hlist := carriedList_of_unpacked hq hr hsize hnv
      rw [← hkept] at hlist
      exact .synStream f _ hlist
    | _ => cases htype
  | synReply f =>
    obtain ⟨rfl, hkept⟩ := Prod.mk.inj (Option.some.inj hl)
    have hge := @frameNvOffset_ge .synReply _ _ ho
    cases h with
    | synReply m m' g block _ hblock hu =>
      cases hblock
      obtain ⟨nv', rfl, hnv⟩ := unpackStreamHeaders_carried hsmall hge hfits hlen (Option.some.inj hb) hu
      have hlist := carriedList_of_unpacked hq hr hsize hnv
      rw [← hkept] at hlist
      exact .synReply f _ hlist
    | _ => cases htype
  | headers f =>
    obtain ⟨rfl, hkept⟩ := Prod.mk.inj (Option.some.inj hl)
    have hge := @frameNvOffset_ge .headers _ _ ho
    cases h with
    | headers m m' g block _ hblock hu =>
      cases hblock
      obtain ⟨nv', rfl, hnv⟩ := unpackStreamHeaders_carried hsmall hge hfits hlen (Option.some.inj hb) hu
      have hlist := carriedList_of_unpacked hq hr hsize hnv
      rw [← hkept] at hlist
      exact .headers f _ hlist
    | _ => cases htype
  | _ => cases hl

end

end Spdylay.Peers
