import Spdylay.Library.CheckedReads
import Spdylay.Wire.FixedFrames

/-! SETTINGS and CREDENTIAL payloads parsed with a size_t of `w` bits. Every read
is checked against the payload, and every sum and product of sizes is a word. -/
namespace Spdylay
open Library (Run readAt sliceAt word readAt_of_lt readAt_of_le sliceAt_of_le sliceAt_of_lt word_of_lt)

def getUint16At (payload : Bytes) (i : Nat) : Run Nat := do
  let data ← sliceAt payload i 2
  .returned (getUint16 data)

def getUint32At (payload : Bytes) (i : Nat) : Run Nat := do
  let data ← sliceAt payload i 4
  .returned (getUint32 data)

/-- One round of either loop of spdylay_frame_unpack_settings. -/
def unpackSettingsEntrySized (w version : Nat) (payload : Bytes) (i : Nat) : Run SettingsEntry :=
  let off := word w (i*8)
  if version = 2 then do
    let b0 ← readAt payload (word w (4+off))
    let b1 ← readAt payload (word w (4+off+1))
    let b2 ← readAt payload (word w (4+off+2))
    let flags ← readAt payload (word w (7+off))
    let value ← getUint32At payload (word w (8+off))
    .returned ⟨b0.toNat+b1.toNat*256+b2.toNat*65536,flags.toNat,value⟩
  else do
    let settingsId ← getUint32At payload (word w (4+off))
    let flags ← readAt payload (word w (4+off))
    let value ← getUint32At payload (word w (8+off))
    .returned ⟨settingsId % 16777216,flags.toNat,value⟩

def frameUnpackSettingsSized (w : Nat) (m : Mem) (head payload : Bytes) : Run (Mem × Except Err Settings) :=
  let hd := frameUnpackCtrlHd head
  if payload.length < 4 then .returned (m,.error .invalidFrame)
  else if hd.version ≠ 2 ∧ hd.version ≠ 3 then .returned (m,.error .unsupportedVersion)
  else do
    let niv ← getUint32At payload 0
    if payload.length ≠ word w (4+word w (niv*8)) then .returned (m,.error .invalidFrame)
    else if m.headD true then do
      let iv ← Run.collect (unpackSettingsEntrySized w hd.version payload) niv 0
      .returned (m.tail,.ok ⟨hd,iv⟩)
    else .returned (m.tail,.error .nomem)

/-- The number of certificates, starting at `n`; it stays below the range of the
int it is returned in. -/
def frameCountUnpackCertSized (w : Nat) (payload : Bytes) : Nat → Nat → Nat → Run (Except Err Nat)
  | 0, _, _ => .running
  | fuel+1, n, offset =>
    if payload.length < word w (offset+4) then .returned (.error .invalidFrame)
    else do
      let len ← getUint32At payload offset
      let offset := word w (offset+4)
      if payload.length < len ∨ payload.length < word w (offset+len) then .returned (.error .invalidFrame)
      else
        let offset := word w (offset+len)
        if offset = payload.length then .returned (.ok n)
        else frameCountUnpackCertSized w payload fuel (word w (n+1)) offset

/-- The second loop over the certificates, which checks nothing. -/
def copyCertsSized (w : Nat) (payload : Bytes) : Nat → Nat → Mem → Run (Mem × Option (List Bytes))
  | 0, _, m => .returned (m,some [])
  | ncerts+1, offset, m => do
    let len ← getUint32At payload offset
    let offset := word w (offset+4)
    if m.headD true then do
      let data ← sliceAt payload offset len
      let r ← copyCertsSized w payload ncerts (word w (offset+len)) m.tail
      .returned (r.1,r.2.map (fun certs => data :: certs))
    else .returned (m.tail,none)

def frameUnpackCertSized (w : Nat) (payload : Bytes) (ncerts : Nat) (m : Mem) : Run (Mem × Option (List Bytes)) :=
  if m.headD true then copyCertsSized w payload ncerts 0 m.tail else .returned (m.tail,none)

def frameUnpackCredentialSized (w : Nat) (m : Mem) (head payload : Bytes) : Run (Mem × Except Err Credential) :=
  if payload.length < 10 then .returned (m,.error .invalidFrame)
  else do
    let slot ← getUint16At payload 0
    let prooflen ← getUint32At payload 2
    if payload.length < prooflen ∨ payload.length < word w (6+prooflen) then .returned (m,.error .invalidFrame)
    else if m.headD true then do
      let proof ← sliceAt payload 6 prooflen
      let rest := payload.drop (word w (6+prooflen))
      let rv ← frameCountUnpackCertSized w rest payload.length 1 0
      match rv with
      | .error e => .returned (m.tail,.error e)
      | .ok ncerts =>
        let r ← frameUnpackCertSized w rest ncerts m.tail
        match r.2 with
        | some certs => .returned (r.1,.ok ⟨frameUnpackCtrlHd head,slot,proof,certs⟩)
        | none => .returned (r.1,.error .nomem)
    else .returned (m.tail,.error .nomem)

/-! Reads inside the payload give the words of the unchecked model. -/

theorem getUint32_take {d : Bytes} (h : 4 ≤ d.length) : getUint32 (d.take 4) = getUint32 d := by
  rw [← putUint32be_take h,getUint32_word (getUint32_lt d)]

theorem getUint32At_of_le {payload : Bytes} {i : Nat} (h : i+4 ≤ payload.length) :
    getUint32At payload i = .returned (getUint32 (payload.drop i)) := by
  rw [getUint32At,sliceAt_of_le h,Run.returned_bind,getUint32_take (by rw [List.length_drop]; omega)]

theorem getUint32At_of_lt {payload : Bytes} {i : Nat} (h : payload.length < i+4) :
    getUint32At payload i = .outside := by
  rw [getUint32At,sliceAt_of_lt h,Run.outside_bind]

theorem getUint16At_zero {payload : Bytes} (h : 2 ≤ payload.length) :
    getUint16At payload 0 = .returned (getUint16 payload) := by
  obtain ⟨a,b,rest,rfl⟩ : ∃ a b rest, payload = a :: b :: rest := by
    match payload, h with
    | a :: b :: rest, _ => exact ⟨a,b,rest,rfl⟩
  rw [getUint16At,sliceAt_of_le h]
  rfl

/-- The sizes of size_t on the machines in use. -/
def WordSize (w : Nat) : Prop := w = 32 ∨ w = 64

theorem WordSize.word_eq {w n : Nat} (hw : WordSize w) (h : n < 4294967296) : word w n = n := by
  apply word_of_lt
  obtain rfl | rfl := hw
  · exact h
  · omega

theorem readAt_drop {payload : Bytes} {a i k : Nat} (hk : k = a+i) (h : k < payload.length) :
    readAt payload k = .returned ((payload.drop a).getD i 0) := by
  subst hk
  rw [readAt_of_lt 0 h,List.getD_eq_getElem?_getD,List.getD_eq_getElem?_getD,List.getElem?_drop]

section Settings

variable {w version : Nat} {m : Mem} {head payload : Bytes}

theorem unpackSettingsEntrySized_of_le (hw : WordSize w) (hlen : payload.length < 16777216) {i : Nat}
    (h : 12+i*8 ≤ payload.length) :
    unpackSettingsEntrySized w version payload i = .returned (unpackSettingsEntry version (payload.drop (4+i*8))) := by
  have hoff : word w (i*8) = i*8 := hw.word_eq (by omega)
  have h4 : word w (4+i*8) = 4+i*8 := hw.word_eq (by omega)
  have h5 : word w (4+i*8+1) = 4+i*8+1 := hw.word_eq (by omega)
  have h6 : word w (4+i*8+2) = 4+i*8+2 := hw.word_eq (by omega)
  have h7 : word w (7+i*8) = 7+i*8 := hw.word_eq (by omega)
  have h8 : word w (8+i*8) = 8+i*8 := hw.word_eq (by omega)
  have hbyte (j k : Nat) (hk : k = 4+i*8+j) (hj : j < 8) :
      readAt payload k = .returned ((payload.drop (4+i*8)).getD j 0) := readAt_drop hk (by omega)
  have hvalue : getUint32At payload (8+i*8) = .returned (getUint32 ((payload.drop (4+i*8)).drop 4)) := by
    rw [getUint32At_of_le (by omega),List.drop_drop,show 4+i*8+4 = 8+i*8 by omega]
  rw [unpackSettingsEntrySized,unpackSettingsEntry,hoff,h4,h5,h6,h7,h8,hvalue,
    hbyte 0 (4+i*8) rfl (by omega)]
  split
  · rw [hbyte 1 (4+i*8+1) rfl (by omega),hbyte 2 (4+i*8+2) rfl (by omega),
      hbyte 3 (7+i*8) (by omega) (by omega)]
    rfl
  · rw [getUint32At_of_le (by omega)]
    rfl

/-- The entry that would start at the end of the payload. -/
theorem unpackSettingsEntrySized_end (hw : WordSize w) (hlen : payload.length < 16777216) {i : Nat}
    (h : payload.length = 4+i*8) : unpackSettingsEntrySized w version payload i = .outside := by
  have hoff : word w (i*8) = i*8 := hw.word_eq (by omega)
  have h4 : word w (4+i*8) = 4+i*8 := hw.word_eq (by omega)
  rw [unpackSettingsEntrySized,hoff,h4]
  split
  · rw [readAt_of_le h.le]
    rfl
  · rw [getUint32At_of_lt (by omega)]
    rfl

/-- The length check, which is made modulo the word size. -/
def CountFits (w : Nat) (payload : Bytes) : Prop := payload.length = word w (4+word w (getUint32 payload*8))

/-- The count passes the check although so many entries are not there, and the
entries are then allocated and read. -/
def CountWraps (w : Nat) (m : Mem) (head payload : Bytes) : Prop :=
  let version := (frameUnpackCtrlHd head).version
  (4 ≤ payload.length ∧ (version = 2 ∨ version = 3) ∧ m.headD true = true) ∧
    CountFits w payload ∧ payload.length ≠ 4+getUint32 payload*8

theorem CountFits.of_eq (hw : WordSize w) (hlen : payload.length < 16777216)
    (h : payload.length = 4+getUint32 payload*8) : CountFits w payload := by
  rw [CountFits,hw.word_eq (by omega : getUint32 payload*8 < 4294967296),hw.word_eq (by omega)]
  exact h

/-- The parser once the payload is long enough and the version known. -/
theorem frameUnpackSettingsSized_fits (h4 : 4 ≤ payload.length)
    (hversion : (frameUnpackCtrlHd head).version = 2 ∨ (frameUnpackCtrlHd head).version = 3)
    (h : CountFits w payload) :
    frameUnpackSettingsSized w m head payload = if m.headD true then do
        let iv ← Run.collect (unpackSettingsEntrySized w (frameUnpackCtrlHd head).version payload)
          (getUint32 payload) 0
        .returned (m.tail,.ok ⟨frameUnpackCtrlHd head,iv⟩)
      else .returned (m.tail,.error .nomem) := by
  rw [frameUnpackSettingsSized,if_neg (by omega),if_neg (by omega),getUint32At_of_le (by omega),List.drop_zero,
    Run.returned_bind]
  exact if_neg (not_not.mpr h)

/-- Where the count is judged as in unbounded arithmetic, the checked parser is
the unchecked one. -/
theorem frameUnpackSettingsSized_eq (hw : WordSize w) (hlen : payload.length < 16777216)
    (h : 4 ≤ payload.length →
      (frameUnpackCtrlHd head).version = 2 ∨ (frameUnpackCtrlHd head).version = 3 →
      CountFits w payload → payload.length = 4+getUint32 payload*8) :
    frameUnpackSettingsSized w m head payload = .returned (frameUnpackSettings m head payload payload.length) := by
  by_cases h4 : payload.length < 4
  · rw [frameUnpackSettingsSized,frameUnpackSettings,if_pos h4,if_pos h4]
  by_cases hversion : (frameUnpackCtrlHd head).version ≠ 2 ∧ (frameUnpackCtrlHd head).version ≠ 3
  · rw [frameUnpackSettingsSized,frameUnpackSettings,if_neg h4,if_pos hversion,if_neg h4,if_pos hversion]
  by_cases hfit : CountFits w payload
  · have hexact := h (by omega) (by omega) hfit
    rw [frameUnpackSettingsSized_fits (by omega) (by omega) hfit,frameUnpackSettings,if_neg h4,if_neg hversion]
    dsimp only
    rw [if_neg (not_not.mpr hexact)]
    split
    · have hcollect := Run.collect_returned (k := getUint32 payload) (i := 0)
        (f := unpackSettingsEntrySized w (frameUnpackCtrlHd head).version payload)
        (g := fun i => unpackSettingsEntry (frameUnpackCtrlHd head).version (payload.drop (4+i*8)))
        (fun j _ hj => unpackSettingsEntrySized_of_le hw hlen (by omega))
      rw [hcollect,List.range_eq_range']
      rfl
    · rfl
  · have hne : payload.length ≠ 4+getUint32 payload*8 := fun he => hfit (.of_eq hw hlen he)
    rw [frameUnpackSettingsSized,frameUnpackSettings,if_neg h4,if_neg hversion,if_neg h4,if_neg hversion,
      getUint32At_of_le (by omega),List.drop_zero,Run.returned_bind]
    refine (if_pos hfit).trans ?_
    exact congrArg Run.returned (if_pos hne).symm

/-- With the wrap the loop runs off the end of the payload. -/
theorem CountWraps.outside (hw : WordSize w) (hlen : payload.length < 16777216) (h : CountWraps w m head payload) :
    frameUnpackSettingsSized w m head payload = .outside := by
  obtain ⟨⟨h4,hversion,hmem⟩,hfit,hne⟩ := h
  have hniv := getUint32_lt payload
  obtain ⟨j,hj⟩ : ∃ j, payload.length = 4+j*8 ∧ j < getUint32 payload := by
    rw [CountFits,word,word] at hfit
    refine ⟨(payload.length-4)/8,?_,?_⟩ <;> obtain rfl | rfl := hw <;> omega
  have hcollect := Run.collect_outside (k := getUint32 payload) (i := 0) (j := j) (Nat.zero_le j) (by omega)
    (f := unpackSettingsEntrySized w (frameUnpackCtrlHd head).version payload)
    (g := fun i => unpackSettingsEntry (frameUnpackCtrlHd head).version (payload.drop (4+i*8)))
    (fun l _ hl => unpackSettingsEntrySized_of_le hw hlen (by omega))
    (unpackSettingsEntrySized_end hw hlen hj.1)
  rw [frameUnpackSettingsSized_fits h4 hversion hfit,if_pos hmem,hcollect]
  rfl

theorem not_countWraps_of_64 (hlen : payload.length < 16777216) : ¬ CountWraps 64 m head payload := by
  rintro ⟨-,hfit,hne⟩
  have hniv := getUint32_lt payload
  rw [CountFits,word,word] at hfit
  omega

end Settings

section Certificates

variable {w : Nat} {m : Mem} {head payload : Bytes}

/-- Every round takes at least four bytes, so that the fuel lasts. -/
theorem frameCountUnpackCertSized_eq (hw : WordSize w) (hlen : payload.length < 16777216) {fuel n offset : Nat}
    (hoff : offset ≤ payload.length) (hn : n ≤ offset+1) (hfuel : payload.length < offset+4*fuel) :
    frameCountUnpackCertSized w payload fuel n offset = .returned
      ((countUnpackCertLoop payload payload.length fuel offset).map (fun certs => n+certs.length-1)) := by
  induction fuel generalizing n offset with
  | zero => omega
  | succ fuel ih =>
    have h4 : word w (offset+4) = offset+4 := hw.word_eq (by omega)
    have h1 : word w (n+1) = n+1 := hw.word_eq (by omega)
    rw [frameCountUnpackCertSized,countUnpackCertLoop,h4,h1]
    by_cases hshort : payload.length < offset+4
    · rw [if_pos hshort,if_pos hshort]
      rfl
    rw [if_neg hshort,if_neg hshort,getUint32At_of_le (by omega),Run.returned_bind]
    dsimp only
    by_cases hlong : payload.length < getUint32 (payload.drop offset)
    · rw [if_pos (.inl hlong),if_pos (.inl hlong)]
      rfl
    have hword : word w (offset+4+getUint32 (payload.drop offset)) = offset+4+getUint32 (payload.drop offset) :=
      hw.word_eq (by omega)
    rw [hword]
    by_cases hover : payload.length < offset+4+getUint32 (payload.drop offset)
    · rw [if_pos (.inr hover),if_pos (.inr hover)]
      rfl
    rw [if_neg (not_or_intro hlong hover),if_neg (not_or_intro hlong hover)]
    by_cases hend : offset+4+getUint32 (payload.drop offset) = payload.length
    · rw [if_pos hend,if_pos hend]
      rfl
    rw [if_neg hend,if_neg hend,ih (by omega) (by omega) (by omega)]
    cases countUnpackCertLoop payload payload.length fuel (offset+4+getUint32 (payload.drop offset)) with
    | error e => rfl
    | ok rest =>
      have hcount : n+1+rest.length-1 = n+(rest.length+1)-1 := by omega
      exact congrArg (fun k => Run.returned (Except.ok k)) hcount

/-- The second loop finds what the first one has counted. -/
theorem copyCertsSized_eq (hw : WordSize w) (hlen : payload.length < 16777216) {fuel offset : Nat} {certs : List Bytes}
    (h : countUnpackCertLoop payload payload.length fuel offset = .ok certs) (m : Mem) :
    copyCertsSized w payload certs.length offset m = .returned ((mallocEach certs.length m).1,
      if (mallocEach certs.length m).2 then some certs else none) := by
  induction fuel generalizing offset certs m with
  | zero => cases h
  | succ fuel ih =>
    obtain ⟨hfit,rest,rfl,hrest⟩ := countUnpackCertLoop_cons h
    have h4 : word w (offset+4) = offset+4 := hw.word_eq (by omega)
    have hword : word w (offset+4+getUint32 (payload.drop offset)) = offset+4+getUint32 (payload.drop offset) :=
      hw.word_eq (by omega)
    rw [List.length_cons,copyCertsSized,getUint32At_of_le (by omega),Run.returned_bind,h4,mallocEach]
    dsimp only
    split
    · have hcopy : copyCertsSized w payload rest.length (offset+4+getUint32 (payload.drop offset)) m.tail =
          .returned ((mallocEach rest.length m.tail).1,
            if (mallocEach rest.length m.tail).2 then some rest else none) := by
        obtain ⟨-,rfl⟩ | hloop := hrest
        · rfl
        · exact ih hloop m.tail
      rw [sliceAt_of_le hfit,Run.returned_bind,hword,hcopy,Run.returned_bind]
      cases (mallocEach rest.length m.tail).2 <;> rfl
    · rfl

theorem frameUnpackCredentialSized_eq (hw : WordSize w) (hlen : payload.length < 16777216) :
    frameUnpackCredentialSized w m head payload =
      .returned (frameUnpackCredential m head payload payload.length) := by
  rw [frameUnpackCredentialSized,frameUnpackCredential]
  by_cases h10 : payload.length < 10
  · rw [if_pos h10,if_pos h10]
  rw [if_neg h10,if_neg h10,getUint16At_zero (by omega),getUint32At_of_le (by omega),Run.returned_bind,
    Run.returned_bind]
  dsimp only
  by_cases hlong : payload.length < getUint32 (payload.drop 2)
  · rw [if_pos (.inl hlong),if_pos (.inl hlong)]
  have hword : word w (6+getUint32 (payload.drop 2)) = 6+getUint32 (payload.drop 2) := hw.word_eq (by omega)
  rw [hword]
  by_cases hover : payload.length < 6+getUint32 (payload.drop 2)
  · rw [if_pos (.inr hover),if_pos (.inr hover)]
  rw [if_neg (not_or_intro hlong hover),if_neg (not_or_intro hlong hover)]
  split
  · have hdrop : (payload.drop (6+getUint32 (payload.drop 2))).length =
        payload.length-(6+getUint32 (payload.drop 2)) := List.length_drop
    rw [sliceAt_of_le (by omega),Run.returned_bind,
      frameCountUnpackCertSized_eq hw (by omega) (Nat.zero_le _) le_add_self (by omega),Run.returned_bind,← hdrop]
    cases hcount : countUnpackCertLoop (payload.drop (6+getUint32 (payload.drop 2)))
        (payload.drop (6+getUint32 (payload.drop 2))).length payload.length 0 with
    | error e => rfl
    | ok certs =>
      have hncerts : 1+certs.length-1 = certs.length := by omega
      rw [Except.map,hncerts]
      dsimp only
      rw [frameUnpackCertSized,mallocEach]
      split
      · rw [copyCertsSized_eq hw (by omega) hcount,Run.returned_bind]
        cases (mallocEach certs.length m.tail.tail).2 <;> rfl
      · rfl
  · rfl

end Certificates

section Grammar

variable {w : Nat} {m : Mem} {head payload : Bytes}

/-- A count and as many entries of eight bytes. -/
def IsSettingsPayload (payload : Bytes) : Prop :=
  ∃ n body, n < 4294967296 ∧ body.length = 8*n ∧ payload = putUint32be n ++ body

def IsCredentialPayload (payload slot proof : Bytes) (certs : List Bytes) : Prop :=
  slot.length = 2 ∧ certs ≠ [] ∧ payload = slot ++ (certBytes proof ++ certs.flatMap certBytes)

theorem isSettingsPayload_iff :
    IsSettingsPayload payload ↔ 4 ≤ payload.length ∧ payload.length = 4+getUint32 payload*8 := by
  constructor
  · rintro ⟨n,body,hn,hbody,rfl⟩
    rw [getUint32_put n body hn,List.length_append,length_putUint32be,hbody]
    omega
  · rintro ⟨h4,hlen⟩
    refine ⟨getUint32 payload,payload.drop 4,getUint32_lt payload,?_,(putUint32be_get h4).symm⟩
    rw [List.length_drop]
    omega

theorem frameUnpackSettings_ok_iff :
    (∃ m' f, frameUnpackSettings m head payload payload.length = (m',.ok f)) ↔
      ((frameUnpackCtrlHd head).version = 2 ∨ (frameUnpackCtrlHd head).version = 3) ∧
        IsSettingsPayload payload ∧ m.headD true = true := by
  rw [isSettingsPayload_iff,frameUnpackSettings]
  dsimp only
  constructor
  · rintro ⟨m',f,h⟩
    split at h
    · cases h
    split at h
    · cases h
    split at h
    · cases h
    split at h
    · rename_i h4 hversion hlen hmem
      exact ⟨by omega,⟨by omega,by omega⟩,hmem⟩
    · cases h
  · rintro ⟨hversion,⟨h4,hlen⟩,hmem⟩
    rw [if_neg h4.not_gt,if_neg (by omega),if_neg (not_not.mpr hlen),if_pos hmem]
    exact ⟨_,_,rfl⟩

theorem length_flatMap_certBytes (certs : List Bytes) : 4*certs.length ≤ (certs.flatMap certBytes).length := by
  induction certs with
  | nil => exact le_rfl
  | cons cert certs ih =>
    rw [List.flatMap_cons,List.length_append,certBytes,List.length_append,length_putUint32be,List.length_cons]
    omega

/-- The parts of a well-formed payload as the parser finds them. -/
theorem IsCredentialPayload.parts {slot proof : Bytes} {certs : List Bytes} (hlen : payload.length < 16777216)
    (h : IsCredentialPayload payload slot proof certs) :
    10 ≤ payload.length ∧ getUint32 (payload.drop 2) = proof.length ∧ 6+proof.length ≤ payload.length ∧
      countUnpackCertLoop (payload.drop (6+proof.length)) (payload.length-(6+proof.length)) payload.length 0 =
        .ok certs := by
  obtain ⟨hslot,hne,rfl⟩ := h
  rw [List.length_append,List.length_append,hslot,certBytes,List.length_append,length_putUint32be] at hlen
  have hcerts := length_flatMap_certBytes certs
  have hpos := List.length_pos_of_ne_nil hne
  have htotal : (slot ++ (certBytes proof ++ certs.flatMap certBytes)).length =
      6+proof.length+(certs.flatMap certBytes).length := by
    rw [List.length_append,List.length_append,hslot,certBytes,List.length_append,length_putUint32be]
    omega
  have hproof : (slot ++ (certBytes proof ++ certs.flatMap certBytes)).drop 2 =
      putUint32be proof.length ++ (proof ++ certs.flatMap certBytes) := by
    rw [List.drop_left' hslot,certBytes,List.append_assoc]
  have hrest : (slot ++ (certBytes proof ++ certs.flatMap certBytes)).drop (6+proof.length) =
      certs.flatMap certBytes := by
    rw [← List.append_assoc]
    apply List.drop_left'
    rw [List.length_append,certBytes,List.length_append,length_putUint32be,hslot]
    omega
  rw [htotal,hproof,hrest,getUint32_put _ _ (by omega),Nat.add_sub_cancel_left]
  refine ⟨by omega,rfl,by omega,?_⟩
  have hfits : ∀ c ∈ certs, c.length < 4294967296 := by
    intro c hc
    obtain ⟨pre,post,rfl⟩ := List.append_of_mem hc
    rw [List.flatMap_append,List.flatMap_cons,List.length_append,List.length_append,certBytes,
      List.length_append] at hlen
    omega
  exact countUnpackCertLoop_pack hne hfits [] (by omega) rfl

/-- The copied parts, put together again. -/
theorem credentialPayload_of_loop {fuel : Nat} {certs : List Bytes}
    (hfit : 6+getUint32 (payload.drop 2) ≤ payload.length)
    (h : countUnpackCertLoop (payload.drop (6+getUint32 (payload.drop 2)))
      (payload.length-(6+getUint32 (payload.drop 2))) fuel 0 = .ok certs) :
    IsCredentialPayload payload (payload.take 2) ((payload.drop 6).take (getUint32 (payload.drop 2))) certs := by
  rw [← List.length_drop] at h
  have hproof : ((payload.drop 6).take (getUint32 (payload.drop 2))).length = getUint32 (payload.drop 2) := by
    rw [List.length_take,List.length_drop]
    omega
  refine ⟨by rw [List.length_take]; omega,?_,?_⟩
  · rintro rfl
    cases fuel with
    | zero => cases h
    | succ fuel =>
      obtain ⟨-,rest,hrest,-⟩ := countUnpackCertLoop_cons h
      cases hrest
  · have hword := putUint32be_get (d := payload.drop 2) (by rw [List.length_drop]; omega)
    rw [List.drop_drop] at hword
    rw [certBytes,hproof,flatMap_certBytes h,List.drop_zero,List.append_assoc,← List.drop_drop (j := 6),
      List.take_append_drop]
    exact ((congrArg (payload.take 2 ++ ·) hword).trans (List.take_append_drop 2 payload)).symm

theorem frameUnpackCredential_ok_iff (hlen : payload.length < 16777216) :
    (∃ m' f, frameUnpackCredential m head payload payload.length = (m',.ok f)) ↔
      ∃ slot proof certs, IsCredentialPayload payload slot proof certs ∧
        (mallocEach (certs.length+2) m).2 = true := by
  constructor
  · rintro ⟨m',f,h⟩
    rw [frameUnpackCredential] at h
    split at h
    · cases h
    dsimp only at h
    split at h
    · cases h
    rename_i hfit
    split at h
    · rename_i hmem
      split at h
      · cases h
      · rename_i certs hloop
        split at h
        · rename_i hcerts
          refine ⟨_,_,certs,credentialPayload_of_loop (by omega) hloop,?_⟩
          rw [mallocEach,if_pos hmem]
          exact hcerts
        · cases h
    · cases h
  · rintro ⟨slot,proof,certs,h,hmem⟩
    obtain ⟨h10,hproof,hfit,hloop⟩ := h.parts hlen
    rw [mallocEach] at hmem
    split at hmem
    · rename_i hhead
      have hover : ¬ (payload.length < proof.length ∨ payload.length < 6+proof.length) := by omega
      rw [frameUnpackCredential,if_neg h10.not_gt]
      dsimp only
      rw [hproof,if_neg hover,if_pos hhead,hloop]
      dsimp only
      rw [if_pos hmem]
      exact ⟨_,_,rfl⟩
    · cases hmem

/-- No read outside the payload, and success exactly on the payloads of the
grammar when the array can be allocated. -/
structure SettingsExact (w : Nat) (m : Mem) (head payload : Bytes) : Prop where
  inside : ∃ r, frameUnpackSettingsSized w m head payload = .returned r
  success : (∃ m' f, frameUnpackSettingsSized w m head payload = .returned (m',.ok f)) ↔
    ((frameUnpackCtrlHd head).version = 2 ∨ (frameUnpackCtrlHd head).version = 3) ∧
      IsSettingsPayload payload ∧ m.headD true = true

/-- The same of a CREDENTIAL payload, whose proof, array of certificates and
certificates are allocated one by one. -/
structure CredentialExact (w : Nat) (m : Mem) (head payload : Bytes) : Prop where
  inside : ∃ r, frameUnpackCredentialSized w m head payload = .returned r
  success : (∃ m' f, frameUnpackCredentialSized w m head payload = .returned (m',.ok f)) ↔
    ∃ slot proof certs, IsCredentialPayload payload slot proof certs ∧ (mallocEach (certs.length+2) m).2 = true

structure ParsesExactly (w : Nat) (m : Mem) (head payload : Bytes) : Prop where
  settings : SettingsExact w m head payload
  credential : CredentialExact w m head payload
  countingEnds : ∀ fuel, payload.length < 4*fuel → ∃ r, frameCountUnpackCertSized w payload fuel 1 0 = .returned r

theorem returned_ok_iff {α β : Type} {a : Mem × Except α β} :
    (∃ m' f, Run.returned a = .returned (m',.ok f)) ↔ ∃ m' f, a = (m',.ok f) := by
  apply exists₂_congr
  intro m' f
  exact ⟨fun h => Run.returned.inj h,fun h => congrArg Run.returned h⟩

theorem SettingsExact.of_eq
    (h : frameUnpackSettingsSized w m head payload = .returned (frameUnpackSettings m head payload payload.length)) :
    SettingsExact w m head payload := by
  refine ⟨⟨_,h⟩,?_⟩
  rw [h]
  exact returned_ok_iff.trans frameUnpackSettings_ok_iff

/-- A wrapped count whose entries cannot be allocated does no harm. -/
theorem SettingsExact.of_nomem (hmem : ¬ m.headD true = true) (hlen : 4 ≤ payload.length)
    (hversion : (frameUnpackCtrlHd head).version = 2 ∨ (frameUnpackCtrlHd head).version = 3)
    (hfit : CountFits w payload) : SettingsExact w m head payload := by
  have hrun := (frameUnpackSettingsSized_fits (m := m) hlen hversion hfit).trans (if_neg hmem)
  refine ⟨⟨_,hrun⟩,?_,fun h => absurd h.2.2 hmem⟩
  rintro ⟨m',f,h⟩
  rw [hrun] at h
  cases h

theorem SettingsExact.of_not_wraps (hw : WordSize w) (hlen : payload.length < 16777216)
    (h : ¬ CountWraps w m head payload) : SettingsExact w m head payload := by
  by_cases hmem : m.headD true = true
  · apply SettingsExact.of_eq
    apply frameUnpackSettingsSized_eq hw hlen
    intro h4 hversion hfit
    by_contra hne
    exact h ⟨⟨h4,hversion,hmem⟩,hfit,hne⟩
  · by_cases hfit : 4 ≤ payload.length ∧
      ((frameUnpackCtrlHd head).version = 2 ∨ (frameUnpackCtrlHd head).version = 3) ∧ CountFits w payload
    · exact .of_nomem hmem hfit.1 hfit.2.1 hfit.2.2
    · apply SettingsExact.of_eq
      apply frameUnpackSettingsSized_eq hw hlen
      intro h4 hversion hcount
      exact absurd ⟨h4,hversion,hcount⟩ hfit

theorem CredentialExact.of_lt (hw : WordSize w) (hlen : payload.length < 16777216) :
    CredentialExact w m head payload := by
  have heq : frameUnpackCredentialSized w m head payload = _ := frameUnpackCredentialSized_eq hw hlen
  refine ⟨⟨_,heq⟩,?_⟩
  rw [heq]
  exact returned_ok_iff.trans (frameUnpackCredential_ok_iff hlen)

/-- Both parsers are exact and stay inside the payload, but for a count of
settings that wraps around in the length check. -/
theorem sized_payloads_exact_iff (hw : WordSize w) (hlen : payload.length < 16777216) :
    ParsesExactly w m head payload ↔ ¬ CountWraps w m head payload := by
  constructor
  · intro h hwrap
    obtain ⟨r,hr⟩ := h.settings.inside
    rw [hwrap.outside hw hlen] at hr
    cases hr
  · intro hwrap
    refine ⟨.of_not_wraps hw hlen hwrap,.of_lt hw hlen,?_⟩
    intro fuel hfuel
    exact ⟨_,frameCountUnpackCertSized_eq hw hlen (Nat.zero_le _) le_add_self (by omega)⟩

/-- One entry, and a proof of one byte with one certificate. -/
theorem small_payloads_exact :
    (frameUnpackSettingsSized 32 [] [128,3,0,4,0,0,0,12] [0,0,0,1,0,0,0,4,0,0,0,100] =
        .returned ([],.ok ⟨⟨3,0,12⟩,[⟨4,0,100⟩]⟩) ∧
      ParsesExactly 32 [] [128,3,0,4,0,0,0,12] [0,0,0,1,0,0,0,4,0,0,0,100]) ∧
    frameUnpackCredentialSized 32 [] [128,3,0,10,0,0,0,12] [0,1,0,0,0,1,7,0,0,0,1,8] =
        .returned ([],.ok ⟨⟨3,0,12⟩,1,[7],[[8]]⟩) ∧
      ParsesExactly 32 [] [128,3,0,10,0,0,0,12] [0,1,0,0,0,1,7,0,0,0,1,8] := by
  refine ⟨⟨?_,?_⟩,?_,?_⟩
  · decide +kernel
  · refine (sized_payloads_exact_iff (.inl rfl) (by decide)).mpr ?_
    rintro ⟨-,-,hwrap⟩
    exact hwrap (by decide)
  · decide +kernel
  · refine (sized_payloads_exact_iff (.inl rfl) (by decide)).mpr ?_
    rintro ⟨-,hfits,-⟩
    revert hfits
    rw [CountFits]
    decide

/-- A frame of one entry that announces 2^30+1 of them. -/
def hugeSettings : Bytes := [64,0,0,1,0,0,0,4,0,0,0,100]

theorem huge_settings_read_outside :
    frameUnpackSettingsSized 32 [] [128,3,0,4,0,0,0,12] hugeSettings = .outside ∧
      ¬ ParsesExactly 32 [] [128,3,0,4,0,0,0,12] hugeSettings := by
  have hwrap : CountWraps 32 [] [128,3,0,4,0,0,0,12] hugeSettings :=
    ⟨⟨by decide,.inr (by decide),rfl⟩,by rw [CountFits]; decide,by decide⟩
  refine ⟨hwrap.outside (.inl rfl) (by decide),fun h => ?_⟩
  obtain ⟨r,hr⟩ := h.settings.inside
  rw [hwrap.outside (.inl rfl) (by decide)] at hr
  cases hr

end Grammar

end Spdylay
