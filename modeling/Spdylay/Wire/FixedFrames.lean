import Spdylay.Library.Records
import Spdylay.Wire.ControlFrames
import Spdylay.Wire.HeaderBlocks

/-! Control frames without a name/value block, written and read. Writing what was read
gives the bytes again where the reserved bits are zero, as the parsers drop these. -/
namespace Spdylay
open Library

/-! Words. -/

theorem putUint16be_get {d : Bytes} (h : 2 ≤ d.length) : putUint16be (getUint16 d) ++ d.drop 2 = d :=
  putNvLen_get (.inl rfl) h

theorem putUint32be_get {d : Bytes} (h : 4 ≤ d.length) : putUint32be (getUint32 d) ++ d.drop 4 = d :=
  putNvLen_get (.inr rfl) h

theorem putUint32be_take {d : Bytes} (h : 4 ≤ d.length) : putUint32be (getUint32 d) = d.take 4 := by
  have hput := putUint32be_get h
  conv_rhs => rw [← hput]
  rfl

theorem putUint32be_word {d : Bytes} (h : d.length = 4) : putUint32be (getUint32 d) = d := by
  rw [putUint32be_take h.ge, List.take_of_length_le h.le]

theorem putUint32be_words {d : Bytes} (h : d.length = 8) :
    putUint32be (getUint32 d) ++ putUint32be (getUint32 (d.drop 4)) = d := by
  have hrest : (d.drop 4).length = 4 := by
    rw [List.length_drop]
    omega
  rw [putUint32be_word hrest, putUint32be_get (by omega)]

theorem toUint32_getStreamId {d : Bytes} (h : getUint32 d < streamIdMask) : toUint32 (getStreamId d) = getUint32 d := by
  unfold toUint32 getStreamId
  unfold streamIdMask at h ⊢
  omega

theorem getStreamId_toUint32 {n : Int} (h0 : 0 ≤ n) (h : n ≤ int32Max) (rest : Bytes) :
    getStreamId (putUint32be (toUint32 n) ++ rest) = n := by
  have hn : toUint32 n = n.toNat := by
    unfold toUint32
    unfold int32Max at h
    omega
  unfold getStreamId streamIdMask
  unfold int32Max at h
  rw [hn, getUint32_put _ _ (by omega)]
  omega

@[simp] theorem length_putUint16be (n : Nat) : (putUint16be n).length = 2 := rfl

@[simp] theorem length_putUint32be (n : Nat) : (putUint32be n).length = 4 := rfl

@[simp] theorem drop_putUint16be (n : Nat) (rest : Bytes) : (putUint16be n ++ rest).drop 2 = rest := rfl

@[simp] theorem drop_putUint32be (n : Nat) (rest : Bytes) : (putUint32be n ++ rest).drop 4 = rest := rfl

theorem getUint32_word {n : Nat} (h : n < 4294967296) : getUint32 (putUint32be n) = n := by
  have hput := getUint32_put n [] h
  rwa [List.append_nil] at hput

theorem getStreamId_word {n : Int} (h0 : 0 ≤ n) (h : n ≤ int32Max) : getStreamId (putUint32be (toUint32 n)) = n := by
  have hput := getStreamId_toUint32 h0 h []
  rwa [List.append_nil] at hput

/-! Headers. -/

/-- A header whose fields fit their places. -/
structure CtrlHd.Fits (hd : CtrlHd) : Prop where
  version : hd.version < 32768
  flags : hd.flags < 256
  length : hd.length < 16777216

theorem or_high_bit {n : Nat} (h : n < 32768) : n ||| 32768 = n+32768 := by
  rw [Nat.or_comm, show 32768 = 2^15*1 from rfl, ← Nat.two_pow_add_eq_or_of_lt h]
  omega

theorem frameUnpackCtrlHd_pack {hd : CtrlHd} (h : hd.Fits) (type : FrameType) :
    frameUnpackCtrlHd (framePackCtrlHd type hd) = hd := by
  obtain ⟨hv, hf, hl⟩ := h
  unfold frameUnpackCtrlHd framePackCtrlHd
  rw [or_high_bit hv]
  simp only [putUint16be, putUint32be, getUint16, getUint32, List.cons_append, List.nil_append, List.tail_cons,
    List.drop_succ_cons, List.drop_zero, List.getD_cons_zero, List.getD_cons_succ, UInt8.toNat_ofNat']
  cases hd
  simp only [CtrlHd.mk.injEq] at hv hf hl ⊢
  omega

/-- The header of a control frame of the type, with this payload length. -/
structure HeadOf (type : FrameType) (payloadlen : Nat) (head : Bytes) : Prop where
  length : head.length = headLen
  ctrl : frameIsCtrlFrame (head.getD 0 0) = true
  number : getUint16 (head.drop 2) = type.num
  payload : getUint32 (head.drop 4) % 16777216 = payloadlen

/-- The flags stand in the top byte of the word and the length below it. -/
theorem putUint32be_tail {n m : Nat} (h : n % 16777216 = m % 16777216) :
    (putUint32be n).tail = (putUint32be m).tail := by
  have hbyte {a b : Nat} (hab : a % 256 = b % 256) : UInt8.ofNat a = UInt8.ofNat b := by
    rw [← UInt8.toNat_inj, UInt8.toNat_ofNat', UInt8.toNat_ofNat']
    exact hab
  unfold putUint32be
  rw [List.tail_cons, List.tail_cons, hbyte (a := n/65536) (b := m/65536) (by omega),
    hbyte (a := n/256) (b := m/256) (by omega), hbyte (a := n) (b := m) (by omega)]

theorem putUint32be_flags {n : Nat} {d : Bytes} (hd : 4 ≤ d.length) (h : n % 16777216 = getUint32 d % 16777216) :
    UInt8.ofNat (d.getD 0 0).toNat :: (putUint32be n).tail = d.take 4 := by
  have hput := putUint32be_take hd
  cases d with
  | nil => simp at hd
  | cons a rest =>
    have htail := congrArg List.tail hput
    rw [putUint32be_tail h, UInt8.ofNat_toNat, htail]
    rfl

theorem framePackCtrlHd_unpack {type : FrameType} {n : Nat} {head : Bytes} (h : HeadOf type n head) :
    framePackCtrlHd type (frameUnpackCtrlHd head) = head := by
  have hlen : head.length = 8 := h.length
  have hversion : getUint16 head % 32768 ||| 32768 = getUint16 head := by
    have hctrl := h.ctrl
    have hlt := (head.getD 0 0).toNat_lt
    have hlow := (head.getD 1 0).toNat_lt
    unfold frameIsCtrlFrame at hctrl
    rw [decide_eq_true_eq, UInt8.le_iff_toNat_le] at hctrl
    rw [or_high_bit (Nat.mod_lt _ (by decide))]
    unfold getUint16
    change 128 ≤ _ at hctrl
    omega
  have hword : UInt8.ofNat (head.getD 4 0).toNat :: (putUint32be (getUint32 (head.drop 4) % 16777216)).tail =
      head.drop 4 := by
    have hflags := putUint32be_flags (n := getUint32 (head.drop 4) % 16777216) (d := head.drop 4)
      (by rw [List.length_drop]; omega) (Nat.mod_mod _ _)
    rw [List.take_of_length_le (by rw [List.length_drop]; omega)] at hflags
    have hbyte : (head.drop 4).getD 0 0 = head.getD 4 0 := by simp [List.getD_eq_getElem?_getD]
    rwa [hbyte] at hflags
  have htype := putUint16be_get (d := head.drop 2) (by rw [List.length_drop]; omega)
  rw [List.drop_drop, h.number] at htype
  have hhead := putUint16be_get (d := head) (by omega)
  unfold framePackCtrlHd frameUnpackCtrlHd
  rw [hversion, hword, List.append_assoc, htype, hhead]

/-! SETTINGS entries. -/

structure SettingsEntry.Fits (e : SettingsEntry) : Prop where
  settingsId : e.settingsId < 16777216
  flags : e.flags < 256
  value : e.value < 4294967296

theorem packSettingsEntry_width (version : Nat) (e : SettingsEntry) : (packSettingsEntry version e).length = 8 := by
  unfold packSettingsEntry
  split <;> rfl

theorem unpackSettingsEntry_pack {e : SettingsEntry} (h : e.Fits) (version : Nat) (rest : Bytes) :
    unpackSettingsEntry version (packSettingsEntry version e ++ rest) = e := by
  obtain ⟨hid, hflags, hvalue⟩ := h
  cases e
  dsimp only at hid hflags hvalue
  unfold unpackSettingsEntry packSettingsEntry
  split
  all_goals
    simp only [putUint32be, getUint32, List.cons_append, List.nil_append, List.tail_cons, List.drop_succ_cons,
      List.drop_zero, List.getD_cons_zero, List.getD_cons_succ, UInt8.toNat_ofNat', SettingsEntry.mk.injEq]
    omega

theorem exists_four_cons {d : Bytes} (h : 4 ≤ d.length) : ∃ a b c e rest, d = a :: b :: c :: e :: rest := by
  match d, h with
  | a :: b :: c :: e :: rest, _ => exact ⟨a,b,c,e,rest,rfl⟩

theorem packSettingsEntry_unpack (version : Nat) (d : Bytes) (h : 8 ≤ d.length) :
    packSettingsEntry version (unpackSettingsEntry version d) = d.take 8 := by
  have hvalue := putUint32be_take (d := d.drop 4) (by rw [List.length_drop]; omega)
  have hsplit : d.take 8 = d.take 4 ++ (d.drop 4).take 4 := by rw [← List.take_add]
  unfold packSettingsEntry unpackSettingsEntry
  rw [hsplit]
  split
  · dsimp only
    rw [hvalue]
    congr 1
    obtain ⟨a, b, c, e, rest, rfl⟩ := exists_four_cons (d := d) (by omega)
    have hbyte {n : Nat} {x : UInt8} (hx : n % 256 = x.toNat) : UInt8.ofNat n = x := by
      rw [← UInt8.toNat_inj, UInt8.toNat_ofNat']
      exact hx
    have := a.toNat_lt
    have := b.toNat_lt
    have := c.toNat_lt
    simp only [List.getD_cons_zero, List.getD_cons_succ, UInt8.ofNat_toNat]
    rw [hbyte (x := a) (by omega), hbyte (x := b) (by omega), hbyte (x := c) (by omega)]
    rfl
  · dsimp only
    rw [hvalue, ← putUint32be_flags (n := getUint32 d % 16777216) (d := d) (by omega) (Nat.mod_mod _ _)]

/-! Certificates. -/

def certBytes (cert : Bytes) : Bytes := putUint32be cert.length ++ cert

theorem countUnpackCertLoop_pack {certs : List Bytes} (hne : certs ≠ []) (hlen : ∀ c ∈ certs, c.length < 4294967296)
    (pre : Bytes) {fuel : Nat} (hfuel : certs.length ≤ fuel) {payload : Bytes}
    (hp : payload = pre ++ certs.flatMap certBytes) :
    countUnpackCertLoop payload payload.length fuel pre.length = .ok certs := by
  induction certs generalizing pre fuel with
  | nil => exact absurd rfl hne
  | cons cert certs ih =>
    obtain ⟨hc, hcs⟩ := List.forall_mem_cons.mp hlen
    obtain ⟨fuel, rfl⟩ : ∃ n, fuel = n+1 := ⟨fuel-1, by rw [List.length_cons] at hfuel; omega⟩
    have hdrop : payload.drop pre.length = putUint32be cert.length ++ (cert ++ certs.flatMap certBytes) := by
      rw [hp, List.drop_left, List.flatMap_cons, certBytes, List.append_assoc]
    have hbody : payload.drop (pre.length+4) = cert ++ certs.flatMap certBytes := by
      rw [← List.drop_drop, hdrop]
      rfl
    have htotal : payload.length = pre.length+4+cert.length+(certs.flatMap certBytes).length := by
      have := congrArg List.length hp
      rw [List.flatMap_cons, certBytes, List.length_append, List.length_append, List.length_append] at this
      rw [this]
      change pre.length+(4+cert.length+_) = _
      omega
    unfold countUnpackCertLoop
    rw [hdrop, getUint32_put _ _ hc, hbody]
    dsimp only
    rw [List.take_left, if_neg (by omega), if_neg (by omega)]
    by_cases hlast : certs = []
    · subst hlast
      exact if_pos htotal.symm
    · have hmore : pre.length+4+cert.length ≠ payload.length := by
        obtain ⟨c, rest, rfl⟩ := List.exists_cons_of_ne_nil hlast
        rw [htotal, List.flatMap_cons, certBytes, List.length_append, List.length_append]
        change _ ≠ _+(4+_+_)
        omega
      have hpre : payload = pre ++ certBytes cert ++ certs.flatMap certBytes := by
        rw [hp, List.flatMap_cons, List.append_assoc]
      have hless : certs.length ≤ fuel := by
        rw [List.length_cons] at hfuel
        omega
      have hrest := ih hlast hcs (pre ++ certBytes cert) hless hpre
      have hoff : (pre ++ certBytes cert).length = pre.length+4+cert.length := by
        rw [List.length_append, certBytes, List.length_append]
        change _+(4+_) = _
        omega
      rw [hoff] at hrest
      rw [if_neg hmore, hrest]

/-- What the loop has checked of one certificate when it succeeds. -/
theorem countUnpackCertLoop_cons {payload : Bytes} {fuel offset : Nat} {certs : List Bytes}
    (h : countUnpackCertLoop payload payload.length (fuel+1) offset = .ok certs) :
    let len := getUint32 (payload.drop offset)
    offset+4+len ≤ payload.length ∧ ∃ rest, certs = (payload.drop (offset+4)).take len :: rest ∧
      (offset+4+len = payload.length ∧ rest = [] ∨
        countUnpackCertLoop payload payload.length fuel (offset+4+len) = .ok rest) := by
  rw [countUnpackCertLoop] at h
  dsimp only at h ⊢
  split at h
  · cases h
  split at h
  · cases h
  rename_i hfit
  refine ⟨by omega,?_⟩
  split at h
  · rename_i hend
    cases h
    exact ⟨[],rfl,.inl ⟨hend,rfl⟩⟩
  · cases hrest : countUnpackCertLoop payload payload.length fuel (offset+4+getUint32 (payload.drop offset)) with
    | error e =>
      rw [hrest] at h
      cases h
    | ok rest =>
      rw [hrest] at h
      cases h
      exact ⟨rest,rfl,.inr rfl⟩

theorem flatMap_certBytes {payload : Bytes} {fuel offset : Nat} {certs : List Bytes}
    (h : countUnpackCertLoop payload payload.length fuel offset = .ok certs) :
    certs.flatMap certBytes = payload.drop offset := by
  induction fuel generalizing offset certs with
  | zero => cases h
  | succ fuel ih =>
    obtain ⟨hfit,rest,rfl,hrest⟩ := countUnpackCertLoop_cons h
    have hcert : certBytes ((payload.drop (offset+4)).take (getUint32 (payload.drop offset))) ++
        payload.drop (offset+4+getUint32 (payload.drop offset)) = payload.drop offset := by
      have hword := putUint32be_get (d := payload.drop offset) (by rw [List.length_drop]; omega)
      rw [List.drop_drop] at hword
      have hlen : getUint32 (payload.drop offset) ≤ (payload.drop (offset+4)).length := by
        rw [List.length_drop]
        omega
      rw [certBytes, List.append_assoc, List.length_take_of_le hlen, ← List.drop_drop (j := offset+4),
        List.take_append_drop, hword]
    rw [List.flatMap_cons]
    obtain ⟨hend,rfl⟩ | hloop := hrest
    · rw [List.drop_eq_nil_of_le hend.ge] at hcert
      exact hcert
    · rw [ih hloop, hcert]

theorem headD_true {m : Mem} (h : ∀ ok ∈ m, ok = true) : m.headD true = true := by
  cases m with
  | nil => rfl
  | cons ok m => exact h ok List.mem_cons_self

theorem mallocEach_true {n : Nat} {m : Mem} (h : ∀ ok ∈ m, ok = true) : (mallocEach n m).2 = true := by
  induction n generalizing m with
  | zero => rfl
  | succ n ih =>
    unfold mallocEach
    cases m with
    | nil => exact ih nofun
    | cons ok m =>
      obtain ⟨rfl, hm⟩ := List.forall_mem_cons.mp h
      exact ih hm

/-! The frames together. -/

inductive FixedFrame
  | ping (f : Ping)
  | goaway (f : Goaway)
  | rstStream (f : RstStream)
  | windowUpdate (f : WindowUpdate)
  | settings (f : Settings)
  | credential (f : Credential)
  deriving DecidableEq, Repr

namespace FixedFrame

def type : FixedFrame → FrameType
  | ping _ => .ping
  | goaway _ => .goaway
  | rstStream _ => .rstStream
  | windowUpdate _ => .windowUpdate
  | settings _ => .settings
  | credential _ => .credential

def hd : FixedFrame → CtrlHd
  | ping f => f.hd
  | goaway f => f.hd
  | rstStream f => f.hd
  | windowUpdate f => f.hd
  | settings f => f.hd
  | credential f => f.hd

def pack : FixedFrame → Except Err Bytes
  | ping f => .ok (framePackPing f)
  | goaway f => framePackGoaway f
  | rstStream f => .ok (framePackRstStream f)
  | windowUpdate f => .ok (framePackWindowUpdate f)
  | settings f => framePackSettings f
  | credential f => .ok (framePackCredential f)

/-- The parser of the type; the other types have none without a name/value block. -/
def unpack (m : Mem) (type : FrameType) (head payload : Bytes) (payloadlen : Nat) : Option (Except Err FixedFrame) :=
  match type with
  | .ping => some ((frameUnpackPing head payload payloadlen).map ping)
  | .goaway => some ((frameUnpackGoaway head payload payloadlen).map goaway)
  | .rstStream => some ((frameUnpackRstStream head payload payloadlen).map rstStream)
  | .windowUpdate => some ((frameUnpackWindowUpdate head payload payloadlen).map windowUpdate)
  | .settings => some ((frameUnpackSettings m head payload payloadlen).2.map settings)
  | .credential => some ((frameUnpackCredential m head payload payloadlen).2.map credential)
  | .synStream | .synReply | .headers | .noop => none

def payloadLength : FixedFrame → Nat
  | ping _ => 4
  | goaway f => if f.hd.version = 2 then 4 else 8
  | rstStream _ => 8
  | windowUpdate _ => 8
  | settings f => 4+f.iv.length*8
  | credential f => 6+f.proof.length+(f.certs.map (fun c => 4+c.length)).sum

/-- An id or a window of 31 bits. -/
def Fits31 (n : Int) : Prop := 0 ≤ n ∧ n ≤ int32Max

/-- The ranges of the fields beside the header. -/
def FieldsFit : FixedFrame → Prop
  | ping f => f.uniqueId < 4294967296
  | goaway f => Fits31 f.lastGoodStreamId ∧ f.statusCode < 4294967296
  | rstStream f => Fits31 f.streamId ∧ f.statusCode < 4294967296
  | windowUpdate f => Fits31 f.streamId ∧ Fits31 f.deltaWindowSize
  | settings f => ∀ e ∈ f.iv, e.Fits
  | credential f => f.slot < 65536 ∧ f.certs ≠ []

structure InRange (f : FixedFrame) : Prop where
  version : f.hd.version = 2 ∨ f.hd.version = 3
  flags : f.hd.flags < 256
  length : f.hd.length = f.payloadLength
  small : f.payloadLength < 16777216
  fields : f.FieldsFit

/-- A GOAWAY of SPDY/2 has no place for a status code. -/
def received : FixedFrame → FixedFrame
  | goaway f => goaway (if f.hd.version = 2 then {f with statusCode := 0} else f)
  | f => f

/-- The bits before the fields of 31 bits are zero. -/
def ReservedZero (type : FrameType) (payload : Bytes) : Prop :=
  match type with
  | .goaway | .rstStream => getUint32 payload < streamIdMask
  | .windowUpdate => getUint32 payload < streamIdMask ∧ getUint32 (payload.drop 4) < streamIdMask
  | _ => True

/-! What was written is read back. -/

theorem InRange.hdFits {f : FixedFrame} (h : f.InRange) : f.hd.Fits :=
  ⟨by rcases h.version with h | h <;> omega,h.flags,h.length ▸ h.small⟩

theorem headOf_pack {f : FixedFrame} (h : f.InRange) : HeadOf f.type f.payloadLength (framePackCtrlHd f.type f.hd) := by
  refine ⟨rfl,?_,?_,?_⟩
  · have hv := h.hdFits.version
    unfold frameIsCtrlFrame framePackCtrlHd
    rw [or_high_bit hv, decide_eq_true_eq, UInt8.le_iff_toNat_le]
    change 128 ≤ (UInt8.ofNat ((f.hd.version+32768)/256)).toNat
    rw [UInt8.toNat_ofNat']
    omega
  · have hnum : f.type.num < 65536 := by cases f <;> exact of_decide_eq_true rfl
    unfold framePackCtrlHd
    rw [List.append_assoc]
    exact getUint16_put _ _ hnum
  · have hlen := congrArg CtrlHd.length (frameUnpackCtrlHd_pack h.hdFits f.type)
    exact hlen.trans h.length

/-- The parser of the frame's type returns the frame from its bytes. -/
def ComesBack (m : Mem) (f : FixedFrame) : Prop :=
  ∃ head payload, f.pack = .ok (head ++ payload) ∧ HeadOf f.type f.payloadLength head ∧
    payload.length = f.payloadLength ∧ unpack m f.type head payload payload.length = some (.ok f.received)

theorem ping_comesBack (m : Mem) {f : Ping} (h : (ping f).InRange) : ComesBack m (ping f) := by
  have hhd : frameUnpackCtrlHd (framePackCtrlHd .ping f.hd) = f.hd := frameUnpackCtrlHd_pack h.hdFits _
  have hid := getUint32_word h.fields
  refine ⟨_,_,rfl,headOf_pack h,rfl,?_⟩
  simp [unpack, type, frameUnpackPing, hhd, hid, received, Except.map]

theorem goaway_comesBack (m : Mem) {f : Goaway} (h : (goaway f).InRange) : ComesBack m (goaway f) := by
  have hhd : frameUnpackCtrlHd (framePackCtrlHd .goaway f.hd) = f.hd := frameUnpackCtrlHd_pack h.hdFits _
  obtain ⟨⟨h0, hmax⟩, hstatus⟩ := h.fields
  rcases h.version with hv | hv
  · change f.hd.version = 2 at hv
    have hid := getStreamId_word h0 hmax
    refine ⟨framePackCtrlHd .goaway f.hd,putUint32be (toUint32 f.lastGoodStreamId),?_,headOf_pack h,?_,?_⟩
    · simp [pack, framePackGoaway, hv]
    · simp [payloadLength, hv]
    · simp [unpack, type, frameUnpackGoaway, hhd, hv, hid, received, Except.map]
  · change f.hd.version = 3 at hv
    have hid := getStreamId_toUint32 h0 hmax (putUint32be f.statusCode)
    have hcode := getUint32_word hstatus
    refine ⟨framePackCtrlHd .goaway f.hd,putUint32be (toUint32 f.lastGoodStreamId) ++ putUint32be f.statusCode,
      ?_,headOf_pack h,?_,?_⟩
    · simp [pack, framePackGoaway, hv]
    · simp [payloadLength, hv]
    · simp [unpack, type, frameUnpackGoaway, hhd, hv, hid, hcode, received, Except.map]

theorem rstStream_comesBack (m : Mem) {f : RstStream} (h : (rstStream f).InRange) : ComesBack m (rstStream f) := by
  have hhd : frameUnpackCtrlHd (framePackCtrlHd .rstStream f.hd) = f.hd := frameUnpackCtrlHd_pack h.hdFits _
  obtain ⟨⟨h0, hmax⟩, hstatus⟩ := h.fields
  have hid := getStreamId_toUint32 h0 hmax (putUint32be f.statusCode)
  have hcode := getUint32_word hstatus
  refine ⟨_,_,congrArg Except.ok (List.append_assoc _ _ _),headOf_pack h,rfl,?_⟩
  simp [unpack, type, frameUnpackRstStream, hhd, hid, hcode, received, Except.map]

theorem windowUpdate_comesBack (m : Mem) {f : WindowUpdate} (h : (windowUpdate f).InRange) :
    ComesBack m (windowUpdate f) := by
  have hhd : frameUnpackCtrlHd (framePackCtrlHd .windowUpdate f.hd) = f.hd := frameUnpackCtrlHd_pack h.hdFits _
  obtain ⟨⟨h0, hmax⟩, hd0, hdmax⟩ := h.fields
  have hid := getStreamId_toUint32 h0 hmax (putUint32be (toUint32 f.deltaWindowSize))
  have hdelta := getStreamId_word hd0 hdmax
  refine ⟨_,_,congrArg Except.ok (List.append_assoc _ _ _),headOf_pack h,rfl,?_⟩
  simp [unpack, type, frameUnpackWindowUpdate, hhd, hid, hdelta, received, Except.map]

theorem settings_comesBack {m : Mem} (hm : ∀ ok ∈ m, ok = true) {f : Settings} (h : (settings f).InRange) :
    ComesBack m (settings f) := by
  have hhd : frameUnpackCtrlHd (framePackCtrlHd .settings f.hd) = f.hd := frameUnpackCtrlHd_pack h.hdFits _
  have hsmall : 4+f.iv.length*8 < 16777216 := h.small
  have hcount := getUint32_put f.iv.length (f.iv.flatMap (packSettingsEntry f.hd.version)) (by omega)
  have hwidth : (f.iv.flatMap (packSettingsEntry f.hd.version)).length = f.iv.length*8 := by
    simp [List.length_flatMap, packSettingsEntry_width]
  have hentries : (List.range f.iv.length).map (fun i => unpackSettingsEntry f.hd.version
      ((putUint32be f.iv.length ++ f.iv.flatMap (packSettingsEntry f.hd.version)).drop (4+i*8))) = f.iv := by
    simp only [← List.drop_drop, drop_putUint32be]
    exact Records.readAll_flatMap (packSettingsEntry_width _)
      (fun e he rest => unpackSettingsEntry_pack (h.fields e he) _ rest)
  have hmem := headD_true hm
  refine ⟨framePackCtrlHd .settings f.hd,
    putUint32be f.iv.length ++ f.iv.flatMap (packSettingsEntry f.hd.version),?_,headOf_pack h,?_,?_⟩
  · have hv := h.version
    change f.hd.version = 2 ∨ f.hd.version = 3 at hv
    simp [pack, framePackSettings, hv]
  · simp [payloadLength, hwidth]
  · have hv : ¬(f.hd.version ≠ 2 ∧ f.hd.version ≠ 3) := by
      have := h.version
      change f.hd.version = 2 ∨ f.hd.version = 3 at this
      omega
    unfold unpack frameUnpackSettings
    simp only [type, hhd, hcount, hentries, hmem, List.length_append, length_putUint32be, hwidth]
    rw [if_neg (by omega), if_neg hv, if_neg (by omega)]
    rfl

theorem credential_comesBack {m : Mem} (hm : ∀ ok ∈ m, ok = true) {f : Credential} (h : (credential f).InRange) :
    ComesBack m (credential f) := by
  have hhd : frameUnpackCtrlHd (framePackCtrlHd .credential f.hd) = f.hd := frameUnpackCtrlHd_pack h.hdFits _
  obtain ⟨hslot, hne⟩ := h.fields
  have hsmall : 6+f.proof.length+(f.certs.map (fun c => 4+c.length)).sum < 16777216 := h.small
  have hcertlen : ∀ c ∈ f.certs, c.length < 4294967296 := by
    intro c hc
    have := List.le_sum_of_mem (List.mem_map_of_mem (f := fun c : Bytes => 4+c.length) hc)
    omega
  have hcerts : (f.certs.flatMap certBytes).length = (f.certs.map (fun c => 4+c.length)).sum := by
    simp [List.length_flatMap, certBytes]
  have hmany : f.certs.length ≤ (f.certs.map (fun c => 4+c.length)).sum := by
    rw [← List.length_map (fun c : Bytes => 4+c.length)]
    apply List.length_le_sum_of_one_le
    intro n hn
    obtain ⟨c, -, rfl⟩ := List.mem_map.mp hn
    omega
  have hfour : 4 ≤ (f.certs.map (fun c => 4+c.length)).sum := by
    obtain ⟨c, cs, hcs⟩ := List.exists_cons_of_ne_nil hne
    rw [hcs, List.map_cons, List.sum_cons]
    omega
  let rest := f.proof ++ f.certs.flatMap certBytes
  have hprooflen : getUint32 (putUint32be f.proof.length ++ rest) = f.proof.length := getUint32_put _ _ (by omega)
  have hdrop : (putUint16be f.slot ++ (putUint32be f.proof.length ++ rest)).drop (6+f.proof.length) =
      f.certs.flatMap certBytes := by
    rw [← List.drop_drop]
    exact List.drop_left
  have hproof : ((putUint16be f.slot ++ (putUint32be f.proof.length ++ rest)).drop 6).take f.proof.length = f.proof :=
    List.take_left
  have hloop : countUnpackCertLoop (f.certs.flatMap certBytes) (f.certs.flatMap certBytes).length
      (6+(f.proof.length+(f.certs.flatMap certBytes).length)) 0 = .ok f.certs :=
    countUnpackCertLoop_pack hne hcertlen [] (by omega) rfl
  refine ⟨framePackCtrlHd .credential f.hd,putUint16be f.slot ++ (putUint32be f.proof.length ++ rest),
    ?_,headOf_pack h,?_,?_⟩
  · simp only [pack, framePackCredential, rest, List.append_assoc]
    rfl
  · simp [payloadLength, rest, hcerts]
    omega
  · have htotal : (putUint16be f.slot ++ (putUint32be f.proof.length ++ rest)).length =
        6+(f.proof.length+(f.certs.flatMap certBytes).length) := by
      simp [rest]
      omega
    have hsub : 6+(f.proof.length+(f.certs.flatMap certBytes).length)-(6+f.proof.length) =
        (f.certs.flatMap certBytes).length := by omega
    have hmem := headD_true hm
    have htail : ∀ ok ∈ m.tail, ok = true := fun ok hok => hm ok (List.mem_of_mem_tail hok)
    unfold unpack frameUnpackCredential
    simp only [type, htotal, drop_putUint16be, hprooflen, hdrop, hproof, hsub, hmem, hhd, getUint16_put _ _ hslot]
    rw [if_neg (by omega), if_neg (by omega), if_pos trivial]
    rw [hloop]
    dsimp only
    rw [if_pos (mallocEach_true htail)]
    rfl

/-! What was read is written again. -/

theorem goaway_writtenAgain {head payload : Bytes} {f : Goaway} (hh : HeadOf .goaway payload.length head)
    (hz : getUint32 payload < streamIdMask) (h : frameUnpackGoaway head payload payload.length = .ok f) :
    framePackGoaway f = .ok (head ++ payload) := by
  have hhd := framePackCtrlHd_unpack hh
  unfold frameUnpackGoaway at h
  dsimp only at h
  split at h
  · rename_i hv
    split at h
    · cases h
    rename_i hlen
    cases h
    have hid := putUint32be_word (d := payload) (by omega)
    simp [framePackGoaway, hv, hhd, toUint32_getStreamId hz, hid]
  · split at h
    · rename_i hv
      split at h
      · cases h
      rename_i hlen
      cases h
      have hwords := putUint32be_words (d := payload) (by omega)
      simp [framePackGoaway, hv, hhd, toUint32_getStreamId hz, hwords]
    · cases h

theorem rstStream_writtenAgain {head payload : Bytes} {f : RstStream} (hh : HeadOf .rstStream payload.length head)
    (hz : getUint32 payload < streamIdMask) (h : frameUnpackRstStream head payload payload.length = .ok f) :
    framePackRstStream f = head ++ payload := by
  unfold frameUnpackRstStream at h
  split at h
  · cases h
  rename_i hlen
  cases h
  have hwords := putUint32be_words (d := payload) (by omega)
  simp [framePackRstStream, framePackCtrlHd_unpack hh, toUint32_getStreamId hz, hwords]

theorem windowUpdate_writtenAgain {head payload : Bytes} {f : WindowUpdate}
    (hh : HeadOf .windowUpdate payload.length head) (hz : getUint32 payload < streamIdMask)
    (hz' : getUint32 (payload.drop 4) < streamIdMask)
    (h : frameUnpackWindowUpdate head payload payload.length = .ok f) : framePackWindowUpdate f = head ++ payload := by
  unfold frameUnpackWindowUpdate at h
  split at h
  · cases h
  rename_i hlen
  cases h
  have hwords := putUint32be_words (d := payload) (by omega)
  simp [framePackWindowUpdate, framePackCtrlHd_unpack hh, toUint32_getStreamId hz, toUint32_getStreamId hz', hwords]

theorem ping_writtenAgain {head payload : Bytes} {f : Ping} (hh : HeadOf .ping payload.length head)
    (h : frameUnpackPing head payload payload.length = .ok f) : framePackPing f = head ++ payload := by
  unfold frameUnpackPing at h
  split at h
  · cases h
  rename_i hlen
  cases h
  have hid := putUint32be_word (d := payload) (by omega)
  simp [framePackPing, framePackCtrlHd_unpack hh, hid]

theorem settings_writtenAgain {m : Mem} {head payload : Bytes} {f : Settings}
    (hh : HeadOf .settings payload.length head) (h : (frameUnpackSettings m head payload payload.length).2 = .ok f) :
    framePackSettings f = .ok (head ++ payload) := by
  unfold frameUnpackSettings at h
  dsimp only at h
  split at h
  · cases h
  rename_i hfour
  split at h
  · cases h
  rename_i hv
  split at h
  · cases h
  rename_i hlen
  split at h
  · cases h
    have hword := putUint32be_get (d := payload) (by omega)
    have hdata : (payload.drop 4).length = getUint32 payload*8 := by
      rw [List.length_drop]
      omega
    have hentries := Records.flatMap_readAll (packSettingsEntry_unpack (frameUnpackCtrlHd head).version) hdata
    have hcount : (Records.readAll (unpackSettingsEntry (frameUnpackCtrlHd head).version) 8 (getUint32 payload)
        (payload.drop 4)).length = getUint32 payload := Records.length_readAll _ _
    unfold Records.readAll at hentries hcount
    simp only [List.drop_drop] at hentries hcount
    unfold framePackSettings
    dsimp only
    rw [if_pos (by omega), hentries, hcount, framePackCtrlHd_unpack hh, List.append_assoc, hword]
  · cases h

theorem credential_writtenAgain {m : Mem} {head payload : Bytes} {f : Credential}
    (hh : HeadOf .credential payload.length head)
    (h : (frameUnpackCredential m head payload payload.length).2 = .ok f) :
    framePackCredential f = head ++ payload := by
  unfold frameUnpackCredential at h
  dsimp only at h
  split at h
  · cases h
  rename_i hten
  split at h
  · cases h
  rename_i hproof
  split at h
  · split at h
    · cases h
    rename_i certs hcerts
    split at h
    · cases h
      have hslot := putUint16be_get (d := payload) (by omega)
      have hword := putUint32be_get (d := payload.drop 2) (by rw [List.length_drop]; omega)
      rw [← List.length_drop] at hcerts
      have hrest := flatMap_certBytes hcerts
      have hlen : ((payload.drop 6).take (getUint32 (payload.drop 2))).length = getUint32 (payload.drop 2) := by
        rw [List.length_take_of_le]
        rw [List.length_drop]
        omega
      rw [List.drop_drop] at hword
      rw [List.drop_zero, ← List.drop_drop] at hrest
      unfold framePackCredential
      dsimp only
      change framePackCtrlHd .credential _ ++ _ ++ _ ++ _ ++ certs.flatMap certBytes = _
      rw [hrest, hlen, framePackCtrlHd_unpack hh, List.append_assoc, List.append_assoc, List.append_assoc,
        List.take_append_drop, hword, hslot]
    · cases h
  · cases h

/-- Every frame of fixed format with fields in range is read back from its bytes, a GOAWAY
of SPDY/2 without its status code, and every payload that a parser accepts, with zeros in
the reserved bits, is written again as it was. -/
theorem fixed_frames_round_trip :
    (∀ (m : Mem) (f : FixedFrame), (∀ ok ∈ m, ok = true) → f.InRange → ComesBack m f) ∧
    (∀ (m : Mem) (type : FrameType) (head payload : Bytes) (f : FixedFrame), HeadOf type payload.length head →
      ReservedZero type payload → unpack m type head payload payload.length = some (.ok f) →
      f.pack = .ok (head ++ payload)) := by
  constructor
  · intro m f hm h
    cases f with
    | ping f => exact ping_comesBack m h
    | goaway f => exact goaway_comesBack m h
    | rstStream f => exact rstStream_comesBack m h
    | windowUpdate f => exact windowUpdate_comesBack m h
    | settings f => exact settings_comesBack hm h
    | credential f => exact credential_comesBack hm h
  · intro m type head payload f hh hz h
    have hmap {α : Type} {r : Except Err α} {g : α → FixedFrame} (hr : some (r.map g) = some (.ok f)) :
        ∃ a, r = .ok a ∧ f = g a := by
      cases r with
      | error e => cases hr
      | ok a =>
        cases hr
        exact ⟨a,rfl,rfl⟩
    cases type with
    | ping =>
      obtain ⟨a, ha, rfl⟩ := hmap h
      exact congrArg _ (ping_writtenAgain hh ha)
    | goaway =>
      obtain ⟨a, ha, rfl⟩ := hmap h
      exact goaway_writtenAgain hh hz ha
    | rstStream =>
      obtain ⟨a, ha, rfl⟩ := hmap h
      exact congrArg _ (rstStream_writtenAgain hh hz ha)
    | windowUpdate =>
      obtain ⟨a, ha, rfl⟩ := hmap h
      exact congrArg _ (windowUpdate_writtenAgain hh hz.1 hz.2 ha)
    | settings =>
      obtain ⟨a, ha, rfl⟩ := hmap h
      exact settings_writtenAgain hh ha
    | credential =>
      obtain ⟨a, ha, rfl⟩ := hmap h
      exact congrArg _ (credential_writtenAgain hh ha)
    | synStream => cases h
    | synReply => cases h
    | headers => cases h
    | noop => cases h

theorem settings_and_ping_round_trip :
    ComesBack [] (settings ⟨⟨3,0,12⟩,[⟨4,1,100⟩]⟩) ∧
    (ping ⟨⟨2,0,4⟩,7⟩).pack = .ok ([128,2,0,6,0,0,0,4] ++ [0,0,0,7]) := by
  refine ⟨fixed_frames_round_trip.1 [] _ nofun ⟨.inr rfl,by decide,rfl,by decide,?_⟩,
    fixed_frames_round_trip.2 [] .ping _ _ _ ⟨rfl,by decide,by decide,by decide⟩ trivial rfl⟩
  intro e he
  cases List.mem_singleton.mp he
  exact ⟨by decide,by decide,by decide⟩

end FixedFrame

end Spdylay
