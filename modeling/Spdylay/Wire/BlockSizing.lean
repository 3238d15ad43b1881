import Spdylay.Library.CheckedWrites
import Spdylay.Wire.HeaderGrammar
import Spdylay.Wire.SizedPayloads

/-! The sizing and the packing of a name/value list in memory. Names and values are the
bytes at a pointer, and a string ends at the first NUL. A size_t has `w` bits, the lists
are indexed by an `int`, and zlib counts its input and output in 32 bits. -/
namespace Spdylay.Sizing
open Library Chunked

/-! Strings. -/

def strlen (s : Bytes) : Nat := (cstr s).length

/-- The first `n` bytes, which both objects have. -/
def memcmp (a b : Bytes) (n : Nat) : Int := strcmp (a.take n) (b.take n)

/-- `i += 2` -/
def nextPair (i : Nat) : Except Stop Nat := if i+2 < 2147483648 then .ok (i+2) else .error .overflow

/-! Counting. -/

structure Counter where
  sum : Nat
  prev : Bytes
  prevlen : Nat

def countNvSpaceRound (w lenSize : Nat) (c : Counter) (key val : Bytes) : Counter :=
  let keylen := strlen key
  let vallen := strlen val
  if c.prevlen = keylen ∧ memcmp c.prev key keylen = 0 then {c with sum := word w (c.sum+(vallen+1))}
  else ⟨word w (c.sum+(keylen+vallen+lenSize*2)),key,keylen⟩

def countNvSpaceLoop (w lenSize : Nat) : Nv → Nat → Counter → Except Stop Counter
  | [], _, c => .ok c
  | (key,val) :: nv, i, c => do
    let c := countNvSpaceRound w lenSize c key val
    let i ← nextPair i
    countNvSpaceLoop w lenSize nv i c

def frameCountNvSpace (w : Nat) (nv : Nv) (lenSize : Nat) : Except Stop Nat := do
  let c ← countNvSpaceLoop w lenSize nv 0 ⟨lenSize,[],0⟩
  return c.sum

/-! Packing. A pointer into the buffer is an offset. -/

def copyTo (buf : Bytes) (out : Nat) (bytes : Bytes) : Except Stop Bytes := access (writeAt buf out bytes)

def framePutNvLen (buf : Bytes) (out val lenSize : Nat) : Except Stop Bytes := copyTo buf out (putNvLen lenSize val)

/-- The position behind the string. -/
def packStr (buf : Bytes) (bufp : Nat) (str : Bytes) (len lenSize : Nat) : Except Stop (Bytes × Nat) := do
  let buf ← framePutNvLen buf bufp len lenSize
  let bufp := bufp+lenSize
  let buf ← copyTo buf bufp (str.take len)
  return (buf,bufp+len)

structure Packer where
  buf : Bytes
  bufp : Nat
  numNv : Nat
  prev : Bytes
  /-- NULL before the first entry. -/
  prevVallenBuf : Option Nat
  prevVallen : Nat

def packNvRound (lenSize : Nat) (p : Packer) (key val : Bytes) : Except Stop Packer := do
  let keylen := strlen key
  let vallen := strlen val
  if strcmp (cstr p.prev) (cstr key) = 0 then
    let prevVallen := word 32 (p.prevVallen+(vallen+1))
    let out ← access p.prevVallenBuf
    let buf ← framePutNvLen p.buf out prevVallen lenSize
    let buf ← copyTo buf p.bufp [0]
    let bufp := p.bufp+1
    let buf ← copyTo buf bufp (val.take vallen)
    return {p with buf := buf, bufp := bufp+vallen, prevVallen := prevVallen}
  else
    let (buf,bufp) ← packStr p.buf p.bufp key keylen lenSize
    let out := bufp
    let (buf,bufp) ← packStr buf bufp val vallen lenSize
    return ⟨buf,bufp,word 32 (p.numNv+1),key,some out,word 32 vallen⟩

def packNvLoop (lenSize : Nat) : Nv → Nat → Packer → Except Stop Packer
  | [], _, p => .ok p
  | (key,val) :: nv, i, p => do
    let p ← packNvRound lenSize p key val
    let i ← nextPair i
    packNvLoop lenSize nv i p

/-- The length that is returned, and the buffer. -/
def framePackNv (buf : Bytes) (nv : Nv) (lenSize : Nat) : Except Stop (Nat × Bytes) := do
  let p ← packNvLoop lenSize nv 0 ⟨buf,lenSize,0,[],none,0⟩
  let buf ← framePutNvLen p.buf 0 p.numNv lenSize
  return (p.bufp,buf)

/-! Compression. -/

/-- zlib's deflate and deflateBound, after the calls made so far. -/
structure Deflate where
  /-- What a call writes into its room for the bytes it is given. -/
  deflate : List Bytes → Nat → Bytes → Option Bytes
  deflateBound : List Bytes → Nat → Nat
  deflate_le : ∀ {calls room given out}, deflate calls room given = some out → out.length ≤ room

/-- The ssize_t with the bits of a size_t. -/
def toSsize (w n : Nat) : Int := Int.bmod n (2^w)

/-- The bytes at next_in, as many as avail_in says. -/
def availIn (input : Bytes) (inlen : Nat) : Bytes := input.take (word 32 inlen)

/-- What deflate wrote, and the value that is returned. -/
def zlibDeflateHd (w : Nat) (z : Deflate) (calls : List Bytes) (outlen : Nat) (input : Bytes) (inlen : Nat) :
    Bytes × Int :=
  let availOut := word 32 outlen
  match z.deflate calls availOut (availIn input inlen) with
  | some out => (out,toSsize w (outlen-(availOut-out.length)))
  | none => ([],Err.zlib.code)

/-! The buffers. -/

/-- The next multiple of the page size, in a size_t. -/
def roundUp (w n : Nat) : Nat := word w (word w (n+4095)/4096*4096)

/-- A buffer that is too small is allocated anew, and fresh memory holds anything. With the
buffer, unless it is NULL, come the allocations that are left. -/
def reserveBuffer (w : Nat) (fresh : Nat → UInt8) (m : Mem) (buf : Bytes) (minLength : Nat) : Mem × Option Bytes :=
  if buf.length < minLength then
    let minLength := roundUp w minLength
    (m.tail,if m.headD true then some ((List.range minLength).map fresh) else none)
  else (m,some buf)

/-- The length of the frame, unless it is an error or too large. -/
def checkFramelen (framelen : Int) (nvOffset : Nat) : Int :=
  if framelen < 0 then framelen
  else if lengthMask < framelen+nvOffset-headLen then Err.frameTooLarge.code
  else framelen+nvOffset

/-- What a call leaves. -/
structure AllocPacked where
  mem : Mem
  framebuf : Bytes
  nvbuf : Bytes
  /-- The bytes that zlib was given, call by call. -/
  calls : List Bytes
  framelen : Int

def frameAllocPackNv (w : Nat) (z : Deflate) (fresh : Nat → UInt8) (m : Mem) (framebuf nvbuf : Bytes) (nv : Nv)
    (nvOffset lenSize : Nat) (calls : List Bytes) : Except Stop AllocPacked := do
  let nvspace ← frameCountNvSpace w nv lenSize
  match reserveBuffer w fresh m nvbuf nvspace with
  | (m,none) => return ⟨m,framebuf,nvbuf,calls,Err.nomem.code⟩
  | (m,some nvbuf) =>
    let maxframelen := word w (nvOffset+z.deflateBound calls nvspace)
    match reserveBuffer w fresh m framebuf maxframelen with
    | (m,none) => return ⟨m,framebuf,nvbuf,calls,Err.nomem.code⟩
    | (m,some framebuf) =>
      let (_,nvbuf) ← framePackNv nvbuf nv lenSize
      -- the room is a size_t difference, and zlib keeps to it
      let (out,framelen) := zlibDeflateHd w z calls (word w (maxframelen+2^w-nvOffset)) nvbuf nvspace
      return ⟨m,memcpy framebuf nvOffset out,nvbuf,calls ++ [availIn nvbuf nvspace],checkFramelen framelen nvOffset⟩

/-! What the strings say. -/

/-- The names and values as the loops see them. -/
def cstrings (nv : Nv) : Nv := nv.map (fun p => (cstr p.1,cstr p.2))

theorem take_strlen (s : Bytes) : s.take (strlen s) = cstr s :=
  (List.prefix_iff_eq_take.mp (List.takeWhile_prefix _)).symm

/-- Length and memcmp in one loop decide what strcmp decides in the other. -/
theorem memcmp_joins_iff (prev key : Bytes) :
    (strlen prev = strlen key ∧ memcmp prev key (strlen key) = 0) ↔ strcmp (cstr prev) (cstr key) = 0 := by
  rw [strcmp_eq_zero]
  constructor
  · rintro ⟨hlen,hcmp⟩
    rw [memcmp,take_strlen,← hlen,take_strlen,strcmp_eq_zero] at hcmp
    exact hcmp
  · intro h
    have hlen : strlen prev = strlen key := congrArg List.length h
    refine ⟨hlen,?_⟩
    rw [memcmp,take_strlen,← hlen,take_strlen,strcmp_eq_zero]
    exact h

theorem word_add_left (w a b : Nat) : word w (word w a+b) = word w (a+b) := Nat.mod_add_mod _ _ _

/-- A length field keeps 32 bits at most. -/
theorem putNvLen_word (lenSize n : Nat) : putNvLen lenSize (word 32 n) = putNvLen lenSize n := by
  have hbyte : ∀ a b : Nat, a % 256 = b % 256 → UInt8.ofNat a = UInt8.ofNat b := by
    intro a b h
    rw [← UInt8.toNat_inj,UInt8.toNat_ofNat',UInt8.toNat_ofNat']
    exact h
  unfold putNvLen putUint16be putUint32be word
  split
  · rw [hbyte (n % 2^32/256) (n/256) (by omega),hbyte (n % 2^32) n (by omega)]
  · rw [hbyte (n % 2^32/16777216) (n/16777216) (by omega),hbyte (n % 2^32/65536) (n/65536) (by omega),
      hbyte (n % 2^32/256) (n/256) (by omega),hbyte (n % 2^32) n (by omega)]

/-! The counting loop. -/

/-- A counter and the sum and name that the unbounded count has reached. -/
structure Counts (w : Nat) (c : Counter) (acc : Nat × Bytes) : Prop where
  sum_eq : c.sum = word w acc.1
  prev_eq : cstr c.prev = acc.2
  prevlen_eq : c.prevlen = strlen c.prev

section Counting
variable {w lenSize i : Nat} {c : Counter} {acc : Nat × Bytes} {nv : Nv}

theorem Counts.round (h : Counts w c acc) (lenSize : Nat) (key val : Bytes) :
    Counts w (countNvSpaceRound w lenSize c key val) (countNvSpaceStep lenSize acc (cstr key,cstr val)) := by
  obtain ⟨hsum,hprev,hlen⟩ := h
  have hjoin := memcmp_joins_iff c.prev key
  rw [strcmp_eq_zero,hprev,← hlen] at hjoin
  unfold countNvSpaceRound countNvSpaceStep
  dsimp only
  by_cases hsame : acc.2 = cstr key
  · rw [if_pos (hjoin.mpr hsame),if_pos hsame]
    refine ⟨?_,hprev,hlen⟩
    dsimp only
    rw [hsum,word_add_left]
    rfl
  · rw [if_neg (mt hjoin.mp hsame),if_neg hsame]
    refine ⟨?_,rfl,rfl⟩
    dsimp only
    rw [hsum,word_add_left]
    rfl

theorem nextPair_fits (h : i+2 < 2147483648) : nextPair i = .ok (i+2) := if_pos h

theorem countNvSpaceLoop_fits (lenSize : Nat) (nv : Nv) (h : Counts w c acc) (hi : i+2*nv.length < 2147483648) :
    ∃ c', countNvSpaceLoop w lenSize nv i c = .ok c' ∧
      Counts w c' ((cstrings nv).foldl (countNvSpaceStep lenSize) acc) := by
  induction nv generalizing i c acc with
  | nil => exact ⟨c,rfl,h⟩
  | cons p nv ih =>
    rw [List.length_cons] at hi
    obtain ⟨c',hc',hcounts⟩ := ih (i := i+2) (h.round lenSize p.1 p.2) (by omega)
    refine ⟨c',?_,hcounts⟩
    rw [countNvSpaceLoop,nextPair_fits (by omega),ok_bind,hc']

/-- The index runs over its range before it comes to the end of a long list. -/
theorem countNvSpaceLoop_overflows (hi : i < 2147483648) (h : 2147483648 ≤ i+2*nv.length) :
    countNvSpaceLoop w lenSize nv i c = .error .overflow := by
  induction nv generalizing i c with
  | nil =>
    rw [List.length_nil] at h
    omega
  | cons p nv ih =>
    rw [List.length_cons] at h
    rw [countNvSpaceLoop]
    by_cases hnext : i+2 < 2147483648
    · rw [nextPair_fits hnext,ok_bind,ih hnext (by omega)]
    · rw [nextPair,if_neg hnext,error_bind]

theorem frameCountNvSpace_fits (hw : WordSize w) (hl : lenSize = 2 ∨ lenSize = 4) (h : nv.length < 1073741824) :
    frameCountNvSpace w nv lenSize = .ok (word w (Spdylay.frameCountNvSpace (cstrings nv) lenSize)) := by
  have hstart : Counts w ⟨lenSize,[],0⟩ (lenSize,[]) := by
    refine ⟨(hw.word_eq ?_).symm,rfl,rfl⟩
    dsimp only
    omega
  obtain ⟨c,hc,hcounts⟩ := countNvSpaceLoop_fits lenSize nv hstart (i := 0) (by omega)
  rw [frameCountNvSpace,hc,ok_bind,hcounts.sum_eq]
  rfl

theorem frameCountNvSpace_overflows (h : ¬nv.length < 1073741824) :
    frameCountNvSpace w nv lenSize = .error .overflow := by
  rw [frameCountNvSpace,countNvSpaceLoop_overflows (by omega) (by omega),error_bind]

end Counting

/-! The packing loop. -/

section Writing
variable {front field rest bytes : Bytes} {out : Nat}

theorem copyTo_front (h : bytes.length ≤ rest.length) (hout : out = front.length) :
    copyTo (front ++ rest) out bytes = .ok (front ++ bytes ++ rest.drop bytes.length) := by
  rw [copyTo,writeAt_front h hout]
  rfl

theorem copyTo_field (h : bytes.length = field.length) (hout : out = front.length) :
    copyTo (front ++ field ++ rest) out bytes = .ok (front ++ bytes ++ rest) := by
  rw [copyTo,writeAt_field h hout]
  rfl

theorem copyTo_nil (h : bytes ≠ []) : copyTo [] out bytes = .error .outside := by
  have hpos := List.length_pos_of_ne_nil h
  rw [copyTo,writeAt_of_lt (by rw [List.length_nil]; omega)]
  rfl

/-- A string is written behind what is there. -/
theorem packStr_front {lenSize : Nat} (hl : lenSize = 2 ∨ lenSize = 4) (str : Bytes)
    (h : lenSize+strlen str ≤ rest.length) (hout : out = front.length) :
    packStr (front ++ rest) out str (strlen str) lenSize =
      .ok (front ++ Spdylay.packStr lenSize (cstr str) ++ rest.drop (lenSize+strlen str),out+lenSize+strlen str) := by
  have hlen := putNvLen_length hl (strlen str)
  have hfield : framePutNvLen (front ++ rest) out (strlen str) lenSize =
      .ok (front ++ putNvLen lenSize (strlen str) ++ rest.drop lenSize) := by
    rw [framePutNvLen,copyTo_front (by omega) hout,hlen]
  have hstr : copyTo (front ++ putNvLen lenSize (strlen str) ++ rest.drop lenSize) (out+lenSize) (cstr str) =
      .ok (front ++ putNvLen lenSize (strlen str) ++ cstr str ++ (rest.drop lenSize).drop (strlen str)) := by
    refine copyTo_front ?_ (by rw [List.length_append,hlen,hout])
    rw [List.length_drop]
    exact Nat.le_sub_of_add_le' h
  rw [packStr,hfield,ok_bind,take_strlen]
  dsimp only
  rw [hstr,ok_bind,List.drop_drop,List.append_assoc front]
  rfl

section Rounds
variable {lenSize : Nat} {p : Packer} {key val before field value : Bytes}

/-- The value goes behind the one before, whose length is written anew. -/
theorem packNvRound_join (hcmp : strcmp (cstr p.prev) (cstr key) = 0) (hl : lenSize = 2 ∨ lenSize = 4)
    (hout : p.prevVallenBuf = some before.length) (hbuf : p.buf = before ++ field ++ (value ++ rest))
    (hfield : field.length = lenSize) (hbufp : p.bufp = before.length+lenSize+value.length)
    (hroom : 1+strlen val ≤ rest.length) :
    packNvRound lenSize p key val = .ok {p with
      buf := before ++ putNvLen lenSize (word 32 (p.prevVallen+(strlen val+1))) ++ value ++ [0] ++ cstr val ++
        rest.drop (1+strlen val)
      bufp := p.bufp+1+strlen val
      prevVallen := word 32 (p.prevVallen+(strlen val+1))} := by
  have hlen := putNvLen_length hl (word 32 (p.prevVallen+(strlen val+1)))
  have hput : framePutNvLen p.buf before.length (word 32 (p.prevVallen+(strlen val+1))) lenSize =
      .ok (before ++ putNvLen lenSize (word 32 (p.prevVallen+(strlen val+1))) ++ value ++ rest) := by
    rw [framePutNvLen,hbuf,copyTo_field (hlen.trans hfield.symm) rfl,List.append_assoc _ value]
  generalize putNvLen lenSize (word 32 (p.prevVallen+(strlen val+1))) = len at hput hlen ⊢
  have hend : p.bufp = (before ++ len ++ value).length := by
    rw [List.length_append,List.length_append,hlen,hbufp]
  have hnul : copyTo (before ++ len ++ value ++ rest) p.bufp [0] = .ok (before ++ len ++ value ++ [0] ++ rest.drop 1) :=
    copyTo_front (by rw [List.length_singleton]; omega) hend
  have hval : copyTo (before ++ len ++ value ++ [0] ++ rest.drop 1) (p.bufp+1) (cstr val) =
      .ok (before ++ len ++ value ++ [0] ++ cstr val ++ (rest.drop 1).drop (strlen val)) := by
    refine copyTo_front ?_ (by rw [List.length_append,← hend]; rfl)
    rw [List.length_drop]
    exact Nat.le_sub_of_add_le' hroom
  rw [packNvRound]
  dsimp only
  rw [if_pos hcmp,hout,access,ok_bind,hput,ok_bind,hnul,ok_bind,take_strlen,hval,ok_bind,List.drop_drop]
  rfl

/-- An entry goes behind the ones before. -/
theorem packNvRound_entry (hcmp : strcmp (cstr p.prev) (cstr key) ≠ 0) (hl : lenSize = 2 ∨ lenSize = 4)
    (hbuf : p.buf = front ++ rest) (hbufp : p.bufp = front.length)
    (hroom : strlen key+strlen val+lenSize*2 ≤ rest.length) :
    packNvRound lenSize p key val = .ok ⟨front ++ entryBytes lenSize (cstr key,cstr val) ++
        rest.drop (strlen key+strlen val+lenSize*2),p.bufp+(strlen key+strlen val+lenSize*2),word 32 (p.numNv+1),key,
      some (p.bufp+lenSize+strlen key),word 32 (strlen val)⟩ := by
  have hkey := packStr_front hl key (show lenSize+strlen key ≤ rest.length by omega) hbufp
  rw [← hbuf] at hkey
  have hvalroom : lenSize+strlen val ≤ (rest.drop (lenSize+strlen key)).length := by
    rw [List.length_drop]
    omega
  have hvalout : p.bufp+lenSize+strlen key = (front ++ Spdylay.packStr lenSize (cstr key)).length := by
    rw [List.length_append,packStr_length hl,hbufp,Nat.add_assoc]
    rfl
  have hval := packStr_front hl val hvalroom hvalout
  have hsize : lenSize+strlen key+(lenSize+strlen val) = strlen key+strlen val+lenSize*2 := by omega
  have hend : p.bufp+lenSize+strlen key+lenSize+strlen val = p.bufp+(strlen key+strlen val+lenSize*2) := by omega
  rw [packNvRound]
  dsimp only
  rw [if_neg hcmp,hkey,ok_bind]
  dsimp only
  rw [hval,ok_bind,List.drop_drop,List.append_assoc front,hsize,hend]
  rfl

end Rounds

end Writing

/-! The entries in the buffer. -/

/-- The packer has written these entries at the front of the buffer, behind the place of
their count. -/
structure Packed (lenSize : Nat) (buf : Bytes) (es : List (Bytes × Bytes)) (p : Packer) : Prop where
  buf_eq : p.buf = buf.take lenSize ++ es.flatMap (entryBytes lenSize) ++ buf.drop (lenSize+entriesSize lenSize es)
  bufp_eq : p.bufp = lenSize+entriesSize lenSize es
  numNv_eq : p.numNv = word 32 es.length
  prev_eq : cstr p.prev = (lastName es).getD []
  last_eq : ∀ front e, es = front ++ [e] →
    p.prevVallenBuf = some (lenSize+entriesSize lenSize front+lenSize+e.1.length) ∧ p.prevVallen = word 32 e.2.length

section Packing
variable {lenSize i : Nat} {buf : Bytes} {es front : List (Bytes × Bytes)} {p : Packer} {nv : Nv} {key val v : Bytes}

theorem packed_start (lenSize : Nat) (buf : Bytes) : Packed lenSize buf [] ⟨buf,lenSize,0,[],none,0⟩ where
  buf_eq := by simp [entriesSize]
  bufp_eq := rfl
  numNv_eq := rfl
  prev_eq := rfl
  last_eq front e h := by simp at h

theorem Packed.join (hl : lenSize = 2 ∨ lenSize = 4) (h : Packed lenSize buf (front ++ [(cstr key,v)]) p)
    (hroom : lenSize+entriesSize lenSize (front ++ [(cstr key,v ++ 0 :: cstr val)]) ≤ buf.length) :
    ∃ p', packNvRound lenSize p key val = .ok p' ∧ Packed lenSize buf (front ++ [(cstr key,v ++ 0 :: cstr val)]) p' := by
  obtain ⟨hbuf,hbufp,hnum,hprev,hlast⟩ := h
  obtain ⟨hout,hvallen⟩ := hlast front _ rfl
  dsimp only at hout hvallen
  have hsize : entriesSize lenSize (front ++ [(cstr key,v)]) =
      entriesSize lenSize front+((cstr key).length+v.length+lenSize*2) := entriesSize_concat hl front _
  have hgrown : entriesSize lenSize (front ++ [(cstr key,v ++ 0 :: cstr val)]) =
      entriesSize lenSize (front ++ [(cstr key,v)])+(1+strlen val) := by
    have hlen : (v ++ 0 :: cstr val).length = v.length+(strlen val+1) := List.length_append
    rw [hsize,entriesSize_concat hl]
    dsimp only
    omega
  have htake : (buf.take lenSize).length = lenSize := by
    rw [List.length_take]
    omega
  -- what stands before the length of the last value
  have hbefore : (buf.take lenSize ++ front.flatMap (entryBytes lenSize) ++ Spdylay.packStr lenSize (cstr key)).length =
      lenSize+entriesSize lenSize front+lenSize+(cstr key).length := by
    have hsize : (front.flatMap (entryBytes lenSize)).length = entriesSize lenSize front := rfl
    rw [List.length_append,List.length_append,htake,packStr_length hl,hsize,Nat.add_assoc _ lenSize]
  have hshape : p.buf = (buf.take lenSize ++ front.flatMap (entryBytes lenSize) ++ Spdylay.packStr lenSize (cstr key)) ++
      putNvLen lenSize v.length ++ (v ++ buf.drop (lenSize+entriesSize lenSize (front ++ [(cstr key,v)]))) := by
    rw [hbuf,List.flatMap_append,List.flatMap_singleton,entryBytes]
    simp only [Spdylay.packStr,List.append_assoc]
  have hrest : (buf.drop (lenSize+entriesSize lenSize (front ++ [(cstr key,v)]))).drop (1+strlen val) =
      buf.drop (lenSize+entriesSize lenSize (front ++ [(cstr key,v ++ 0 :: cstr val)])) := by
    rw [List.drop_drop,hgrown,Nat.add_assoc]
  have hcmp : strcmp (cstr p.prev) (cstr key) = 0 := by
    rw [strcmp_eq_zero,hprev,lastName_concat]
    rfl
  have hlength : word 32 (p.prevVallen+(strlen val+1)) = word 32 (v ++ 0 :: cstr val).length := by
    rw [hvallen,word_add_left,List.length_append]
    rfl
  refine ⟨_,packNvRound_join hcmp hl (by rw [hout,hbefore]) hshape (putNvLen_length hl _) (by rw [hbefore]; omega)
    (by rw [List.length_drop]; omega),?_⟩
  constructor
  · dsimp only
    rw [hlength,putNvLen_word,hrest,List.flatMap_append,List.flatMap_singleton,entryBytes]
    simp only [Spdylay.packStr,List.append_assoc,List.cons_append,List.nil_append]
  · dsimp only
    omega
  · dsimp only
    rw [hnum,List.length_append,List.length_append]
    rfl
  · dsimp only
    rw [hprev,lastName_concat,lastName_concat]
  · intro front' e he
    obtain ⟨rfl,hsame⟩ := List.append_inj' he rfl
    cases hsame
    exact ⟨hout,hlength⟩

theorem Packed.entry (hl : lenSize = 2 ∨ lenSize = 4) (h : Packed lenSize buf es p) (hkey : cstr key ≠ [])
    (hlast : lastName es ≠ some (cstr key))
    (hroom : lenSize+entriesSize lenSize (es ++ [(cstr key,cstr val)]) ≤ buf.length) :
    ∃ p', packNvRound lenSize p key val = .ok p' ∧ Packed lenSize buf (es ++ [(cstr key,cstr val)]) p' := by
  obtain ⟨hbuf,hbufp,hnum,hprev,-⟩ := h
  have hgrown : entriesSize lenSize (es ++ [(cstr key,cstr val)]) =
      entriesSize lenSize es+(strlen key+strlen val+lenSize*2) := entriesSize_concat hl es _
  have htake : (buf.take lenSize).length = lenSize := by
    rw [List.length_take]
    omega
  have hcmp : strcmp (cstr p.prev) (cstr key) ≠ 0 := by
    rw [Ne,strcmp_eq_zero,hprev]
    cases hes : lastName es with
    | none => exact hkey.symm
    | some name => exact fun hname => hlast (hes.trans (congrArg some hname))
  refine ⟨_,packNvRound_entry hcmp hl hbuf ?_ (by rw [List.length_drop]; omega),?_⟩
  · rw [List.length_append,htake,hbufp]
    rfl
  constructor
  · dsimp only
    rw [List.drop_drop,hgrown,Nat.add_assoc lenSize,List.flatMap_append,List.flatMap_singleton,
      List.append_assoc (buf.take lenSize)]
  · dsimp only
    omega
  · dsimp only
    rw [hnum,word_add_left,List.length_append]
    rfl
  · rw [lastName_concat]
    rfl
  · intro front' e he
    obtain ⟨rfl,hsame⟩ := List.append_inj' he rfl
    cases hsame
    rw [hbufp]
    exact ⟨rfl,rfl⟩

theorem Packed.round (hl : lenSize = 2 ∨ lenSize = 4) (h : Packed lenSize buf es p) (val : Bytes) (hkey : cstr key ≠ [])
    (hroom : lenSize+entriesSize lenSize (packNvStep es (cstr key,cstr val)) ≤ buf.length) :
    ∃ p', packNvRound lenSize p key val = .ok p' ∧ Packed lenSize buf (packNvStep es (cstr key,cstr val)) p' := by
  obtain ⟨front,v,rfl,hstep⟩ | ⟨hlast,hstep⟩ := packNvStep_cases es (cstr key,cstr val)
  · rw [hstep] at hroom ⊢
    exact h.join hl hroom
  · rw [hstep] at hroom ⊢
    exact h.entry hl hkey hlast hroom

theorem entriesSize_packNvStep (hl : lenSize = 2 ∨ lenSize = 4) (es : List (Bytes × Bytes)) (p : Bytes × Bytes) :
    entriesSize lenSize es ≤ entriesSize lenSize (packNvStep es p) := by
  obtain ⟨front,v,rfl,hstep⟩ | ⟨-,hstep⟩ := packNvStep_cases es p
  · rw [hstep,entriesSize_concat hl,entriesSize_concat hl,List.length_append]
    dsimp only
    omega
  · rw [hstep,entriesSize_concat hl]
    omega

theorem entriesSize_foldl (hl : lenSize = 2 ∨ lenSize = 4) (nv : Nv) (es : List (Bytes × Bytes)) :
    entriesSize lenSize es ≤ entriesSize lenSize (nv.foldl packNvStep es) := by
  induction nv generalizing es with
  | nil => exact le_rfl
  | cons p nv ih => exact (entriesSize_packNvStep hl es p).trans (ih (packNvStep es p))

/-- Every string of the list is written where the entries have room. -/
theorem packNvLoop_fits (hl : lenSize = 2 ∨ lenSize = 4) (h : Packed lenSize buf es p)
    (hnames : ∀ q ∈ nv, cstr q.1 ≠ []) (hi : i+2*nv.length < 2147483648)
    (hroom : lenSize+entriesSize lenSize ((cstrings nv).foldl packNvStep es) ≤ buf.length) :
    ∃ p', packNvLoop lenSize nv i p = .ok p' ∧ Packed lenSize buf ((cstrings nv).foldl packNvStep es) p' := by
  induction nv generalizing i es p with
  | nil => exact ⟨p,rfl,h⟩
  | cons q nv ih =>
    obtain ⟨hq,hnames⟩ := List.forall_mem_cons.mp hnames
    rw [List.length_cons] at hi
    have hle := entriesSize_foldl hl (cstrings nv) (packNvStep es (cstr q.1,cstr q.2))
    have hroom' : lenSize+entriesSize lenSize ((cstrings nv).foldl packNvStep (packNvStep es (cstr q.1,cstr q.2))) ≤
        buf.length := hroom
    obtain ⟨p1,hp1,h1⟩ := h.round hl q.2 hq (by omega)
    obtain ⟨p',hp',h'⟩ := ih h1 hnames (i := i+2) (by omega) hroom'
    refine ⟨p',?_,h'⟩
    rw [packNvLoop,hp1,ok_bind,nextPair_fits (by omega),ok_bind,hp']

/-- The block stands at the front of the buffer, and the rest is as it was. -/
theorem framePackNv_fits (buf : Bytes) (hl : lenSize = 2 ∨ lenSize = 4) (hnames : ∀ q ∈ nv, cstr q.1 ≠ [])
    (hnv : nv.length < 1073741824) (hroom : (Spdylay.framePackNv (cstrings nv) lenSize).length ≤ buf.length) :
    framePackNv buf nv lenSize = .ok ((Spdylay.framePackNv (cstrings nv) lenSize).length,
      Spdylay.framePackNv (cstrings nv) lenSize ++ buf.drop (Spdylay.framePackNv (cstrings nv) lenSize).length) := by
  rw [framePackNv_eq] at hroom ⊢
  have hsize : (blockBytes lenSize ((cstrings nv).foldl packNvStep [])).length =
      lenSize+entriesSize lenSize ((cstrings nv).foldl packNvStep []) := by
    rw [blockBytes,List.length_append,putNvLen_length hl]
    rfl
  rw [hsize] at hroom ⊢
  obtain ⟨p,hp,hpacked⟩ := packNvLoop_fits hl (packed_start lenSize buf) hnames (i := 0) (by omega) hroom
  rw [framePackNv,hp,ok_bind]
  generalize (cstrings nv).foldl packNvStep [] = es at hpacked hroom ⊢
  have hfront : (putNvLen lenSize es.length).length = (buf.take lenSize).length := by
    rw [putNvLen_length hl,List.length_take]
    omega
  have hcount : copyTo ([] ++ buf.take lenSize ++ (es.flatMap (entryBytes lenSize) ++
        buf.drop (lenSize+entriesSize lenSize es))) 0 (putNvLen lenSize es.length) =
      .ok ([] ++ putNvLen lenSize es.length ++ (es.flatMap (entryBytes lenSize) ++
        buf.drop (lenSize+entriesSize lenSize es))) := copyTo_field hfront rfl
  rw [List.nil_append,List.nil_append,← List.append_assoc,← List.append_assoc] at hcount
  rw [framePutNvLen,hpacked.buf_eq,hpacked.numNv_eq,putNvLen_word,hcount,ok_bind,hpacked.bufp_eq]
  rfl

theorem framePackNv_nil (hl : lenSize = 2 ∨ lenSize = 4) (hnames : ∀ q ∈ nv, cstr q.1 ≠ []) :
    framePackNv [] nv lenSize = .error .outside := by
  have hfield : ∀ n, putNvLen lenSize n ≠ [] := by
    intro n h
    have hlen := putNvLen_length hl n
    rw [h,List.length_nil] at hlen
    omega
  cases nv with
  | nil =>
    rw [framePackNv,packNvLoop,ok_bind,framePutNvLen,copyTo_nil (hfield _)]
    rfl
  | cons q nv =>
    have hcmp : strcmp (cstr []) (cstr q.1) ≠ 0 := by
      rw [Ne,strcmp_eq_zero]
      exact (hnames q List.mem_cons_self).symm
    rw [framePackNv,packNvLoop,packNvRound]
    dsimp only
    rw [if_neg hcmp,packStr,framePutNvLen,copyTo_nil (hfield _)]
    rfl

end Packing

/-! The size of a block, from its list. -/

/-- A name that repeats the one before it makes no entry. -/
def entryNames (nv : Nv) : List Bytes := (nv.map (fun p => p.1)).destutter (· ≠ ·)

/-- The count of the entries, for each entry two lengths and the name, the values, and a NUL
for each pair without an entry of its own. -/
def blockSize (lenSize : Nat) (nv : Nv) : Nat :=
  lenSize+((entryNames nv).map (fun name => name.length+lenSize*2)).sum+(nv.map (fun p => p.2.length)).sum+
    (nv.length-(entryNames nv).length)

/-- The count behind a name that has been counted. -/
theorem foldl_countNvSpaceStep_names (lenSize c : Nat) (prev : Bytes) (nv : Nv) :
    (nv.foldl (countNvSpaceStep lenSize) (c,prev)).1+(prev.length+lenSize*2)+
        ((nv.map (fun p => p.1)).destutter' (· ≠ ·) prev).length =
      c+(((nv.map (fun p => p.1)).destutter' (· ≠ ·) prev).map (fun name => name.length+lenSize*2)).sum+
        (nv.map (fun p => p.2.length)).sum+(nv.length+1) := by
  induction nv generalizing c prev with
  | nil => simp
  | cons p nv ih =>
    rw [List.foldl_cons,countNvSpaceStep]
    by_cases hname : prev = p.1
    · have hrest := ih (c+(p.2.length+1)) prev
      rw [if_pos hname,List.map_cons,List.destutter'_cons_neg _ (not_not_intro hname),List.map_cons,List.sum_cons,
        List.length_cons]
      dsimp only at hrest ⊢
      omega
    · have hrest := ih (c+(p.1.length+p.2.length+lenSize*2)) p.1
      rw [if_neg hname,List.map_cons,List.destutter'_cons_pos _ hname,List.map_cons,List.map_cons,List.sum_cons,
        List.sum_cons,List.length_cons,List.length_cons]
      dsimp only at hrest ⊢
      omega

theorem frameCountNvSpace_eq (lenSize : Nat) {nv : Nv} (hnv : ∀ p ∈ nv, p.1 ≠ []) :
    Spdylay.frameCountNvSpace nv lenSize = blockSize lenSize nv := by
  have hcount := foldl_countNvSpaceStep_names lenSize lenSize [] nv
  have hnames : (nv.map (fun p => p.1)).destutter' (· ≠ ·) [] = [] :: entryNames nv := by
    cases nv with
    | nil => rfl
    | cons p nv => exact List.destutter'_cons_pos _ (hnv p List.mem_cons_self).symm
  have hlength : (nv.map (fun p => p.1)).length = nv.length := List.length_map _
  have hle : (entryNames nv).length ≤ nv.length := by
    rw [entryNames,← hlength]
    exact (List.destutter_sublist _ _).length_le
  rw [hnames,List.map_cons,List.sum_cons,List.length_cons,List.length_nil] at hcount
  rw [Spdylay.frameCountNvSpace,blockSize]
  omega

/-! Both functions, and the buffers between them. -/

section Buffers
variable {w n : Nat}

theorem roundUp_eq (h : n+4095 < 2^w) : roundUp w n = (n+4095)/4096*4096 := by
  rw [roundUp,word_of_lt h,word_of_lt (lt_of_le_of_lt (Nat.div_mul_le_self _ _) h)]

/-- The sum passes the range of a size_t, and no page is left of it. -/
theorem roundUp_wraps (hw : WordSize w) (hn : n < 2^w) (h : ¬n+4095 < 2^w) : roundUp w n = 0 := by
  unfold roundUp word
  obtain rfl | rfl := hw <;> omega

theorem reserveBuffer_cases (w : Nat) (fresh : Nat → UInt8) (m : Mem) (buf : Bytes) (n : Nat) :
    n ≤ buf.length ∧ reserveBuffer w fresh m buf n = (m,some buf) ∨
    buf.length < n ∧ m.headD true = false ∧ reserveBuffer w fresh m buf n = (m.tail,none) ∨
    buf.length < n ∧ m.headD true = true ∧ ∃ buf' : Bytes, buf'.length = roundUp w n ∧
      reserveBuffer w fresh m buf n = (m.tail,some buf') := by
  by_cases hroom : buf.length < n
  · right
    rw [reserveBuffer,if_pos hroom]
    cases hm : m.headD true with
    | false => exact .inl ⟨hroom,rfl,rfl⟩
    | true =>
      refine .inr ⟨hroom,rfl,(List.range (roundUp w n)).map fresh,?_,rfl⟩
      rw [List.length_map,List.length_range]
  · exact .inl ⟨Nat.not_lt.mp hroom,if_neg hroom⟩

/-- Unless memory runs out, the buffer has room if the rounding does not wrap around. -/
theorem reserveBuffer_spec (w : Nat) (fresh : Nat → UInt8) (m : Mem) (buf : Bytes) (n : Nat) :
    (∃ m', reserveBuffer w fresh m buf n = (m',none) ∧ false ∈ m) ∨
    ∃ m' buf', reserveBuffer w fresh m buf n = (m',some buf') ∧ m' ⊆ m ∧ (n+4095 < 2^w → n ≤ buf'.length) := by
  obtain ⟨hroom,hr⟩ | ⟨-,hm,hr⟩ | ⟨-,-,buf',hbuf',hr⟩ := reserveBuffer_cases w fresh m buf n
  · exact .inr ⟨m,buf,hr,List.Subset.refl m,fun _ => hroom⟩
  · refine .inl ⟨m.tail,hr,?_⟩
    cases m with
    | nil => cases hm
    | cons answer m =>
      rw [List.headD_cons] at hm
      rw [hm]
      exact List.mem_cons_self
  · refine .inr ⟨m.tail,buf',hr,List.tail_subset m,?_⟩
    intro h
    rw [hbuf',roundUp_eq h]
    omega

end Buffers

/-- The block is what the list is counted for and packed into, in any buffer with room,
and what zlib is given unless memory runs out. -/
structure Exact (w : Nat) (nv : Nv) (lenSize : Nat) (block : Bytes) : Prop where
  counted : frameCountNvSpace w nv lenSize = .ok block.length
  written : ∀ buf, block.length ≤ buf.length →
    framePackNv buf nv lenSize = .ok (block.length,block ++ buf.drop block.length)
  given : ∀ z fresh m framebuf nvbuf nvOffset calls, ∃ r,
    frameAllocPackNv w z fresh m framebuf nvbuf nv nvOffset lenSize calls = .ok r ∧
      (r.framelen = Err.nomem.code ∧ r.calls = calls ∧ false ∈ m ∨
        r.nvbuf.take block.length = block ∧ r.calls = calls ++ [block])

def SizedExactly (w : Nat) (nv : Nv) (lenSize : Nat) : Prop := ∃ block, Exact w nv lenSize block

section Sizes
variable {w lenSize : Nat} {nv : Nv} {block : Bytes}

theorem cstrings_names (h : ∀ p ∈ nv, cstr p.1 ≠ []) : ∀ p ∈ cstrings nv, p.1 ≠ [] := by
  intro p hp
  obtain ⟨q,hq,rfl⟩ := List.mem_map.mp hp
  exact h q hq

/-- The packed block has the size of the list. -/
theorem packed_size (hl : lenSize = 2 ∨ lenSize = 4) (h : ∀ p ∈ nv, cstr p.1 ≠ []) :
    (Spdylay.framePackNv (cstrings nv) lenSize).length = blockSize lenSize (cstrings nv) := by
  rw [framePackNv_length hl (cstrings_names h),frameCountNvSpace_eq lenSize (cstrings_names h)]

/-- Where the buffer can be made, the block is packed in it, and zlib is given as much of
the block as 32 bits can count. -/
theorem frameAllocPackNv_gives (hw : WordSize w) (hl : lenSize = 2 ∨ lenSize = 4) (hnames : ∀ p ∈ nv, cstr p.1 ≠ [])
    (hnv : nv.length < 1073741824) (hblock : block = Spdylay.framePackNv (cstrings nv) lenSize)
    (hround : block.length+4095 < 2^w) (z : Deflate) (fresh : Nat → UInt8) (m : Mem) (framebuf nvbuf : Bytes)
    (nvOffset : Nat) (calls : List Bytes) :
    ∃ r, frameAllocPackNv w z fresh m framebuf nvbuf nv nvOffset lenSize calls = .ok r ∧
      (r.framelen = Err.nomem.code ∧ r.calls = calls ∧ false ∈ m ∨
        r.nvbuf.take block.length = block ∧ r.calls = calls ++ [availIn block block.length]) := by
  have hcount := frameCountNvSpace_fits hw hl hnv
  rw [← framePackNv_length hl (cstrings_names hnames),← hblock,word_of_lt (by omega)] at hcount
  rw [frameAllocPackNv,hcount,ok_bind]
  obtain ⟨m1,hr,hm⟩ | ⟨m1,nvbuf1,hr,hm1,hroom⟩ := reserveBuffer_spec w fresh m nvbuf block.length
  · rw [hr]
    exact ⟨_,rfl,.inl ⟨rfl,rfl,hm⟩⟩
  rw [hr]
  dsimp only
  obtain ⟨m2,hr,hm⟩ | ⟨m2,framebuf1,hr,-,-⟩ :=
    reserveBuffer_spec w fresh m1 framebuf (word w (nvOffset+z.deflateBound calls block.length))
  · rw [hr]
    exact ⟨_,rfl,.inl ⟨rfl,rfl,hm1 hm⟩⟩
  rw [hr]
  have hpack := framePackNv_fits nvbuf1 hl hnames hnv (hblock ▸ hroom hround)
  rw [← hblock] at hpack
  have hle32 : word 32 block.length ≤ block.length := Nat.mod_le _ _
  have hgiven : availIn (block ++ nvbuf1.drop block.length) block.length = availIn block block.length :=
    List.take_append_of_le_length hle32
  dsimp only
  rw [hpack,ok_bind]
  refine ⟨_,rfl,.inr ⟨List.take_left' rfl,?_⟩⟩
  dsimp only
  rw [hgiven]

theorem exact_of_fits (hw : WordSize w) (hl : lenSize = 2 ∨ lenSize = 4) (hnames : ∀ p ∈ nv, cstr p.1 ≠ [])
    (hnv : nv.length < 1073741824) (hsize : blockSize lenSize (cstrings nv) < 4294967296)
    (hround : blockSize lenSize (cstrings nv)+4095 < 2^w) :
    Exact w nv lenSize (Spdylay.framePackNv (cstrings nv) lenSize) := by
  have hlen := packed_size hl hnames
  rw [← hlen] at hsize hround
  refine ⟨?_,fun buf => framePackNv_fits buf hl hnames hnv,?_⟩
  · rw [frameCountNvSpace_fits hw hl hnv,← framePackNv_length hl (cstrings_names hnames),word_of_lt (by omega)]
  · have hgiven := frameAllocPackNv_gives hw hl hnames hnv rfl hround
    rwa [availIn,word_of_lt hsize,List.take_length] at hgiven

/-- A zlib that refuses every block. -/
def noDeflate : Deflate where
  deflate _ _ _ := none
  deflateBound _ _ := 0
  deflate_le h := by cases h

/-- The first allocation is too small where its rounding wraps around. -/
theorem frameAllocPackNv_wraps (hw : WordSize w) (hl : lenSize = 2 ∨ lenSize = 4) (hnames : ∀ p ∈ nv, cstr p.1 ≠ [])
    {n : Nat} (hcount : frameCountNvSpace w nv lenSize = .ok n) (hpos : 0 < n) (hn : n < 2^w) (h : ¬n+4095 < 2^w) :
    frameAllocPackNv w noDeflate (fun _ => 0) [] [] [] nv 0 lenSize [] = .error .outside := by
  have hnvbuf : reserveBuffer w (fun _ => 0) [] [] n = ([],some []) := by
    rw [reserveBuffer,List.length_nil,if_pos hpos,roundUp_wraps hw hn h]
    rfl
  have hmax : word w (0+noDeflate.deflateBound [] n) = 0 := Nat.zero_mod _
  have hframebuf : reserveBuffer w (fun _ => 0) [] [] 0 = ([],some []) := rfl
  rw [frameAllocPackNv,hcount,ok_bind,hnvbuf]
  dsimp only
  rw [hmax,hframebuf]
  dsimp only
  rw [framePackNv_nil hl hnames,error_bind]

theorem fits_of_exact (hw : WordSize w) (hl : lenSize = 2 ∨ lenSize = 4) (hnames : ∀ p ∈ nv, cstr p.1 ≠ [])
    (h : Exact w nv lenSize block) :
    nv.length < 1073741824 ∧ blockSize lenSize (cstrings nv) < 4294967296 ∧
      blockSize lenSize (cstrings nv)+4095 < 2^w := by
  obtain ⟨hcounted,hwritten,hgiven⟩ := h
  have hnv : nv.length < 1073741824 := by
    by_contra hlong
    rw [frameCountNvSpace_overflows hlong] at hcounted
    cases hcounted
  have hlen := packed_size hl hnames
  -- a buffer with room for both lengths shows that they are the same
  have hblock : block.length = blockSize lenSize (cstrings nv) := by
    let buf : Bytes := List.replicate (block.length+blockSize lenSize (cstrings nv)) 0
    have hpack := framePackNv_fits buf hl hnames hnv (by rw [hlen,List.length_replicate]; omega)
    rw [hwritten buf (by rw [List.length_replicate]; omega),Except.ok.injEq,Prod.mk.injEq] at hpack
    rw [hpack.1,hlen]
  have hpos : 0 < block.length := by
    rw [hblock,blockSize]
    omega
  have hfits : block.length < 2^w := by
    have hcount := frameCountNvSpace_fits hw hl hnv
    rw [hcounted,Except.ok.injEq] at hcount
    rw [hcount]
    exact Nat.mod_lt _ (Nat.two_pow_pos w)
  obtain ⟨r,hr,hcase⟩ := hgiven noDeflate (fun _ => 0) [] [] [] 0 []
  have hround : block.length+4095 < 2^w := by
    by_contra hwraps
    rw [frameAllocPackNv_wraps hw hl hnames hcounted hpos hfits hwraps] at hr
    cases hr
  rw [← hblock] at hlen ⊢
  obtain ⟨r',hr',hcase'⟩ :=
    frameAllocPackNv_gives hw hl hnames hnv rfl (hlen ▸ hround) noDeflate (fun _ => 0) [] [] [] 0 []
  obtain rfl : r = r' := Except.ok.inj (hr.symm.trans hr')
  obtain ⟨-,-,hmem⟩ | ⟨-,hcalls⟩ := hcase
  · cases hmem
  obtain ⟨-,-,hmem⟩ | ⟨-,hcalls'⟩ := hcase'
  · cases hmem
  have hcut : [block] = [availIn _ _] := hcalls.symm.trans hcalls'
  have hle : block.length ≤ word 32 block.length := by
    conv_lhs => rw [List.singleton_inj.mp hcut,hlen]
    exact List.length_take_le _ _
  have hword : word 32 block.length < 2^32 := Nat.mod_lt _ (by omega)
  exact ⟨hnv,by omega,hround⟩

/-- Sizes are exact for the lists of fewer than 2^30 pairs whose block can be counted in
32 bits and rounded up in a size_t. -/
theorem sized_exactly_iff (hw : WordSize w) (hl : lenSize = 2 ∨ lenSize = 4) (hnames : ∀ p ∈ nv, cstr p.1 ≠ []) :
    SizedExactly w nv lenSize ↔ nv.length < 1073741824 ∧ blockSize lenSize (cstrings nv) < 4294967296 ∧
      blockSize lenSize (cstrings nv)+4095 < 2^w := by
  constructor
  · rintro ⟨block,h⟩
    exact fits_of_exact hw hl hnames h
  · rintro ⟨hnv,hsize,hround⟩
    exact ⟨_,exact_of_fits hw hl hnames hnv hsize hround⟩

theorem repeated_names_sized_exactly :
    SizedExactly 64 [([97],[98]),([97],[99]),([98],[]),([97],[100,100])] 2 :=
  (sized_exactly_iff (.inr rfl) (.inl rfl) (by decide)).mpr (by decide)

end Sizes

/-- A header whose value has the greatest length that a length field of four bytes holds. -/
def longValue : Nv := [([97],List.replicate 4294967295 97)]

theorem framePackNv_longValue : Spdylay.framePackNv (cstrings longValue) 4 =
    [0,0,0,1,0,0,0,1,97,255,255,255] ++ 255 :: List.replicate 4294967295 97 := by
  have hvalue : cstr (List.replicate 4294967295 97) = List.replicate 4294967295 97 := by
    refine cstr_eq_self.mpr (fun c hc => ?_)
    rw [List.eq_of_mem_replicate hc]
    decide
  have hlen : (List.replicate 4294967295 97 : Bytes).length = 4294967295 := List.length_replicate
  rw [cstrings,longValue,List.map_singleton,hvalue]
  generalize (List.replicate 4294967295 97 : Bytes) = value at hlen ⊢
  have hentries : [(cstr [97],value)].foldl packNvStep [] = [([97],value)] := rfl
  have hone : putNvLen 4 1 = [0,0,0,1] := by decide
  have hmax : putNvLen 4 4294967295 = [255,255,255,255] := by decide
  rw [framePackNv_eq,hentries,blockBytes,List.flatMap_singleton,entryBytes,Spdylay.packStr,Spdylay.packStr,hlen,hmax]
  simp only [List.length_singleton,hone,List.cons_append,List.nil_append]

/-- zlib's answer for the first twelve bytes of the block. -/
def cutDeflate : Deflate where
  deflate calls room given :=
    if (calls = [] ∧ given = [0,0,0,1,0,0,0,1,97,255,255,255]) ∧ 21 ≤ room then
      some [56,234,227,198,167,194,2,166,35,70,16,78,252,255,255,63,0,0,0,255,255]
    else none
  deflateBound _ n := n+(n+7)/8+(n+63)/64+11
  deflate_le h := by
    split at h
    · rename_i hroom
      cases h
      exact hroom.2
    · cases h

/-- Of the block of 2^32+12 bytes zlib is given twelve. A list of 2^30 pairs is not counted
to its end. -/
theorem long_value_is_cut :
    (∃ r, frameAllocPackNv 64 cutDeflate (fun _ => 0) [] [] [] longValue 18 4 [] = .ok r ∧
      r.calls = [[0,0,0,1,0,0,0,1,97,255,255,255]]) ∧
    frameCountNvSpace 64 (List.replicate 1073741824 ([97],[])) 4 = .error .overflow ∧
    ¬SizedExactly 64 longValue 4 := by
  have hnames : ∀ p ∈ longValue, cstr p.1 ≠ [] := by
    intro p hp
    rw [List.mem_singleton.mp hp]
    decide
  have hlen : (Spdylay.framePackNv (cstrings longValue) 4).length = 4294967308 := by
    have hvalue : (255 :: List.replicate 4294967295 97 : Bytes).length = 4294967296 := by
      rw [List.length_cons,List.length_replicate]
    rw [framePackNv_longValue,List.length_append,hvalue]
    rfl
  refine ⟨?_,frameCountNvSpace_overflows (by rw [List.length_replicate]; omega),?_⟩
  · obtain ⟨r,hr,⟨-,-,hmem⟩ | ⟨-,hcalls⟩⟩ :=
      frameAllocPackNv_gives (w := 64) (.inr rfl) (.inr rfl) hnames (by decide) rfl
        (by rw [hlen]; decide) cutDeflate (fun _ => 0) [] [] [] 18 []
    · cases hmem
    · refine ⟨r,hr,?_⟩
      have hword : word 32 4294967308 = 12 := rfl
      rw [hcalls,availIn,hlen,hword,framePackNv_longValue]
      exact congrArg (fun given => [given]) (List.take_left' rfl)
  · rintro ⟨block,h⟩
    have hsize := (fits_of_exact (.inr rfl) (.inr rfl) hnames h).2.1
    rw [← packed_size (.inr rfl) hnames,hlen] at hsize
    omega

end Spdylay.Sizing
