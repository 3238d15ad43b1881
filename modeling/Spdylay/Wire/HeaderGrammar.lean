import Spdylay.Wire.ChunkedBuffer
import Spdylay.Wire.HeaderRoundTrip

/-! The parser of header blocks on the chunked buffer and on the memory it allocates. The
counting pass sizes an index of pointers with room for the strings behind it, and the
copying pass fills both. Lengths are `uint32_t`, the sorting counts pointers in an `int`. -/
namespace Spdylay.Chunked
open Library Library.BinaryHeap Library.StableSort ChunkedBuffer

/-- Why a pass does not reach its end. -/
inductive Stop
  /-- The function returns this code. -/
  | code (e : Err)
  /-- Memory outside of an object is read or written. -/
  | outside
  /-- An unsigned difference is below zero. -/
  | underflow
  /-- An `int` exceeds its range. -/
  | overflow
  | assertion (a : Assertion)
  deriving DecidableEq, Repr

def access {α : Type} : Option α → Except Stop α
  | some a => .ok a
  | none => .error .outside

def minus (a b : Nat) : Except Stop Nat := if b ≤ a then .ok (a-b) else .error .underflow

def frameGetNvLen (b : ChunkedBuffer) (r : Reader) (lenSize : Nat) : Except Stop (Nat × Reader) := do
  let (bytes,r) ← access (b.readerData r lenSize)
  return (getNvLen lenSize bytes,r)

/-! The counting pass. -/

structure Counted where
  reader : Reader
  off : Nat
  buflen : Nat
  nvlen : Nat

/-- A length that is within the input. The sum `len+1` is taken in `uint32_t`. -/
def countStr (b : ChunkedBuffer) (lenSize : Nat) (c : Counted) : Except Stop (Nat × Counted) := do
  let left ← minus b.len c.off
  if left < lenSize then throw (.code .invalidFrame)
  let (len,r) ← frameGetNvLen b c.reader lenSize
  let left ← minus b.len (c.off+lenSize)
  if left < len then throw (.code .invalidFrame)
  return (len,{c with reader := r, off := c.off+lenSize+len, buflen := c.buflen+(len+1) % 4294967296})

def countZeros (b : ChunkedBuffer) : Nat → Reader → Nat → Except Stop (Reader × Nat)
  | 0, r, nvlen => .ok (r,nvlen)
  | n+1, r, nvlen => do
    let (byte,r) ← access (b.readerData r 1)
    countZeros b n r (if byte = [0] then nvlen+1 else nvlen)

def countLoop (b : ChunkedBuffer) (lenSize : Nat) : Nat → Counted → Except Stop Counted
  | 0, c => .ok c
  | n+1, c => do
    let (nlen,c) ← countStr b lenSize c
    let r ← access (b.readerAdvance c.reader nlen)
    let (vlen,c) ← countStr b lenSize {c with reader := r}
    let (r,nvlen) ← countZeros b vlen c.reader c.nvlen
    countLoop b lenSize n {c with reader := r, nvlen := nvlen+1}

/-- Bytes of the index: a pointer to each name and value, and NULL. -/
def indexSize (nvlen : Nat) : Nat := (nvlen*2+1)*8

def frameCountUnpackNvSpace (b : ChunkedBuffer) (lenSize : Nat) : Except Stop (Nat × Nat) := do
  if b.len < lenSize then throw (.code .invalidFrame)
  let (n,r) ← frameGetNvLen b readerInit lenSize
  let c ← countLoop b lenSize n ⟨r,lenSize,0,0⟩
  if b.len = c.off then return (c.nvlen,c.buflen+indexSize c.nvlen)
  else throw (.code .invalidFrame)

/-! The copying pass. A pointer is a position in the strings. -/

structure Copied where
  reader : Reader
  data : Bytes
  idx : List (Nat × Nat)
  invalid : Bool

/-- Write behind the strings, which have `room` bytes of the allocation. -/
def write (room : Nat) (data bytes : Bytes) : Except Stop Bytes :=
  if data.length+bytes.length ≤ room then .ok (data ++ bytes) else .error .outside

/-- Write two pointers. The last place of the index is for NULL. -/
def pushIndex (nvlen : Nat) (idx : List (Nat × Nat)) (p : Nat × Nat) : Except Stop (List (Nat × Nat)) :=
  if idx.length < nvlen then .ok (idx ++ [p]) else .error .outside

/-- Go over a copied value from `pos` on, whose last piece began at `val`. -/
def scanValue (nvlen name : Nat) :
    Bytes → Nat → Nat → List (Nat × Nat) → Bool → Except Stop (Nat × List (Nat × Nat) × Bool)
  | [], _, val, idx, invalid => .ok (val,idx,invalid)
  | c :: cs, pos, val, idx, invalid =>
    if c = 0 then do
      let idx ← pushIndex nvlen idx (name,val)
      scanValue nvlen name cs (pos+1) (pos+1) idx (invalid || val = pos)
    else scanValue nvlen name cs (pos+1) val idx invalid

def copyLoop (b : ChunkedBuffer) (lenSize nvlen room : Nat) : Nat → Copied → Except Stop Copied
  | 0, c => .ok c
  | n+1, c => do
    let (nlen,r) ← frameGetNvLen b c.reader lenSize
    let (name,r) ← access (b.readerData r nlen)
    let data ← write room c.data name
    let invalid := c.invalid || nlen = 0 || !name.all validNameByte
    let data ← write room data [0]
    let (vlen,r) ← frameGetNvLen b r lenSize
    let val := data.length
    let (value,r) ← access (b.readerData r vlen)
    let data ← write room data value
    let (val,idx,invalid) ← scanValue nvlen c.data.length value val val c.idx invalid
    let data ← write room data [0]
    let idx ← pushIndex nvlen idx (c.data.length,val)
    copyLoop b lenSize nvlen room n ⟨r,data,idx,invalid⟩

/-- The string at a pointer. -/
def strAt (data : Bytes) (p : Nat) : Bytes := cstr (data.drop p)

/-- The index with the strings its pointers lead to. -/
def resolve (data : Bytes) (idx : List (Nat × Nat)) : NvIndex :=
  idx.map (fun p => (p.1,strAt data p.1,strAt data p.2))

/-- The pointers are counted up to NULL before they are sorted. -/
def frameNvSort (qsort : Qsort) (data : Bytes) (idx : List (Nat × Nat)) : Except Stop (List (Nat × Nat)) :=
  if idx.length*2 < 2147483648 then
    .ok (qsort (Nat × Nat) (fun l r => strcmp (strAt data l.1) (strAt data r.1)) idx)
  else .error .overflow

def copyNv (qsort : Qsort) (b : ChunkedBuffer) (lenSize nvlen buflen : Nat) : Except Stop (Nv × Option Err) := do
  let (n,r) ← frameGetNvLen b readerInit lenSize
  let room ← minus buflen (indexSize nvlen)
  let c ← copyLoop b lenSize nvlen room n ⟨r,[],[],false⟩
  if c.idx.length ≠ nvlen then throw (.assertion .nvIndexCount)
  if c.invalid then return (indexNv (resolve c.data c.idx),some .invalidHeaderBlock)
  let sorted ← frameNvSort qsort c.data c.idx
  return (indexNv (resolve c.data sorted),
    if hasDuplicateName (resolve c.data sorted) then some .invalidHeaderBlock else none)

/-- The list, which is set also when the block is invalid, and the code. -/
def frameUnpackNv (qsort : Qsort) (m : Mem) (b : ChunkedBuffer) (lenSize : Nat) :
    Except Stop (Mem × Nv × Option Err) :=
  match frameCountUnpackNvSpace b lenSize with
  | .error (.code e) => .ok (m,[],some e)
  | .error stop => .error stop
  | .ok (nvlen,buflen) =>
    if m.headD true then (copyNv qsort b lenSize nvlen buflen).map (fun r => (m.tail,r.1,r.2))
    else .ok (m.tail,[],some .nomem)

/-! What the counting pass finds. -/

@[simp] theorem ok_bind {α β : Type} (a : α) (f : α → Except Stop β) : ((Except.ok a : Except Stop α) >>= f) = f a := rfl

@[simp] theorem error_bind {α β : Type} (e : Stop) (f : α → Except Stop β) :
    ((Except.error e : Except Stop α) >>= f) = .error e := rfl

theorem minus_ok {a b : Nat} (h : b ≤ a) : minus a b = .ok (a-b) := if_pos h

theorem getNvLen_take {lenSize : Nat} (hl : lenSize = 2 ∨ lenSize = 4) (data : Bytes) :
    getNvLen lenSize (data.take lenSize) = getNvLen lenSize data := by
  rcases hl with rfl | rfl
  · rcases data with _ | ⟨a,_ | ⟨b,rest⟩⟩ <;> simp [getNvLen,getUint16]
  · rcases data with _ | ⟨a,_ | ⟨b,_ | ⟨c,_ | ⟨d,rest⟩⟩⟩⟩ <;> simp [getNvLen,getUint32]

section Counting
variable {b : ChunkedBuffer} {r : Reader} {lenSize pos n : Nat}

theorem frameGetNvLen_eq (hl : lenSize = 2 ∨ lenSize = 4) (h : b.At r pos) (hpos : pos+lenSize ≤ b.len) :
    ∃ r', frameGetNvLen b r lenSize = .ok (getNvLen lenSize (b.contents.drop pos),r') ∧ b.At r' (pos+lenSize) := by
  obtain ⟨r',hr',hat⟩ := readerData_eq h hpos
  refine ⟨r',?_,hat⟩
  rw [← getNvLen_take hl,frameGetNvLen,hr']
  rfl

theorem take_one (data : Bytes) (h : 0 < data.length) :
    ∃ c, data.take 1 = [c] ∧ ∀ n, data.take (n+1) = c :: (data.drop 1).take n := by
  cases data with
  | nil => cases h
  | cons c cs => exact ⟨c,rfl,fun n => rfl⟩

theorem countZeros_eq (h : b.At r pos) (hpos : pos+n ≤ b.len) (nvlen : Nat) :
    ∃ r', countZeros b n r nvlen = .ok (r',nvlen+((b.contents.drop pos).take n).count 0) ∧ b.At r' (pos+n) := by
  induction n generalizing r pos nvlen with
  | zero => exact ⟨r,by simp [countZeros],h⟩
  | succ n ih =>
    obtain ⟨r1,hr1,hat1⟩ := readerData_eq h (show pos+1 ≤ b.len by omega)
    obtain ⟨c,hone,hmore⟩ := take_one (b.contents.drop pos) (by rw [List.length_drop,length_contents]; omega)
    obtain ⟨r',hr',hat'⟩ := ih hat1 (by omega) (if [c] = [0] then nvlen+1 else nvlen)
    refine ⟨r',?_,by rwa [show pos+(n+1) = pos+1+n by omega]⟩
    rw [countZeros,hr1,access,ok_bind,hone]
    dsimp only
    rw [hr',hmore,List.drop_drop,List.count_cons]
    by_cases hc : c = 0
    · simp [hc]
      omega
    · simp [hc]

/-- The length and the bytes of a string, where the reader of the session's model finds one. -/
theorem countStr_ok (hl : lenSize = 2 ∨ lenSize = 4) {c : Counted} (h : b.At c.reader c.off) {s rd : Bytes} {off : Nat}
    (hr : readStr lenSize b.len c.off (b.contents.drop c.off) = .ok (s,off,rd)) :
    ∃ r', countStr b lenSize c =
        .ok (s.length,{c with reader := r', off := off, buflen := c.buflen+(s.length+1) % 4294967296}) ∧
      b.At r' (c.off+lenSize) ∧ off = c.off+lenSize+s.length ∧ off ≤ b.len ∧ rd = b.contents.drop off ∧
      s = (b.contents.drop (c.off+lenSize)).take s.length := by
  rw [readStr] at hr
  dsimp only at hr
  split_ifs at hr with h1 h2
  cases hr
  obtain ⟨r',hr',hat⟩ := frameGetNvLen_eq hl h (by rcases hl with rfl | rfl <;> omega)
  have hlen : ((b.contents.drop (c.off+lenSize)).take (getNvLen lenSize (b.contents.drop c.off))).length =
      getNvLen lenSize (b.contents.drop c.off) := by
    rw [List.length_take,List.length_drop,length_contents]
    omega
  have hoff : c.off+lenSize ≤ b.len := by rcases hl with rfl | rfl <;> omega
  refine ⟨r',?_,hat,?_⟩
  · rw [countStr,minus_ok (by omega),ok_bind,if_neg h1]
    simp only [hr',minus_ok hoff,ok_bind,List.drop_drop,hlen]
    rw [if_neg h2]
    rfl
  · simp only [List.drop_drop,hlen]
    exact ⟨trivial,by omega,trivial,trivial⟩

theorem countStr_error (hl : lenSize = 2 ∨ lenSize = 4) {c : Counted} (h : b.At c.reader c.off)
    (hoff : c.off ≤ b.len) {e : Err}
    (hr : readStr lenSize b.len c.off (b.contents.drop c.off) = .error e) :
    countStr b lenSize c = .error (.code .invalidFrame) := by
  rw [readStr] at hr
  dsimp only at hr
  rw [countStr,minus_ok hoff,ok_bind]
  split_ifs at hr with h1 h2
  · rw [if_pos h1]
    rfl
  · have hleft : c.off+lenSize ≤ b.len := by omega
    obtain ⟨r',hr',-⟩ := frameGetNvLen_eq hl h hleft
    rw [if_neg h1]
    simp only [hr',minus_ok hleft,ok_bind]
    rw [if_pos h2]
    rfl

/-- One entry is counted. -/
theorem countLoop_entry (hl : lenSize = 2 ∨ lenSize = 4) {c : Counted} (h : b.At c.reader c.off)
    {name value rd1 rd2 : Bytes} {off1 off2 : Nat}
    (hname : readStr lenSize b.len c.off (b.contents.drop c.off) = .ok (name,off1,rd1))
    (hvalue : readStr lenSize b.len off1 rd1 = .ok (value,off2,rd2)) (n : Nat) :
    ∃ r', countLoop b lenSize (n+1) c = countLoop b lenSize n ⟨r',off2,
        c.buflen+(name.length+1) % 4294967296+(value.length+1) % 4294967296,c.nvlen+value.count 0+1⟩ ∧
      b.At r' off2 ∧ off2 ≤ b.len ∧ rd2 = b.contents.drop off2 := by
  obtain ⟨r1,hr1,hat1,hoff1,hle1,hrd1,-⟩ := countStr_ok hl h hname
  obtain ⟨r2,hr2,hat2⟩ := readerAdvance_eq hat1 (show c.off+lenSize+name.length ≤ b.len by omega)
  rw [← hoff1] at hat2
  rw [hrd1] at hvalue
  obtain ⟨r3,hr3,hat3,hoff3,hle3,hrd3,hv⟩ := countStr_ok (c := ⟨r2,off1,c.buflen+(name.length+1) % 4294967296,c.nvlen⟩)
    hl hat2 hvalue
  dsimp only at hr3 hat3 hoff3 hv
  obtain ⟨r4,hr4,hat4⟩ := countZeros_eq hat3 (show off1+lenSize+value.length ≤ b.len by omega) c.nvlen
  rw [← hv] at hr4
  rw [← hoff3] at hat4
  refine ⟨r4,?_,hat4,hle3,hrd3⟩
  rw [countLoop,hr1]
  simp only [ok_bind,hr2,access,hr3,hr4]

theorem countLoop_error (hl : lenSize = 2 ∨ lenSize = 4) {c : Counted} (h : b.At c.reader c.off) (hoff : c.off ≤ b.len)
    {e : Err} (hr : countUnpackNvLoop lenSize b.len n (b.contents.drop c.off) c.off c.nvlen = .error e) :
    countLoop b lenSize n c = .error (.code .invalidFrame) := by
  induction n generalizing c with
  | zero => cases hr
  | succ n ih =>
    rw [countUnpackNvLoop] at hr
    split at hr
    · rename_i hname
      rw [countLoop,countStr_error hl h hoff hname]
      rfl
    rename_i name off1 rd1 hname
    split at hr
    · rename_i hvalue
      obtain ⟨r1,hr1,hat1,hoff1,hle1,hrd1,-⟩ := countStr_ok hl h hname
      obtain ⟨r2,hr2,hat2⟩ := readerAdvance_eq hat1 (show c.off+lenSize+name.length ≤ b.len by omega)
      rw [← hoff1] at hat2
      rw [hrd1] at hvalue
      rw [countLoop,hr1]
      simp only [ok_bind,hr2,access]
      rw [countStr_error hl hat2 hle1 hvalue]
      rfl
    · rename_i value off2 rd2 hvalue
      obtain ⟨r',hr',hat,hle,hrd⟩ := countLoop_entry hl h hname hvalue n
      rw [hrd] at hr
      rw [hr']
      exact ih hat hle hr

theorem countLoop_off (hl : lenSize = 2 ∨ lenSize = 4) {c : Counted} (h : b.At c.reader c.off) {off nvlen : Nat}
    (hr : countUnpackNvLoop lenSize b.len n (b.contents.drop c.off) c.off c.nvlen = .ok (off,nvlen)) :
    ∃ c', countLoop b lenSize n c = .ok c' ∧ c'.off = off := by
  induction n generalizing c with
  | zero =>
    cases hr
    exact ⟨c,rfl,rfl⟩
  | succ n ih =>
    rw [countUnpackNvLoop] at hr
    split at hr
    · cases hr
    rename_i hname
    split at hr
    · cases hr
    rename_i hvalue
    obtain ⟨r',hr',hat,-,hrd⟩ := countLoop_entry hl h hname hvalue n
    rw [hrd] at hr
    rw [hr']
    exact ih hat hr

end Counting

/-- Bytes that the counting pass allows for the strings of the entries. -/
def countedBytes (es : List (Bytes × Bytes)) : Nat :=
  (es.map (fun e => (e.1.length+1) % 4294967296+(e.2.length+1) % 4294967296)).sum

/-- Bytes that the strings of the entries take with their terminators. -/
def entryPlaces (e : Bytes × Bytes) : Nat := (e.1.length+1)+(e.2.length+1)

theorem length_entryPairs (e : Bytes × Bytes) : (entryPairs e).length = e.2.count 0+1 := by
  rw [entryPairs,List.length_map,valuePieces_length]

section Blocks
variable {b : ChunkedBuffer} {lenSize : Nat} {es : List (Bytes × Bytes)}

theorem countLoop_entries (hl : lenSize = 2 ∨ lenSize = 4) (hes : ∀ e ∈ es, EntryFits lenSize e) {c : Counted}
    (h : b.At c.reader c.off) (hoff : c.off ≤ b.len)
    (hrd : b.contents.drop c.off = es.flatMap (entryBytes lenSize)) :
    ∃ r', countLoop b lenSize es.length c =
      .ok ⟨r',b.len,c.buflen+countedBytes es,c.nvlen+(es.flatMap entryPairs).length⟩ := by
  have hlen : c.off+(b.contents.drop c.off).length = b.len := by
    rw [List.length_drop,length_contents]
    omega
  induction es generalizing c with
  | nil =>
    rw [hrd] at hlen
    exact ⟨c.reader,by simp [countLoop,countedBytes,← hlen]⟩
  | cons e es ih =>
    obtain ⟨he,hes⟩ := List.forall_mem_cons.mp hes
    rw [List.flatMap_cons,entryBytes_append] at hrd
    rw [hrd] at hlen
    have hname := readStr_packStr hl he.1 hlen
    have hlen2 : b.len-(packStr lenSize e.2 ++ es.flatMap (entryBytes lenSize)).length+
        (packStr lenSize e.2 ++ es.flatMap (entryBytes lenSize)).length = b.len := by
      rw [List.length_append] at hlen
      omega
    have hvalue := readStr_packStr hl he.2 hlen2
    rw [← hrd] at hname
    obtain ⟨r1,hr1,hat1,hle1,hrd1⟩ := countLoop_entry hl h hname hvalue es.length
    obtain ⟨r',hr'⟩ := ih hes (c := ⟨r1,_,_,_⟩) hat1 hle1 hrd1.symm (by
      dsimp only
      rw [List.length_drop,length_contents]
      omega)
    refine ⟨r',?_⟩
    rw [List.length_cons,hr1,hr']
    simp only [countedBytes,List.map_cons,List.sum_cons,List.flatMap_cons,List.length_append,length_entryPairs]
    congr 2 <;> omega

theorem contents_pos (hl : lenSize = 2 ∨ lenSize = 4) (h : lenSize ≤ b.len) : b.At readerInit 0 := by
  apply at_readerInit
  rcases hl with rfl | rfl <;> omega

/-- The reader behind the count of a block. -/
theorem block_start (hl : lenSize = 2 ∨ lenSize = 4) (hes : Fits lenSize es) (hb : b.contents = blockBytes lenSize es) :
    lenSize ≤ b.len ∧ ∃ r, frameGetNvLen b readerInit lenSize = .ok (es.length,r) ∧ b.At r lenSize ∧
      b.contents.drop lenSize = es.flatMap (entryBytes lenSize) := by
  have hput := putNvLen_length hl es.length
  have hlen : lenSize ≤ b.len := by
    rw [← length_contents,hb,blockBytes,List.length_append,hput]
    omega
  obtain ⟨r,hr,hat⟩ := frameGetNvLen_eq hl (contents_pos hl hlen) (by omega)
  rw [Nat.zero_add] at hat
  rw [List.drop_zero,hb,blockBytes,getNvLen_put hl hes.count] at hr
  exact ⟨hlen,r,hr,hat,by rw [hb,blockBytes,List.drop_left' hput]⟩

theorem frameCountUnpackNvSpace_block (hl : lenSize = 2 ∨ lenSize = 4) (hes : Fits lenSize es)
    (hb : b.contents = blockBytes lenSize es) : frameCountUnpackNvSpace b lenSize =
      .ok ((es.flatMap entryPairs).length,countedBytes es+indexSize (es.flatMap entryPairs).length) := by
  obtain ⟨hlen,r,hr,hat,hrd⟩ := block_start hl hes hb
  obtain ⟨r',hr'⟩ := countLoop_entries hl hes.entries (c := ⟨r,lenSize,0,0⟩) hat hlen hrd
  rw [frameCountUnpackNvSpace,if_neg (by omega)]
  simp only [hr,ok_bind,hr',Nat.zero_add]
  rw [if_pos trivial]
  rfl

theorem frameCountUnpackNvSpace_other (hl : lenSize = 2 ∨ lenSize = 4)
    (h : ¬∃ es, Fits lenSize es ∧ b.contents = blockBytes lenSize es) :
    frameCountUnpackNvSpace b lenSize = .error (.code .invalidFrame) := by
  rw [← frameCountUnpackNvSpace_ok_iff hl,Spdylay.frameCountUnpackNvSpace,length_contents] at h
  rw [frameCountUnpackNvSpace]
  by_cases hlen : b.len < lenSize
  · rw [if_pos hlen]
    rfl
  rw [if_neg hlen] at h ⊢
  obtain ⟨r,hr,hat⟩ := frameGetNvLen_eq hl (contents_pos hl (by omega)) (show 0+lenSize ≤ b.len by omega)
  rw [Nat.zero_add] at hat
  rw [List.drop_zero] at hr
  simp only [hr,ok_bind]
  generalize getNvLen lenSize b.contents = n at h
  cases hloop : countUnpackNvLoop lenSize b.len n (b.contents.drop lenSize) lenSize 0 with
  | error e =>
    rw [countLoop_error (c := ⟨r,lenSize,0,0⟩) hl hat (by dsimp only; omega) hloop]
    rfl
  | ok p =>
    obtain ⟨off,nvlen⟩ := p
    obtain ⟨c',hc',hoff⟩ := countLoop_off (c := ⟨r,lenSize,0,0⟩) hl hat hloop
    rw [hloop] at h
    dsimp only at h
    have hne : ¬b.len = off := by
      intro heq
      rw [if_pos heq] at h
      exact h ⟨nvlen,rfl⟩
    rw [hc',ok_bind,hoff,if_neg hne]
    rfl

end Blocks

/-! What the copying pass writes. -/

theorem write_ok {room : Nat} {data bytes : Bytes} (h : data.length+bytes.length ≤ room) :
    write room data bytes = .ok (data ++ bytes) := if_pos h

theorem write_outside {room : Nat} {data bytes : Bytes} (h : ¬data.length+bytes.length ≤ room) :
    write room data bytes = .error .outside := if_neg h

/-- Where the pieces of a value begin. -/
def pieceStarts : Bytes → Nat → Nat → List Nat
  | [], _, val => [val]
  | c :: cs, pos, val => if c = 0 then val :: pieceStarts cs (pos+1) (pos+1) else pieceStarts cs (pos+1) val

theorem length_pieceStarts (value : Bytes) (pos val : Nat) : (pieceStarts value pos val).length = value.count 0+1 := by
  induction value generalizing pos val with
  | nil => rfl
  | cons c cs ih =>
    rw [pieceStarts,List.count_cons]
    by_cases hc : c = 0
    · simp [hc,ih]
    · simp [hc,ih]

/-- The pieces of a value, when `acc` of the current one has been read. -/
theorem scanValue_eq {nvlen : Nat} (name : Nat) (value acc : Bytes) (hacc : ∀ c ∈ acc, c ≠ 0) {pos val : Nat}
    (hpos : pos = val+acc.length) {idx : List (Nat × Nat)} (hidx : idx.length+(value.count 0+1) ≤ nvlen) (invalid : Bool) :
    ∃ last idx', scanValue nvlen name value pos val idx invalid =
        .ok (last,idx',invalid || (valuePieces (acc ++ value)).dropLast.any (·.isEmpty)) ∧
      pushIndex nvlen idx' (name,last) = .ok (idx ++ (pieceStarts value pos val).map (fun v => (name,v))) := by
  induction value generalizing acc pos val idx invalid with
  | nil =>
    refine ⟨val,idx,?_,?_⟩
    · rw [scanValue,List.append_nil,valuePieces_single hacc]
      simp
    · rw [pushIndex,if_pos (by simp at hidx; omega)]
      rfl
  | cons c cs ih =>
    rw [List.count_cons] at hidx
    by_cases hc : c = 0
    · subst hc
      have hempty : acc.isEmpty = decide (val = pos) := by
        rw [hpos]
        cases acc <;> simp
      rw [if_pos (by simp)] at hidx
      have hpos' : pos+1 = pos+1+([] : Bytes).length := rfl
      have hidx' : (idx ++ [(name,val)]).length+(cs.count 0+1) ≤ nvlen := by
        rw [List.length_append,List.length_singleton]
        omega
      obtain ⟨last,idx',hscan,hpush⟩ := ih [] nofun hpos' hidx' (invalid || val = pos)
      refine ⟨last,idx',?_,?_⟩
      · rw [scanValue,if_pos rfl,pushIndex,if_pos (by omega),ok_bind,hscan,valuePieces_append,valuePieces_single hacc,
          List.singleton_append,List.dropLast_cons_of_ne_nil (valuePieces_ne_nil cs),List.any_cons,hempty,Bool.or_assoc]
        rfl
      · rw [hpush,pieceStarts,if_pos rfl,List.map_cons,List.append_assoc]
        rfl
    · rw [if_neg (by simpa using hc)] at hidx
      have hacc' : ∀ x ∈ acc ++ [c], x ≠ 0 := by
        simp only [List.forall_mem_append,List.forall_mem_singleton]
        exact ⟨hacc,hc⟩
      have hpos' : pos+1 = val+(acc ++ [c]).length := by
        rw [List.length_append,List.length_singleton]
        omega
      obtain ⟨last,idx',hscan,hpush⟩ := ih (acc ++ [c]) hacc' hpos' hidx invalid
      refine ⟨last,idx',?_,?_⟩
      · rw [scanValue,if_neg hc,hscan,List.append_assoc]
        rfl
      · rw [hpush,pieceStarts,if_neg hc]

/-- The strings of the entries with their terminators. -/
def copiedBytes (es : List (Bytes × Bytes)) : Bytes := es.flatMap (fun e => e.1 ++ 0 :: (e.2 ++ [0]))

/-- The pointers to the strings of the entries, the first string standing at `d`. -/
def pointerIndex : Nat → List (Bytes × Bytes) → List (Nat × Nat)
  | _, [] => []
  | d, e :: es => (pieceStarts e.2 (d+e.1.length+1) (d+e.1.length+1)).map (fun v => (d,v)) ++
      pointerIndex (d+entryPlaces e) es

theorem length_pointerIndex (d : Nat) (es : List (Bytes × Bytes)) :
    (pointerIndex d es).length = (es.flatMap entryPairs).length := by
  induction es generalizing d with
  | nil => rfl
  | cons e es ih =>
    rw [pointerIndex,List.length_append,ih,List.flatMap_cons,List.length_append,List.length_map,length_pieceStarts,
      length_entryPairs]

theorem cstr_append_zero (s rest : Bytes) : cstr (s ++ 0 :: rest) = cstr s := by
  induction s with
  | nil => simp [cstr]
  | cons c cs ih =>
    rw [cstr] at ih ⊢
    rw [cstr,List.cons_append,List.takeWhile_cons,List.takeWhile_cons,ih]
    rfl

theorem map_strAt_pieceStarts (value acc : Bytes) (hacc : ∀ c ∈ acc, c ≠ 0) {data rest : Bytes} {pos val : Nat}
    (hpos : pos = val+acc.length) (hdata : data.drop val = acc ++ (value ++ 0 :: rest)) :
    (pieceStarts value pos val).map (strAt data) = valuePieces (acc ++ value) := by
  induction value generalizing acc pos val with
  | nil =>
    rw [pieceStarts,List.map_singleton,strAt,hdata,List.nil_append,cstr_append_zero,cstr_eq_self.mpr hacc,
      List.append_nil,valuePieces_single hacc]
  | cons c cs ih =>
    rw [pieceStarts]
    by_cases hc : c = 0
    · subst hc
      have hnext : data.drop (pos+1) = [] ++ (cs ++ 0 :: rest) := by
        rw [hpos,Nat.add_assoc,← List.drop_drop,hdata,← List.drop_drop,List.drop_left' rfl]
        rfl
      have hx := ih [] nofun (show pos+1 = pos+1+([] : Bytes).length from rfl) hnext
      rw [if_pos rfl,List.map_cons,hx,strAt,hdata,List.cons_append,cstr_append_zero,cstr_eq_self.mpr hacc,
        valuePieces_append,valuePieces_single hacc]
      rfl
    · have hacc' : ∀ x ∈ acc ++ [c], x ≠ 0 := by
        simp only [List.forall_mem_append,List.forall_mem_singleton]
        exact ⟨hacc,hc⟩
      have hpos' : pos+1 = val+(acc ++ [c]).length := by
        rw [List.length_append,List.length_singleton]
        omega
      have hdata' : data.drop val = (acc ++ [c]) ++ (cs ++ 0 :: rest) := by
        rw [hdata,List.append_assoc]
        rfl
      rw [if_neg hc,ih (acc ++ [c]) hacc' hpos' hdata',List.append_assoc]
      rfl

theorem entryPlaces_eq (e : Bytes × Bytes) : (e.1 ++ 0 :: (e.2 ++ [0])).length = entryPlaces e := by
  rw [entryPlaces,List.length_append,List.length_cons,List.length_append,List.length_singleton]
  omega

/-- The pointers lead to the names and the pieces of the values. -/
theorem resolve_pointerIndex (pre : Bytes) (es : List (Bytes × Bytes)) :
    resolve (pre ++ copiedBytes es) (pointerIndex pre.length es) = placedIndex entryPlaces pre.length es := by
  induction es generalizing pre with
  | nil => rfl
  | cons e es ih =>
    have hnext := ih (pre ++ (e.1 ++ 0 :: (e.2 ++ [0])))
    rw [List.length_append,entryPlaces_eq] at hnext
    have hcopied : copiedBytes (e :: es) = e.1 ++ 0 :: (e.2 ++ 0 :: copiedBytes es) := by
      rw [copiedBytes,List.flatMap_cons]
      simp [copiedBytes]
    have hdata : pre ++ copiedBytes (e :: es) = (pre ++ (e.1 ++ 0 :: (e.2 ++ [0]))) ++ copiedBytes es := by
      rw [hcopied]
      simp
    have hname : strAt (pre ++ copiedBytes (e :: es)) pre.length = cstr e.1 := by
      rw [strAt,List.drop_left' rfl,hcopied,cstr_append_zero]
    have hvalue : (pieceStarts e.2 (pre.length+e.1.length+1) (pre.length+e.1.length+1)).map
        (strAt (pre ++ copiedBytes (e :: es))) = valuePieces e.2 := by
      have hdrop : (pre ++ copiedBytes (e :: es)).drop (pre.length+e.1.length+1) =
          [] ++ (e.2 ++ 0 :: copiedBytes es) := by
        rw [Nat.add_assoc,← List.drop_drop,List.drop_left' rfl,hcopied,← List.drop_drop,List.drop_left' rfl]
        rfl
      exact map_strAt_pieceStarts e.2 [] nofun rfl hdrop
    rw [pointerIndex,placedIndex,entryPairs,← hvalue]
    rw [hdata] at hname ⊢
    rw [resolve] at hnext ⊢
    rw [List.map_append,hnext]
    simp only [List.map_map]
    congr 1
    apply List.map_congr_left
    intro v _
    simp only [Function.comp_apply,hname]

/-- Bytes that the strings of the entries need. -/
def neededBytes (es : List (Bytes × Bytes)) : Nat := (es.map entryPlaces).sum

section Copying
variable {b : ChunkedBuffer} {lenSize nvlen pos : Nat} {es : List (Bytes × Bytes)}

/-- A string is read from its length on. -/
theorem readStr_at (hl : lenSize = 2 ∨ lenSize = 4) {r : Reader} (h : b.At r pos) {s rest : Bytes}
    (hs : s.length < 256^lenSize) (hrd : b.contents.drop pos = packStr lenSize s ++ rest) :
    ∃ r1 r2, frameGetNvLen b r lenSize = .ok (s.length,r1) ∧ b.readerData r1 s.length = some (s,r2) ∧
      b.At r2 (pos+lenSize+s.length) ∧ b.contents.drop (pos+lenSize+s.length) = rest := by
  have hput := putNvLen_length hl s.length
  rw [packStr,List.append_assoc] at hrd
  have hlen : pos+lenSize+s.length ≤ b.len := by
    have hx := congrArg List.length hrd
    rw [List.length_drop,length_contents,List.length_append,List.length_append,hput] at hx
    rcases hl with rfl | rfl <;> omega
  have hdrop : b.contents.drop (pos+lenSize) = s ++ rest := by
    rw [← List.drop_drop,hrd,List.drop_left' hput]
  obtain ⟨r1,hr1,hat1⟩ := frameGetNvLen_eq hl h (by omega)
  rw [hrd,getNvLen_put hl hs] at hr1
  obtain ⟨r2,hr2,hat2⟩ := readerData_eq hat1 hlen
  rw [hdrop,List.take_left' rfl] at hr2
  exact ⟨r1,r2,hr1,hr2,hat2,by rw [← List.drop_drop,hdrop,List.drop_left' rfl]⟩

/-- One entry is copied where there is room for it. -/
theorem copyLoop_entry (hl : lenSize = 2 ∨ lenSize = 4) {c : Copied} (h : b.At c.reader pos) {e : Bytes × Bytes}
    (he : EntryFits lenSize e) {rest : Bytes} (hrd : b.contents.drop pos = entryBytes lenSize e ++ rest)
    (hidx : c.idx.length+(e.2.count 0+1) ≤ nvlen) (room n : Nat) :
    ∃ r', copyLoop b lenSize nvlen room (n+1) c =
        (if c.data.length+entryPlaces e ≤ room then copyLoop b lenSize nvlen room n
          ⟨r',c.data ++ (e.1 ++ 0 :: (e.2 ++ [0])),c.idx ++ (pieceStarts e.2 (c.data.length+e.1.length+1)
            (c.data.length+e.1.length+1)).map (fun v => (c.data.length,v)),c.invalid || invalidEntry e⟩
        else .error .outside) ∧
      b.At r' (pos+(entryBytes lenSize e).length) ∧ b.contents.drop (pos+(entryBytes lenSize e).length) = rest := by
  rw [entryBytes_append] at hrd
  obtain ⟨r1,r2,hr1,hr2,hat2,hrd2⟩ := readStr_at hl h he.1 hrd
  obtain ⟨r3,r4,hr3,hr4,hat4,hrd4⟩ := readStr_at hl hat2 he.2 hrd2
  have hlen : pos+(entryBytes lenSize e).length = pos+lenSize+e.1.length+lenSize+e.2.length := by
    rw [entryBytes,List.length_append,packStr_length hl,packStr_length hl]
    omega
  have hval : c.data.length+e.1.length+1 = c.data.length+e.1.length+1+([] : Bytes).length := rfl
  obtain ⟨last,idx',hscan,hpush⟩ := scanValue_eq c.data.length e.2 [] (List.forall_mem_nil _) hval hidx
    (c.invalid || e.1.length = 0 || !e.1.all validNameByte)
  refine ⟨r4,?_,by rwa [hlen],by rwa [hlen]⟩
  rw [copyLoop]
  simp only [hr1,ok_bind,hr2,access]
  rw [entryPlaces]
  by_cases h1 : c.data.length+e.1.length ≤ room
  · rw [write_ok h1,ok_bind]
    by_cases h2 : (c.data ++ e.1).length+[(0 : UInt8)].length ≤ room
    · rw [write_ok h2]
      simp only [ok_bind,hr3,hr4]
      by_cases h3 : (c.data ++ e.1 ++ [0]).length+e.2.length ≤ room
      · rw [write_ok h3,ok_bind]
        have hstart : (c.data ++ e.1 ++ [0]).length = c.data.length+e.1.length+1 := by
          rw [List.length_append,List.length_append,List.length_singleton]
        rw [hstart,hscan]
        simp only [ok_bind]
        by_cases h4 : (c.data ++ e.1 ++ [0] ++ e.2).length+[(0 : UInt8)].length ≤ room
        · rw [write_ok h4,if_pos (by simp at h4; omega),ok_bind,hpush,ok_bind]
          simp only [List.append_assoc,List.cons_append,List.nil_append,invalidEntry,Bool.or_assoc]
        · rw [write_outside h4,if_neg (by simp at h4; omega)]
          rfl
      · rw [write_outside h3,if_neg (by simp at h3; omega)]
        rfl
    · rw [write_outside h2,if_neg (by simp at h2; omega)]
      rfl
  · rw [write_outside h1,if_neg (by omega)]
    rfl

/-- The entries are copied exactly when there is room for all of them. -/
theorem copyLoop_entries (hl : lenSize = 2 ∨ lenSize = 4) (hes : ∀ e ∈ es, EntryFits lenSize e) {c : Copied} {room : Nat}
    (h : b.At c.reader pos) (hrd : b.contents.drop pos = es.flatMap (entryBytes lenSize))
    (hidx : c.idx.length+(es.flatMap entryPairs).length ≤ nvlen) (hroom : c.data.length ≤ room) :
    ∃ r', copyLoop b lenSize nvlen room es.length c =
      if c.data.length+neededBytes es ≤ room then
        .ok ⟨r',c.data ++ copiedBytes es,c.idx ++ pointerIndex c.data.length es,c.invalid || es.any invalidEntry⟩
      else .error .outside := by
  induction es generalizing c pos with
  | nil =>
    refine ⟨c.reader,?_⟩
    have hfits : c.data.length+neededBytes [] ≤ room := hroom
    rw [List.length_nil,copyLoop,if_pos hfits]
    simp [copiedBytes,pointerIndex]
  | cons e es ih =>
    obtain ⟨he,hes⟩ := List.forall_mem_cons.mp hes
    rw [List.flatMap_cons] at hrd
    rw [List.flatMap_cons,List.length_append,length_entryPairs] at hidx
    have hneeded : neededBytes (e :: es) = entryPlaces e+neededBytes es := by
      rw [neededBytes,List.map_cons,List.sum_cons]
      rfl
    have hidx1 : c.idx.length+(e.2.count 0+1) ≤ nvlen := by omega
    obtain ⟨r1,hr1,hat1,hrd1⟩ := copyLoop_entry hl h he hrd hidx1 room es.length
    rw [List.length_cons,hr1,hneeded]
    by_cases hfits : c.data.length+entryPlaces e ≤ room
    · rw [if_pos hfits]
      have hdata : (c.data ++ (e.1 ++ 0 :: (e.2 ++ [0]))).length = c.data.length+entryPlaces e := by
        rw [List.length_append,entryPlaces_eq]
      have hidx2 : (c.idx ++ (pieceStarts e.2 (c.data.length+e.1.length+1) (c.data.length+e.1.length+1)).map
          (fun v => (c.data.length,v))).length+(es.flatMap entryPairs).length ≤ nvlen := by
        rw [List.length_append,List.length_map,length_pieceStarts]
        omega
      obtain ⟨r2,hr2⟩ := ih hes (c := ⟨r1,_,_,c.invalid || invalidEntry e⟩) hat1 hrd1 hidx2 (hdata.trans_le hfits)
      refine ⟨r2,?_⟩
      rw [hr2]
      dsimp only
      rw [hdata,Nat.add_assoc,pointerIndex]
      simp only [copiedBytes,List.flatMap_cons,List.any_cons,List.append_assoc,Bool.or_assoc]
    · have hnot : ¬c.data.length+(entryPlaces e+neededBytes es) ≤ room := by omega
      rw [if_neg hfits]
      exact ⟨c.reader,(if_neg hnot).symm⟩

end Copying

/-! The grammar. -/

/-- The name is empty or has a byte that is not printable or an upper-case letter. -/
def BadName (name : Bytes) : Prop := name = [] ∨ ∃ c ∈ name, c < 0x20 ∨ 0x7e < c ∨ (65 ≤ c ∧ c ≤ 90)

/-- An empty piece stands before a NUL. -/
def BadValue (value : Bytes) : Prop := [] ∈ (valuePieces value).dropLast

def Invalid (es : List (Bytes × Bytes)) : Prop :=
  (∃ e ∈ es, BadName e.1 ∨ BadValue e.2) ∨ ¬(es.map (fun e => e.1)).Nodup

/-- The bytes are a count and as many names and values behind their lengths. -/
def IsBlock (lenSize : Nat) (input : Bytes) (es : List (Bytes × Bytes)) : Prop :=
  Fits lenSize es ∧ input = blockBytes lenSize es

theorem invalidEntry_iff (e : Bytes × Bytes) : invalidEntry e = true ↔ BadName e.1 ∨ BadValue e.2 := by
  have hbyte : ∀ c, validNameByte c = false ↔ c < 0x20 ∨ 0x7e < c ∨ (65 ≤ c ∧ c ≤ 90) := by
    intro c
    rw [validNameByte,Bool.not_eq_false']
    simp only [Bool.or_eq_true,Bool.and_eq_true,decide_eq_true_eq,or_assoc]
  have hvalid : e.1.all validNameByte = false ↔ ∃ c ∈ e.1, c < 0x20 ∨ 0x7e < c ∨ (65 ≤ c ∧ c ≤ 90) := by
    simp only [List.all_eq_false,Bool.not_eq_true,hbyte]
  have hpieces : (valuePieces e.2).dropLast.any (·.isEmpty) = true ↔ BadValue e.2 := by
    simp [BadValue]
  simp only [invalidEntry,Bool.or_eq_true,hpieces,Bool.not_eq_true',hvalid,BadName,decide_eq_true_eq,
    List.length_eq_zero_iff]

theorem countedBytes_iff {lenSize : Nat} (hl : lenSize = 2 ∨ lenSize = 4) {es : List (Bytes × Bytes)}
    (hes : ∀ e ∈ es, EntryFits lenSize e) :
    countedBytes es ≤ neededBytes es ∧ (neededBytes es ≤ countedBytes es ↔
      ∀ e ∈ es, e.1.length ≠ 4294967295 ∧ e.2.length ≠ 4294967295) := by
  induction es with
  | nil => simp [countedBytes,neededBytes]
  | cons e es ih =>
    obtain ⟨he,hes⟩ := List.forall_mem_cons.mp hes
    obtain ⟨hle,hiff⟩ := ih hes
    have h1 : e.1.length < 4294967296 ∧ e.2.length < 4294967296 := by
      obtain ⟨ha,hb⟩ := he
      rcases hl with rfl | rfl
      · exact ⟨by omega,by omega⟩
      · exact ⟨ha,hb⟩
    rw [List.forall_mem_cons,← hiff]
    rw [countedBytes,neededBytes] at hle ⊢
    simp only [countedBytes,neededBytes,List.map_cons,List.sum_cons,entryPlaces] at hle ⊢
    constructor
    · omega
    · constructor <;> intro _ <;> omega

/-- The parser on a block. -/
theorem copyNv_block {qsort : Qsort} {b : ChunkedBuffer} {lenSize : Nat} (hl : lenSize = 2 ∨ lenSize = 4)
    {es : List (Bytes × Bytes)} (h : IsBlock lenSize b.contents es) :
    copyNv qsort b lenSize (es.flatMap entryPairs).length (countedBytes es+indexSize (es.flatMap entryPairs).length) =
      if neededBytes es ≤ countedBytes es then
        if es.any invalidEntry then
          .ok (indexNv (resolve (copiedBytes es) (pointerIndex 0 es)),some .invalidHeaderBlock)
        else do
          let sorted ← frameNvSort qsort (copiedBytes es) (pointerIndex 0 es)
          return (indexNv (resolve (copiedBytes es) sorted),
            if hasDuplicateName (resolve (copiedBytes es) sorted) then some .invalidHeaderBlock else none)
      else .error .outside := by
  obtain ⟨hlen,r,hr,hat,hrd⟩ := block_start hl h.1 h.2
  have hidx : ([] : List (Nat × Nat)).length+(es.flatMap entryPairs).length ≤ (es.flatMap entryPairs).length := by simp
  obtain ⟨r',hr'⟩ := copyLoop_entries (c := ⟨r,[],[],false⟩) hl h.1.entries hat hrd hidx (Nat.zero_le (countedBytes es))
  rw [copyNv,hr]
  simp only [ok_bind]
  rw [minus_ok (Nat.le_add_left _ _),ok_bind,Nat.add_sub_cancel,hr']
  simp only [List.length_nil,Nat.zero_add,List.nil_append,Bool.false_or]
  split
  · rw [ok_bind,if_neg (by rw [length_pointerIndex]; simp)]
    rfl
  · rfl

/-- The result is what the grammar says: INVALID_FRAME for bytes that are no block,
INVALID_HEADER_BLOCK for an invalid block and otherwise the pairs in the order of their
names. In particular no access is outside of its object and no assertion fails. -/
def FollowsGrammar (qsort : Qsort) (b : ChunkedBuffer) (lenSize : Nat) : Prop :=
  ∀ m : Mem, m.headD true = true →
    ((¬∃ es, IsBlock lenSize b.contents es) → frameUnpackNv qsort m b lenSize = .ok (m,[],some .invalidFrame)) ∧
    ∀ es, IsBlock lenSize b.contents es →
      (Invalid es → ∃ nv, frameUnpackNv qsort m b lenSize = .ok (m.tail,nv,some .invalidHeaderBlock)) ∧
      (¬Invalid es → ∃ nv, frameUnpackNv qsort m b lenSize = .ok (m.tail,nv,none) ∧
        Sorted (fun p q => strcmp p.1 q.1) nv ∧ nv.Perm (es.flatMap entryPairs))

/-- No string is as long as makes its counted room zero, and the pointers of valid entries
can be counted in an `int`. -/
def Countable (es : List (Bytes × Bytes)) : Prop :=
  (∀ e ∈ es, e.1.length ≠ 4294967295 ∧ e.2.length ≠ 4294967295) ∧
  ((∀ e ∈ es, ¬(BadName e.1 ∨ BadValue e.2)) → (es.flatMap entryPairs).length < 1073741824)

section Grammar
variable {qsort : Qsort} {b : ChunkedBuffer} {lenSize : Nat} {es : List (Bytes × Bytes)}

theorem frameUnpackNv_block (hl : lenSize = 2 ∨ lenSize = 4) (h : IsBlock lenSize b.contents es) {m : Mem}
    (hm : m.headD true = true) : frameUnpackNv qsort m b lenSize =
      (copyNv qsort b lenSize (es.flatMap entryPairs).length
        (countedBytes es+indexSize (es.flatMap entryPairs).length)).map (fun r => (m.tail,r.1,r.2)) := by
  rw [frameUnpackNv,frameCountUnpackNvSpace_block hl h.1 h.2]
  dsimp only
  rw [if_pos hm]

theorem any_invalidEntry_iff : es.any invalidEntry = true ↔ ∃ e ∈ es, BadName e.1 ∨ BadValue e.2 := by
  simp only [List.any_eq_true,invalidEntry_iff]

/-- The sorted pointers of valid entries. -/
theorem sorted_pointers (hq : Sorts qsort) (hvalid : ∀ e ∈ es, invalidEntry e = false) {sorted : List (Nat × Nat)}
    (h : frameNvSort qsort (copiedBytes es) (pointerIndex 0 es) = .ok sorted) :
    Sorted (fun p q => strcmp p.1 q.1) (indexNv (resolve (copiedBytes es) sorted)) ∧
    (indexNv (resolve (copiedBytes es) sorted)).Perm (es.flatMap entryPairs) ∧
    (hasDuplicateName (resolve (copiedBytes es) sorted) = false ↔ (es.map (fun e => e.1)).Nodup) := by
  have ho := name_order (fun p : Nat × Nat => strAt (copiedBytes es) p.1)
  have hresolve : resolve (copiedBytes es) (pointerIndex 0 es) = placedIndex entryPlaces 0 es := resolve_pointerIndex [] es
  rw [frameNvSort] at h
  split at h
  · cases h
    have hsorted := hq.sorted _ _ (pointerIndex 0 es) ho
    have hperm := (hq.perm _ _ (pointerIndex 0 es) ho).map (fun p => (p.1,strAt (copiedBytes es) p.1,strAt (copiedBytes es) p.2))
    change List.Perm (resolve (copiedBytes es) _) (resolve (copiedBytes es) _) at hperm
    rw [hresolve] at hperm
    generalize qsort _ _ (pointerIndex 0 es) = sorted at hsorted hperm
    refine ⟨?_,?_,?_⟩
    · rw [Sorted,indexNv,resolve,List.map_map,List.pairwise_map]
      exact hsorted
    · have hx := hperm.map (fun e => e.2)
      change List.Perm (indexNv _) (indexNv _) at hx
      rwa [indexNv_placedIndex entryPlaces 0 hvalid] at hx
    · apply duplicate_placed_iff _ hvalid _ hperm
      · intro e
        rw [entryPlaces]
        omega
      · rw [Sorted,resolve,List.pairwise_map]
        exact hsorted
  · cases h

theorem frameNvSort_overflows (h : ¬(es.flatMap entryPairs).length < 1073741824) :
    frameNvSort qsort (copiedBytes es) (pointerIndex 0 es) = .error .overflow := by
  apply if_neg
  rw [length_pointerIndex]
  omega

/-- The pointers of the entries in the order of the names. -/
def sortedPointers (qsort : Qsort) (es : List (Bytes × Bytes)) : List (Nat × Nat) :=
  qsort (Nat × Nat) (fun l r => strcmp (strAt (copiedBytes es) l.1) (strAt (copiedBytes es) r.1)) (pointerIndex 0 es)

theorem frameNvSort_sorts (qsort : Qsort) (h : (es.flatMap entryPairs).length < 1073741824) :
    frameNvSort qsort (copiedBytes es) (pointerIndex 0 es) = .ok (sortedPointers qsort es) := by
  apply if_pos
  rw [length_pointerIndex]
  omega

/-- A block is parsed by the grammar exactly when its strings and pairs can be counted. -/
theorem block_follows_iff (hq : Sorts qsort) (hl : lenSize = 2 ∨ lenSize = 4) (h : IsBlock lenSize b.contents es) {m : Mem}
    (hm : m.headD true = true) :
    ((Invalid es → ∃ nv, frameUnpackNv qsort m b lenSize = .ok (m.tail,nv,some .invalidHeaderBlock)) ∧
      (¬Invalid es → ∃ nv, frameUnpackNv qsort m b lenSize = .ok (m.tail,nv,none) ∧
        Sorted (fun p q => strcmp p.1 q.1) nv ∧ nv.Perm (es.flatMap entryPairs))) ↔ Countable es := by
  have hcount := (countedBytes_iff hl h.1.entries).2
  rw [frameUnpackNv_block hl h hm,copyNv_block hl h,Countable,← hcount]
  by_cases hroom : neededBytes es ≤ countedBytes es
  · rw [if_pos hroom]
    by_cases hbad : ∃ e ∈ es, BadName e.1 ∨ BadValue e.2
    · rw [if_pos (any_invalidEntry_iff.mpr hbad)]
      have hinvalid : Invalid es := .inl hbad
      refine ⟨fun _ => ⟨hroom,fun hnone => ?_⟩,fun _ => ⟨fun _ => ⟨_,rfl⟩,fun hvalid => absurd hinvalid hvalid⟩⟩
      obtain ⟨e,he,hx⟩ := hbad
      exact absurd hx (hnone e he)
    · have hnone : ∀ e ∈ es, ¬(BadName e.1 ∨ BadValue e.2) := fun e he hx => hbad ⟨e,he,hx⟩
      have hvalid : ∀ e ∈ es, invalidEntry e = false := by
        intro e he
        rw [← Bool.not_eq_true,invalidEntry_iff]
        exact hnone e he
      rw [if_neg (fun hx => hbad (any_invalidEntry_iff.mp hx))]
      by_cases hint : (es.flatMap entryPairs).length < 1073741824
      · have hsort := frameNvSort_sorts qsort hint
        obtain ⟨hs,hperm,hdup⟩ := sorted_pointers hq hvalid hsort
        refine ⟨fun _ => ⟨hroom,fun _ => hint⟩,fun _ => ⟨?_,?_⟩⟩
        · rintro (hx | hx)
          · exact absurd hx hbad
          · have hdup' : hasDuplicateName (resolve (copiedBytes es) (sortedPointers qsort es)) = true := by
              rw [← Bool.not_eq_false,hdup]
              exact hx
            rw [hsort,ok_bind,hdup']
            exact ⟨_,rfl⟩
        · intro hx
          have hdup' : hasDuplicateName (resolve (copiedBytes es) (sortedPointers qsort es)) = false :=
            hdup.mpr (not_not.mp (fun hn => hx (.inr hn)))
          rw [hsort,ok_bind,hdup']
          exact ⟨_,rfl,hs,hperm⟩
      · rw [frameNvSort_overflows hint,error_bind]
        refine ⟨?_,fun hx => absurd (hx.2 hnone) hint⟩
        rintro ⟨hinv,hok⟩
        by_cases hx : Invalid es
        · obtain ⟨nv,hnv⟩ := hinv hx
          cases hnv
        · obtain ⟨nv,hnv,-⟩ := hok hx
          cases hnv
  · rw [if_neg hroom]
    refine ⟨?_,fun hx => absurd hx.1 hroom⟩
    rintro ⟨hinv,hok⟩
    by_cases hx : Invalid es
    · obtain ⟨nv,hnv⟩ := hinv hx
      cases hnv
    · obtain ⟨nv,hnv,-⟩ := hok hx
      cases hnv

/-- The parser follows the grammar exactly on the buffers whose block, if they hold one,
has no string of 2^32-1 bytes and, if its entries are valid, fewer than 2^30 pairs. -/
theorem parser_follows_grammar_iff (hq : Sorts qsort) (hl : lenSize = 2 ∨ lenSize = 4) (b : ChunkedBuffer) :
    FollowsGrammar qsort b lenSize ↔ ∀ es, IsBlock lenSize b.contents es → Countable es := by
  constructor
  · intro h es hes
    exact (block_follows_iff hq hl hes rfl).mp ((h [] rfl).2 es hes)
  · intro h m hm
    refine ⟨?_,fun es hes => (block_follows_iff hq hl hes hm).mpr (h es hes)⟩
    intro hnone
    rw [frameUnpackNv,frameCountUnpackNvSpace_other hl hnone]

/-- The parser of the session's model on a block. -/
theorem flat_block (hq : Sorts qsort) (hl : lenSize = 2 ∨ lenSize = 4) {input : Bytes} (h : IsBlock lenSize input es) {m : Mem}
    (hm : m.headD true = true) : ∃ nv, (Invalid es → Spdylay.frameUnpackNv qsort m input lenSize =
        (m.tail,nv,some .invalidHeaderBlock)) ∧
      (¬Invalid es → Spdylay.frameUnpackNv qsort m input lenSize = (m.tail,nv,none) ∧ nv.Perm (es.flatMap entryPairs)) := by
  obtain ⟨nvlen,hcount⟩ := (frameCountUnpackNvSpace_ok_iff hl input).mpr ⟨es,h⟩
  have hlen := frameCountUnpackNvSpace_length hcount
  rw [Spdylay.frameUnpackNv,hcount]
  dsimp only
  obtain ⟨hfits,rfl⟩ := h
  rw [unpackNvLoop_block hl hfits] at hlen ⊢
  rw [if_pos hm,if_neg (not_not_intro hlen)]
  by_cases hbad : ∃ e ∈ es, BadName e.1 ∨ BadValue e.2
  · rw [if_pos (any_invalidEntry_iff.mpr hbad)]
    exact ⟨_,fun _ => rfl,fun hx => absurd (.inl hbad) hx⟩
  · have hvalid : ∀ e ∈ es, invalidEntry e = false := by
      intro e he
      rw [← Bool.not_eq_true,invalidEntry_iff]
      exact fun hx => hbad ⟨e,he,hx⟩
    have hdup := duplicate_iff hq hvalid
    rw [if_neg (fun hx => hbad (any_invalidEntry_iff.mp hx))]
    dsimp only
    refine ⟨unpackedNv qsort es,?_,?_⟩
    · rintro (hx | hx)
      · exact absurd hx hbad
      · rw [← hdup,Bool.not_eq_false] at hx
        rw [hx]
        rfl
    · intro hx
      have hnodup : (es.map (fun e => e.1)).Nodup := not_not.mp (fun hn => hx (.inr hn))
      rw [hdup.mpr hnodup]
      exact ⟨rfl,unpackedNv_perm hq hvalid⟩

/-- Where everything can be counted, the parser does on its memory what the parser of the
session's model does on the bytes. -/
theorem frameUnpackNv_contents (hq : Sorts qsort) (hl : lenSize = 2 ∨ lenSize = 4)
    (h : ∀ es, IsBlock lenSize b.contents es → Countable es) {m : Mem} (hm : m.headD true = true) :
    ∃ nv nv' code m', frameUnpackNv qsort m b lenSize = .ok (m',nv,code) ∧
      Spdylay.frameUnpackNv qsort m b.contents lenSize = (m',nv',code) ∧ (code = none → nv.Perm nv') := by
  by_cases hblock : ∃ es, IsBlock lenSize b.contents es
  · obtain ⟨es,hes⟩ := hblock
    obtain ⟨hinv,hok⟩ := (block_follows_iff hq hl hes hm).mpr (h es hes)
    obtain ⟨nv',hinv',hok'⟩ := flat_block hq hl hes hm
    by_cases hx : Invalid es
    · obtain ⟨nv,hnv⟩ := hinv hx
      exact ⟨nv,nv',_,_,hnv,hinv' hx,nofun⟩
    · obtain ⟨nv,hnv,-,hperm⟩ := hok hx
      obtain ⟨hnv',hperm'⟩ := hok' hx
      exact ⟨nv,nv',_,_,hnv,hnv',fun _ => hperm.trans hperm'.symm⟩
  · refine ⟨[],[],some .invalidFrame,m,?_,?_,nofun⟩
    · rw [frameUnpackNv,frameCountUnpackNvSpace_other hl hblock]
    · have hnot := mt (frameCountUnpackNvSpace_ok_iff hl b.contents).mp hblock
      cases hcount : Spdylay.frameCountUnpackNvSpace b.contents lenSize with
      | ok nvlen => exact absurd ⟨nvlen,hcount⟩ hnot
      | error e =>
        have he := frameCountUnpackNvSpace_error hcount
        rw [Spdylay.frameUnpackNv,hcount,he]

theorem good_entries (hes : Accepted lenSize es) : ∀ e ∈ es, ¬(BadName e.1 ∨ BadValue e.2) := by
  intro e he
  rw [← invalidEntry_iff,Bool.not_eq_true]
  exact hes.valid e he

/-- The list that the parser leaves of valid entries. -/
def copiedNv (qsort : Qsort) (es : List (Bytes × Bytes)) : Nv :=
  indexNv (resolve (copiedBytes es) (sortedPointers qsort es))

/-- With a stable sort it is the list of the session's model. -/
theorem copiedNv_eq (hq : SortsStably qsort) (hvalid : ∀ e ∈ es, invalidEntry e = false) :
    copiedNv qsort es = unpackedNv qsort es := by
  have hpairs : indexNv (resolve (copiedBytes es) (pointerIndex 0 es)) = es.flatMap entryPairs := by
    have hresolve : resolve (copiedBytes es) (pointerIndex 0 es) = placedIndex entryPlaces 0 es := resolve_pointerIndex [] es
    rw [hresolve,indexNv_placedIndex entryPlaces 0 hvalid]
  rw [unpackedNv_pairs hq hvalid,← hpairs]
  have hmap := hq.map (name_order (fun p : Bytes × Bytes => p.1))
    (fun p : Nat × Nat => (strAt (copiedBytes es) p.1,strAt (copiedBytes es) p.2)) (pointerIndex 0 es)
  rw [copiedNv,indexNv,resolve,List.map_map,indexNv,resolve,List.map_map]
  exact hmap

/-- The parser succeeds on exactly the blocks that are acceptable and can be counted. -/
theorem unpacks_iff (hq : Sorts qsort) (hl : lenSize = 2 ∨ lenSize = 4) {m m' : Mem} {nv : Nv} :
    frameUnpackNv qsort m b lenSize = .ok (m',nv,none) ↔ m.headD true = true ∧ m' = m.tail ∧
      ∃ es, Accepted lenSize es ∧ b.contents = blockBytes lenSize es ∧ Countable es ∧ nv = copiedNv qsort es := by
  constructor
  · intro h
    have hread : m.headD true = true ∧ ∃ es, IsBlock lenSize b.contents es := by
      rw [frameUnpackNv] at h
      by_cases hblock : ∃ es, IsBlock lenSize b.contents es
      · obtain ⟨es,hes⟩ := hblock
        rw [frameCountUnpackNvSpace_block hl hes.1 hes.2] at h
        dsimp only at h
        split at h
        · rename_i hm
          exact ⟨hm,es,hes⟩
        · cases h
      · rw [frameCountUnpackNvSpace_other hl hblock] at h
        cases h
    obtain ⟨hm,es,hes⟩ := hread
    rw [frameUnpackNv_block hl hes hm,copyNv_block hl hes] at h
    split at h
    · rename_i hroom
      split at h
      · cases h
      rename_i hany
      have hvalid : ∀ e ∈ es, invalidEntry e = false := by simpa using hany
      by_cases hint : (es.flatMap entryPairs).length < 1073741824
      · have hsort := frameNvSort_sorts qsort hint
        rw [hsort,ok_bind] at h
        cases hdup : hasDuplicateName (resolve (copiedBytes es) (sortedPointers qsort es)) with
        | true =>
          rw [hdup] at h
          cases h
        | false =>
          rw [hdup] at h
          cases h
          have hnodup := (sorted_pointers hq hvalid hsort).2.2.mp hdup
          exact ⟨hm,rfl,es,⟨hes.1,hvalid,hnodup⟩,hes.2,⟨(countedBytes_iff hl hes.1.entries).2.mp hroom,fun _ => hint⟩,rfl⟩
      · rw [frameNvSort_overflows hint] at h
        cases h
    · cases h
  · rintro ⟨hm,rfl,es,hes,hblock,hcount,rfl⟩
    have hsort := frameNvSort_sorts qsort (hcount.2 (good_entries hes))
    have hany : es.any invalidEntry = false := by
      have := hes.valid
      simpa using this
    rw [frameUnpackNv_block hl ⟨hes.fits,hblock⟩ hm,copyNv_block hl ⟨hes.fits,hblock⟩,
      if_pos ((countedBytes_iff hl hes.fits.entries).2.mpr hcount.1),hany,hsort,if_neg Bool.false_ne_true,ok_bind,
      (sorted_pointers hq hes.valid hsort).2.2.mpr hes.names]
    rfl

/-- Blocks of less than 2^30 bytes can be counted. -/
theorem countable_of_short (hl : lenSize = 2 ∨ lenSize = 4) {input : Bytes} (h : IsBlock lenSize input es)
    (hshort : input.length < 1073741824) : Countable es := by
  have hbytes : (es.flatMap (entryBytes lenSize)).length ≤ input.length := by
    rw [h.2,blockBytes,List.length_append]
    omega
  have hentry : ∀ e : Bytes × Bytes, (entryBytes lenSize e).length = 2*lenSize+e.1.length+e.2.length := by
    intro e
    rw [entryBytes,List.length_append,packStr_length hl,packStr_length hl]
    omega
  rw [List.length_flatMap] at hbytes
  refine ⟨?_,fun _ => ?_⟩
  · intro e he
    have hle := List.single_le_sum (l := es.map (fun e => (entryBytes lenSize e).length)) (fun _ _ => Nat.zero_le _) _
      (List.mem_map_of_mem he)
    rw [hentry] at hle
    omega
  · refine lt_of_le_of_lt ?_ (hbytes.trans_lt hshort)
    rw [List.length_flatMap]
    apply List.sum_le_sum
    intro e _
    rw [length_entryPairs,hentry]
    have hzeros : e.2.count 0 ≤ e.2.length := List.count_le_length
    rcases hl with rfl | rfl <;> omega

end Grammar

/-- A header with a name of 2^32-1 times the letter a and no value. -/
def longName : List (Bytes × Bytes) := [(List.replicate 4294967295 97,[])]

theorem longName_isBlock : IsBlock 4 (blockBytes 4 longName) longName := by
  refine ⟨⟨?_,?_⟩,rfl⟩
  · rw [longName,List.length_singleton]
    omega
  · rw [longName,List.forall_mem_singleton,EntryFits,List.length_replicate,List.length_nil]
    exact ⟨by omega,by omega⟩

/-- The counted room for this name is zero bytes, and it is copied out of its room. -/
theorem long_name_is_copied_outside :
    ∃ b, (init 4096).write (fun _ => 0) [] (blockBytes 4 longName) = ([],.ok b) ∧
      b.contents = blockBytes 4 longName ∧ ¬FollowsGrammar insertionQsort b 4 := by
  obtain ⟨b,hb,hcontents⟩ := holds_all (fun _ => 0) (show 0 < 4096 by omega) (blockBytes 4 longName)
  refine ⟨b,hb,hcontents,?_⟩
  intro h
  have hblock : IsBlock 4 b.contents longName := by
    rw [hcontents]
    exact longName_isBlock
  have hcount := (block_follows_iff insertionSort_stably.toSorts (.inr rfl) hblock rfl).mp ((h [] rfl).2 _ hblock)
  exact (hcount.1 _ List.mem_cons_self).1 List.length_replicate

/-- A block in chunks of three bytes. -/
def threeByteChunks : ChunkedBuffer where
  capacity := 3
  chunks := [[0,1,0],[1,97,0],[3,98,0],[99,7,7]]
  current := 4
  len := 10
  lastOffset := 1
  chunk_length := by decide
  current_le := by decide
  lastOffset_le := by decide
  len_eq := by decide

theorem three_byte_chunks_follow : FollowsGrammar insertionQsort threeByteChunks 2 := by
  apply (parser_follows_grammar_iff insertionSort_stably.toSorts (.inl rfl) threeByteChunks).mpr
  intro es hes
  apply countable_of_short (.inl rfl) hes
  decide

end Spdylay.Chunked
