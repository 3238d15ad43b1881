import Spdylay.Wire.HeaderInflater
import Spdylay.Library.Records

/-! The inflate buffer as it lies in memory: a chain of chunks of one capacity, of which
a prefix is filled, and the reader that goes along the chain. A chunk that was filled
once keeps its bytes. -/
namespace Spdylay
open Library

structure ChunkedBuffer where
  capacity : Nat
  /-- The data of the chunks behind the root. -/
  chunks : List Bytes
  /-- The chunk that is written; 0 is the root. -/
  current : Nat
  len : Nat
  lastOffset : Nat
  chunk_length : ∀ c ∈ chunks, c.length = capacity
  current_le : current ≤ chunks.length
  lastOffset_le : lastOffset ≤ capacity
  len_eq : len+capacity = current*capacity+lastOffset

namespace ChunkedBuffer

def init (capacity : Nat) : ChunkedBuffer where
  capacity := capacity
  chunks := []
  current := 0
  len := 0
  lastOffset := capacity
  chunk_length := nofun
  current_le := le_rfl
  lastOffset_le := le_rfl
  len_eq := by omega

def reset (b : ChunkedBuffer) : ChunkedBuffer where
  capacity := b.capacity
  chunks := b.chunks
  current := 0
  len := 0
  lastOffset := b.capacity
  chunk_length := b.chunk_length
  current_le := Nat.zero_le _
  lastOffset_le := le_rfl
  len_eq := by omega

def avail (b : ChunkedBuffer) : Nat := b.capacity-b.lastOffset

theorem len_next (b : ChunkedBuffer) :
    b.len+(b.capacity-b.lastOffset)+b.capacity = (b.current+1)*b.capacity+0 := by
  have hlen := b.len_eq
  have hoff := b.lastOffset_le
  rw [Nat.succ_mul]
  omega

/-- Go to the next chunk, whose memory may be `fresh`. -/
def alloc (fresh : Nat → UInt8) (m : Mem) (b : ChunkedBuffer) : Mem × Except Err ChunkedBuffer :=
  if h : b.current = b.chunks.length then
    if m.headD true then
      if m.tail.headD true then
        (m.tail.tail,.ok {
          capacity := b.capacity
          chunks := b.chunks ++ [(List.range b.capacity).map fresh]
          current := b.current+1
          len := b.len+(b.capacity-b.lastOffset)
          lastOffset := 0
          chunk_length := by
            intro c hc
            rcases List.mem_append.mp hc with hc | hc
            · exact b.chunk_length c hc
            · simp [List.mem_singleton.mp hc]
          current_le := by simp [h]
          lastOffset_le := Nat.zero_le _
          len_eq := b.len_next})
      else (m.tail.tail,.error .nomem)
    else (m.tail,.error .nomem)
  else
    (m,.ok {
      capacity := b.capacity
      chunks := b.chunks
      current := b.current+1
      len := b.len+(b.capacity-b.lastOffset)
      lastOffset := 0
      chunk_length := b.chunk_length
      current_le := Nat.lt_of_le_of_ne b.current_le h
      lastOffset_le := Nat.zero_le _
      len_eq := b.len_next})

section Writing
variable (b : ChunkedBuffer) (written : Bytes)

/-- The chunk that is written to keeps its length. -/
theorem chunk_length_written (h : b.lastOffset+written.length ≤ b.capacity) :
    ∀ c ∈ b.chunks.modify (b.current-1) (memcpy · b.lastOffset written), c.length = b.capacity := by
  intro c hc
  obtain ⟨i,hi,rfl⟩ := List.mem_iff_getElem.mp hc
  rw [List.length_modify] at hi
  rw [List.getElem_modify]
  have hlen := b.chunk_length b.chunks[i] (List.getElem_mem _)
  split
  · rw [length_memcpy (by rw [hlen]; exact h),hlen]
  · exact hlen

theorem current_le_written :
    b.current ≤ (b.chunks.modify (b.current-1) (memcpy · b.lastOffset written)).length := by
  rw [List.length_modify]
  exact b.current_le

theorem len_written :
    b.len+written.length+b.capacity = b.current*b.capacity+(b.lastOffset+written.length) := by
  have hlen := b.len_eq
  omega

/-- Write at the current position and advance. -/
def put (h : b.lastOffset+written.length ≤ b.capacity) : ChunkedBuffer where
  capacity := b.capacity
  chunks := b.chunks.modify (b.current-1) (memcpy · b.lastOffset written)
  current := b.current
  len := b.len+written.length
  lastOffset := b.lastOffset+written.length
  chunk_length := b.chunk_length_written written h
  current_le := b.current_le_written written
  lastOffset_le := h
  len_eq := b.len_written written

end Writing

/-- Bytes in the buffer. -/
def contents (b : ChunkedBuffer) : Bytes := b.chunks.flatten.take b.len

theorem len_le (b : ChunkedBuffer) : b.len ≤ b.chunks.flatten.length := by
  have hlen := b.len_eq
  have hoff := b.lastOffset_le
  have hcur := Nat.mul_le_mul_right b.capacity b.current_le
  rw [Records.length_flatten b.chunk_length]
  omega

theorem length_contents (b : ChunkedBuffer) : b.contents.length = b.len := by
  rw [contents,List.length_take,Nat.min_eq_left b.len_le]

/-! The buffer of the session's model keeps the bytes and the place in the chain. -/

def view (b : ChunkedBuffer) : Buffer := ⟨b.capacity,b.chunks.length,b.current,b.lastOffset,b.contents⟩

theorem view_init (capacity : Nat) : (init capacity).view = bufferInit capacity := by
  simp [view,init,bufferInit,contents]

theorem view_reset (b : ChunkedBuffer) : b.reset.view = bufferReset b.view := by
  simp [view,reset,bufferReset,contents]

theorem view_alloc (fresh : Nat → UInt8) (m : Mem) {b : ChunkedBuffer} (h : b.avail = 0) :
    ((b.alloc fresh m).1,(b.alloc fresh m).2.map view) = bufferAlloc m b.view := by
  have hoff := b.lastOffset_le
  have hfull : b.capacity-b.lastOffset = 0 := h
  have hcontents : (b.chunks.flatten ++ ((List.range b.capacity).map fresh)).take b.len = b.contents := by
    rw [List.take_append_of_le_length b.len_le]
    rfl
  rw [alloc,bufferAlloc]
  split
  · rename_i hlast
    have hview : b.view.current = b.view.chunks := hlast
    rw [if_pos hview]
    split
    · split
      · rw [Except.map,view,view,← hcontents]
        simp [contents,hfull]
      · rfl
    · rfl
  · rename_i hnext
    have hview : ¬b.view.current = b.view.chunks := hnext
    rw [if_neg hview]
    simp [Except.map,view,contents,hfull]

/-- The root is not written. -/
theorem root_full {b : ChunkedBuffer} (h : b.current = 0) : b.lastOffset = b.capacity ∧ b.len = 0 := by
  have hlen := b.len_eq
  have hoff := b.lastOffset_le
  rw [h,Nat.zero_mul] at hlen
  omega

/-- What is written follows the filled part. -/
theorem take_memcpy (front rest : Bytes) {chunk written : Bytes} {offset : Nat} (h : offset+written.length ≤ chunk.length) :
    (front ++ (memcpy chunk offset written ++ rest)).take (front.length+offset+written.length) =
      (front ++ (chunk ++ rest)).take (front.length+offset) ++ written := by
  have htake : (chunk.take offset).length = offset := by
    rw [List.length_take]
    omega
  have hnew : front ++ (memcpy chunk offset written ++ rest) =
      (front ++ chunk.take offset ++ written) ++ (chunk.drop (offset+written.length) ++ rest) := by
    simp [memcpy]
  have hold : front ++ (chunk ++ rest) = (front ++ chunk.take offset) ++ (chunk.drop offset ++ rest) := by
    rw [List.append_assoc,← List.append_assoc (chunk.take offset),List.take_append_drop]
  rw [hnew,hold,List.take_left' (by simp [htake,Nat.add_assoc]),List.take_left' (by simp [htake])]

theorem contents_put {b : ChunkedBuffer} {written : Bytes} (h : b.lastOffset+written.length ≤ b.capacity) :
    (b.put written h).contents = b.contents ++ written := by
  have hlen := b.len_eq
  have hcur := b.current_le
  cases hc : b.current with
  | zero =>
    obtain ⟨hoff,hzero⟩ := root_full hc
    have hnil : written = [] := List.eq_nil_of_length_eq_zero (by omega)
    subst hnil
    simp [contents,put,hzero]
  | succ k =>
    rw [hc] at hcur hlen
    rw [Nat.succ_mul] at hlen
    have hlk := b.chunk_length b.chunks[k] (List.getElem_mem _)
    have hsplit : b.chunks.flatten = (b.chunks.take k).flatten ++ (b.chunks[k] ++ (b.chunks.drop (k+1)).flatten) := by
      conv_lhs => rw [← List.take_append_drop k b.chunks,List.flatten_append,List.drop_eq_getElem_cons hcur,
        List.flatten_cons]
    have hmod : (b.chunks.modify k (memcpy · b.lastOffset written)).flatten = (b.chunks.take k).flatten ++
        (memcpy b.chunks[k] b.lastOffset written ++ (b.chunks.drop (k+1)).flatten) := by
      rw [List.modify_eq_take_cons_drop hcur,List.flatten_append,List.flatten_cons]
    have hfront : (b.chunks.take k).flatten.length = k*b.capacity := by
      rw [Records.length_flatten (fun c hm => b.chunk_length c (List.mem_of_mem_take hm)),List.length_take]
      congr 1
      omega
    have hfilled : b.len = (b.chunks.take k).flatten.length+b.lastOffset := by omega
    have htake := take_memcpy (b.chunks.take k).flatten (b.chunks.drop (k+1)).flatten (hlk.symm ▸ h)
    rw [← hfilled,← hsplit,← hmod] at htake
    rw [contents,contents,put]
    dsimp only
    rw [hc,Nat.add_sub_cancel,htake]

theorem view_put {b : ChunkedBuffer} {written : Bytes} (h : b.lastOffset+written.length ≤ b.capacity) :
    bufferAdvance b.view written = .ok (b.put written h).view := by
  have hview : b.view.lastOffset+written.length ≤ b.view.capacity := h
  rw [bufferAdvance,if_pos hview,view,view,contents_put h]
  simp [put]

/-! Writing. -/

theorem take_avail_fits (b : ChunkedBuffer) (data : Bytes) :
    b.lastOffset+(data.take b.avail).length ≤ b.capacity := by
  have hoff := b.lastOffset_le
  rw [List.length_take,avail]
  omega

/-- Each pass writes at least a byte. -/
def writeLoop (fresh : Nat → UInt8) : Nat → Mem → ChunkedBuffer → Bytes → Mem × Except Err ChunkedBuffer
  | 0, m, b, _ => (m,.ok b)
  | fuel+1, m, b, data =>
    if data = [] then (m,.ok b)
    else
      let r := if b.avail = 0 then b.alloc fresh m else (m,.ok b)
      match r.2 with
      | .error e => (r.1,.error e)
      | .ok b =>
        writeLoop fresh fuel r.1 (b.put (data.take b.avail) (b.take_avail_fits data)) (data.drop b.avail)

def write (b : ChunkedBuffer) (fresh : Nat → UInt8) (m : Mem) (data : Bytes) : Mem × Except Err ChunkedBuffer :=
  writeLoop fresh data.length m b data

theorem alloc_nil (fresh : Nat → UInt8) {b : ChunkedBuffer} (h : b.avail = 0) :
    ∃ b', b.alloc fresh [] = ([],.ok b') ∧ b'.capacity = b.capacity ∧ b'.avail = b.capacity ∧
      b'.contents = b.contents := by
  have hview := view_alloc fresh [] h
  rw [alloc] at hview ⊢
  split
  · rename_i hlast
    rw [dif_pos hlast] at hview
    refine ⟨_,rfl,rfl,rfl,?_⟩
    have hx : b.view.current = b.view.chunks := hlast
    simp only [List.headD_nil,List.tail_nil,if_true,Except.map,bufferAlloc,hx,Prod.mk.injEq,Except.ok.injEq,true_and] at hview
    exact congrArg Buffer.bytes hview
  · rename_i hnext
    rw [dif_neg hnext] at hview
    refine ⟨_,rfl,rfl,rfl,?_⟩
    have hx : ¬b.view.current = b.view.chunks := hnext
    simp only [Except.map,bufferAlloc,hx,if_false,Prod.mk.injEq,Except.ok.injEq,true_and] at hview
    exact congrArg Buffer.bytes hview

/-- With memory, everything is written behind the contents. -/
theorem writeLoop_contents (fresh : Nat → UInt8) {fuel : Nat} {b : ChunkedBuffer} {data : Bytes} (hcap : 0 < b.capacity)
    (hfuel : data.length ≤ fuel) : ∃ b', writeLoop fresh fuel [] b data = ([],.ok b') ∧ b'.capacity = b.capacity ∧
      b'.contents = b.contents ++ data := by
  induction fuel generalizing b data with
  | zero =>
    obtain rfl : data = [] := List.eq_nil_of_length_eq_zero (Nat.le_zero.mp hfuel)
    exact ⟨b,rfl,rfl,(List.append_nil _).symm⟩
  | succ fuel ih =>
    rw [writeLoop]
    split
    · rename_i hnil
      rw [hnil]
      exact ⟨b,rfl,rfl,(List.append_nil _).symm⟩
    · rename_i hdata
      have hpos := List.length_pos_iff.mpr hdata
      -- there is room in the current chunk or in the next one
      have hroom : ∃ b1, (if b.avail = 0 then b.alloc fresh [] else ([],.ok b)) = ([],.ok b1) ∧
          b1.capacity = b.capacity ∧ 0 < b1.avail ∧ b1.contents = b.contents := by
        split
        · rename_i hfull
          obtain ⟨b1,hb1,hc,ha,hx⟩ := alloc_nil fresh hfull
          exact ⟨b1,hb1,hc,by rwa [ha],hx⟩
        · rename_i hfree
          exact ⟨b,rfl,rfl,Nat.pos_of_ne_zero hfree,rfl⟩
      obtain ⟨b1,hb1,hc,ha,hx⟩ := hroom
      dsimp only
      rw [hb1]
      dsimp only
      generalize hput : b1.put (data.take b1.avail) _ = b2
      have hcontents : b2.contents = b.contents ++ data.take b1.avail := by
        rw [← hput,contents_put,hx]
      have hcapacity : b2.capacity = b.capacity := by
        rw [← hput,← hc]
        rfl
      obtain ⟨b',hb',hc',hx'⟩ := ih (b := b2) (by rwa [hcapacity])
        (show (data.drop b1.avail).length ≤ fuel by rw [List.length_drop]; omega)
      refine ⟨b',hb',hc'.trans hcapacity,?_⟩
      rw [hx',hcontents,List.append_assoc,List.take_append_drop]

/-- A buffer of any capacity can hold any bytes. -/
theorem holds_all (fresh : Nat → UInt8) {capacity : Nat} (hcap : 0 < capacity) (data : Bytes) :
    ∃ b, (init capacity).write fresh [] data = ([],.ok b) ∧ b.contents = data := by
  obtain ⟨b,hb,-,hx⟩ := writeLoop_contents fresh (b := init capacity) hcap (le_refl data.length)
  exact ⟨b,hb,by rw [hx]; rfl⟩

/-! The reader. `none` stands for an access to a chunk that is not there. -/

structure Reader where
  /-- The chunk that is read; 0 is the first behind the root. -/
  current : Nat
  offset : Nat
  deriving DecidableEq, Repr

def readerInit : Reader := ⟨0,0⟩

/-- Forward in the chunk, or to the next chunk from its end. -/
def readerMove (b : ChunkedBuffer) (r : Reader) (n : Nat) : Reader :=
  if b.capacity = r.offset+n then ⟨r.current+1,0⟩ else ⟨r.current,r.offset+n⟩

def readerDataLoop (b : ChunkedBuffer) : Nat → Reader → Nat → Option (Bytes × Reader)
  | _, r, 0 => some ([],r)
  | 0, _, _+1 => none
  | fuel+1, r, len+1 =>
    match b.chunks[r.current]? with
    | none => none
    | some data =>
      let readlen := min (b.capacity-r.offset) (len+1)
      (readerDataLoop b fuel (b.readerMove r readlen) (len+1-readlen)).map
        (fun x => ((data.drop r.offset).take readlen ++ x.1,x.2))

def readerAdvanceLoop (b : ChunkedBuffer) : Nat → Reader → Nat → Option Reader
  | _, r, 0 => some r
  | 0, _, _+1 => none
  | fuel+1, r, amount+1 =>
    let skiplen := min (b.capacity-r.offset) (amount+1)
    -- the next chunk is looked up in the current one
    if b.capacity = r.offset+skiplen ∧ b.chunks.length ≤ r.current then none
    else readerAdvanceLoop b fuel (b.readerMove r skiplen) (amount+1-skiplen)

/-- Each pass reads at least a byte. -/
def readerData (b : ChunkedBuffer) (r : Reader) (len : Nat) : Option (Bytes × Reader) := readerDataLoop b len r len

def readerAdvance (b : ChunkedBuffer) (r : Reader) (amount : Nat) : Option Reader := readerAdvanceLoop b amount r amount

/-- The reader is at a position of the contents. -/
def At (b : ChunkedBuffer) (r : Reader) (pos : Nat) : Prop :=
  r.offset < b.capacity ∧ r.current*b.capacity+r.offset = pos

section Reading
variable {b : ChunkedBuffer} {r : Reader} {pos n : Nat}

theorem at_readerInit (h : 0 < b.len) : At b readerInit 0 := by
  have hlen := b.len_eq
  have hoff := b.lastOffset_le
  refine ⟨?_,by simp [readerInit]⟩
  -- a buffer of no capacity holds nothing
  cases hcap : b.capacity with
  | zero =>
    rw [hcap] at hlen hoff
    omega
  | succ c => simp [readerInit]

theorem At.present (h : At b r pos) (hpos : pos < b.len) : r.current < b.chunks.length := by
  have hle := b.len_le
  rw [Records.length_flatten b.chunk_length] at hle
  have hmul : r.current*b.capacity < b.chunks.length*b.capacity := by
    have := h.2
    omega
  exact Nat.lt_of_mul_lt_mul_right hmul

theorem At.move (h : At b r pos) (hn : n ≤ b.capacity-r.offset) : At b (b.readerMove r n) (pos+n) := by
  obtain ⟨hoff,hpos⟩ := h
  rw [readerMove]
  split
  · refine ⟨Nat.zero_lt_of_lt hoff,?_⟩
    simp only [Nat.succ_mul]
    omega
  · exact ⟨by dsimp only; omega,by dsimp only; omega⟩

theorem At.chunk (h : At b r pos) {data : Bytes} (hdata : b.chunks[r.current]? = some data)
    (hn : n ≤ b.capacity-r.offset) (hpos : pos+n ≤ b.len) :
    (data.drop r.offset).take n = (b.contents.drop pos).take n := by
  have hlen : data.length = b.capacity := b.chunk_length data (List.mem_of_getElem? hdata)
  obtain ⟨hoff,rfl⟩ := h
  have hflat : (b.chunks.flatten.drop (r.current*b.capacity+r.offset)).take n = (data.drop r.offset).take n := by
    rw [← List.drop_drop,Records.drop_flatten b.chunk_length hdata,
      List.drop_append_of_le_length (by omega),List.take_append_of_le_length (by rw [List.length_drop]; omega)]
  rw [contents,List.drop_take,List.take_take,Nat.min_eq_left (by omega),hflat]

/-- Reading within the contents gives the bytes there. -/
theorem readerDataLoop_eq {fuel : Nat} (hfuel : n ≤ fuel) (h : At b r pos) (hpos : pos+n ≤ b.len) :
    ∃ r', readerDataLoop b fuel r n = some ((b.contents.drop pos).take n,r') ∧ At b r' (pos+n) := by
  induction fuel generalizing r pos n with
  | zero =>
    obtain rfl : n = 0 := Nat.le_zero.mp hfuel
    exact ⟨r,by simp [readerDataLoop],h⟩
  | succ fuel ih =>
    cases n with
    | zero => exact ⟨r,by simp [readerDataLoop],h⟩
    | succ len =>
      have hcur := h.present (by omega)
      have hdata : b.chunks[r.current]? = some b.chunks[r.current] := List.getElem?_eq_getElem hcur
      have hoff := h.1
      generalize hread : min (b.capacity-r.offset) (len+1) = readlen
      have hle : readlen ≤ b.capacity-r.offset ∧ readlen ≤ len+1 ∧ 1 ≤ readlen := by omega
      have hrest : len+1-readlen ≤ fuel := by omega
      obtain ⟨r',hr',hat⟩ := ih hrest (h.move hle.1) (by omega)
      refine ⟨r',?_,by rwa [show pos+(len+1) = pos+readlen+(len+1-readlen) by omega]⟩
      rw [readerDataLoop,hdata]
      simp only [hread]
      rw [hr',h.chunk hdata hle.1 (by omega),Option.map_some,← List.drop_drop]
      rw [← List.take_append_drop readlen ((b.contents.drop pos).take (len+1)),List.take_take,
        Nat.min_eq_left hle.2.1,List.drop_take]

theorem readerAdvanceLoop_eq {fuel : Nat} (hfuel : n ≤ fuel) (h : At b r pos) (hpos : pos+n ≤ b.len) :
    ∃ r', readerAdvanceLoop b fuel r n = some r' ∧ At b r' (pos+n) := by
  induction fuel generalizing r pos n with
  | zero =>
    obtain rfl : n = 0 := Nat.le_zero.mp hfuel
    exact ⟨r,by simp [readerAdvanceLoop],h⟩
  | succ fuel ih =>
    cases n with
    | zero => exact ⟨r,by simp [readerAdvanceLoop],h⟩
    | succ amount =>
      have hcur := h.present (by omega)
      have hoff := h.1
      generalize hskip : min (b.capacity-r.offset) (amount+1) = skiplen
      have hle : skiplen ≤ b.capacity-r.offset ∧ skiplen ≤ amount+1 ∧ 1 ≤ skiplen := by omega
      have hrest : amount+1-skiplen ≤ fuel := by omega
      obtain ⟨r',hr',hat⟩ := ih hrest (h.move hle.1) (by omega)
      refine ⟨r',?_,by rwa [show pos+(amount+1) = pos+skiplen+(amount+1-skiplen) by omega]⟩
      rw [readerAdvanceLoop]
      simp only [hskip]
      rw [if_neg (by omega),hr']

theorem readerData_eq (h : At b r pos) (hpos : pos+n ≤ b.len) :
    ∃ r', b.readerData r n = some ((b.contents.drop pos).take n,r') ∧ At b r' (pos+n) :=
  readerDataLoop_eq le_rfl h hpos

theorem readerAdvance_eq (h : At b r pos) (hpos : pos+n ≤ b.len) :
    ∃ r', b.readerAdvance r n = some r' ∧ At b r' (pos+n) := readerAdvanceLoop_eq le_rfl h hpos

end Reading

end ChunkedBuffer
end Spdylay
