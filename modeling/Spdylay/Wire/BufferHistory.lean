import Spdylay.Wire.ChunkedBuffer

/-! The buffer over every history of writes and resets: what serializing it copies,
and what a reader of it returns. -/
namespace Spdylay
open Library
namespace ChunkedBuffer

/-! Writing that may stop half-way. -/

/-- What a call did: the buffer it leaves, also where it failed, the bytes that were
copied into it and the error it returns. -/
structure Written where
  mem : Mem
  buffer : ChunkedBuffer
  copied : Bytes
  rv : Option Err

/-- Take the next chunk when the current one is full, then copy what fits of the data
and advance. -/
def fill (fresh : Nat → UInt8) (m : Mem) (b : ChunkedBuffer) (data : Bytes) : Written :=
  let r := if b.avail = 0 then b.alloc fresh m else (m,.ok b)
  match r.2 with
  | .error e => ⟨r.1,b,[],some e⟩
  | .ok b =>
    ⟨r.1,b.put (data.take b.avail) (b.take_avail_fits data),data.take b.avail,none⟩

/-- `spdylay_buffer_write`; an error leaves what the passes before it copied. -/
def fillLoop (fresh : Nat → UInt8) : Nat → Mem → ChunkedBuffer → Bytes → Written
  | 0, m, b, _ => ⟨m,b,[],none⟩
  | fuel+1, m, b, data =>
    if data = [] then ⟨m,b,[],none⟩
    else
      let r := fill fresh m b data
      match r.rv with
      | some _ => r
      | none =>
        let w := fillLoop fresh fuel r.mem r.buffer (data.drop r.copied.length)
        ⟨w.mem,w.buffer,r.copied ++ w.copied,w.rv⟩

/-- The result of a write as its callers see it. -/
def Written.result (w : Written) : Mem × Except Err ChunkedBuffer :=
  (w.mem,match w.rv with
    | none => .ok w.buffer
    | some e => .error e)

theorem writeLoop_result (fresh : Nat → UInt8) (fuel : Nat) (m : Mem) (b : ChunkedBuffer) (data : Bytes) :
    writeLoop fresh fuel m b data = (fillLoop fresh fuel m b data).result := by
  induction fuel generalizing m b data with
  | zero => rfl
  | succ fuel ih =>
    rw [writeLoop,fillLoop,fill]
    split
    · rfl
    · dsimp only
      generalize (if b.avail = 0 then b.alloc fresh m else (m,.ok b)) = r
      obtain ⟨m',rb⟩ := r
      cases rb with
      | error e => rfl
      | ok b' =>
        dsimp only
        rw [ih]
        have hdrop : data.drop (data.take b'.avail).length = data.drop b'.avail := by
          rw [List.length_take]
          rcases Nat.le_total b'.avail data.length with h | h
          · rw [Nat.min_eq_left h]
          · rw [Nat.min_eq_right h,List.drop_length,List.drop_eq_nil_of_le h]
        rw [hdrop]
        rfl

theorem bufferAlloc_ok {m m' : Mem} {v v' : Buffer} (h : bufferAlloc m v = (m',.ok v')) :
    v'.capacity = v.capacity ∧ v'.lastOffset = 0 ∧ v'.bytes = v.bytes := by
  rw [bufferAlloc] at h
  split_ifs at h <;> cases h <;> exact ⟨rfl,rfl,rfl⟩

theorem alloc_contents {fresh : Nat → UInt8} {m m' : Mem} {b b' : ChunkedBuffer} (h : b.avail = 0)
    (hb : b.alloc fresh m = (m',.ok b')) :
    b'.capacity = b.capacity ∧ b'.avail = b.capacity ∧ b'.contents = b.contents := by
  have hview := view_alloc fresh m h
  rw [hb] at hview
  obtain ⟨hcap,hoff,hbytes⟩ := bufferAlloc_ok hview.symm
  have hcap' : b'.capacity = b.capacity := hcap
  have hoff' : b'.lastOffset = 0 := hoff
  refine ⟨hcap',?_,hbytes⟩
  rw [avail,hcap',hoff',Nat.sub_zero]

/-- There is room in the current chunk or in the next one. -/
theorem room_for_fill {fresh : Nat → UInt8} {m m' : Mem} {b b' : ChunkedBuffer}
    (h : (if b.avail = 0 then b.alloc fresh m else (m,.ok b)) = (m',.ok b')) :
    b'.capacity = b.capacity ∧ b'.contents = b.contents ∧ (0 < b.capacity → 0 < b'.avail) := by
  split at h
  · rename_i hfull
    obtain ⟨hcap,havail,hcontents⟩ := alloc_contents hfull h
    refine ⟨hcap,hcontents,?_⟩
    rw [havail]
    exact id
  · rename_i hfree
    cases h
    exact ⟨rfl,rfl,fun _ => Nat.pos_of_ne_zero hfree⟩

/-- The bytes that were copied are a front part of the data and stand behind the
contents. -/
structure Written.Appends (w : Written) (b : ChunkedBuffer) (data : Bytes) : Prop where
  capacity : w.buffer.capacity = b.capacity
  contents : w.buffer.contents = b.contents ++ w.copied
  copied : w.copied <+: data

theorem appends_nothing (m : Mem) (b : ChunkedBuffer) (data : Bytes) (rv : Option Err) :
    Written.Appends ⟨m,b,[],rv⟩ b data := ⟨rfl,(List.append_nil _).symm,List.nil_prefix⟩

theorem fill_appends (fresh : Nat → UInt8) (m : Mem) (b : ChunkedBuffer) (data : Bytes) :
    (fill fresh m b data).Appends b data ∧
      (0 < b.capacity → data ≠ [] → (fill fresh m b data).rv = none → (fill fresh m b data).copied ≠ []) := by
  rw [fill]
  have hroom := @room_for_fill fresh m
  generalize hr : (if b.avail = 0 then b.alloc fresh m else (m,.ok b)) = r
  obtain ⟨m',rb⟩ := r
  cases rb with
  | error e => exact ⟨appends_nothing m' b data _,by rintro _ _ ⟨⟩⟩
  | ok b' =>
    obtain ⟨hcap,hcontents,hpos⟩ := hroom hr
    refine ⟨⟨hcap,?_,List.take_prefix _ _⟩,?_⟩
    · dsimp only
      rw [contents_put,hcontents]
    · intro hc hd _ hnil
      have hlen := congrArg List.length hnil
      have hd' := List.length_pos_iff.mpr hd
      rw [List.length_take,List.length_nil] at hlen
      have := hpos hc
      omega

theorem fillLoop_appends (fresh : Nat → UInt8) (fuel : Nat) (m : Mem) (b : ChunkedBuffer) (data : Bytes) :
    (fillLoop fresh fuel m b data).Appends b data := by
  induction fuel generalizing m b data with
  | zero => exact appends_nothing m b data _
  | succ fuel ih =>
    rw [fillLoop]
    split
    · exact appends_nothing m b data _
    · have hf := (fill_appends fresh m b data).1
      dsimp only
      generalize fill fresh m b data = r at hf ⊢
      split
      · exact hf
      · obtain ⟨rest,rfl⟩ := hf.copied
        rw [List.drop_left]
        have hl := ih r.mem r.buffer rest
        refine ⟨hl.capacity.trans hf.capacity,?_,?_⟩
        · rw [hl.contents,hf.contents,List.append_assoc]
        · exact (List.prefix_append_right_inj _).mpr hl.copied

/-- A write that returns 0 has copied all of its data. -/
theorem fillLoop_copied (fresh : Nat → UInt8) {fuel : Nat} {m : Mem} {b : ChunkedBuffer} {data : Bytes}
    (hcap : 0 < b.capacity) (hfuel : data.length ≤ fuel) (h : (fillLoop fresh fuel m b data).rv = none) :
    (fillLoop fresh fuel m b data).copied = data := by
  induction fuel generalizing m b data with
  | zero => exact (List.eq_nil_of_length_eq_zero (Nat.le_zero.mp hfuel)).symm
  | succ fuel ih =>
    rw [fillLoop] at h ⊢
    split
    · rename_i hnil
      exact hnil.symm
    · rename_i hdata
      rw [if_neg hdata] at h
      obtain ⟨hf,hsome⟩ := fill_appends fresh m b data
      dsimp only at h ⊢
      generalize fill fresh m b data = r at hf hsome h ⊢
      cases hrv : r.rv with
      | some e =>
        rw [hrv] at h
        exact absurd (h.symm.trans hrv) nofun
      | none =>
        rw [hrv] at h
        obtain ⟨rest,rfl⟩ := hf.copied
        have hpos := List.length_pos_iff.mpr (hsome hcap hdata hrv)
        rw [List.length_append] at hfuel
        dsimp only at h ⊢
        rw [List.drop_left] at h ⊢
        rw [ih (by rwa [hf.capacity]) (by omega) h]

/-! Histories. -/

/-- `fill` is what the inflater does with the buffer: it takes a chunk when there is no
room, writes into the room and advances. -/
inductive Op
  | write (data : Bytes)
  | fill (data : Bytes)
  | reset
  deriving DecidableEq, Repr

/-- The buffer, the allocations to come, and the bytes copied since the last reset. -/
structure History where
  mem : Mem
  buffer : ChunkedBuffer
  written : Bytes

namespace History

def start (m : Mem) (capacity : Nat) : History := ⟨m,init capacity,[]⟩

def step (fresh : Nat → UInt8) (h : History) : Op → History
  | .write data =>
    let w := fillLoop fresh data.length h.mem h.buffer data
    ⟨w.mem,w.buffer,h.written ++ w.copied⟩
  | .fill data =>
    let w := ChunkedBuffer.fill fresh h.mem h.buffer data
    ⟨w.mem,w.buffer,h.written ++ w.copied⟩
  | .reset => ⟨h.mem,h.buffer.reset,[]⟩

def run (fresh : Nat → UInt8) (m : Mem) (capacity : Nat) (ops : List Op) : History :=
  ops.foldl (step fresh) (start m capacity)

/-- The buffer holds what was written. -/
structure Holds (h : History) (capacity : Nat) : Prop where
  capacity : h.buffer.capacity = capacity
  contents : h.buffer.contents = h.written

theorem Holds.append {h : History} {capacity : Nat} (hh : h.Holds capacity) {w : Written} {data : Bytes}
    (hw : w.Appends h.buffer data) : Holds ⟨w.mem,w.buffer,h.written ++ w.copied⟩ capacity := by
  refine ⟨hw.capacity.trans hh.capacity,?_⟩
  rw [hw.contents,hh.contents]

theorem Holds.step {fresh : Nat → UInt8} {h : History} {capacity : Nat} (hh : h.Holds capacity) (op : Op) :
    (h.step fresh op).Holds capacity := by
  cases op with
  | write data => exact hh.append (fillLoop_appends fresh data.length h.mem h.buffer data)
  | fill data => exact hh.append (fill_appends fresh h.mem h.buffer data).1
  | reset => exact ⟨hh.capacity,List.take_zero⟩

theorem run_holds (fresh : Nat → UInt8) (m : Mem) (capacity : Nat) (ops : List Op) :
    (run fresh m capacity ops).Holds capacity := by
  have hr : ∀ h : History, h.Holds capacity → (ops.foldl (History.step fresh) h).Holds capacity := by
    induction ops with
    | nil => exact fun _ hh => hh
    | cons op ops ih => exact fun h hh => ih _ (hh.step op)
  exact hr _ ⟨rfl,List.take_zero⟩

end History

/-! Serializing. -/

/-- Along the chunks from one on; 0 is the root. -/
def serializeLoop (b : ChunkedBuffer) : Nat → List Bytes → Bytes
  | _, [] => []
  | p, data :: next => data.take (if p = b.current then b.lastOffset else b.capacity) ++ serializeLoop b (p+1) next

/-- What is copied to the output. -/
def serialize (b : ChunkedBuffer) : Bytes := serializeLoop b 1 b.chunks

theorem serializeLoop_behind {b : ChunkedBuffer} {p : Nat} {l : List Bytes} (h : ∀ c ∈ l, c.length = b.capacity)
    (hp : b.current < p) : serializeLoop b p l = l.flatten := by
  induction l generalizing p with
  | nil => rfl
  | cons data next ih =>
    obtain ⟨hdata,hnext⟩ := List.forall_mem_cons.mp h
    rw [serializeLoop,if_neg hp.ne',ih hnext (Nat.lt_succ_of_lt hp),List.take_of_length_le hdata.le,List.flatten_cons]

theorem serializeLoop_upto {b : ChunkedBuffer} {p k : Nat} {l : List Bytes} (h : ∀ c ∈ l, c.length = b.capacity)
    (hk : p+k = b.current) (hl : k < l.length) :
    serializeLoop b p l = l.flatten.take (k*b.capacity+b.lastOffset) ++ (l.drop (k+1)).flatten := by
  induction l generalizing p k with
  | nil => exact absurd hl (Nat.not_lt_zero _)
  | cons data next ih =>
    obtain ⟨hdata,hnext⟩ := List.forall_mem_cons.mp h
    rw [serializeLoop,List.flatten_cons,List.drop_succ_cons]
    cases k with
    | zero =>
      have hoff := b.lastOffset_le
      rw [if_pos (show p = b.current from hk),serializeLoop_behind hnext (by omega),Nat.zero_mul,Nat.zero_add,List.drop_zero,
        List.take_append_of_le_length (by omega)]
    | succ k =>
      have hlen : (k+1)*b.capacity+b.lastOffset = data.length+(k*b.capacity+b.lastOffset) := by
        rw [hdata,Nat.succ_mul]
        omega
      rw [if_neg (by omega),ih hnext (by omega) (Nat.lt_of_succ_lt_succ hl),List.take_of_length_le hdata.le,hlen,
        List.take_length_add_append,List.append_assoc]

/-- All chunks behind the current one are copied too. -/
theorem serialize_eq (b : ChunkedBuffer) : b.serialize = b.contents ++ (b.chunks.drop b.current).flatten := by
  have hlen := b.len_eq
  have hcur := b.current_le
  rw [serialize]
  cases hc : b.current with
  | zero =>
    obtain ⟨-,hzero⟩ := root_full hc
    rw [serializeLoop_behind b.chunk_length (by omega),contents,hzero,List.take_zero,List.drop_zero,List.nil_append]
  | succ k =>
    have hfilled : k*b.capacity+b.lastOffset = b.len := by
      rw [hc,Nat.succ_mul] at hlen
      omega
    rw [serializeLoop_upto b.chunk_length (by omega : 1+k = b.current) (by omega),hfilled,contents]

/-- Serializing copies as many bytes as the buffer's length, and they are those written
since the last reset, exactly when no chunk is kept behind the current one. -/
theorem serialize_returns_written_iff (fresh : Nat → UInt8) (m : Mem) (capacity : Nat) (hcap : 0 < capacity)
    (ops : List Op) : let h := History.run fresh m capacity ops
    (h.buffer.serialize.length = h.buffer.len ∧ h.buffer.serialize = h.written) ↔
      h.buffer.current = h.buffer.chunks.length := by
  intro h
  have hh := History.run_holds fresh m capacity ops
  have hcur := h.buffer.current_le
  have hstale : ((h.buffer.chunks.drop h.buffer.current).flatten).length =
      (h.buffer.chunks.length-h.buffer.current)*capacity := by
    rw [Records.length_flatten (fun c hc => h.buffer.chunk_length c (List.mem_of_mem_drop hc)),List.length_drop,
      hh.capacity]
  rw [serialize_eq,List.length_append,length_contents,hstale]
  constructor
  · rintro ⟨hlen,-⟩
    have hzero : (h.buffer.chunks.length-h.buffer.current)*capacity = 0 := by omega
    have := (Nat.mul_eq_zero.mp hzero).resolve_right hcap.ne'
    omega
  · intro he
    rw [he,Nat.sub_self,Nat.zero_mul,List.drop_length,List.flatten_nil,List.append_nil]
    exact ⟨rfl,hh.contents⟩

/-- Fifteen bytes in two chunks, a reset, then five bytes in one: thirteen are copied. -/
theorem serialize_copies_stale_chunk :
    let h := History.run (fun _ => 0) [] 8 [.write [48,49,50,51,52,53,54,55,56,57,65,66,67,68,69],.reset,
      .write [72,101,108,108,111]]
    h.buffer.len = 5 ∧ h.written = [72,101,108,108,111] ∧ h.buffer.serialize.length = 13 ∧
      ¬(h.buffer.serialize.length = h.buffer.len ∧ h.buffer.serialize = h.written) := by
  decide +kernel

theorem first_fill_serialized :
    let h := History.run (fun _ => 0) [] 8 [.write [48,49,50,51,52,53,54,55,56,57,65,66,67,68,69]]
    h.buffer.serialize.length = h.buffer.len ∧ h.buffer.serialize = h.written :=
  (serialize_returns_written_iff (fun _ => 0) [] 8 (by omega) _).mpr (by decide +kernel)

/-! Reading. -/

def readerUint8 (b : ChunkedBuffer) (r : Reader) : Option (Nat × Reader) :=
  (b.readerData r 1).map (fun x => ((x.1.getD 0 0).toNat,x.2))

/-- The two bytes are stored as they come; `ntohs` reads them in network order. -/
def readerUint16 (b : ChunkedBuffer) (r : Reader) : Option (Nat × Reader) :=
  (b.readerData r 2).map (fun x => (getUint16 x.1,x.2))

def readerUint32 (b : ChunkedBuffer) (r : Reader) : Option (Nat × Reader) :=
  (b.readerData r 4).map (fun x => (getUint32 x.1,x.2))

inductive Call
  | uint8
  | uint16
  | uint32
  | data (len : Nat)
  | advance (amount : Nat)
  deriving DecidableEq, Repr

/-- What a call returns. -/
inductive Answer
  | int (n : Nat)
  | bytes (data : Bytes)
  | nothing
  deriving DecidableEq, Repr

def Call.size : Call → Nat
  | .uint8 => 1
  | .uint16 => 2
  | .uint32 => 4
  | .data len => len
  | .advance amount => amount

def readerCall (b : ChunkedBuffer) (r : Reader) : Call → Option (Answer × Reader)
  | .uint8 => (b.readerUint8 r).map (fun x => (.int x.1,x.2))
  | .uint16 => (b.readerUint16 r).map (fun x => (.int x.1,x.2))
  | .uint32 => (b.readerUint32 r).map (fun x => (.int x.1,x.2))
  | .data len => (b.readerData r len).map (fun x => (.bytes x.1,x.2))
  | .advance amount => (b.readerAdvance r amount).map (fun r => (.nothing,r))

/-- The answers, as long as no call goes to a chunk that is not there. -/
def readerCalls (b : ChunkedBuffer) : Reader → List Call → Option (List Answer)
  | _, [] => some []
  | r, c :: cs =>
    match b.readerCall r c with
    | none => none
    | some (a,r) => (b.readerCalls r cs).map (a :: ·)

/-- What a call should return where these bytes come next. -/
def Call.answer (next : Bytes) : Call → Answer
  | .uint8 => .int (next.getD 0 0).toNat
  | .uint16 => .int (getUint16 (next.take 2))
  | .uint32 => .int (getUint32 (next.take 4))
  | .data len => .bytes (next.take len)
  | .advance _ => .nothing

def answers : Bytes → List Call → List Answer
  | _, [] => []
  | next, c :: cs => c.answer next :: answers (next.drop c.size) cs

theorem readerCall_eq {b : ChunkedBuffer} {r : Reader} {pos : Nat} (h : At b r pos) (c : Call)
    (hpos : pos+c.size ≤ b.len) :
    ∃ r', b.readerCall r c = some (c.answer (b.contents.drop pos),r') ∧ At b r' (pos+c.size) := by
  cases c with
  | uint8 =>
    obtain ⟨r',hr,hat⟩ := readerData_eq (n := 1) h hpos
    refine ⟨r',?_,hat⟩
    rw [readerCall,readerUint8,hr,Call.answer]
    simp
  | uint16 =>
    obtain ⟨r',hr,hat⟩ := readerData_eq (n := 2) h hpos
    refine ⟨r',?_,hat⟩
    rw [readerCall,readerUint16,hr]
    rfl
  | uint32 =>
    obtain ⟨r',hr,hat⟩ := readerData_eq (n := 4) h hpos
    refine ⟨r',?_,hat⟩
    rw [readerCall,readerUint32,hr]
    rfl
  | data len =>
    obtain ⟨r',hr,hat⟩ := readerData_eq (n := len) h hpos
    refine ⟨r',?_,hat⟩
    rw [readerCall,hr]
    rfl
  | advance amount =>
    obtain ⟨r',hr,hat⟩ := readerAdvance_eq (n := amount) h hpos
    refine ⟨r',?_,hat⟩
    rw [readerCall,hr]
    rfl

theorem readerCalls_eq {b : ChunkedBuffer} {r : Reader} {pos : Nat} (h : At b r pos) (cs : List Call)
    (hpos : pos+(cs.map Call.size).sum ≤ b.len) : b.readerCalls r cs = some (answers (b.contents.drop pos) cs) := by
  induction cs generalizing r pos with
  | nil => rfl
  | cons c cs ih =>
    rw [List.map_cons,List.sum_cons] at hpos
    obtain ⟨r',hr,hat⟩ := readerCall_eq h c (by omega)
    rw [readerCalls,hr]
    dsimp only
    rw [ih hat (by omega),answers,List.drop_drop]
    rfl

/-- Without the chunks behind the current one: there, going to one of them fails. -/
def live (b : ChunkedBuffer) : ChunkedBuffer where
  capacity := b.capacity
  chunks := b.chunks.take b.current
  current := b.current
  len := b.len
  lastOffset := b.lastOffset
  chunk_length := fun c hc => b.chunk_length c (List.mem_of_mem_take hc)
  current_le := by
    have := b.current_le
    rw [List.length_take]
    omega
  lastOffset_le := b.lastOffset_le
  len_eq := b.len_eq

theorem contents_live (b : ChunkedBuffer) : b.live.contents = b.contents := by
  have hle := b.live.len_le
  have hsplit : b.chunks.flatten = b.live.chunks.flatten ++ (b.chunks.drop b.current).flatten := by
    rw [← List.flatten_append]
    exact congrArg List.flatten (List.take_append_drop b.current b.chunks).symm
  rw [contents,contents,hsplit]
  exact (List.take_append_of_le_length hle).symm

/-- Calls whose sizes add up to at most the length return the bytes written since the last
reset, in order, and go to live chunks only. -/
theorem reader_returns_written (fresh : Nat → UInt8) (m : Mem) (capacity : Nat) (hcap : 0 < capacity) (ops : List Op)
    (cs : List Call) : let h := History.run fresh m capacity ops
    (cs.map Call.size).sum ≤ h.buffer.len →
      h.buffer.readerCalls readerInit cs = some (answers h.written cs) ∧
      h.buffer.live.readerCalls readerInit cs = some (answers h.written cs) := by
  intro h hlen
  have hh := History.run_holds fresh m capacity ops
  have hpos : 0+(cs.map Call.size).sum ≤ h.buffer.len := by omega
  have hoff : 0 < h.buffer.capacity := by rwa [hh.capacity]
  have hat : At h.buffer readerInit 0 := ⟨hoff,by simp [readerInit]⟩
  have hat' : At h.buffer.live readerInit 0 := ⟨hoff,by simp [readerInit]⟩
  have h1 := readerCalls_eq hat cs hpos
  have h2 := readerCalls_eq hat' cs hpos
  rw [List.drop_zero,hh.contents] at h1
  rw [List.drop_zero,contents_live,hh.contents] at h2
  exact ⟨h1,h2⟩

/-- Integers across chunks of three bytes, up to the very end, with a stale chunk behind. -/
theorem integers_across_chunks :
    (History.run (fun _ => 0) [] 3 [.write [1,2,3,4,5,6,7,8,9,10],.reset,.write [104,2,166,59,154,202,7,119,0]]).buffer.readerCalls
      readerInit [.advance 1,.uint16,.uint32,.data 1,.uint8] =
      some [.nothing,.int 678,.int 1000000007,.bytes [119],.int 0] := by
  have h := (reader_returns_written (fun _ => 0) [] 3 (by omega)
    [.write [1,2,3,4,5,6,7,8,9,10],.reset,.write [104,2,166,59,154,202,7,119,0]]
    [.advance 1,.uint16,.uint32,.data 1,.uint8] (by decide +kernel)).1
  exact h.trans (by decide +kernel)

end ChunkedBuffer
end Spdylay
