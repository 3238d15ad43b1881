import Spdylay.Library.Transducer
import Spdylay.Wire.Codes
import Spdylay.Wire.Integers

/-! Header-block compression. zlib itself is a parameter: deflate answers each
block from the blocks before it, inflate is a stream transducer over the bytes
it has been fed. The loop around inflate and the chunked output buffer are the
library's. -/
namespace Spdylay
open Library

/-- Outcomes of the coming allocations; past the end they all succeed. -/
abbrev Mem := List Bool

/-- What one more byte does to an inflate stream. `memError` is Z_MEM_ERROR at the end
of the call that took the byte, and `fail` is Z_DATA_ERROR, Z_STREAM_ERROR or
Z_STREAM_END. -/
inductive ZStep
  | output (bytes : Bytes)
  | needDict
  | memError
  | fail

structure Zlib where
  /-- One deflate call with Z_SYNC_FLUSH, after the blocks already passed. -/
  deflate : List Bytes → Bytes → Option Bytes
  deflateBound : List Bytes → Nat → Nat
  inflate : Bytes → UInt8 → ZStep
  inflateSetDictionary : Version → Bytes → Bool

/-- The inflate stream once the dictionary of the version is supplied on demand. -/
def Zlib.push (z : Zlib) (version : Version) (hist : Bytes) (b : UInt8) : Option Bytes :=
  match z.inflate hist b with
  | .output out => some out
  | .needDict => if z.inflateSetDictionary version (hist ++ [b]) then some [] else none
  | .memError => none
  | .fail => none

/-- The stream has run out of memory. It takes no more bytes, and every call answers
Z_MEM_ERROR again. -/
def Zlib.starved (z : Zlib) (hist : Bytes) : Bool :=
  match hist.getLast? with
  | none => false
  | some b =>
    match z.inflate hist.dropLast b with
    | .memError => true
    | _ => false

/-! The output buffer: a chain of chunks of one capacity. Only the chunk count
and the position in the current chunk matter beside the bytes themselves. -/

structure Buffer where
  capacity : Nat
  chunks : Nat
  current : Nat
  lastOffset : Nat
  bytes : Bytes
  deriving DecidableEq, Repr

def bufferInit (capacity : Nat) : Buffer := ⟨capacity,0,0,capacity,[]⟩

def bufferReset (b : Buffer) : Buffer := {b with current := 0, lastOffset := b.capacity, bytes := []}

def bufferAvail (b : Buffer) : Nat := b.capacity-b.lastOffset

def bufferLength (b : Buffer) : Nat := b.bytes.length

/-- Go to the next chunk, allocating it where the chain ends. -/
def bufferAlloc (m : Mem) (b : Buffer) : Mem × Except Err Buffer :=
  if b.current = b.chunks then
    if m.headD true then
      if m.tail.headD true then
        (m.tail.tail,.ok {b with chunks := b.chunks+1, current := b.current+1, lastOffset := 0})
      else (m.tail.tail,.error .nomem)
    else (m.tail,.error .nomem)
  else (m,.ok {b with current := b.current+1, lastOffset := 0})

/-- Account for bytes written at the current position. -/
def bufferAdvance (b : Buffer) (written : Bytes) : Except Err Buffer :=
  if b.lastOffset+written.length ≤ b.capacity then
    .ok {b with lastOffset := b.lastOffset+written.length, bytes := b.bytes ++ written}
  else .error (.assertion .bufferAdvance)

/-! One call of inflate. -/

inductive ZRet
  | ok
  | needDict
  | memError
  | fail
  deriving DecidableEq

structure InflateCall where
  ret : ZRet
  /-- Input not consumed. -/
  input : Bytes
  /-- Input consumed by the stream so far. -/
  hist : Bytes
  out : Bytes
  /-- Output zlib still holds back. -/
  pending : Bytes

def inflateCall (z : Zlib) (room : Nat) : Bytes → Bytes → Bytes → InflateCall
  | hist, held, [] =>
    if room ≤ held.length then ⟨.ok,[],hist,held.take room,held.drop room⟩ else ⟨.ok,[],hist,held,[]⟩
  | hist, held, b :: rest =>
    if room ≤ held.length then ⟨.ok,b :: rest,hist,held.take room,held.drop room⟩
    else
      match z.inflate hist b with
      | .output out => inflateCall z room (hist ++ [b]) (held ++ out) rest
      | .needDict => ⟨.needDict,rest,hist ++ [b],[],held⟩
      | .memError => ⟨.memError,rest,hist ++ [b],[],[]⟩
      | .fail => ⟨.fail,rest,hist ++ [b],[],[]⟩

/-- A stream that failed fails again on every later call. -/
structure Inflater where
  hist : Bytes
  dead : Bool
  deriving DecidableEq, Repr

structure InflateResult where
  mem : Mem
  buf : Buffer
  inflater : Inflater
  error : Option Err

/-- Room in the output buffer for the next inflate call. -/
def inflateRoom (m : Mem) (buf : Buffer) : Mem × Except Err Buffer :=
  if bufferAvail buf = 0 then bufferAlloc m buf else (m,.ok buf)

/-- After Z_MEM_ERROR, which the loop does not look for: no output is taken, and the loop
ends only if no input is left. -/
def afterMemError (m : Mem) (buf : Buffer) (hist input : Bytes) : InflateResult :=
  ⟨m,buf,⟨hist,false⟩,if input = [] then none else some .endless⟩

def inflateHdLoop (z : Zlib) (version : Version) : Nat → Mem → Buffer → Bytes → Bytes → Bytes → InflateResult
  | 0, m, buf, hist, _, _ => ⟨m,buf,⟨hist,false⟩,none⟩
  | fuel+1, m, buf, hist, held, input =>
    match inflateRoom m buf with
    | (m, .error e) => ⟨m,buf,⟨hist,false⟩,some e⟩
    | (m, .ok buf) =>
      let c := inflateCall z (bufferAvail buf) hist held input
      match c.ret with
      | .fail => ⟨m,buf,⟨c.hist,true⟩,some .zlib⟩
      | .memError => afterMemError m buf c.hist c.input
      | .needDict =>
        if z.inflateSetDictionary version c.hist then
          inflateHdLoop z version fuel m buf c.hist c.pending c.input
        else ⟨m,buf,⟨c.hist,true⟩,some .zlib⟩
      | .ok =>
        match bufferAdvance buf c.out with
        | .error e => ⟨m,buf,⟨c.hist,false⟩,some e⟩
        | .ok buf' =>
          if c.input = [] ∧ c.out.length < bufferAvail buf then ⟨m,buf',⟨c.hist,false⟩,none⟩
          else inflateHdLoop z version fuel m buf' c.hist c.pending c.input

/-- Calls the loop can need: each one delivers output, consumes input or is the last. -/
def inflateFuel (z : Zlib) (version : Version) (hist input : Bytes) : Nat :=
  input.length+(Transducer.outputs (z.push version) hist input).length+2

def inflateHd (z : Zlib) (version : Version) (m : Mem) (inflater : Inflater) (buf : Buffer)
    (input : Bytes) : InflateResult :=
  if inflater.dead then
    -- the buffer is given room before the dead stream is called
    match inflateRoom m buf with
    | (m, .error e) => ⟨m,buf,inflater,some e⟩
    | (m, .ok buf) => ⟨m,buf,inflater,some .zlib⟩
  else if z.starved inflater.hist then
    match inflateRoom m buf with
    | (m, .error e) => ⟨m,buf,inflater,some e⟩
    | (m, .ok buf) => afterMemError m buf inflater.hist input
  else inflateHdLoop z version (inflateFuel z version inflater.hist input) m buf inflater.hist [] input

/-! The buffer is never written beyond its current chunk. -/

def Buffer.Ok (b : Buffer) : Prop := b.lastOffset ≤ b.capacity

theorem bufferInit_ok (capacity : Nat) : (bufferInit capacity).Ok := le_rfl

theorem bufferReset_ok (b : Buffer) : (bufferReset b).Ok := le_rfl

theorem inflateCall_out_le (z : Zlib) (room : Nat) (hist held input : Bytes) :
    (inflateCall z room hist held input).out.length ≤ room := by
  induction input generalizing hist held with
  | nil =>
    unfold inflateCall
    split
    · exact List.length_take_le _ _
    · exact (not_le.mp ‹_›).le
  | cons b rest ih =>
    unfold inflateCall
    split
    · exact List.length_take_le _ _
    · split
      · exact ih _ _
      · exact Nat.zero_le _
      · exact Nat.zero_le _
      · exact Nat.zero_le _

theorem inflateRoom_ok {m m' : Mem} {b b' : Buffer} (hb : b.Ok) (h : inflateRoom m b = (m',.ok b')) : b'.Ok := by
  unfold inflateRoom bufferAlloc at h
  split_ifs at h <;> cases h
  · exact Nat.zero_le _
  · exact Nat.zero_le _
  · exact hb

theorem inflateRoom_error {m m' : Mem} {b : Buffer} {e : Err} (h : inflateRoom m b = (m',.error e)) : e = .nomem := by
  unfold inflateRoom bufferAlloc at h
  split_ifs at h <;> cases h
  · rfl
  · rfl

theorem bufferAdvance_fits {b : Buffer} {out : Bytes} (hb : b.Ok) (h : out.length ≤ bufferAvail b) :
    bufferAdvance b out =
      .ok {b with lastOffset := b.lastOffset+out.length, bytes := b.bytes ++ out} := by
  unfold Buffer.Ok at hb
  unfold bufferAvail at h
  unfold bufferAdvance
  rw [if_pos (by omega)]

theorem afterMemError_error {m : Mem} {b : Buffer} {hist input : Bytes} {e : Err}
    (h : (afterMemError m b hist input).error = some e) : e = .endless := by
  rw [afterMemError] at h
  dsimp only at h
  split_ifs at h
  exact (Option.some.inj h).symm

/-- The errors of inflating: no room for the output, bad data, or no end. -/
def inflateError (e : Err) : Prop := e = .nomem ∨ e = .zlib ∨ e = .endless

theorem inflateHdLoop_ok (z : Zlib) (version : Version) (fuel : Nat) (m : Mem) (b : Buffer) (hist held input : Bytes)
    (hb : b.Ok) : (inflateHdLoop z version fuel m b hist held input).buf.Ok ∧
      ∀ e, (inflateHdLoop z version fuel m b hist held input).error = some e → inflateError e := by
  induction fuel generalizing m b hist held input with
  | zero => exact ⟨hb,nofun⟩
  | succ fuel ih =>
    unfold inflateHdLoop
    split
    · rename_i m' e he
      refine ⟨hb,fun e' h => ?_⟩
      cases h
      exact .inl (inflateRoom_error he)
    · rename_i m' b' he
      have hb' := inflateRoom_ok hb he
      have hle := inflateCall_out_le z (bufferAvail b') hist held input
      generalize inflateCall z (bufferAvail b') hist held input = c at hle ⊢
      have hadv : Buffer.Ok {b' with lastOffset := b'.lastOffset+c.out.length, bytes := b'.bytes ++ c.out} := by
        unfold Buffer.Ok at hb' ⊢
        unfold bufferAvail at hle
        dsimp only
        omega
      dsimp only
      split
      · exact ⟨hb',fun e' h => by cases h; exact .inr (.inl rfl)⟩
      · exact ⟨hb',fun e' h => .inr (.inr (afterMemError_error h))⟩
      · split
        · exact ih _ _ _ _ _ hb'
        · exact ⟨hb',fun e' h => by cases h; exact .inr (.inl rfl)⟩
      · rw [bufferAdvance_fits hb' hle]
        dsimp only
        split
        · exact ⟨hadv,nofun⟩
        · exact ih _ _ _ _ _ hadv

/-- No byte makes the stream run out of memory. -/
def Zlib.NeverStarves (z : Zlib) : Prop := ∀ hist b, z.inflate hist b ≠ .memError

theorem Zlib.NeverStarves.not_starved {z : Zlib} (h : z.NeverStarves) (hist : Bytes) : z.starved hist = false := by
  rw [Zlib.starved]
  split
  · rfl
  · split
    · rename_i hmem
      exact absurd hmem (h _ _)
    · rfl

theorem inflateCall_ret {z : Zlib} (h : z.NeverStarves) (room : Nat) (hist held input : Bytes) :
    (inflateCall z room hist held input).ret ≠ .memError := by
  induction input generalizing hist held with
  | nil =>
    rw [inflateCall]
    split <;> rintro ⟨⟩
  | cons b rest ih =>
    rw [inflateCall]
    split
    · rintro ⟨⟩
    · cases hb : z.inflate hist b with
      | output out => exact ih _ _
      | needDict => rintro ⟨⟩
      | memError => exact absurd hb (h _ _)
      | fail => rintro ⟨⟩

theorem inflateHdLoop_ends {z : Zlib} (h : z.NeverStarves) (version : Version) (fuel : Nat) (m : Mem) {b : Buffer}
    (hist held input : Bytes) (hb : b.Ok) : (inflateHdLoop z version fuel m b hist held input).error ≠ some .endless := by
  induction fuel generalizing m b hist held input with
  | zero => rintro ⟨⟩
  | succ fuel ih =>
    rw [inflateHdLoop]
    split
    · rename_i m' e he
      rw [inflateRoom_error he]
      rintro ⟨⟩
    · rename_i m' b' he
      have hb' := inflateRoom_ok hb he
      have hle := inflateCall_out_le z (bufferAvail b') hist held input
      have hret := inflateCall_ret h (bufferAvail b') hist held input
      generalize inflateCall z (bufferAvail b') hist held input = c at hle hret ⊢
      have hadv : Buffer.Ok {b' with lastOffset := b'.lastOffset+c.out.length, bytes := b'.bytes ++ c.out} := by
        unfold Buffer.Ok at hb' ⊢
        unfold bufferAvail at hle
        dsimp only
        omega
      dsimp only
      split
      · rintro ⟨⟩
      · rename_i hmem
        exact absurd hmem hret
      · split
        · exact ih _ _ _ _ hb'
        · rintro ⟨⟩
      · rw [bufferAdvance_fits hb' hle]
        dsimp only
        split
        · rintro ⟨⟩
        · exact ih _ _ _ _ hadv

/-- With memory every call of inflate comes back. -/
theorem inflateHd_ends {z : Zlib} (h : z.NeverStarves) (version : Version) (m : Mem) (inflater : Inflater) {b : Buffer}
    (input : Bytes) (hb : b.Ok) : (inflateHd z version m inflater b input).error ≠ some .endless := by
  rw [inflateHd,h.not_starved]
  split
  · split
    · rename_i m' e he
      rw [inflateRoom_error he]
      rintro ⟨⟩
    · rintro ⟨⟩
  · rw [if_neg Bool.false_ne_true]
    exact inflateHdLoop_ends h version _ m _ _ _ hb

/-- Inflating keeps the buffer, and its errors are these three. -/
theorem inflateHd_ok (z : Zlib) (version : Version) (m : Mem) (inflater : Inflater) (b : Buffer) (input : Bytes)
    (hb : b.Ok) : (inflateHd z version m inflater b input).buf.Ok ∧
      ∀ e, (inflateHd z version m inflater b input).error = some e → inflateError e := by
  unfold inflateHd
  split
  · split
    · rename_i m' e he
      refine ⟨hb,fun e' h => ?_⟩
      cases h
      exact .inl (inflateRoom_error he)
    · rename_i m' b' he
      exact ⟨inflateRoom_ok hb he,fun e' h => by cases h; exact .inr (.inl rfl)⟩
  · split
    · split
      · rename_i m' e he
        refine ⟨hb,fun e' h => ?_⟩
        cases h
        exact .inl (inflateRoom_error he)
      · rename_i m' b' he
        exact ⟨inflateRoom_ok hb he,fun e' h => .inr (.inr (afterMemError_error h))⟩
    · exact inflateHdLoop_ok z version _ m b _ _ _ hb

end Spdylay
