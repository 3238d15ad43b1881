import Spdylay.Session.Outbound
import Spdylay.Wire.BlockSizing

/-! The packing of a header block in memory does what the session's model says: the same
allocations, the same lengths of the buffers, the same block for the compressor. -/
namespace Spdylay.Sizing
open Library Chunked Session

/-- The buffers have the lengths that the session keeps. -/
structure Lengths (s : Session) (framebuf nvbuf : Bytes) : Prop where
  framebuf_eq : framebuf.length = s.aob.framebufmax
  nvbuf_eq : nvbuf.length = s.nvbuflen

/-- With room for its bound, deflate answers as the platform's. -/
structure Answers (z : Deflate) (P : Platform) : Prop where
  bound_eq : ∀ calls n, z.deflateBound calls n = P.deflateBound calls n
  deflate_eq : ∀ {calls room given}, P.deflateBound calls given.length ≤ room →
    z.deflate calls room given = P.deflate calls given

/-- The value that is returned for the outcome. -/
def returned (nvOffset : Nat) : Except Err Bytes → Int
  | .ok out => nvOffset+out.length
  | .error e => e.code

section Reserving
variable {w n : Nat} {s : Session} {framebuf nvbuf : Bytes}

theorem reserveNvbuf_refines (fresh : Nat → UInt8) (h : Lengths s framebuf nvbuf) (hn : n+4095 < 2^w) :
    (∃ nvbuf', reserveBuffer w fresh s.host.mem nvbuf n = ((s.reserveNvbuf n).1.host.mem,some nvbuf') ∧
      (s.reserveNvbuf n).2 = none ∧ Lengths (s.reserveNvbuf n).1 framebuf nvbuf' ∧ n ≤ nvbuf'.length) ∨
    reserveBuffer w fresh s.host.mem nvbuf n = ((s.reserveNvbuf n).1.host.mem,none) ∧
      (s.reserveNvbuf n).2 = some .nomem ∧ Lengths (s.reserveNvbuf n).1 framebuf nvbuf := by
  have hlen := h.nvbuf_eq
  obtain ⟨hroom,hr⟩ | ⟨hroom,hm,hr⟩ | ⟨hroom,hm,buf',hbuf',hr⟩ :=
    reserveBuffer_cases w fresh s.host.mem nvbuf n
  · have hs : s.reserveNvbuf n = (s,none) := if_neg (by omega)
    rw [hs,hr]
    exact .inl ⟨nvbuf,rfl,rfl,h,hroom⟩
  · have hs : s.reserveNvbuf n = (s.malloc,some .nomem) := by
      rw [reserveNvbuf,if_pos (by omega),mallocOk,hm]
      rfl
    rw [hs,hr]
    exact .inr ⟨rfl,rfl,h.framebuf_eq,h.nvbuf_eq⟩
  · have hs : s.reserveNvbuf n = ({s.malloc with nvbuflen := reserved s.nvbuflen n},none) := by
      rw [reserveNvbuf,if_pos (by omega),mallocOk,hm]
      rfl
    rw [hs,hr]
    rw [roundUp_eq hn] at hbuf'
    refine .inl ⟨buf',rfl,rfl,⟨h.framebuf_eq,?_⟩,by omega⟩
    exact hbuf'.trans (if_pos (by omega)).symm

theorem reserveFramebuf_refines (fresh : Nat → UInt8) (h : Lengths s framebuf nvbuf) (hn : n+4095 < 2^w) :
    (∃ framebuf', reserveBuffer w fresh s.host.mem framebuf n = ((s.reserveFramebuf n).1.host.mem,some framebuf') ∧
      (s.reserveFramebuf n).2 = none ∧ Lengths (s.reserveFramebuf n).1 framebuf' nvbuf ∧ n ≤ framebuf'.length) ∨
    reserveBuffer w fresh s.host.mem framebuf n = ((s.reserveFramebuf n).1.host.mem,none) ∧
      (s.reserveFramebuf n).2 = some .nomem ∧ Lengths (s.reserveFramebuf n).1 framebuf nvbuf := by
  have hlen := h.framebuf_eq
  obtain ⟨hroom,hr⟩ | ⟨hroom,hm,hr⟩ | ⟨hroom,hm,buf',hbuf',hr⟩ :=
    reserveBuffer_cases w fresh s.host.mem framebuf n
  · have hs : s.reserveFramebuf n = (s,none) := if_neg (by omega)
    rw [hs,hr]
    exact .inl ⟨framebuf,rfl,rfl,h,hroom⟩
  · have hs : s.reserveFramebuf n = (s.malloc,some .nomem) := by
      rw [reserveFramebuf,if_pos (by omega),mallocOk,hm]
      rfl
    rw [hs,hr]
    exact .inr ⟨rfl,rfl,h.framebuf_eq,h.nvbuf_eq⟩
  · have hs : s.reserveFramebuf n =
        ({s.malloc with aob := {s.aob with framebufmax := reserved s.aob.framebufmax n}},none) := by
      rw [reserveFramebuf,if_pos (by omega),mallocOk,hm]
      rfl
    rw [hs,hr]
    rw [roundUp_eq hn] at hbuf'
    refine .inl ⟨buf',rfl,rfl,⟨?_,h.nvbuf_eq⟩,by omega⟩
    exact hbuf'.trans (if_pos (by omega)).symm

end Reserving

section Compressing
variable {w : Nat} {z : Deflate} {P : Platform} {block : Bytes}

theorem toSsize_of_lt (hw : WordSize w) {n : Nat} (h : n < 2147483648) : toSsize w n = n := by
  obtain rfl | rfl := hw <;> simp only [toSsize,Int.bmod] <;> omega

/-- In the room of its bound, the output has the length that is returned. -/
theorem zlibDeflateHd_refines (hw : WordSize w) (hz : Answers z P) (calls : List Bytes) {bound : Nat}
    (hbound : P.deflateBound calls block.length = bound) (hlt : bound < 2147483648) (hblock : block.length < 4294967296)
    (rest : Bytes) :
    match P.deflate calls block with
    | none => zlibDeflateHd w z calls bound (block ++ rest) block.length = ([],Err.zlib.code)
    | some out => zlibDeflateHd w z calls bound (block ++ rest) block.length = (out,(out.length : Int)) ∧
        out.length ≤ bound := by
  have hroom : word 32 bound = bound := word_of_lt (by omega)
  have hgiven : availIn (block ++ rest) block.length = block := by
    rw [availIn,word_of_lt hblock,List.take_left' rfl]
  have hanswer := hz.deflate_eq hbound.le
  unfold zlibDeflateHd
  dsimp only
  rw [hroom,hgiven,hanswer]
  cases hout : P.deflate calls block with
  | none => rfl
  | some out =>
    have hle : out.length ≤ bound := z.deflate_le (hanswer.trans hout)
    have hlen : bound-(bound-out.length) = out.length := by omega
    dsimp only
    rw [hlen,toSsize_of_lt hw (by omega)]
    exact ⟨rfl,hle⟩

theorem checkFramelen_returned (nvOffset : Nat) (out : Bytes) : checkFramelen out.length nvOffset =
    returned nvOffset (if lengthMask < nvOffset+out.length-headLen then .error .frameTooLarge else .ok out) := by
  unfold checkFramelen lengthMask headLen
  split_ifs <;> first | rfl | omega | (rw [returned]; omega)

theorem memcpy_copied {buf : Bytes} {off : Nat} {bytes : Bytes} (h : off ≤ buf.length) :
    ((memcpy buf off bytes).drop off).take bytes.length = bytes := by
  have hfront : (buf.take off).length = off := by
    rw [List.length_take]
    omega
  rw [memcpy,List.append_assoc,List.drop_left' hfront,List.take_left' rfl]

end Compressing

section Refinement
variable {w lenSize nvOffset : Nat} {z : Deflate} {P : Platform} {s : Session} {framebuf nvbuf block : Bytes} {nv : Nv}

theorem reserveNvbuf_hdDeflater (s : Session) (n : Nat) : (s.reserveNvbuf n).1.hdDeflater = s.hdDeflater := by
  unfold reserveNvbuf
  split_ifs <;> rfl

theorem reserveFramebuf_hdDeflater (s : Session) (n : Nat) : (s.reserveFramebuf n).1.hdDeflater = s.hdDeflater := by
  unfold reserveFramebuf
  split_ifs <;> rfl

/-- A call leaves the memory, the buffers and the compressor as the session's model says,
and returns what it says. -/
structure Refines (q : Session × Except Err Bytes) (nvOffset : Nat) (r : AllocPacked) : Prop where
  mem_eq : r.mem = q.1.host.mem
  lengths : Lengths q.1 r.framebuf r.nvbuf
  calls_eq : r.calls = q.1.hdDeflater
  framelen_eq : r.framelen = returned nvOffset q.2
  copied : ∀ out, q.2 = .ok out → (r.framebuf.drop nvOffset).take out.length = out

theorem refines_deflated (h : Lengths s framebuf nvbuf) (calls : List Bytes) {out : Bytes}
    (hroom : nvOffset+out.length ≤ framebuf.length) :
    Refines (if lengthMask < nvOffset+out.length-headLen then ({s with hdDeflater := calls},.error .frameTooLarge)
        else ({s with hdDeflater := calls},.ok out)) nvOffset
      ⟨s.host.mem,memcpy framebuf nvOffset out,nvbuf,calls,checkFramelen out.length nvOffset⟩ := by
  have hlengths : Lengths {s with hdDeflater := calls} (memcpy framebuf nvOffset out) nvbuf :=
    ⟨(length_memcpy hroom).trans h.framebuf_eq,h.nvbuf_eq⟩
  have hreturned := checkFramelen_returned nvOffset out
  split_ifs at hreturned ⊢
  · exact ⟨rfl,hlengths,rfl,hreturned,nofun⟩
  · refine ⟨rfl,hlengths,rfl,hreturned,?_⟩
    rintro out' hout
    cases hout
    exact memcpy_copied (by omega)

theorem frameAllocPackNv_refines (hw : WordSize w) (hl : lenSize = 2 ∨ lenSize = 4) (hnames : ∀ p ∈ nv, cstr p.1 ≠ [])
    (hnv : nv.length < 1073741824) (hblock : block = Spdylay.framePackNv (cstrings nv) lenSize)
    (hsize : block.length < 4294967296) (hround : block.length+4095 < 2^w) (hz : Answers z P)
    (hframe : nvOffset+P.deflateBound s.hdDeflater block.length+4095 < 2147483648) (fresh : Nat → UInt8)
    (h : Lengths s framebuf nvbuf) :
    ∃ r, frameAllocPackNv w z fresh s.host.mem framebuf nvbuf nv nvOffset lenSize s.hdDeflater = .ok r ∧
      Refines (s.frameAllocPackNv P (cstrings nv) nvOffset lenSize) nvOffset r := by
  have hlength : block.length = Spdylay.frameCountNvSpace (cstrings nv) lenSize := by
    rw [hblock,framePackNv_length hl (cstrings_names hnames)]
  have hcount := frameCountNvSpace_fits hw hl hnv
  rw [← hlength,word_of_lt (by omega)] at hcount
  have hwide : 2147483648 < 2^w := by
    obtain rfl | rfl := hw <;> omega
  have hmax : word w (nvOffset+z.deflateBound s.hdDeflater block.length) =
      nvOffset+P.deflateBound s.hdDeflater block.length := by
    rw [hz.bound_eq,word_of_lt (by omega)]
  have hout : word w (nvOffset+P.deflateBound s.hdDeflater block.length+2^w-nvOffset) =
      P.deflateBound s.hdDeflater block.length := by
    have hsum : nvOffset+P.deflateBound s.hdDeflater block.length+2^w-nvOffset =
        P.deflateBound s.hdDeflater block.length+2^w := by omega
    rw [hsum,word,Nat.add_mod_right,Nat.mod_eq_of_lt (by omega)]
  rw [frameAllocPackNv,hcount,ok_bind,Session.frameAllocPackNv]
  dsimp only
  rw [← hlength,← hblock,List.take_length]
  have hnvmem := reserveNvbuf_hdDeflater s block.length
  obtain ⟨nvbuf1,hr,hq,h1,hnvroom⟩ | ⟨hr,hq,h1⟩ := reserveNvbuf_refines fresh h hround
  · rw [hr,hq]
    generalize (s.reserveNvbuf block.length).1 = s1 at h1 hnvmem ⊢
    dsimp only
    rw [hmax]
    have hframemem := reserveFramebuf_hdDeflater s1 (nvOffset+P.deflateBound s.hdDeflater block.length)
    obtain ⟨framebuf1,hr1,hq1,h2,hroom⟩ | ⟨hr1,hq1,h2⟩ :=
      reserveFramebuf_refines (w := w) (n := nvOffset+P.deflateBound s.hdDeflater block.length) fresh h1 (by omega)
    · have hpack := framePackNv_fits nvbuf1 hl hnames hnv (hblock ▸ hnvroom)
      have hdeflate := zlibDeflateHd_refines hw hz s.hdDeflater rfl (by omega) hsize (nvbuf1.drop block.length)
      have hgiven : availIn (block ++ nvbuf1.drop block.length) block.length = block := by
        rw [availIn,word_of_lt hsize,List.take_left' rfl]
      rw [← hblock] at hpack
      rw [hr1,hq1]
      generalize (s1.reserveFramebuf (nvOffset+P.deflateBound s.hdDeflater block.length)).1 = s2 at h2 ⊢
      dsimp only
      rw [hpack,ok_bind,hout]
      dsimp only
      rw [hgiven]
      have h3 : Lengths s2 framebuf1 (block ++ nvbuf1.drop block.length) := by
        refine ⟨h2.framebuf_eq,Eq.trans ?_ h2.nvbuf_eq⟩
        rw [List.length_append,List.length_drop]
        omega
      cases hanswer : P.deflate s.hdDeflater block with
      | none =>
        rw [hanswer] at hdeflate
        dsimp only at hdeflate
        rw [hdeflate]
        refine ⟨_,rfl,rfl,⟨?_,h3.nvbuf_eq⟩,rfl,rfl,by rintro _ ⟨⟩⟩
        have hempty : nvOffset+([] : Bytes).length ≤ framebuf1.length := by
          rw [List.length_nil]
          omega
        exact (length_memcpy hempty).trans h2.framebuf_eq
      | some out =>
        rw [hanswer] at hdeflate
        obtain ⟨hdeflate,hle⟩ := hdeflate
        rw [hdeflate]
        exact ⟨_,rfl,refines_deflated h3 _ (by omega)⟩
    · rw [hr1,hq1]
      exact ⟨_,rfl,rfl,h2,(hframemem.trans hnvmem).symm,rfl,by rintro _ ⟨⟩⟩
  · rw [hr,hq]
    exact ⟨_,rfl,rfl,h1,hnvmem.symm,rfl,by rintro _ ⟨⟩⟩

end Refinement

end Spdylay.Sizing
