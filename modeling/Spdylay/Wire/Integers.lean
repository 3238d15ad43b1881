import Mathlib

/-! Bytes and fixed-width integers as the library reads and writes them.
Unsigned values are naturals below the width's bound, signed 32-bit values are
integers; a conversion that can wrap is written out. -/
namespace Spdylay

abbrev Bytes := List UInt8

def getUint16 (data : Bytes) : Nat := (data.getD 0 0).toNat*256 + (data.getD 1 0).toNat

def getUint32 (data : Bytes) : Nat :=
  (data.getD 0 0).toNat*16777216 + (data.getD 1 0).toNat*65536 +
    (data.getD 2 0).toNat*256 + (data.getD 3 0).toNat

def putUint16be (n : Nat) : Bytes := [UInt8.ofNat (n/256),UInt8.ofNat n]

def putUint32be (n : Nat) : Bytes :=
  [UInt8.ofNat (n/16777216),UInt8.ofNat (n/65536),UInt8.ofNat (n/256),UInt8.ofNat n]

/-- The uint32_t with the bits of a signed value. -/
def toUint32 (n : Int) : Nat := (n % 4294967296).toNat

/-- Conversion to int32_t of a value of any width. -/
def toInt32 (n : Int) : Int := (n + 2147483648) % 4294967296 - 2147483648

def int32Max : Int := 2147483647

/-- The characters before the terminating NUL. -/
def cstr (s : Bytes) : Bytes := s.takeWhile (fun c => c ≠ 0)

/-- Copy into a buffer at an offset; what lies beyond the copied bytes stays. -/
def memcpy (buf : Bytes) (off : Nat) (bytes : Bytes) : Bytes :=
  buf.take off ++ bytes ++ buf.drop (off+bytes.length)

theorem length_memcpy {buf bytes : Bytes} {off : Nat} (h : off+bytes.length ≤ buf.length) :
    (memcpy buf off bytes).length = buf.length := by
  rw [memcpy,List.length_append,List.length_append,List.length_take,List.length_drop]
  omega

theorem toInt32_eq_self {n : Int} : toInt32 n = n ↔ -2147483648 ≤ n ∧ n ≤ 2147483647 := by
  unfold toInt32
  omega

theorem getUint16_lt (data : Bytes) : getUint16 data < 65536 := by
  have h0 := (data.getD 0 0).toNat_lt
  have h1 := (data.getD 1 0).toNat_lt
  unfold getUint16
  omega

theorem getUint32_lt (data : Bytes) : getUint32 data < 4294967296 := by
  have h0 := (data.getD 0 0).toNat_lt
  have h1 := (data.getD 1 0).toNat_lt
  have h2 := (data.getD 2 0).toNat_lt
  have h3 := (data.getD 3 0).toNat_lt
  unfold getUint32
  omega

theorem getUint16_put (n : Nat) (rest : Bytes) (h : n < 65536) :
    getUint16 (putUint16be n ++ rest) = n := by
  simp only [getUint16,putUint16be,List.cons_append,List.nil_append,List.getD_cons_zero,
    List.getD_cons_succ,UInt8.toNat_ofNat']
  omega

/-- Reading back a word in network byte order, whatever follows it. -/
theorem getUint32_put (n : Nat) (rest : Bytes) (h : n < 4294967296) :
    getUint32 (putUint32be n ++ rest) = n := by
  simp only [getUint32,putUint32be,List.cons_append,List.nil_append,List.getD_cons_zero,
    List.getD_cons_succ,UInt8.toNat_ofNat']
  omega

end Spdylay
