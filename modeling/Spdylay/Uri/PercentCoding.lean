import Spdylay.Library.Numerals
import Spdylay.Wire.Integers

/-! Percent encoding of texts. -/
namespace Spdylay
namespace Util
open Library.Http

def inRFC3986UnreservedChars (c : UInt8) : Bool := isAlpha c || isDigit c || [45,46,95,126].contains c

/-- A byte as `%%%02X` prints it. -/
def percentByte (c : UInt8) : Bytes := [37,digit (c.toNat/16),digit (c.toNat%16)]

def percentEncode (target : Bytes) : Bytes :=
  target.flatMap (fun c => if inRFC3986UnreservedChars c then [c] else percentByte c)

/-- A percent sign without two hexadecimal digits behind it stands for itself. -/
def percentDecode : Bytes → Bytes
  | [] => []
  | c :: a :: b :: s =>
    if c = 37 ∧ isHexDigit a ∧ isHexDigit b then UInt8.ofNat (hexDigit a*16+hexDigit b) :: percentDecode s
    else c :: percentDecode (a :: b :: s)
  | c :: s => c :: percentDecode s

theorem percentDecode_cons_of_ne {c : UInt8} (h : c ≠ 37) (s : Bytes) : percentDecode (c :: s) = c :: percentDecode s := by
  match s with
  | [] => rfl
  | [_] => rfl
  | a :: b :: s => rw [percentDecode,if_neg (fun hc => h hc.1)]

theorem percentDecode_percentByte (c : UInt8) (s : Bytes) : percentDecode (percentByte c ++ s) = c :: percentDecode s := by
  have hlt := c.toNat_lt
  obtain ⟨hhi,hhv⟩ := hexDigit_digit (d := c.toNat/16) (by omega)
  obtain ⟨hlo,hlv⟩ := hexDigit_digit (d := c.toNat%16) (by omega)
  rw [percentByte,List.cons_append,List.cons_append,List.cons_append,List.nil_append,percentDecode,
    if_pos ⟨rfl,hhi,hlo⟩,hhv,hlv,Nat.div_add_mod',UInt8.ofNat_toNat]

theorem percentDecode_encode_append (x s : Bytes) : percentDecode (percentEncode x ++ s) = x ++ percentDecode s := by
  have h37 : inRFC3986UnreservedChars 37 = false := by decide
  induction x with
  | nil => rfl
  | cons c x ih =>
    rw [percentEncode,List.flatMap_cons,← percentEncode]
    split
    · rename_i hc
      have hne : c ≠ 37 := by
        rintro rfl
        rw [h37] at hc
        cases hc
      rw [List.append_assoc,List.singleton_append,percentDecode_cons_of_ne hne,ih]
      rfl
    · rw [List.append_assoc,percentDecode_percentByte,ih]
      rfl

/-- Decoding undoes encoding, whatever the bytes. -/
theorem percentDecode_encode (x : Bytes) : percentDecode (percentEncode x) = x := by
  have h := percentDecode_encode_append x []
  rw [List.append_nil,percentDecode,List.append_nil] at h
  exact h

theorem percentDecode_eq_nil_iff (s : Bytes) : percentDecode s = [] ↔ s = [] := by
  match s with
  | [] => exact iff_of_true rfl rfl
  | [_] => exact iff_of_false nofun nofun
  | [_,_] => exact iff_of_false nofun nofun
  | c :: a :: b :: s =>
    refine iff_of_false ?_ nofun
    rw [percentDecode]
    split <;> exact nofun

/-- What encoding writes: unreserved characters and percent signs. -/
theorem mem_percentEncode {x : Bytes} {c : UInt8} (h : c ∈ percentEncode x) :
    inRFC3986UnreservedChars c = true ∨ c = 37 := by
  have hdigit : ∀ d : Fin 16, inRFC3986UnreservedChars (digit d) = true := by decide
  rw [percentEncode,List.mem_flatMap] at h
  obtain ⟨b,-,hb⟩ := h
  have hlt := b.toNat_lt
  split at hb
  · rename_i hu
    rw [List.mem_singleton.mp hb]
    exact .inl hu
  · rw [percentByte,List.mem_cons,List.mem_pair] at hb
    rcases hb with rfl | rfl | rfl
    · exact .inr rfl
    · exact .inl (hdigit ⟨b.toNat/16,by omega⟩)
    · exact .inl (hdigit ⟨b.toNat%16,by omega⟩)

end Util
end Spdylay
