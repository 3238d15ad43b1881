import Spdylay.Library.HttpMessage

/-! Numbers as text, in the bases up to sixteen, and what they read back as. -/
namespace Spdylay.Library.Http

/-- Digits above nine are capital letters. -/
def digit (d : Nat) : UInt8 := UInt8.ofNat d.digitChar.toUpper.toNat

def numeral (b n : Nat) : Octets := (Nat.toDigits b n).map (fun c => UInt8.ofNat c.toUpper.toNat)

theorem hexDigit_digit {d : Nat} (h : d < 16) : isHexDigit (digit d) = true ∧ hexDigit (digit d) = d := by
  have hdigit : ∀ d : Fin 16, isHexDigit (digit d) = true ∧ hexDigit (digit d) = d := by decide
  exact hdigit ⟨d,h⟩

theorem isDigit_digit {d : Nat} (h : d < 10) : isDigit (digit d) = true ∧ (digit d).toNat-48 = d := by
  have hdigit : ∀ d : Fin 10, isDigit (digit d) = true ∧ (digit d).toNat-48 = d := by decide
  exact hdigit ⟨d,h⟩

theorem numeral_ne_nil (b n : Nat) : numeral b n ≠ [] := by
  rw [numeral,Ne,List.map_eq_nil_iff]
  exact Nat.toDigits_ne_nil

theorem numeral_of_lt {b n : Nat} (h : n < b) : numeral b n = [digit n] := by
  rw [numeral,Nat.toDigits_of_lt_base h]
  rfl

theorem numeral_of_le {b n : Nat} (hb : 1 < b) (h : b ≤ n) : numeral b n = numeral b (n/b) ++ [digit (n%b)] := by
  rw [numeral,Nat.toDigits_of_base_le hb h,List.map_append]
  rfl

theorem mem_numeral {b : Nat} (hb : 1 < b) {n : Nat} {c : UInt8} (hc : c ∈ numeral b n) : ∃ d < b, c = digit d := by
  induction n using Nat.strong_induction_on with
  | _ n ih =>
    rcases Nat.lt_or_ge n b with h | h
    · rw [numeral_of_lt h,List.mem_singleton] at hc
      exact ⟨n,h,hc⟩
    · rw [numeral_of_le hb h,List.mem_append,List.mem_singleton] at hc
      rcases hc with hc | hc
      · exact ih (n/b) (Nat.div_lt_self (by omega) hb) hc
      · exact ⟨n%b,Nat.mod_lt n (by omega),hc⟩

/-- A reader that knows the digits of the base reads what was written. -/
theorem foldl_numeral {b : Nat} (hb : 1 < b) {value : UInt8 → Nat} (hv : ∀ d < b, value (digit d) = d) (n : Nat) :
    (numeral b n).foldl (fun n c => n*b+value c) 0 = n := by
  induction n using Nat.strong_induction_on with
  | _ n ih =>
    rcases Nat.lt_or_ge n b with h | h
    · rw [numeral_of_lt h,List.foldl_cons,List.foldl_nil,hv n h]
      omega
    · rw [numeral_of_le hb h,List.foldl_append,ih (n/b) (Nat.div_lt_self (by omega) hb),List.foldl_cons,List.foldl_nil,
        hv (n%b) (Nat.mod_lt n (by omega))]
      exact Nat.div_add_mod' n b

/-! Base sixteen and base ten. -/

theorem all_isHexDigit_numeral (n : Nat) : (numeral 16 n).all isHexDigit = true := by
  rw [List.all_eq_true]
  intro c hc
  obtain ⟨d,hd,rfl⟩ := mem_numeral (by decide) hc
  exact (hexDigit_digit hd).1

theorem hexadecimal_numeral (n : Nat) : hexadecimal (numeral 16 n) = n :=
  foldl_numeral (by decide) (fun _ hd => (hexDigit_digit hd).2) n

theorem decimal_numeral (n : Nat) : decimal (numeral 10 n) = n :=
  foldl_numeral (by decide) (fun _ hd => (isDigit_digit hd).2) n

end Spdylay.Library.Http
