import Mathlib

/-! Programs that read a buffer by index, with words of a fixed width. A read
beyond the end is an outcome of its own, and so is a loop cut off by its fuel. -/
namespace Spdylay.Library

inductive Run (α : Type*)
  | returned (a : α)
  | outside
  | running
  deriving DecidableEq, Repr

namespace Run

variable {α β : Type}

protected def bind : Run α → (α → Run β) → Run β
  | .returned a, f => f a
  | .outside, _ => .outside
  | .running, _ => .running

instance : Monad Run where
  pure := .returned
  bind := Run.bind

@[simp] theorem returned_bind (a : α) (f : α → Run β) : (Run.returned a >>= f) = f a := rfl

@[simp] theorem outside_bind (f : α → Run β) : ((Run.outside : Run α) >>= f) = .outside := rfl

/-- The results of `f i`, `f (i+1)`, …, in this order. -/
def collect (f : Nat → Run α) : Nat → Nat → Run (List α)
  | 0, _ => .returned []
  | k+1, i => do
    let a ← f i
    let rest ← collect f k (i+1)
    .returned (a :: rest)

theorem collect_returned {f : Nat → Run α} {g : Nat → α} {k i : Nat}
    (h : ∀ j, i ≤ j → j < i+k → f j = .returned (g j)) :
    collect f k i = .returned ((List.range' i k).map g) := by
  induction k generalizing i with
  | zero => rfl
  | succ k ih =>
    have hrest := ih (i := i+1) (fun j h1 h2 => h j (by omega) (by omega))
    rw [collect,h i le_rfl (by omega),hrest]
    rfl

/-- The first bad read ends the run, however long it still is. -/
theorem collect_outside {f : Nat → Run α} {g : Nat → α} {k i j : Nat} (hj : i ≤ j) (hk : j < i+k)
    (hbefore : ∀ l, i ≤ l → l < j → f l = .returned (g l)) (hbad : f j = .outside) :
    collect f k i = .outside := by
  induction k generalizing i with
  | zero => omega
  | succ k ih =>
    rw [collect]
    obtain rfl | hlt := hj.eq_or_lt
    · rw [hbad]
      rfl
    · have hrest := ih (i := i+1) hlt (by omega) (fun l h1 h2 => hbefore l (by omega) h2)
      rw [hbefore i le_rfl hlt,returned_bind,hrest]
      rfl

end Run

section Buffers

variable {β : Type} {buf : List β} {i n : Nat}

def readAt (buf : List β) (i : Nat) : Run β :=
  match buf[i]? with
  | some b => .returned b
  | none => .outside

def sliceAt (buf : List β) (i n : Nat) : Run (List β) :=
  if i+n ≤ buf.length then .returned ((buf.drop i).take n) else .outside

theorem readAt_of_lt (d : β) (h : i < buf.length) : readAt buf i = .returned (buf.getD i d) := by
  rw [readAt,List.getD_eq_getElem?_getD,List.getElem?_eq_getElem h]
  rfl

theorem readAt_of_le (h : buf.length ≤ i) : readAt buf i = .outside := by
  rw [readAt,List.getElem?_eq_none h]

theorem sliceAt_of_le (h : i+n ≤ buf.length) : sliceAt buf i n = .returned ((buf.drop i).take n) := if_pos h

theorem sliceAt_of_lt (h : buf.length < i+n) : sliceAt buf i n = .outside := if_neg h.not_ge

end Buffers

/-- The word of `w` bits an unsigned result is stored in. -/
def word (w n : Nat) : Nat := n % 2^w

theorem word_of_lt {w n : Nat} (h : n < 2^w) : word w n = n := Nat.mod_eq_of_lt h

end Spdylay.Library
