import Mathlib

/-! Deterministic stream transducers. A transducer is given by what one more
symbol produces after a history of symbols; `none` is a failure, after which
the stream is over. Output and failure depend on the concatenated input only. -/
namespace Spdylay.Library.Transducer
variable {ι ω : Type} (push : List ι → ι → Option (List ω))

/-- The whole output of a further input, unless the stream fails in it. -/
def run : List ι → List ι → Option (List ω)
  | _, [] => some []
  | hist, b :: rest =>
    match push hist b with
    | none => none
    | some out => (run (hist ++ [b]) rest).map (out ++ ·)

/-- The output of a further input up to its end or its first failure. -/
def outputs : List ι → List ι → List ω
  | _, [] => []
  | hist, b :: rest =>
    match push hist b with
    | none => []
    | some out => out ++ outputs (hist ++ [b]) rest

@[simp] theorem run_nil (hist : List ι) : run push hist [] = some [] := rfl

/-- An input may be fed in two parts. -/
theorem run_append (hist a b : List ι) :
    run push hist (a ++ b) = (run push hist a).bind (fun out => (run push (hist ++ a) b).map (out ++ ·)) := by
  induction a generalizing hist with
  | nil =>
    cases h : run push hist b <;> simp [h]
  | cons x xs ih =>
    simp only [List.cons_append,run]
    cases hp : push hist x with
    | none => rfl
    | some out =>
      dsimp only
      rw [ih,List.append_assoc,List.singleton_append]
      cases run push (hist ++ [x]) xs with
      | none => rfl
      | some o =>
        cases run push (hist ++ x :: xs) b with
        | none => rfl
        | some o' => simp

theorem run_append_of_some {hist a : List ι} {out : List ω} (h : run push hist a = some out) (b : List ι) :
    run push hist (a ++ b) = (run push (hist ++ a) b).map (out ++ ·) := by
  rw [run_append,h]
  rfl

theorem run_cons_none {hist : List ι} {x : ι} (h : push hist x = none) (rest : List ι) :
    run push hist (x :: rest) = none := by
  rw [run,h]

/-- A failure in the first part or in the second fails the whole. -/
theorem run_append_none {hist a b : List ι} (h : run push hist a = none ∨ run push (hist ++ a) b = none) :
    run push hist (a ++ b) = none := by
  rw [run_append]
  rcases h with h | h
  · rw [h]
    rfl
  · rw [h]
    cases run push hist a <;> rfl

/-- The output up to a failure behind a part without one. -/
theorem outputs_append_of_some {hist a : List ι} {out : List ω} (h : run push hist a = some out) (b : List ι) :
    outputs push hist (a ++ b) = out ++ outputs push (hist ++ a) b := by
  induction a generalizing hist out with
  | nil =>
    cases h
    rw [List.append_nil]
    rfl
  | cons x xs ih =>
    rw [run] at h
    rw [List.cons_append,outputs]
    cases hp : push hist x with
    | none =>
      rw [hp] at h
      cases h
    | some o =>
      rw [hp] at h
      obtain ⟨o',ho',rfl⟩ := Option.map_eq_some_iff.mp h
      dsimp only
      rw [ih ho',List.append_assoc,List.append_assoc,List.singleton_append]

end Spdylay.Library.Transducer
