import Mathlib

/-! Two parties with a channel in each direction. A channel hands on what was put into it, first
in first out and in pieces of any size. However the steps of the parties interleave, what one
has sent is what the other has taken and what is still on the way. -/
namespace Spdylay.Library.Link

inductive Side
  | left
  | right
  deriving DecidableEq, Repr

def Side.other : Side → Side
  | .left => .right
  | .right => .left

@[simp] theorem Side.other_other (x : Side) : x.other.other = x := by
  cases x <;> rfl

theorem Side.other_ne (x : Side) : x.other ≠ x := by
  cases x <;> decide

theorem Side.eq_or_other (x y : Side) : y = x ∨ y = x.other := by
  cases x <;> cases y <;> decide

/-- What a party does on a command, what the command takes from the party's channel, and all
that the party has sent so far. -/
structure Party (σ κ ι : Type) where
  step : σ → κ → σ
  takes : κ → List ι
  sent : σ → List ι
  sent_grows : ∀ s k, sent s <+: sent (step s k)

/-- `way` is what a side has sent and the other has not taken yet. -/
structure State (σ ι : Type) where
  party : Side → σ
  way : Side → List ι

variable {σ κ ι : Type}

namespace Party
variable (p : Party σ κ ι)

def run (s : σ) (ks : List κ) : σ := ks.foldl p.step s

/-- What a command adds to what the party has sent. -/
def added (s : σ) (k : κ) : List ι := (p.sent (p.step s k)).drop (p.sent s).length

theorem sent_step (s : σ) (k : κ) : p.sent (p.step s k) = p.sent s ++ p.added s k := by
  obtain ⟨more, h⟩ := p.sent_grows s k
  rw [added, ← h, List.drop_left]

theorem run_append_singleton (s : σ) (ks : List κ) (k : κ) : p.run s (ks ++ [k]) = p.step (p.run s ks) k := by
  simp [run]

end Party

/-- A command of one side. -/
def State.move (p : Side → Party σ κ ι) (l : State σ ι) (x : Side) (k : κ) : State σ ι where
  party y := if y = x then (p x).step (l.party x) k else l.party y
  way y := if y = x then l.way x ++ (p x).added (l.party x) k else (l.way y).drop ((p x).takes k).length

theorem State.move_party (p : Side → Party σ κ ι) (l : State σ ι) {x y : Side} (k : κ) (h : y ≠ x) :
    (l.move p x k).party y = l.party y := if_neg h

/-- A command takes no more than what has been sent. -/
inductive Step (p : Side → Party σ κ ι) : State σ ι → State σ ι → Prop
  | move (l : State σ ι) (x : Side) (k : κ) : (p x).takes k <+: l.way x.other → Step p l (l.move p x k)

abbrev Steps (p : Side → Party σ κ ι) : State σ ι → State σ ι → Prop := Relation.ReflTransGen (Step p)

/-- Nothing is on the way. -/
def start (s : Side → σ) : State σ ι := ⟨s, fun _ => []⟩

/-- Each side has done its commands, and each channel is accounted for. -/
def Accounted (p : Side → Party σ κ ι) (s : Side → σ) (done : Side → List κ) (l : State σ ι) : Prop :=
  ∀ x, l.party x = (p x).run (s x) (done x) ∧
    (p x.other).sent (l.party x.other) = (done x).flatMap (p x).takes ++ l.way x.other

section
variable {p : Side → Party σ κ ι} {s : Side → σ} {l l' : State σ ι}

theorem accounted_start (h : ∀ x, (p x).sent (s x) = []) : Accounted p s (fun _ => []) (start s) :=
  fun x => ⟨rfl, h x.other⟩

theorem Accounted.move {done : Side → List κ} (h : Accounted p s done l) (x : Side) (k : κ)
    (hk : (p x).takes k <+: l.way x.other) :
    Accounted p s (fun y => if y = x then done x ++ [k] else done y) (l.move p x k) := by
  intro y
  have hne := x.other_ne
  rcases x.eq_or_other y with rfl | rfl
  · obtain ⟨hrun, hsent⟩ := h y
    obtain ⟨rest, hrest⟩ := hk
    constructor
    · simp [State.move, hrun, Party.run_append_singleton]
    · simp only [State.move, if_true, if_neg hne, hsent, List.flatMap_append, List.flatMap_singleton,
        List.append_assoc, List.append_cancel_left_eq]
      rw [← hrest, List.drop_left]
  · obtain ⟨hrun, hsent⟩ := h x.other
    rw [Side.other_other] at hsent
    constructor
    · simp [State.move, hne, hrun]
    · simp only [State.move, Side.other_other, if_true, if_neg hne, Party.sent_step, hsent, List.append_assoc]

/-- Nothing is lost, repeated or put in another order on the way, and nothing is made up. -/
theorem steps_accounted (h : ∀ x, (p x).sent (s x) = []) (hl : Steps p (start s) l) : ∃ done, Accounted p s done l := by
  induction hl with
  | refl => exact ⟨_, accounted_start h⟩
  | tail _ hstep ih =>
    obtain ⟨done, hdone⟩ := ih
    cases hstep with
    | move x k hk => exact ⟨_, hdone.move x k hk⟩

end

end Spdylay.Library.Link
