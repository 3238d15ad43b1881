import Spdylay.Machine.Runs

/-! Turns of a session are runs of the machine of the books, so that its invariants
hold of every session that can come about, inside the calls too. -/
namespace Spdylay.Machine
open Session

theorem turn_sysSteps {P : Platform} {s s' : Session} (h : Turn P s s') {g : Ghost} (hg : g.hand = none) :
    ∃ g', SysSteps (core s g) (core s' g') ∧ g'.hand = none := by
  cases h with
  | prepare ha => exact ⟨g,(prepareNext_steps P hg ha).sysSteps,hg⟩
  | write item ha => exact ⟨g,(sendWrite_steps ha).sysSteps,hg⟩
  | recv input =>
    obtain ⟨g',h⟩ := recvIter_reads P s input g
    exact ⟨g',h.steps.sysSteps,h.hand.trans hg⟩
  | submit op hs hr => exact ⟨g,(submission_steps P s op g hs hr).outSteps.sysSteps,hg⟩
  | report e => exact ⟨g,.single (.report e rfl),hg⟩

theorem turns_sysSteps {P : Platform} {s s' : Session} (h : Turns P s s') {g : Ghost} (hg : g.hand = none) :
    ∃ g', SysSteps (core s g) (core s' g') ∧ g'.hand = none := by
  induction h with
  | refl => exact ⟨g,.refl,hg⟩
  | tail _ ht ih =>
    obtain ⟨g1,h1,hg1⟩ := ih
    obtain ⟨g2,h2,hg2⟩ := turn_sysSteps ht hg1
    exact ⟨g2,h1.trans h2,hg2⟩

theorem Invariant.reachable {I : Core → Prop} (h : Invariant I) {P : Platform} {u : Setup} {s : Session}
    (hs : Reachable P u s) : ∃ g, I (core s g) ∧ g.hand = none := by
  obtain ⟨g,hsteps,hg⟩ := turns_sysSteps hs (g := cleanGhost) rfl
  have h0 : I (core (u.start P) cleanGhost) := by
    rw [core_start]
    exact h.start P u
  exact ⟨g,h.sysSteps hsteps h0,hg⟩

end Spdylay.Machine
