import Mathlib.Logic.Relation
import Mathlib.Tactic.Linarith

/-! Credit-based flow control between a sender and a receiver: what the sender may still
send, what is on its way, what the receiver has counted and not yet given back, and the
credit on its way to the sender. -/
namespace Spdylay.Library

@[ext] structure CreditLoop where
  window : Int
  inFlight : Int
  counted : Int
  granted : Int
  deriving DecidableEq, Repr

namespace CreditLoop

inductive Step : CreditLoop → CreditLoop → Prop
  | send {l : CreditLoop} {n : Int} (h0 : 0 ≤ n) (h : n ≤ l.window) :
    Step l {l with window := l.window-n, inFlight := l.inFlight+n}
  | count {l : CreditLoop} {n : Int} (h0 : 0 ≤ n) (h : n ≤ l.inFlight) :
    Step l {l with inFlight := l.inFlight-n, counted := l.counted+n}
  /-- Data that arrives and is not counted. -/
  | lose {l : CreditLoop} {n : Int} (h0 : 0 ≤ n) (h : n ≤ l.inFlight) : Step l {l with inFlight := l.inFlight-n}
  | giveBack {l : CreditLoop} : Step l {l with counted := 0, granted := l.granted+l.counted}
  /-- Credit that is never given back. -/
  | forget {l : CreditLoop} : Step l {l with counted := 0}
  | collect {l : CreditLoop} {n : Int} (h0 : 0 ≤ n) (h : n ≤ l.granted) :
    Step l {l with window := l.window+n, granted := l.granted-n}
  /-- Credit that arrives and is not used. -/
  | lapse {l : CreditLoop} {n : Int} (h0 : 0 ≤ n) (h : n ≤ l.granted) : Step l {l with granted := l.granted-n}

/-- Nothing is negative, and all credit together is at most `c`. -/
structure Within (c : Int) (l : CreditLoop) : Prop where
  window : 0 ≤ l.window
  inFlight : 0 ≤ l.inFlight
  counted : 0 ≤ l.counted
  granted : 0 ≤ l.granted
  total : l.window+l.inFlight+l.counted+l.granted ≤ c

theorem Step.within {c : Int} {l l' : CreditLoop} (hs : Step l l') (h : Within c l) : Within c l' := by
  obtain ⟨hw,hf,hc,hg,ht⟩ := h
  cases hs with
  | send h0 hn => exact ⟨by linarith,by linarith,hc,hg,by linarith⟩
  | count h0 hn => exact ⟨hw,by linarith,by linarith,hg,by linarith⟩
  | lose h0 hn => exact ⟨hw,by linarith,hc,hg,by linarith⟩
  | giveBack => exact ⟨hw,hf,le_rfl,by linarith,by linarith⟩
  | forget => exact ⟨hw,hf,le_rfl,hg,by linarith⟩
  | collect h0 hn => exact ⟨by linarith,hf,hc,by linarith,by linarith⟩
  | lapse h0 hn => exact ⟨hw,hf,hc,by linarith,by linarith⟩

theorem within_run {c : Int} {l l' : CreditLoop} (hs : Relation.ReflTransGen Step l l') (h : Within c l) :
    Within c l' := by
  induction hs with
  | refl => exact h
  | tail _ hstep ih => exact hstep.within ih

/-- A receiver that has announced `c` never counts more. -/
theorem Within.counted_le {c : Int} {l : CreditLoop} (h : Within c l) : l.counted ≤ c := by
  linarith [h.total,h.window,h.inFlight,h.granted]

end CreditLoop
end Spdylay.Library
