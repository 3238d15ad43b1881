import Mathlib.Logic.Relation
import Mathlib.Data.List.Infix

/-! Logs as histories: every event is judged by what was logged before it. -/
namespace Spdylay.Library

variable {E S : Type*}

/-- Each event of the log meets `p` together with its past. -/
def Guarded (p : List E → E → Prop) (log : List E) : Prop := ∀ pre e post, log = pre ++ e :: post → p pre e

/-- Where a log that has grown by one event can be cut. -/
theorem concat_eq_append_cons {log pre post : List E} {x e : E} :
    log ++ [x] = pre ++ e :: post ↔ (∃ post', post = post' ++ [x] ∧ log = pre ++ e :: post') ∨
      (post = [] ∧ log = pre ∧ x = e) := by
  constructor
  · intro h
    rcases List.eq_nil_or_concat post with rfl | ⟨post',y,rfl⟩
    · have h' := List.append_inj' h rfl
      exact .inr ⟨rfl,h'.1,List.head_eq_of_cons_eq h'.2⟩
    · rw [List.concat_eq_append,← List.cons_append,← List.append_assoc] at h
      have h' := List.append_inj' h rfl
      refine .inl ⟨post',?_,h'.1⟩
      rw [List.concat_eq_append,List.head_eq_of_cons_eq h'.2]
  · rintro (⟨post',rfl,rfl⟩ | ⟨rfl,rfl,rfl⟩)
    · simp
    · rfl

/-- Where a log that has grown can be cut. -/
theorem append_eq_append_cons {log es pre post : List E} {e : E} (h : log ++ es = pre ++ e :: post) :
    (∃ post', post = post' ++ es ∧ log = pre ++ e :: post') ∨ (∃ pre', pre = log ++ pre' ∧ es = pre' ++ e :: post) := by
  rcases List.append_eq_append_iff.mp h with ⟨pre',hp,he⟩ | ⟨post',hp,he⟩
  · exact .inr ⟨pre',hp,he⟩
  · cases post' with
    | nil => exact .inr ⟨[],by simpa using hp.symm,by simpa using he.symm⟩
    | cons x post' =>
      obtain ⟨rfl,rfl⟩ := List.cons.inj he
      exact .inl ⟨post',rfl,hp⟩

variable {p q : List E → E → Prop}

theorem guarded_nil : Guarded p [] := by
  intro pre e post h
  cases pre <;> cases h

theorem guarded_concat {log : List E} {x : E} : Guarded p (log ++ [x]) ↔ Guarded p log ∧ p log x := by
  constructor
  · intro h
    refine ⟨fun pre e post he => h pre e (post ++ [x]) ?_,h log x [] rfl⟩
    rw [he]
    simp
  · rintro ⟨h,hx⟩ pre e post he
    rcases concat_eq_append_cons.mp he with ⟨post',-,he⟩ | ⟨-,rfl,rfl⟩
    · exact h pre e post' he
    · exact hx

/-- Events that meet `p` whatever their past. -/
theorem Guarded.append {log es : List E} (h : Guarded p log) (hes : ∀ e ∈ es, ∀ pre, p pre e) :
    Guarded p (log ++ es) := by
  induction es generalizing log with
  | nil => simpa using h
  | cons e es ih =>
    have he := ih (guarded_concat.mpr ⟨h,hes e (.head _) log⟩) (fun x hx => hes x (.tail _ hx))
    rwa [List.append_assoc] at he

theorem Guarded.initial {log log' : List E} (h : Guarded p log') (hp : log <+: log') : Guarded p log := by
  obtain ⟨es,rfl⟩ := hp
  intro pre e post he
  refine h pre e (post ++ es) ?_
  rw [he]
  simp

theorem Guarded.imp {log : List E} (h : Guarded p log) (hi : ∀ pre e, p pre e → q pre e) : Guarded q log :=
  fun pre e post he => hi pre e (h pre e post he)

/-- Events of a kind that never has one of its kind before it. -/
theorem Guarded.countP_le_one {log : List E} (k : E → Bool) (h : Guarded (fun pre e => k e = true → ∀ x ∈ pre, k x = false) log) :
    log.countP k ≤ 1 := by
  induction log using List.reverseRecOn with
  | nil => exact Nat.zero_le 1
  | append_singleton log x ih =>
    obtain ⟨h1,hx⟩ := guarded_concat.mp h
    rw [List.countP_append,List.countP_singleton]
    split
    · rename_i hk
      have h0 : log.countP k = 0 := List.countP_eq_zero.mpr (fun y hy => Bool.eq_false_iff.mp (hx hk y hy))
      omega
    · exact ih h1

/-- What the events of a kind say is related in the order of the log. -/
theorem Guarded.pairwise_filterMap {A : Type*} {log : List E} {k : E → Option A} {r : A → A → Prop} (h : Guarded p log)
    (hp : ∀ pre e, p pre e → ∀ a, k e = some a → ∀ x ∈ pre, ∀ b, k x = some b → r b a) :
    (log.filterMap k).Pairwise r := by
  induction log using List.reverseRecOn with
  | nil => exact .nil
  | append_singleton log e ih =>
    obtain ⟨h1,he⟩ := guarded_concat.mp h
    rw [List.filterMap_append,List.pairwise_append]
    refine ⟨ih h1,?_,?_⟩
    · cases hk : k e <;> simp [hk]
    · intro b hb a ha
      obtain ⟨x,hx,hxb⟩ := List.mem_filterMap.mp hb
      obtain ⟨y,hy,hya⟩ := List.mem_filterMap.mp ha
      cases List.mem_singleton.mp hy
      exact hp log e he a hya x hx b hxb

/-- What every step keeps is kept by every run. -/
theorem keeps_of_steps {r : S → S → Prop} {I : S → Prop} (h : ∀ s s', r s s' → I s → I s') {s s' : S}
    (hs : Relation.ReflTransGen r s s') (hi : I s) : I s' := by
  induction hs with
  | refl => exact hi
  | tail _ hr ih => exact h _ _ hr ih

end Spdylay.Library
