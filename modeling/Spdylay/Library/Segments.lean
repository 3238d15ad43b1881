import Mathlib.Data.List.Infix
import Mathlib.Data.List.TakeWhile

/-! Looking for a text and cutting at a separator, and the segments of a text between its
separators. -/
namespace Spdylay.Library.Segments

variable {α : Type} [DecidableEq α]

/-! The first occurrence of a text. -/

def find (pat : List α) : List α → Option Nat
  | [] => if pat = [] then some 0 else none
  | c :: s => if pat.isPrefixOf (c :: s) then some 0 else (find pat s).map (· + 1)

theorem find_spec {pat s : List α} {n : Nat} (h : find pat s = some n) : pat <+: s.drop n := by
  induction s generalizing n with
  | nil =>
    rw [find] at h
    split at h
    · cases h
      rename_i hp
      rw [hp]
      exact List.nil_prefix
    · cases h
  | cons c s ih =>
    rw [find] at h
    split at h
    · cases h
      rename_i hp
      exact List.isPrefixOf_iff_prefix.mp hp
    · obtain ⟨m,hm,rfl⟩ := Option.map_eq_some_iff.mp h
      exact ih hm

theorem find_eq_none_iff {pat s : List α} : find pat s = none ↔ ¬pat <:+: s := by
  induction s with
  | nil =>
    rw [find,List.infix_nil]
    split_ifs with hp <;> simp [hp]
  | cons c s ih =>
    rw [find,List.infix_cons_iff,not_or,← ih,← List.isPrefixOf_iff_prefix]
    split_ifs with hp
    · simp [hp]
    · simp [hp]

/-! Cutting at a separator. -/

/-- What is before the first separator and behind it. -/
def cutFirst (sep : α) : List α → Option (List α × List α)
  | [] => none
  | c :: s => if c = sep then some ([],s) else (cutFirst sep s).map (fun p => (c :: p.1,p.2))

/-- What is before the last separator and behind it. -/
def cutLast (sep : α) : List α → Option (List α × List α)
  | [] => none
  | c :: s =>
    match cutLast sep s with
    | some p => some (c :: p.1,p.2)
    | none => if c = sep then some ([],s) else none

theorem cutFirst_append {sep : α} {a : List α} (h : sep ∉ a) (b : List α) : cutFirst sep (a ++ sep :: b) = some (a,b) := by
  induction a with
  | nil => exact if_pos rfl
  | cons c a ih =>
    rw [List.mem_cons,not_or] at h
    rw [List.cons_append,cutFirst,if_neg (Ne.symm h.1),ih h.2]
    rfl

theorem cutFirst_eq_none_iff {sep : α} {s : List α} : cutFirst sep s = none ↔ sep ∉ s := by
  induction s with
  | nil => exact iff_of_true rfl List.not_mem_nil
  | cons c s ih =>
    rw [cutFirst,List.mem_cons,not_or]
    split_ifs with hc
    · exact iff_of_false nofun (fun h => h.1 hc.symm)
    · rw [Option.map_eq_none_iff,ih]
      exact ⟨fun h => ⟨Ne.symm hc,h⟩,fun h => h.2⟩

theorem cutFirst_spec {sep : α} {s a b : List α} (h : cutFirst sep s = some (a,b)) : s = a ++ sep :: b ∧ sep ∉ a := by
  induction s generalizing a with
  | nil => cases h
  | cons c s ih =>
    rw [cutFirst] at h
    split_ifs at h with hc
    · cases h
      rw [hc]
      exact ⟨rfl,List.not_mem_nil⟩
    · obtain ⟨⟨a',b'⟩,hr,he⟩ := Option.map_eq_some_iff.mp h
      cases he
      obtain ⟨rfl,hn⟩ := ih hr
      exact ⟨rfl,List.not_mem_cons_of_ne_of_not_mem (Ne.symm hc) hn⟩

theorem cutLast_eq_none_iff {sep : α} {s : List α} : cutLast sep s = none ↔ sep ∉ s := by
  induction s with
  | nil => exact iff_of_true rfl List.not_mem_nil
  | cons c s ih =>
    rw [cutLast,List.mem_cons,not_or]
    cases h : cutLast sep s with
    | some p =>
      have hm : ¬sep ∉ s := fun hn => by
        rw [ih.mpr hn] at h
        cases h
      exact iff_of_false nofun (fun hn => hm hn.2)
    | none =>
      have hn := ih.mp h
      dsimp only
      split_ifs with hc
      · exact iff_of_false nofun (fun hn => hn.1 hc.symm)
      · exact iff_of_true rfl ⟨Ne.symm hc,hn⟩

theorem cutLast_append (sep : α) (a : List α) {b : List α} (h : sep ∉ b) : cutLast sep (a ++ sep :: b) = some (a,b) := by
  induction a with
  | nil =>
    rw [List.nil_append,cutLast,cutLast_eq_none_iff.mpr h]
    exact if_pos rfl
  | cons c a ih => rw [List.cons_append,cutLast,ih]

theorem cutLast_spec {sep : α} {s a b : List α} (h : cutLast sep s = some (a,b)) : s = a ++ sep :: b ∧ sep ∉ b := by
  induction s generalizing a with
  | nil => cases h
  | cons c s ih =>
    rw [cutLast] at h
    cases hr : cutLast sep s with
    | some p =>
      rw [hr] at h
      cases h
      obtain ⟨hs,hn⟩ := ih hr
      rw [hs]
      exact ⟨rfl,hn⟩
    | none =>
      rw [hr] at h
      dsimp only at h
      split_ifs at h with hc
      cases h
      rw [hc]
      exact ⟨rfl,cutLast_eq_none_iff.mp hr⟩

/-- What is before the first separator, or everything. -/
def before (sep : α) (s : List α) : List α := s.takeWhile (fun c => c ≠ sep)

/-- The first separator and what is behind it, or nothing. -/
def onward (sep : α) (s : List α) : List α := s.dropWhile (fun c => c ≠ sep)

theorem before_append_onward (sep : α) (s : List α) : before sep s ++ onward sep s = s := List.takeWhile_append_dropWhile

theorem not_mem_before (sep : α) (s : List α) : sep ∉ before sep s := by
  intro h
  have := List.mem_takeWhile_imp h
  rw [decide_eq_true_iff] at this
  exact this rfl

theorem head?_onward (sep : α) (s : List α) : ∀ c ∈ (onward sep s).head?, c = sep := by
  intro c hc
  have := List.head?_dropWhile_not (fun c => decide (c ≠ sep)) s
  rw [onward] at hc
  rw [Option.mem_def.mp hc] at this
  simpa using this

theorem split_append {sep : α} {a : List α} (h : sep ∉ a) (b : List α) :
    before sep (a ++ b) = a ++ before sep b ∧ onward sep (a ++ b) = onward sep b := by
  have hall : ∀ c ∈ a, decide (c ≠ sep) = true := by
    intro c hc
    rw [decide_eq_true_iff]
    rintro rfl
    exact h hc
  exact ⟨List.takeWhile_append_of_pos hall,List.dropWhile_append_of_pos hall⟩

theorem split_of_head {sep : α} {b : List α} (h : ∀ c ∈ b.head?, c = sep) : before sep b = [] ∧ onward sep b = b := by
  cases b with
  | nil => exact ⟨rfl,rfl⟩
  | cons c b =>
    have hc : ¬decide (c ≠ sep) = true := by
      rw [h c rfl]
      simp
    exact ⟨List.takeWhile_cons_of_neg hc,List.dropWhile_cons_of_neg hc⟩

/-- A text is cut in one way only. -/
theorem split_unique (sep : α) (a b : List α) (ha : sep ∉ a) (hb : ∀ c ∈ b.head?, c = sep) :
    before sep (a ++ b) = a ∧ onward sep (a ++ b) = b := by
  obtain ⟨h1,h2⟩ := split_append ha b
  rw [h1,h2,(split_of_head hb).1,(split_of_head hb).2,List.append_nil]
  exact ⟨rfl,rfl⟩

/-! Segments. -/

omit [DecidableEq α] in
theorem cons_infix_append_iff {sep : α} {a : List α} (h : sep ∉ a) (t r : List α) :
    sep :: t <:+: a ++ r ↔ sep :: t <:+: r := by
  induction a with
  | nil => rfl
  | cons c a ih =>
    rw [List.mem_cons,not_or] at h
    rw [List.cons_append,List.infix_cons_iff,List.cons_prefix_cons,ih h.2]
    exact ⟨fun hi => hi.resolve_left (fun hp => h.1 hp.1),.inr⟩

theorem append_singleton_prefix_iff {sep : α} {a seg : List α} (ha : sep ∉ a) (hseg : sep ∉ seg) (r : List α) :
    seg ++ [sep] <+: a ++ sep :: r ↔ seg = a := by
  constructor
  · rintro ⟨v,hv⟩
    rw [List.append_assoc,List.singleton_append] at hv
    have hcut := cutFirst_append hseg v
    rw [hv,cutFirst_append ha,Option.some.injEq,Prod.mk.injEq] at hcut
    exact hcut.1.symm
  · rintro rfl
    exact ⟨r,by rw [List.append_assoc,List.singleton_append]⟩

/-- The part of a text up to its first separator, and the segments that follow it. -/
theorem segment_infix_iff {sep : α} {a seg : List α} (ha : sep ∉ a) (hseg : sep ∉ seg) (r : List α) :
    sep :: (seg ++ [sep]) <:+: sep :: (a ++ sep :: r) ↔ seg = a ∨ sep :: (seg ++ [sep]) <:+: sep :: r := by
  rw [List.infix_cons_iff,List.cons_prefix_cons,append_singleton_prefix_iff ha hseg,cons_infix_append_iff ha,
    and_iff_right rfl]

/-- A segment is what stands between two separators next to each other, one more put before
the text and one behind it. -/
theorem mem_splitOn_iff {sep : α} {s seg : List α} :
    seg ∈ s.splitOn sep ↔ sep ∉ seg ∧ sep :: (seg ++ [sep]) <:+: sep :: (s ++ [sep]) := by
  induction hn : s.length using Nat.strong_induction_on generalizing s with
  | _ n ih =>
    by_cases hs : sep ∈ s
    · cases hcut : cutFirst sep s with
      | none => exact absurd hs (cutFirst_eq_none_iff.mp hcut)
      | some p =>
        obtain ⟨a,b⟩ := p
        obtain ⟨rfl,ha⟩ := cutFirst_spec hcut
        have hlen : b.length < n := by
          rw [← hn,List.length_append,List.length_cons]
          omega
        rw [List.splitOn_append_cons_self,List.splitOn_eq_singleton ha,List.singleton_append,List.mem_cons,
          ih b.length hlen rfl,List.append_assoc,List.cons_append]
        constructor
        · rintro (rfl | ⟨hseg,hi⟩)
          · exact ⟨ha,(segment_infix_iff ha ha _).mpr (.inl rfl)⟩
          · exact ⟨hseg,(segment_infix_iff ha hseg _).mpr (.inr hi)⟩
        · rintro ⟨hseg,hi⟩
          exact ((segment_infix_iff ha hseg _).mp hi).imp_right (fun h => ⟨hseg,h⟩)
    · rw [List.splitOn_eq_singleton hs,List.mem_singleton]
      constructor
      · rintro rfl
        exact ⟨hs,List.infix_refl _⟩
      · rintro ⟨hseg,hi⟩
        refine ((segment_infix_iff hs hseg []).mp hi).resolve_right (fun h => ?_)
        have := h.length_le
        simp only [List.length_cons,List.length_append,List.length_nil] at this
        omega

/-- Of a text that begins with a separator. -/
theorem mem_splitOn_cons_iff (sep : α) (s seg : List α) (hne : seg ≠ []) (hseg : sep ∉ seg) :
    seg ∈ (sep :: s).splitOn sep ↔ sep :: (seg ++ [sep]) <:+: sep :: s ∨ sep :: seg <:+ sep :: s := by
  have hhead : ¬seg ++ [sep] <+: sep :: s ++ [sep] := by
    cases seg with
    | nil => exact absurd rfl hne
    | cons c seg =>
      intro h
      exact hseg (List.mem_cons.mpr (.inl (List.cons_prefix_cons.mp h).1.symm))
  have hlast : sep :: (seg ++ [sep]) <:+ sep :: s ++ [sep] ↔ sep :: seg <:+ sep :: s := by
    rw [← List.cons_append,List.suffix_append_inj_of_length_eq rfl]
    exact and_iff_left rfl
  rw [mem_splitOn_iff,and_iff_right hseg,List.infix_cons_iff,List.cons_prefix_cons,or_iff_right (fun h => hhead h.2),
    List.infix_concat_iff,hlast]
  exact or_comm

theorem mem_of_mem_splitOn {sep c : α} {s seg : List α} (h : seg ∈ s.splitOn sep) (hc : c ∈ seg) : c ∈ s := by
  obtain ⟨hsep,hi⟩ := mem_splitOn_iff.mp h
  have hne : c ≠ sep := by
    rintro rfl
    exact hsep hc
  have hm := hi.subset (List.mem_cons_of_mem _ (List.mem_append_left [sep] hc))
  exact ((List.mem_append.mp ((List.mem_cons.mp hm).resolve_left hne)).resolve_right
    (fun h => hne (List.mem_singleton.mp h)))

omit [DecidableEq α] in
theorem mem_intercalate {sep c : α} {segs : List (List α)} (h : c ∈ [sep].intercalate segs) :
    c = sep ∨ ∃ seg ∈ segs, c ∈ seg := by
  induction segs with
  | nil => cases h
  | cons seg segs ih =>
    by_cases hn : segs = []
    · rw [hn,List.intercalate_singleton] at h
      exact .inr ⟨seg,List.mem_cons_self,h⟩
    · rw [List.intercalate_cons_of_ne_nil hn,List.mem_append,List.mem_append,List.mem_singleton] at h
      rcases h with (h | h) | h
      · exact .inr ⟨seg,List.mem_cons_self,h⟩
      · exact .inl h
      · exact (ih h).imp_right (fun ⟨t,ht,hc⟩ => ⟨t,List.mem_cons_of_mem _ ht,hc⟩)

/-- Segments joined, with a separator at the end or without. -/
theorem splitOn_joined {sep : α} {segs : List (List α)} (hne : segs ≠ []) (hsep : ∀ seg ∈ segs, sep ∉ seg) :
    ([sep].intercalate segs).splitOn sep = segs ∧ ([sep].intercalate segs ++ [sep]).splitOn sep = segs ++ [[]] := by
  have h := List.splitOn_intercalate sep hsep hne
  exact ⟨h,by rw [List.splitOn_append_cons_self,h,List.splitOn_nil]⟩

end Spdylay.Library.Segments
