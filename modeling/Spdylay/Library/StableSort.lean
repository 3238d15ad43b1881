import Spdylay.Library.HeapOrder

/-! Sorting by a comparison, and sorting that keeps tied elements in their order. A
stable sort is determined by its results on the classes of tied elements. -/
namespace Spdylay.Library.StableSort
open BinaryHeap
variable {α : Type} {compar : α → α → Int}

def Sorted (compar : α → α → Int) (l : List α) : Prop := l.Pairwise (fun a b => compar a b ≤ 0)

/-- Neither element comes before the other. -/
def tied (compar : α → α → Int) (a b : α) : Bool := compar a b ≤ 0 ∧ compar b a ≤ 0

/-- A sorting routine that takes its comparison as an argument. -/
structure Sorts (sort : (α : Type) → (α → α → Int) → List α → List α) : Prop where
  perm : ∀ (α : Type) (compar : α → α → Int) (l : List α), TotalOrder compar → (sort α compar l).Perm l
  sorted : ∀ (α : Type) (compar : α → α → Int) (l : List α), TotalOrder compar → Sorted compar (sort α compar l)

structure SortsStably (sort : (α : Type) → (α → α → Int) → List α → List α) : Prop extends Sorts sort where
  stable : ∀ (α : Type) (compar : α → α → Int) (l : List α) (a : α), TotalOrder compar →
    (sort α compar l).filter (tied compar a) = l.filter (tied compar a)

theorem tied_iff {a b : α} : tied compar a b = true ↔ compar a b ≤ 0 ∧ compar b a ≤ 0 := by
  unfold tied
  rw [decide_eq_true_iff]

theorem tied_self (ho : TotalOrder compar) (a : α) : tied compar a a = true :=
  tied_iff.mpr ⟨ho.refl a,ho.refl a⟩

/-- Two sorted lists that agree on every class of tied elements are equal. -/
theorem Sorted.eq_of_filter (ho : TotalOrder compar) {l l' : List α} (hl : Sorted compar l) (hl' : Sorted compar l')
    (h : ∀ a, l.filter (tied compar a) = l'.filter (tied compar a)) : l = l' := by
  have hmem : ∀ {l l' : List α}, (∀ a, l.filter (tied compar a) = l'.filter (tied compar a)) → l ⊆ l' := by
    intro l l' h a ha
    have hf : a ∈ l.filter (tied compar a) := List.mem_filter.mpr ⟨ha,tied_self ho a⟩
    rw [h a] at hf
    exact (List.mem_filter.mp hf).1
  induction l generalizing l' with
  | nil => exact (List.eq_nil_of_subset_nil (hmem (fun a => (h a).symm))).symm
  | cons x xs ih =>
    cases l' with
    | nil => exact List.eq_nil_of_subset_nil (hmem h)
    | cons y ys =>
      -- both heads are least, so they are tied, and each begins the class of the other
      have hxy : compar x y ≤ 0 := by
        rcases List.mem_cons.mp (hmem (fun a => (h a).symm) (List.mem_cons_self (a := y))) with rfl | hy
        · exact ho.refl y
        · exact List.rel_of_pairwise_cons hl hy
      have hyx : compar y x ≤ 0 := by
        rcases List.mem_cons.mp (hmem h (List.mem_cons_self (a := x))) with rfl | hx
        · exact ho.refl x
        · exact List.rel_of_pairwise_cons hl' hx
      have hhead := h x
      rw [List.filter_cons_of_pos (tied_self ho x),List.filter_cons_of_pos (tied_iff.mpr ⟨hxy,hyx⟩)] at hhead
      obtain ⟨rfl,-⟩ := List.cons.inj hhead
      refine congrArg (x :: ·) (ih hl.of_cons hl'.of_cons ?_)
      intro a
      have ha := h a
      by_cases hax : tied compar a x = true
      · rw [List.filter_cons_of_pos hax,List.filter_cons_of_pos hax] at ha
        exact (List.cons.inj ha).2
      · rwa [List.filter_cons_of_neg hax,List.filter_cons_of_neg hax] at ha

theorem SortsStably.eq_self {sort : (α : Type) → (α → α → Int) → List α → List α} (hs : SortsStably sort)
    (ho : TotalOrder compar) {l : List α} (hl : Sorted compar l) : sort α compar l = l :=
  Sorted.eq_of_filter ho (hs.sorted α compar l ho) hl (fun a => hs.stable α compar l a ho)

/-- Sorting by what a function takes from the elements sorts what it takes from them. -/
theorem SortsStably.map {β : Type} {sort : (α : Type) → (α → α → Int) → List α → List α} (hs : SortsStably sort)
    (ho : TotalOrder compar) (f : β → α) (l : List β) :
    (sort β (fun a b => compar (f a) (f b)) l).map f = sort α compar (l.map f) := by
  have hof : TotalOrder (fun a b => compar (f a) (f b)) :=
    ⟨fun a b => ho.total (f a) (f b),fun a b c => ho.trans (f a) (f b) (f c)⟩
  have hperm := (hs.perm β _ l hof).map f
  apply Sorted.eq_of_filter ho
  · exact List.pairwise_map.mpr (hs.sorted β _ l hof)
  · exact hs.sorted α compar _ ho
  · intro a
    rw [hs.stable α compar _ a ho]
    by_cases ha : ∃ x ∈ l, tied compar a (f x) = true
    · -- on the elements of the class, being tied to a is being tied to one of them
      obtain ⟨x,-,hx⟩ := ha
      obtain ⟨hax,hxa⟩ := tied_iff.mp hx
      have hclass : ∀ l : List β, (l.map f).filter (tied compar a) =
          (l.filter (tied (fun a b => compar (f a) (f b)) x)).map f := by
        intro l
        rw [List.filter_map]
        apply congrArg (List.map f)
        apply List.filter_congr
        intro y _
        rw [Bool.eq_iff_iff,Function.comp_apply,tied_iff,tied_iff]
        constructor
        · rintro ⟨hay,hya⟩
          exact ⟨ho.trans _ a _ hxa hay,ho.trans _ a _ hya hax⟩
        · rintro ⟨hxy,hyx⟩
          exact ⟨ho.trans _ (f x) _ hax hxy,ho.trans _ (f x) _ hyx hxa⟩
      rw [hclass,hclass,hs.stable β _ l x hof]
    · have hnone : ∀ y ∈ l.map f, ¬tied compar a y = true := by
        intro y hy hay
        obtain ⟨x,hx,rfl⟩ := List.mem_map.mp hy
        exact ha ⟨x,hx,hay⟩
      rw [List.filter_eq_nil_iff.mpr hnone,List.filter_eq_nil_iff.mpr (fun y hy => hnone y (hperm.subset hy))]

theorem insertionSort_stably : SortsStably (fun _ compar l => l.insertionSort (fun a b => compar a b ≤ 0)) where
  perm _ _ l _ := List.perm_insertionSort _ l
  sorted α compar l ho := by
    have : Std.Total (fun a b => compar a b ≤ 0) := ⟨ho.total⟩
    have : IsTrans α (fun a b => compar a b ≤ 0) := ⟨ho.trans⟩
    exact List.pairwise_insertionSort _ l
  stable α compar l a ho := by
    have : Std.Total (fun a b => compar a b ≤ 0) := ⟨ho.total⟩
    have : IsTrans α (fun a b => compar a b ≤ 0) := ⟨ho.trans⟩
    have hclass : (l.filter (tied compar a)).Pairwise (fun x y => compar x y ≤ 0) := by
      apply List.pairwise_of_forall_mem_list
      intro x hx y hy
      exact ho.trans x a y (tied_iff.mp (List.mem_filter.mp hx).2).2 (tied_iff.mp (List.mem_filter.mp hy).2).1
    have hsub := (List.sublist_insertionSort hclass List.filter_sublist).filter (tied compar a)
    rw [List.filter_filter] at hsub
    simp only [Bool.and_self] at hsub
    exact (hsub.eq_of_length ((List.perm_insertionSort _ l).filter _).length_eq.symm).symm

end Spdylay.Library.StableSort
