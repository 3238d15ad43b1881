import Mathlib

/-! Finite tables of records listed by strictly increasing key. The order is a
field of the table, so that a record is determined by its key in every table. -/
namespace Spdylay.Library

structure OrderedTable (α : Type) {κ : Type} [LinearOrder κ] (key : α → κ) where
  entries : List α
  sorted : entries.Pairwise (fun a b => key a < key b)

namespace OrderedTable
variable {α κ : Type} [LinearOrder κ] {key : α → κ}

def empty : OrderedTable α key := ⟨[],.nil⟩

def size (t : OrderedTable α key) : Nat := t.entries.length

def find (t : OrderedTable α key) (k : κ) : Option α := t.entries.find? (fun x => key x = k)

private def place (key : α → κ) (x : α) : List α → List α
  | [] => [x]
  | y :: ys => if key x < key y then x :: y :: ys else y :: place key x ys

private theorem mem_place (x z : α) (l : List α) : z ∈ place key x l ↔ z = x ∨ z ∈ l := by
  induction l with
  | nil => simp [place]
  | cons y ys ih =>
    unfold place
    split
    · simp
    · simp only [List.mem_cons,ih]
      tauto

private theorem place_perm (x : α) (l : List α) : (place key x l).Perm (x :: l) := by
  induction l with
  | nil => exact .refl _
  | cons y ys ih =>
    unfold place
    split
    · exact .refl _
    · exact (ih.cons y).trans (.swap x y ys)

private theorem place_sorted (x : α) (l : List α) (h : l.Pairwise (fun a b => key a < key b))
    (hx : ∀ y ∈ l, key y ≠ key x) : (place key x l).Pairwise (fun a b => key a < key b) := by
  induction l with
  | nil => exact List.pairwise_singleton _ _
  | cons y ys ih =>
    rw [List.pairwise_cons] at h
    unfold place
    split
    · rename_i hlt
      refine List.pairwise_cons.mpr ⟨?_,List.pairwise_cons.mpr h⟩
      intro z hz
      rcases List.mem_cons.mp hz with rfl | hz
      · exact hlt
      · exact hlt.trans (h.1 z hz)
    · rename_i hge
      have hyx : key y < key x := lt_of_le_of_ne (not_lt.mp hge) (hx y List.mem_cons_self)
      refine List.pairwise_cons.mpr ⟨?_,ih h.2 (fun z hz => hx z (List.mem_cons_of_mem y hz))⟩
      intro z hz
      rcases (mem_place x z ys).mp hz with rfl | hz
      · exact hyx
      · exact h.1 z hz

theorem keys_nodup (t : OrderedTable α key) : (t.entries.map key).Nodup :=
  List.pairwise_map.mpr (t.sorted.imp (fun h => ne_of_lt h))

theorem find_eq_some {t : OrderedTable α key} {k : κ} {x : α} :
    t.find k = some x ↔ x ∈ t.entries ∧ key x = k := by
  constructor
  · intro h
    exact ⟨List.mem_of_find?_eq_some h,by simpa using List.find?_some h⟩
  · rintro ⟨hx,rfl⟩
    cases hf : t.find (key x) with
    | none => exact absurd (List.find?_eq_none.mp hf x hx) (by simp)
    | some y =>
      have hy := List.mem_of_find?_eq_some hf
      have hk : key y = key x := by simpa using List.find?_some hf
      exact congrArg some (List.inj_on_of_nodup_map t.keys_nodup hy hx hk)

theorem find_eq_none {t : OrderedTable α key} {k : κ} :
    t.find k = none ↔ ∀ x ∈ t.entries, key x ≠ k := by
  simp [find,List.find?_eq_none]

theorem find_key {t : OrderedTable α key} {k : κ} {x : α} (h : t.find k = some x) : key x = k :=
  (find_eq_some.mp h).2

/-- Insertion of a record whose key is absent; `none` where the key is present. -/
def insert (t : OrderedTable α key) (x : α) : Option (OrderedTable α key) :=
  if h : t.find (key x) = none then
    some ⟨place key x t.entries,place_sorted x t.entries t.sorted (find_eq_none.mp h)⟩
  else none

def remove (t : OrderedTable α key) (k : κ) : OrderedTable α key :=
  ⟨t.entries.filter (fun x => key x ≠ k),t.sorted.filter _⟩

private theorem map_sorted (f : α → α) (hf : ∀ x, key (f x) = key x) {l : List α}
    (h : l.Pairwise (fun a b => key a < key b)) :
    (l.map f).Pairwise (fun a b => key a < key b) := by
  refine List.pairwise_map.mpr (h.imp ?_)
  intro a b hab
  rwa [hf a,hf b]

private theorem at_key (k : κ) (f : α → α) (hf : ∀ x, key (f x) = key x) (x : α) :
    key (if key x = k then f x else x) = key x := by
  split
  · exact hf x
  · rfl

/-- Change the record with key `k`, if there is one. -/
def modify (t : OrderedTable α key) (k : κ) (f : α → α)
    (hf : ∀ x, key (f x) = key x := by intro _; rfl) : OrderedTable α key :=
  ⟨t.entries.map (fun x => if key x = k then f x else x),map_sorted _ (at_key k f hf) t.sorted⟩

/-- Change every record. -/
def mapAll (t : OrderedTable α key) (f : α → α)
    (hf : ∀ x, key (f x) = key x := by intro _; rfl) : OrderedTable α key :=
  ⟨t.entries.map f,map_sorted f hf t.sorted⟩

theorem insert_fresh {t : OrderedTable α key} {x : α} (h : t.find (key x) = none) :
    ∃ t', t.insert x = some t' ∧ t'.entries.Perm (x :: t.entries) := by
  unfold insert
  rw [dif_pos h]
  exact ⟨_,rfl,place_perm x t.entries⟩

/-- Only an absent key is inserted. -/
theorem find_of_insert {t t' : OrderedTable α key} {x : α} (h : t.insert x = some t') : t.find (key x) = none := by
  unfold insert at h
  split at h
  · assumption
  · cases h

theorem insert_perm {t t' : OrderedTable α key} {x : α} (h : t.insert x = some t') :
    t'.entries.Perm (x :: t.entries) := by
  unfold insert at h
  split at h
  · cases h
    exact place_perm x t.entries
  · cases h

theorem find_insert {t t' : OrderedTable α key} {x : α} (h : t.insert x = some t') (k : κ) :
    t'.find k = if key x = k then some x else t.find k := by
  have hp := insert_perm h
  split
  · rename_i hk
    exact find_eq_some.mpr ⟨hp.mem_iff.mpr List.mem_cons_self,hk⟩
  · rename_i hk
    cases hf : t.find k with
    | none =>
      refine find_eq_none.mpr (fun y hy => ?_)
      rcases List.mem_cons.mp (hp.mem_iff.mp hy) with rfl | hy
      · exact hk
      · exact find_eq_none.mp hf y hy
    | some y =>
      obtain ⟨hy,rfl⟩ := find_eq_some.mp hf
      exact find_eq_some.mpr ⟨hp.mem_iff.mpr (List.mem_cons_of_mem x hy),rfl⟩

theorem mem_remove {t : OrderedTable α key} {k : κ} {x : α} :
    x ∈ (t.remove k).entries ↔ x ∈ t.entries ∧ key x ≠ k := by
  simp [remove]

@[simp] theorem find_remove (t : OrderedTable α key) (k j : κ) :
    (t.remove k).find j = if k = j then none else t.find j := by
  split
  · rename_i hk
    subst hk
    exact find_eq_none.mpr (fun x hx => (mem_remove.mp hx).2)
  · rename_i hk
    cases hf : t.find j with
    | none => exact find_eq_none.mpr (fun x hx => find_eq_none.mp hf x (mem_remove.mp hx).1)
    | some x =>
      obtain ⟨hx,rfl⟩ := find_eq_some.mp hf
      exact find_eq_some.mpr ⟨mem_remove.mpr ⟨hx,fun he => hk he.symm⟩,rfl⟩

/-- Removal takes out exactly the record that a look-up finds. -/
theorem remove_perm {t : OrderedTable α key} {k : κ} {x : α} (h : t.find k = some x) :
    t.entries.Perm (x :: (t.remove k).entries) := by
  obtain ⟨hx,rfl⟩ := find_eq_some.mp h
  have hn : t.entries.Nodup := t.sorted.imp (fun h he => absurd (congrArg key he) (ne_of_lt h))
  have hr : (t.remove (key x)).entries.Nodup := hn.filter _
  refine (List.perm_ext_iff_of_nodup hn (List.nodup_cons.mpr ⟨?_,hr⟩)).mpr (fun y => ?_)
  · intro hm
    exact (mem_remove.mp hm).2 rfl
  · rw [List.mem_cons,mem_remove]
    constructor
    · intro hy
      by_cases he : key y = key x
      · have h1 : t.find (key x) = some y := find_eq_some.mpr ⟨hy,he⟩
        rw [h] at h1
        exact .inl (Option.some.inj h1).symm
      · exact .inr ⟨hy,he⟩
    · rintro (rfl | hy)
      · exact hx
      · exact hy.1

@[simp] theorem find_modify (t : OrderedTable α key) (k j : κ) (f : α → α) (hf) :
    (t.modify k f hf).find j = if k = j then (t.find j).map f else t.find j := by
  unfold find modify
  rw [List.find?_map]
  have hg : ((fun x => decide (key x = j)) ∘ fun x => if key x = k then f x else x) =
      fun x => decide (key x = j) := by
    funext x
    simp only [Function.comp_apply,at_key k f hf x]
  rw [hg]
  by_cases hkj : k = j
  · subst hkj
    cases he : t.entries.find? (fun x => decide (key x = k)) with
    | none => simp
    | some x =>
      have hx : key x = k := by simpa using List.find?_some he
      simp [hx]
  · cases he : t.entries.find? (fun x => decide (key x = j)) with
    | none => simp
    | some x =>
      have hx : key x ≠ k := by
        intro hh
        have : key x = j := by simpa using List.find?_some he
        exact hkj (hh.symm.trans this)
      simp [hx,hkj]

@[simp] theorem find_mapAll (t : OrderedTable α key) (j : κ) (f : α → α) (hf) :
    (t.mapAll f hf).find j = (t.find j).map f := by
  unfold find mapAll
  rw [List.find?_map]
  congr 2
  funext x
  simp only [Function.comp_apply,hf x]

/-- A change in place is the removal of the old record and the addition of the new. -/
theorem modify_perm {t : OrderedTable α key} {k : κ} {x : α} (f : α → α) (hf) (h : t.find k = some x) :
    (t.modify k f hf).entries.Perm (f x :: (t.remove k).entries) := by
  have hm : (t.modify k f hf).entries.Perm ((x :: (t.remove k).entries).map (fun x => if key x = k then f x else x)) :=
    (remove_perm h).map _
  have hr : (t.remove k).entries.map (fun x => if key x = k then f x else x) = (t.remove k).entries := by
    refine (List.map_congr_left ?_).trans (List.map_id _)
    intro y hy
    exact if_neg (mem_remove.mp hy).2
  rwa [List.map_cons,hr,if_pos (find_key h)] at hm

@[simp] theorem keys_modify (t : OrderedTable α key) (k : κ) (f : α → α) (hf) :
    (t.modify k f hf).entries.map key = t.entries.map key := by
  unfold modify
  rw [List.map_map]
  exact List.map_congr_left (fun x _ => at_key k f hf x)

/-- A sorted list of the same records is the list of the table. -/
theorem eq_entries_of_perm {t : OrderedTable α key} {l : List α} (hl : l.Pairwise (fun a b => key a < key b))
    (hp : l.Perm t.entries) : l = t.entries := by
  refine hp.eq_of_pairwise ?_ hl t.sorted
  intro a b _ _ hab hba
  exact absurd hab hba.asymm

@[simp] theorem find_empty (k : κ) : (empty : OrderedTable α key).find k = none := rfl

end OrderedTable
end Spdylay.Library
