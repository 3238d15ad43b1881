import Mathlib

/-! Binary trees seen from one of their nodes. The way from a node to the root is a
path of frames; the tree is the path with a subtree plugged into its hole. In-order
and post-order are read off the frames, a new item rises along its path until the
priorities are in heap order again, and the two children of a removed item are
merged by the rotations that sink it. -/
namespace Spdylay.Library.Treap
open BinaryTree

inductive Side
  | left
  | right
deriving DecidableEq, Repr

def Side.other : Side → Side
  | .left => .right
  | .right => .left

variable {α κ π : Type}

/-- The tree with `a` at the side `s` of the item and `b` at the other side. -/
def build (s : Side) (x : α) (a b : BinaryTree α) : BinaryTree α :=
  match s with
  | .left => node x a b
  | .right => node x b a

def items : BinaryTree α → List α
  | nil => []
  | node x l r => items l ++ x :: items r

def postorder : BinaryTree α → List α
  | nil => []
  | node x l r => postorder l ++ (postorder r ++ [x])

/-- One step up: the hole is at the side `side` of the item, next to `sibling`. -/
structure Frame (α : Type) where
  side : Side
  item : α
  sibling : BinaryTree α

/-- The frames of a path are listed from the hole to the root. -/
abbrev Path (α : Type) := List (Frame α)

def plug : Path α → BinaryTree α → BinaryTree α
  | [], t => t
  | f :: path, t => plug path (build f.side f.item t f.sibling)

/-- The items that stand before the hole, and those after it, in order. -/
def before : Path α → List α
  | [] => []
  | ⟨.left,_,_⟩ :: path => before path
  | ⟨.right,x,b⟩ :: path => before path ++ (items b ++ [x])

@[inherit_doc before]
def after : Path α → List α
  | [] => []
  | ⟨.left,x,b⟩ :: path => x :: (items b ++ after path)
  | ⟨.right,_,_⟩ :: path => after path

/-- The items that come after the hole in post-order. -/
def later : Path α → List α
  | [] => []
  | ⟨.left,x,b⟩ :: path => postorder b ++ x :: later path
  | ⟨.right,x,_⟩ :: path => x :: later path

/-! The two orders. -/

theorem items_length (t : BinaryTree α) : (items t).length = t.numNodes := by
  induction t with
  | nil => rfl
  | node x l r ihl ihr =>
    simp only [items,List.length_append,List.length_cons,ihl,ihr,numNodes]
    omega

theorem postorder_perm (t : BinaryTree α) : (postorder t).Perm (items t) := by
  induction t with
  | nil => exact .refl _
  | node x l r ihl ihr =>
    simp only [postorder,items]
    refine ihl.append ?_
    exact (List.perm_append_singleton x _).trans (ihr.cons x)

theorem items_plug (path : Path α) (t : BinaryTree α) :
    items (plug path t) = before path ++ (items t ++ after path) := by
  induction path generalizing t with
  | nil => simp [plug,before,after]
  | cons f path ih =>
    obtain ⟨s,x,b⟩ := f
    cases s <;> simp [plug,ih,build,items,before,after]

/-- The items of a path and of its siblings. -/
def around (path : Path α) : List α := path.flatMap (fun f => f.item :: items f.sibling)

theorem around_cons (f : Frame α) (path : Path α) : around (f :: path) = f.item :: (items f.sibling ++ around path) := rfl

theorem items_build_perm (s : Side) (x : α) (a b : BinaryTree α) :
    (items (build s x a b)).Perm (items a ++ x :: items b) := by
  cases s
  · exact .refl _
  · simp only [build,items]
    exact List.perm_middle.trans ((List.perm_append_comm.cons x).trans List.perm_middle.symm)

theorem items_plug_perm (path : Path α) (t : BinaryTree α) : (items (plug path t)).Perm (items t ++ around path) := by
  induction path generalizing t with
  | nil => simp [plug,around]
  | cons f path ih =>
    rw [plug,around_cons]
    refine (ih _).trans (((items_build_perm f.side f.item t f.sibling).append_right _).trans ?_)
    simp

theorem numNodes_build (s : Side) (x : α) (a b : BinaryTree α) :
    (build s x a b).numNodes = a.numNodes + b.numNodes + 1 := by
  cases s
  · rfl
  · simp only [build,numNodes]
    omega

theorem length_le_numNodes (path : Path α) (t : BinaryTree α) : path.length + t.numNodes ≤ (plug path t).numNodes := by
  induction path generalizing t with
  | nil => simp [plug]
  | cons f path ih =>
    have hi := ih (build f.side f.item t f.sibling)
    rw [numNodes_build] at hi
    simp only [plug,List.length_cons]
    omega

theorem sibling_le_numNodes {f : Frame α} {path : Path α} (t : BinaryTree α) (hf : f ∈ path) :
    f.sibling.numNodes ≤ (plug path t).numNodes := by
  induction path generalizing t with
  | nil => cases hf
  | cons g path ih =>
    rcases List.mem_cons.mp hf with rfl | hf
    · have hi := length_le_numNodes path (build f.side f.item t f.sibling)
      rw [numNodes_build] at hi
      rw [plug]
      omega
    · exact ih _ hf

theorem mem_items_build {s : Side} {x y : α} {a b : BinaryTree α} :
    y ∈ items (build s x a b) ↔ y = x ∨ y ∈ items a ∨ y ∈ items b := by
  cases s
  · simp only [build,items,List.mem_append,List.mem_cons]
    tauto
  · simp only [build,items,List.mem_append,List.mem_cons]
    tauto

/-- A rotation towards the side `s`: the item `y` takes the place of its parent `x`. -/
theorem items_rotate (s : Side) (x y : α) (a b c : BinaryTree α) :
    items (build s y (build s x a b) c) = items (build s x a (build s y b c)) := by
  cases s <;> simp [build,items]

/-- An element of a concatenation is in one of the two parts. -/
private theorem split_append {a b pre post : List α} {x : α} (h : a ++ b = pre ++ x :: post) :
    (∃ w, a = pre ++ x :: w ∧ post = w ++ b) ∨ ∃ w, b = w ++ x :: post := by
  rcases List.append_eq_append_iff.mp h with ⟨w,-,hw⟩ | ⟨w,ha,hw⟩
  · exact .inr ⟨w,hw⟩
  · cases w with
    | nil => exact .inr ⟨[],hw.symm⟩
    | cons z w =>
      injection hw with hz hw
      subst hz
      exact .inl ⟨w,ha,hw⟩

/-- Every item of the in-order sequence is the item of a node, and what follows it in
the sequence is what follows the node in the tree. -/
theorem exists_position {x : α} {t : BinaryTree α} (path : Path α) {pre post : List α}
    (h : items t = pre ++ x :: post) :
    ∃ p l r, plug p (node x l r) = plug path t ∧ items r ++ after p = post ++ after path := by
  induction t generalizing path pre post with
  | nil => simp [items] at h
  | node y l r ihl ihr =>
    rw [items] at h
    rcases split_append h with ⟨w,hl,rfl⟩ | ⟨w,hw⟩
    · obtain ⟨p,l',r',h1,h2⟩ := ihl (⟨.left,y,r⟩ :: path) hl
      exact ⟨p,l',r',h1,by rw [h2]; simp [after]⟩
    · cases w with
      | nil =>
        cases hw
        exact ⟨path,l,r,rfl,rfl⟩
      | cons z w =>
        injection hw with hz hw
        exact ihr (⟨.right,y,l⟩ :: path) hw

@[inherit_doc exists_position]
theorem exists_position_postorder {x : α} {t : BinaryTree α} (path : Path α) {pre post : List α}
    (h : postorder t = pre ++ x :: post) :
    ∃ p l r, plug p (node x l r) = plug path t ∧ later p = post ++ later path := by
  induction t generalizing path pre post with
  | nil => simp [postorder] at h
  | node y l r ihl ihr =>
    rw [postorder] at h
    rcases split_append h with ⟨w,hl,rfl⟩ | ⟨w,hw⟩
    · obtain ⟨p,l',r',h1,h2⟩ := ihl (⟨.left,y,r⟩ :: path) hl
      exact ⟨p,l',r',h1,by rw [h2]; simp [later]⟩
    · rcases split_append hw with ⟨v,hr,rfl⟩ | ⟨v,hv⟩
      · obtain ⟨p,l',r',h1,h2⟩ := ihr (⟨.right,y,l⟩ :: path) hr
        exact ⟨p,l',r',h1,by rw [h2]; simp [later]⟩
      · cases v with
        | nil =>
          cases hv
          exact ⟨path,l,r,rfl,rfl⟩
        | cons z v => simp at hv

/-! Search order. -/

section Search
variable [LinearOrder κ] (key : α → κ)

def SearchOrder : BinaryTree α → Prop
  | nil => True
  | node x l r => (∀ y ∈ items l, key y < key x) ∧ (∀ y ∈ items r, key x < key y) ∧ SearchOrder l ∧ SearchOrder r

variable {key} in
theorem searchOrder_iff {t : BinaryTree α} :
    SearchOrder key t ↔ (items t).Pairwise (fun a b => key a < key b) := by
  induction t with
  | nil => simp [SearchOrder,items]
  | node x l r ihl ihr =>
    simp only [SearchOrder,items,ihl,ihr,List.pairwise_append,List.pairwise_cons,List.mem_cons]
    constructor
    · rintro ⟨h1,h2,h3,h4⟩
      refine ⟨h3,⟨h2,h4⟩,?_⟩
      rintro a ha b (rfl | hb)
      · exact h1 a ha
      · exact (h1 a ha).trans (h2 b hb)
    · rintro ⟨h1,⟨h2,h3⟩,h4⟩
      exact ⟨fun y hy => h4 y hy x (.inl rfl),h2,h1,h3⟩

/-- The way down a search tree to the key `k`: the path taken and the subtree where it
ends, empty or with `k` at its root. -/
def locate (k : κ) : Path α → BinaryTree α → Path α × BinaryTree α
  | path, nil => (path,nil)
  | path, node x l r =>
    if k < key x then locate k (⟨.left,x,r⟩ :: path) l
    else if key x < k then locate k (⟨.right,x,l⟩ :: path) r
    else (path,node x l r)

theorem plug_locate (k : κ) (path : Path α) (t : BinaryTree α) :
    plug (locate key k path t).1 (locate key k path t).2 = plug path t := by
  fun_induction locate key k path t with
  | case1 path => rfl
  | case2 path x l r h ih => exact ih
  | case3 path x l r h1 h2 ih => exact ih
  | case4 path x l r h1 h2 => rfl

theorem key_of_locate {k : κ} {path : Path α} {t : BinaryTree α} {x : α} {l r : BinaryTree α}
    (h : (locate key k path t).2 = node x l r) : key x = k := by
  fun_induction locate key k path t with
  | case1 path => cases h
  | case2 path y a b hk ih => exact ih h
  | case3 path y a b h1 h2 ih => exact ih h
  | case4 path y a b h1 h2 =>
    cases h
    exact le_antisymm (not_lt.mp h1) (not_lt.mp h2)

/-- In a search tree the items before the end of the way down have smaller keys, those
after it larger ones. -/
theorem locate_between {k : κ} (path : Path α) {t : BinaryTree α} (hs : SearchOrder key t)
    (hb : ∀ y ∈ before path, key y < k) (ha : ∀ y ∈ after path, k < key y) :
    (∀ y ∈ before (locate key k path t).1, key y < k) ∧ ∀ y ∈ after (locate key k path t).1, k < key y := by
  fun_induction locate key k path t with
  | case1 path => exact ⟨hb,ha⟩
  | case2 path x l r h ih =>
    refine ih hs.2.2.1 hb ?_
    intro y hy
    simp only [after,List.mem_cons,List.mem_append] at hy
    rcases hy with rfl | hy | hy
    · exact h
    · exact h.trans (hs.2.1 y hy)
    · exact ha y hy
  | case3 path x l r h1 h2 ih =>
    refine ih hs.2.2.2 ?_ ha
    intro y hy
    simp only [before,List.mem_append,List.mem_singleton] at hy
    rcases hy with hy | hy | rfl
    · exact hb y hy
    · exact (hs.1 y hy).trans h2
    · exact h2
  | case4 path x l r h1 h2 => exact ⟨hb,ha⟩

/-- The whole sequence of items, split where the way down ends. -/
theorem items_locate (k : κ) (t : BinaryTree α) :
    items t = before (locate key k [] t).1 ++ (items (locate key k [] t).2 ++ after (locate key k [] t).1) := by
  rw [← items_plug,plug_locate]
  rfl

variable {key}

theorem absent_of_locate {k : κ} {t : BinaryTree α} (hs : SearchOrder key t) (h : (locate key k [] t).2 = nil) :
    ∀ x ∈ items t, key x ≠ k := by
  obtain ⟨hb,ha⟩ := locate_between key (k := k) [] hs (by simp [before]) (by simp [after])
  intro x hx
  rw [items_locate key k t,h] at hx
  rcases List.mem_append.mp hx with hx | hx
  · exact (hb x hx).ne
  · exact (ha x hx).ne'

theorem mem_of_locate {k : κ} {t : BinaryTree α} {x : α} {l r : BinaryTree α}
    (h : (locate key k [] t).2 = node x l r) : x ∈ items t ∧ key x = k := by
  refine ⟨?_,key_of_locate key h⟩
  rw [items_locate key k t,h]
  simp [items]

/-- A new item at the free place keeps the search order. -/
theorem sorted_of_locate {t : BinaryTree α} {y : α} (hs : SearchOrder key t) (h : (locate key (key y) [] t).2 = nil) :
    SearchOrder key (plug (locate key (key y) [] t).1 (node y nil nil)) := by
  obtain ⟨hb,ha⟩ := locate_between key (k := key y) [] hs (by simp [before]) (by simp [after])
  have hi := searchOrder_iff.mp hs
  rw [items_locate key (key y) t,h,items,List.nil_append,List.pairwise_append] at hi
  rw [searchOrder_iff,items_plug]
  simp only [items,List.nil_append,List.cons_append,List.pairwise_append,List.pairwise_cons,List.mem_cons]
  refine ⟨hi.1,⟨ha,hi.2.1⟩,?_⟩
  rintro a hm b (rfl | hm')
  · exact hb a hm
  · exact hi.2.2 a hm b hm'

end Search

/-! Heap order. -/

section Heap
variable [LinearOrder π] (pri : α → π)

def HeapOrder : BinaryTree α → Prop
  | nil => True
  | node x l r => (∀ y ∈ items l, pri x ≤ pri y) ∧ (∀ y ∈ items r, pri x ≤ pri y) ∧ HeapOrder l ∧ HeapOrder r

/-- The heap order among the items of a path and its siblings. -/
def HeapPath : Path α → Prop
  | [] => True
  | f :: path => (∀ y ∈ items f.sibling, pri f.item ≤ pri y) ∧ HeapOrder pri f.sibling ∧
      (∀ g ∈ path, pri g.item ≤ pri f.item) ∧ HeapPath path

/-- Every item of the path may stand above `y`. -/
def Above (path : Path α) (y : α) : Prop := ∀ f ∈ path, pri f.item ≤ pri y

variable {pri}

theorem heapOrder_build {s : Side} {x : α} {a b : BinaryTree α} : HeapOrder pri (build s x a b) ↔
    (∀ y ∈ items a, pri x ≤ pri y) ∧ (∀ y ∈ items b, pri x ≤ pri y) ∧ HeapOrder pri a ∧ HeapOrder pri b := by
  cases s
  · exact Iff.rfl
  · simp only [build,HeapOrder]
    tauto

theorem heapOrder_plug {path : Path α} {t : BinaryTree α} : HeapOrder pri (plug path t) ↔
    HeapOrder pri t ∧ HeapPath pri path ∧ ∀ y ∈ items t, Above pri path y := by
  induction path generalizing t with
  | nil => simp [plug,HeapPath,Above]
  | cons f path ih =>
    simp only [plug,ih,heapOrder_build,HeapPath,Above,mem_items_build,List.mem_cons,forall_eq_or_imp]
    constructor
    · rintro ⟨⟨h1,h2,h3,h4⟩,h5,h6⟩
      exact ⟨h3,⟨h2,h4,h6.1,h5⟩,fun y hy => ⟨h1 y hy,h6.2 y (.inl hy)⟩⟩
    · rintro ⟨h3,⟨h2,h4,h6,h5⟩,h7⟩
      refine ⟨⟨fun y hy => (h7 y hy).1,h2,h3,h4⟩,h5,h6,?_⟩
      rintro y (hy | hy) g hg
      · exact (h7 y hy).2 g hg
      · exact (h6 g hg).trans (h2 y hy)

/-- The children of the item in the hole after its rotation above the item of the frame. -/
def Frame.raise (f : Frame α) (l r : BinaryTree α) : BinaryTree α × BinaryTree α :=
  match f.side with
  | .left => (l,node f.item r f.sibling)
  | .right => (node f.item f.sibling l,r)

theorem items_raise (f : Frame α) (y : α) (l r : BinaryTree α) :
    items (node y (f.raise l r).1 (f.raise l r).2) = items (build f.side f.item (node y l r) f.sibling) := by
  rw [Frame.raise]
  cases f.side
  · simp only [build,items,List.append_assoc,List.cons_append]
  · simp only [build,items,List.append_assoc,List.cons_append]

variable (pri) in
/-- A new item at the root of the subtree in the hole is rotated above the items of the
path, from the hole up, for as long as their priority is larger. -/
def rise : Path α → α → BinaryTree α → BinaryTree α → BinaryTree α
  | [], y, l, r => node y l r
  | f :: path, y, l, r =>
    if pri y < pri f.item then rise path y (f.raise l r).1 (f.raise l r).2 else plug (f :: path) (node y l r)

theorem items_rise (path : Path α) (y : α) (l r : BinaryTree α) :
    items (rise pri path y l r) = items (plug path (node y l r)) := by
  induction path generalizing l r with
  | nil => rfl
  | cons f path ih =>
    rw [rise]
    split
    · rw [ih,items_plug,items_raise,plug,items_plug]
    · rfl

/-- The new item ends where the heap order holds again. -/
theorem heapOrder_rise {path : Path α} {y : α} {l r : BinaryTree α} (hp : HeapPath pri path)
    (ht : HeapOrder pri (node y l r)) (hl : ∀ z ∈ items l, Above pri path z) (hr : ∀ z ∈ items r, Above pri path z) :
    HeapOrder pri (rise pri path y l r) := by
  induction path generalizing l r with
  | nil => exact ht
  | cons f path ih =>
    obtain ⟨hf,hb,hg,hp⟩ := hp
    obtain ⟨h1,h2,h3,h4⟩ := ht
    have hx : ∀ (u : BinaryTree α), (∀ z ∈ items u, Above pri (f :: path) z) → ∀ z ∈ items u, pri f.item ≤ pri z :=
      fun u hu z hz => hu z hz f List.mem_cons_self
    have hw : ∀ (u : BinaryTree α), (∀ z ∈ items u, Above pri (f :: path) z) → ∀ z ∈ items u, Above pri path z :=
      fun u hu z hz g hg => hu z hz g (List.mem_cons_of_mem f hg)
    have hs : ∀ z ∈ items f.sibling, Above pri path z := fun z hz g hgm => (hg g hgm).trans (hf z hz)
    rw [rise]
    split
    · rename_i hlt
      have hy : ∀ z ∈ items f.sibling, pri y ≤ pri z := fun z hz => hlt.le.trans (hf z hz)
      rw [Frame.raise]
      split
      · refine ih hp ⟨h1,?_,h3,hx r hr,hf,h4,hb⟩ (hw l hl) ?_
        · simp only [items,List.mem_append,List.mem_cons]
          rintro z (hz | rfl | hz)
          · exact h2 z hz
          · exact hlt.le
          · exact hy z hz
        · simp only [items,List.mem_append,List.mem_cons]
          rintro z (hz | rfl | hz)
          · exact hw r hr z hz
          · exact hg
          · exact hs z hz
      · refine ih hp ⟨?_,h2,⟨hf,hx l hl,hb,h3⟩,h4⟩ ?_ (hw r hr)
        · simp only [items,List.mem_append,List.mem_cons]
          rintro z (hz | rfl | hz)
          · exact hy z hz
          · exact hlt.le
          · exact h1 z hz
        · simp only [items,List.mem_append,List.mem_cons]
          rintro z (hz | rfl | hz)
          · exact hs z hz
          · exact hg
          · exact hw l hl z hz
    · rename_i hge
      refine heapOrder_plug.mpr ⟨⟨h1,h2,h3,h4⟩,⟨hf,hb,hg,hp⟩,?_⟩
      have hya : Above pri (f :: path) y := by
        intro g hgm
        rcases List.mem_cons.mp hgm with rfl | hgm
        · exact not_lt.mp hge
        · exact (hg g hgm).trans (not_lt.mp hge)
      simp only [items,List.mem_append,List.mem_cons]
      rintro z (hz | rfl | hz)
      · exact hl z hz
      · exact hya
      · exact hr z hz

variable (pri) in
/-- The tree left when the parent of two trees has been rotated below both of them:
the root with the smaller priority comes up first, the right one if they are equal. -/
def merge : BinaryTree α → BinaryTree α → BinaryTree α
  | nil, r => r
  | l, nil => l
  | node y a b, node z c d =>
    if pri y < pri z then node y a (merge b (node z c d)) else node z (merge (node y a b) c) d
termination_by l r => l.numNodes + r.numNodes

theorem items_merge (l r : BinaryTree α) : items (merge pri l r) = items l ++ items r := by
  fun_induction merge pri l r with
  | case1 r => rfl
  | case2 l hl => simp [items]
  | case3 y a b z c d h ih => simp [items,ih]
  | case4 y a b z c d h ih => simp [items,ih]

theorem heapOrder_merge {l r : BinaryTree α} (hl : HeapOrder pri l) (hr : HeapOrder pri r) :
    HeapOrder pri (merge pri l r) := by
  fun_induction merge pri l r with
  | case1 r => exact hr
  | case2 l hl' => exact hl
  | case3 y a b z c d h ih =>
    refine ⟨hl.1,?_,hl.2.2.1,ih hl.2.2.2 hr⟩
    rw [items_merge]
    simp only [items,List.mem_append,List.mem_cons]
    rintro u (hu | hu | rfl | hu)
    · exact hl.2.1 u hu
    · exact h.le.trans (hr.1 u hu)
    · exact h.le
    · exact h.le.trans (hr.2.1 u hu)
  | case4 y a b z c d h ih =>
    have hzy := not_lt.mp h
    refine ⟨?_,hr.2.1,ih hl hr.2.2.1,hr.2.2.2⟩
    rw [items_merge]
    simp only [items,List.mem_append,List.mem_cons]
    rintro u ((hu | rfl | hu) | hu)
    · exact hzy.trans (hl.1 u hu)
    · exact hzy
    · exact hzy.trans (hl.2.1 u hu)
    · exact hr.1 u hu

/-- Where no two items have one priority, the in-order sequence determines the heap. -/
theorem eq_of_items {t u : BinaryTree α} (ht : HeapOrder pri t) (hu : HeapOrder pri u)
    (hd : (items t).Pairwise (fun a b => pri a ≠ pri b)) (h : items t = items u) : t = u := by
  induction t generalizing u with
  | nil =>
    cases u with
    | nil => rfl
    | node y l r => simp [items] at h
  | node x l r ihl ihr =>
    cases u with
    | nil => simp [items] at h
    | node y l' r' =>
      have hmin : ∀ {z : α} {a b : BinaryTree α}, HeapOrder pri (node z a b) → ∀ w ∈ items (node z a b), pri z ≤ pri w := by
        intro z a b hz w hw
        rw [items,List.mem_append,List.mem_cons] at hw
        rcases hw with hw | rfl | hw
        · exact hz.1 w hw
        · exact le_rfl
        · exact hz.2.1 w hw
      have hx : x ∈ items (node x l r) := by simp [items]
      have hy : y ∈ items (node x l r) := by
        rw [h]
        simp [items]
      -- both roots have the least priority
      have hxy : x = y := by
        by_contra hne
        have : Std.Symm (fun a b => pri a ≠ pri b) := ⟨fun _ _ hab => hab.symm⟩
        refine hd.forall hx hy hne ?_
        exact le_antisymm (hmin ht y hy) (hmin hu x (h ▸ hx))
      subst hxy
      rw [items,items] at h
      rw [items,List.pairwise_append,List.pairwise_cons] at hd
      obtain ⟨hdl,⟨hxr,hdr⟩,hcross⟩ := hd
      have hl : x ∉ items l := fun hin => hcross x hin x List.mem_cons_self rfl
      have hr : x ∉ items r := fun hin => hxr x hin rfl
      obtain ⟨h1,-,h2⟩ := (List.append_cons_inj_of_notMem hl hr).mp h
      rw [ihl ht.2.2.1 hu.2.2.1 hdl h1,ihr ht.2.2.2 hu.2.2.2 hdr h2]

end Heap

end Spdylay.Library.Treap
