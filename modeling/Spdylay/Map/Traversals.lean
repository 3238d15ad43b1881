import Spdylay.Map.Operations

/-! The two iterative traversals. From every entry the walk over the parent links leads
to the next entry in order, or in post-order; in the second case it reads only entries
that come later, so that the entries passed already may be gone. -/
namespace Spdylay.Map
open BinaryTree Library.Treap

/-- The address of the first item of a sequence, if there is one. -/
def first (l : List Item) : Option Addr := l.head?.map (·.addr)

@[simp] theorem first_cons (x : Item) (l : List Item) : first (x :: l) = some x.addr := rfl

theorem first_append {l : List Item} (h : l ≠ []) (k : List Item) : first (l ++ k) = first l := by
  rw [first,List.head?_append_of_ne_nil _ h]
  rfl

theorem items_node_ne (x : Item) (l r : BinaryTree Item) : items (node x l r) ≠ [] := by simp [items]

theorem postorder_node_ne (x : Item) (l r : BinaryTree Item) : postorder (node x l r) ≠ [] := by simp [postorder]

/-! The in-order walk. -/

theorem findLeftMost_spec {n : Nat} {m : Memory} {p : Option Addr} {x : Item} {l r : BinaryTree Item}
    (hr : Rep m p (node x l r)) (hn : (node x l r).numNodes ≤ n) :
    findLeftMost n m x.addr = first (items (node x l r)) := by
  generalize ht : node x l r = t at hr hn ⊢
  induction t generalizing n p x l r with
  | nil => cases ht
  | node z a b iha _ =>
    obtain ⟨rfl,rfl,rfl⟩ : x = z ∧ l = a ∧ r = b := by simpa using ht
    obtain ⟨h1,h2,-⟩ := hr
    simp only [numNodes] at hn
    obtain ⟨n,rfl⟩ : ∃ j, n = j+1 := ⟨n-1,by omega⟩
    simp only [findLeftMost,h1,Option.bind_eq_bind,Option.bind_some,record_left_left]
    cases l with
    | nil => rfl
    | node y c d =>
      rw [items,first_append (items_node_ne y c d)]
      exact iha rfl h2 (by omega)

theorem climb_spec {n : Nat} {m : Memory} {path : Path Item} {c : Addr} {e : MapEntry} (hc : m c = some e)
    (hp : e.parent = parentOf path) (hr : RepPath m path (some c)) (hd : (c :: addrs (around path)).Nodup)
    (hn : path.length < n) : climb n m c (parentOf path) = some (first (after path)) := by
  induction path generalizing n c e with
  | nil =>
    obtain ⟨n,rfl⟩ : ∃ j, n = j+1 := ⟨n-1,by omega⟩
    rfl
  | cons f path ih =>
    obtain ⟨n,rfl⟩ : ∃ j, n = j+1 := ⟨n-1,by omega⟩
    obtain ⟨s,x,b⟩ := f
    obtain ⟨h1,-,h3⟩ := hr
    simp only [around_cons,addrs_cons,addrs_append,List.nodup_cons,List.mem_cons,List.mem_append,not_or] at hd
    simp only [parentOf,List.head?_cons,Option.map_some] at hp ⊢
    simp only [climb,h1,Option.bind_eq_bind,Option.bind_some,hc,hp]
    cases s with
    | left =>
      have hb : top b ≠ some c := fun he => hd.1.2.1 (top_mem he)
      simp [hb,after]
    | right =>
      rw [record_right_right,if_pos rfl,record_parent,after]
      refine ih h1 (record_parent ..) h3 ?_ (by simpa using hn)
      exact List.nodup_cons.mpr ⟨hd.2.1.2,(List.nodup_append'.mp hd.2.2).2.1⟩

/-- The next entry in order. -/
theorem traverseInorder_spec {n : Nat} {m : Memory} {path : Path Item} {x : Item} {l r : BinaryTree Item}
    (hr : Rep m none (plug path (node x l r))) (hd : (addrs (items (plug path (node x l r)))).Nodup)
    (hn : (plug path (node x l r)).numNodes < n) :
    traverseInorder n m x.addr = some (first (items r ++ after path)) := by
  have hx := rep_plug_node hr
  have hlen := length_le_numNodes path (node x l r)
  simp only [numNodes] at hlen
  simp only [traverseInorder,hx,Option.bind_eq_bind,Option.bind_some,record_left_right,record_parent]
  cases r with
  | nil =>
    simp only [numNodes] at hlen
    refine climb_spec hx rfl (rep_plug.mp hr).2 ?_ (by omega)
    have hdn := nodup_plug.mp hd
    rw [items,items,addrs_append,addrs_append] at hdn
    exact (List.append_assoc _ _ _ ▸ hdn).of_append_right
  | node y a b =>
    simp only [numNodes] at hlen
    have hy := (rep_plug.mp hr).1.2.2
    have hleft : findLeftMost n m y.addr = first (items (node y a b)) :=
      findLeftMost_spec hy (by simp only [numNodes]; omega)
    simp only [top,hleft]
    rw [first_append (items_node_ne y a b)]
    cases hi : items (node y a b) with
    | nil => exact absurd hi (items_node_ne y a b)
    | cons z zs => rfl

/-! The callbacks of a traversal of a list. -/

section Callbacks
variable {σ : Type} (func : Addr → σ → Int × σ)

/-- The calls on the entries of a list, until one does not return zero. -/
def visit : List Addr → σ → Int × List Addr × σ
  | [], ptr => (0,[],ptr)
  | a :: l, ptr =>
    if (func a ptr).1 ≠ 0 then ((func a ptr).1,[a],(func a ptr).2)
    else
      let (rv,visited,ptr) := visit l (func a ptr).2
      (rv,a :: visited,ptr)

/-- The calls on all entries of a list. -/
def visitAll (l : List Addr) (ptr : σ) : σ := l.foldl (fun ptr a => (func a ptr).2) ptr

variable {func}

theorem eachLoop_spec {bound n : Nat} {m : Memory} {t : BinaryTree Item} (pre : List Item) {post : List Item} (ptr : σ)
    (hr : Rep m none t) (hd : (addrs (items t)).Nodup) (hb : t.numNodes < bound) (hi : items t = pre ++ post)
    (hn : post.length < n) :
    eachLoop func bound m n (first post) ptr = some (visit func (addrs post) ptr) := by
  -- one entry less in front of the walk at every turn
  induction post generalizing pre n ptr with
  | nil =>
    obtain ⟨n,rfl⟩ : ∃ j, n = j+1 := ⟨n-1,by omega⟩
    rfl
  | cons x post ih =>
    obtain ⟨n,rfl⟩ : ∃ j, n = j+1 := ⟨n-1,by omega⟩
    obtain ⟨p,l,r,hplug,hafter⟩ := exists_position [] hi
    simp only [plug,after,List.append_nil] at hplug hafter
    subst hplug
    have hnext := traverseInorder_spec hr hd hb
    rw [hafter] at hnext
    have hrest := ih (n := n) (pre ++ [x]) (func x.addr ptr).2 (by simp [hi]) (by simpa using hn)
    simp only [first_cons,eachLoop,addrs_cons,visit,Option.bind_eq_bind]
    split
    · rfl
    · rw [hnext,Option.bind_some,hrest]
      rfl

/-- `each` passes the entries of the table to its callback in the order of their keys. -/
theorem each_spec {map : Map} {m : Memory} {table : Library.OrderedTable Item Item.key} (h : Holds map m table)
    (ptr : σ) : each map m func ptr = some (visit func (addrs table.entries) ptr) := by
  obtain ⟨t,h,ht⟩ := h
  rw [← ht]
  cases t with
  | nil => simp [each,h.root,top,items,addrs,visit]
  | node x l r =>
    have hloop : eachLoop func (map.size+1) m (map.size+1) (first (items (node x l r))) ptr =
        some (visit func (addrs (items (node x l r))) ptr) :=
      eachLoop_spec [] ptr h.links h.apart (by rw [h.size]; omega) rfl (by rw [items_length,h.size]; omega)
    have hleft : findLeftMost (map.size+1) m x.addr = first (items (node x l r)) :=
      findLeftMost_spec h.links (by rw [h.size]; omega)
    cases hi : items (node x l r) with
    | nil => exact absurd hi (items_node_ne x l r)
    | cons z zs =>
      rw [hi] at hloop hleft
      simp only [each,h.root,top,hleft,first_cons,Option.bind_eq_bind,Option.bind_some]
      exact hloop

end Callbacks

/-! The post-order walk. -/

/-- The left-most entry has no left child, and the walk through it starts the post-order
sequence. -/
private theorem findLeftMost_subtree {n : Nat} {m : Memory} {p : Option Addr} {x : Item} {l r : BinaryTree Item}
    (hr : Rep m p (node x l r)) (hn : (node x l r).numNodes ≤ n) :
    ∃ q y u, findLeftMost n m x.addr = some y.addr ∧ Rep m q (node y nil u) ∧
      (node y nil u).numNodes ≤ (node x l r).numNodes ∧ first (postorder (node x l r)) = first (postorder u ++ [y]) := by
  generalize ht : node x l r = t at hr hn ⊢
  induction t generalizing n p x l r with
  | nil => cases ht
  | node z a b iha _ =>
    obtain ⟨rfl,rfl,rfl⟩ : x = z ∧ l = a ∧ r = b := by simpa using ht
    simp only [numNodes] at hn
    obtain ⟨n,rfl⟩ : ∃ j, n = j+1 := ⟨n-1,by omega⟩
    simp only [findLeftMost,hr.1,Option.bind_eq_bind,Option.bind_some,record_left_left]
    cases l with
    | nil => exact ⟨p,x,r,rfl,hr,le_refl _,rfl⟩
    | node y c d =>
      obtain ⟨q,w,u,h1,h2,h3,h4⟩ := iha (n := n) rfl hr.2.1 (by omega)
      refine ⟨q,w,u,h1,h2,h3.trans (by simp only [numNodes]; omega),?_⟩
      rw [postorder,first_append (postorder_node_ne y c d),h4]

theorem findLeftMostLeaf_spec {n : Nat} {m : Memory} {p : Option Addr} {x : Item} {l r : BinaryTree Item}
    (hr : Rep m p (node x l r)) (hn : (node x l r).numNodes ≤ n) :
    findLeftMostLeaf n m x.addr = first (postorder (node x l r)) := by
  induction n generalizing p x l r with
  | zero => simp [numNodes] at hn
  | succ n ih =>
    obtain ⟨q,y,u,h1,h2,h3,h4⟩ := findLeftMost_subtree hr hn
    simp only [findLeftMostLeaf,h1,Option.bind_eq_bind,Option.bind_some,h2.1,record_left_right]
    rw [h4]
    cases u with
    | nil => rfl
    | node w a b =>
      rw [first_append (postorder_node_ne w a b)]
      simp only [numNodes] at h3 hn
      exact ih h2.2.2 (by simp only [numNodes]; omega)

/-- The next entry in post-order, read from a memory that still holds what comes later. -/
theorem traversePostorder_spec {n : Nat} {m₀ m : Memory} {path : Path Item} {c : Addr} (hr : RepPath m₀ path (some c))
    (hc : c ∉ addrs (around path)) (hm : ∀ a ∈ addrs (later path), m a = m₀ a)
    (hn : ∀ f ∈ path, f.sibling.numNodes ≤ n) :
    traversePostorder n m (parentOf path) c = some (first (later path)) := by
  cases path with
  | nil => rfl
  | cons f path =>
    obtain ⟨s,x,b⟩ := f
    obtain ⟨h1,h2,-⟩ := hr
    simp only [around_cons,addrs_cons,addrs_append,List.mem_cons,List.mem_append,not_or] at hc
    have hb : top b ≠ some c := fun he => hc.2.1 (top_mem he)
    have hx : m x.addr = m₀ x.addr := by
      refine hm x.addr (mem_addrs ?_)
      cases s <;> simp [later]
    simp only [parentOf,List.head?_cons,Option.map_some,traversePostorder,hx,h1,Option.bind_eq_bind,Option.bind_some]
    cases s with
    | right => simp [later,hb]
    | left =>
      rw [record_left_left,if_pos rfl,record_left_right,later]
      cases b with
      | nil => rfl
      | node y a b =>
        have hy : Rep m (some x.addr) (node y a b) := by
          refine rep_congr (fun z hz => hm z ?_) h2
          rw [later,addrs_append]
          exact List.mem_append_left _ (((postorder_perm (node y a b)).map Item.addr).mem_iff.mpr hz)
        have hleaf : findLeftMostLeaf n m y.addr = first (postorder (node y a b)) :=
          findLeftMostLeaf_spec hy (hn _ List.mem_cons_self)
        simp only [top,hleaf]
        rw [first_append (postorder_node_ne y a b)]
        cases hp : postorder (node y a b) with
        | nil => exact absurd hp (postorder_node_ne y a b)
        | cons z zs => rfl

section Callbacks
variable {σ : Type} {func : Addr → σ → Int × σ}

/-- No turn reads an entry that an earlier turn freed. -/
theorem eachFreeLoop_spec {bound n : Nat} {m₀ m : Memory} {t : BinaryTree Item} (pre : List Item) {post : List Item}
    (ptr : σ) (hr : Rep m₀ none t) (hd : (addrs (items t)).Nodup) (hb : t.numNodes ≤ bound)
    (hi : postorder t = pre ++ post) (hm : ∀ a ∈ addrs post, m a = m₀ a) (hn : post.length < n) :
    eachFreeLoop func bound n m (first post) ptr =
      some (addrs post,(addrs post).foldl Memory.free m,visitAll func (addrs post) ptr) := by
  induction post generalizing pre n m ptr with
  | nil =>
    obtain ⟨n,rfl⟩ : ∃ j, n = j+1 := ⟨n-1,by omega⟩
    rfl
  | cons x post ih =>
    obtain ⟨n,rfl⟩ : ∃ j, n = j+1 := ⟨n-1,by omega⟩
    have hpn : (addrs (pre ++ x :: post)).Nodup := by
      rw [← hi]
      exact ((postorder_perm t).map Item.addr).nodup_iff.mpr hd
    obtain ⟨p,l,r,hplug,hlater⟩ := exists_position_postorder [] hi
    simp only [plug,later,List.append_nil] at hplug hlater
    subst hplug
    rw [addrs_append,addrs_cons] at hpn
    obtain ⟨hx,hpost⟩ := List.nodup_cons.mp (List.nodup_append'.mp hpn).2.1
    have hentry : m x.addr = some (record .left x (parentOf p) (top l) (top r)) := by
      rw [hm x.addr (by simp),rep_plug_node hr]
    -- what is left to be visited is untouched by the callback
    have hfree : ∀ a ∈ addrs post, m.free x.addr a = m₀ a := by
      intro a ha
      rw [Memory.free,Function.update_of_ne (ne_of_mem_of_not_mem ha hx),hm a (by simp [ha])]
    have hnext : traversePostorder bound (m.free x.addr) (parentOf p) x.addr = some (first post) := by
      rw [← hlater] at hfree ⊢
      refine traversePostorder_spec (rep_plug.mp hr).2 ?_ hfree ?_
      · have hn := nodup_plug.mp hd
        rw [items,addrs_append,addrs_append] at hn
        intro hxa
        exact (List.nodup_append'.mp hn).2.2 (by simp) hxa
      · exact fun f hf => (sibling_le_numNodes _ hf).trans hb
    have hrest := ih (n := n) (pre ++ [x]) (func x.addr ptr).2 (by simp [hi]) hfree (by simpa using hn)
    simp only [first_cons,eachFreeLoop,hentry,Option.bind_eq_bind,Option.bind_some,record_parent,hnext,hrest]
    rfl

/-- `each_free` frees the entries of the tree in post-order. -/
theorem eachFree_spec {map : Map} {m : Memory} {t : BinaryTree Item} (h : Shape map m t) (ptr : σ) :
    eachFree map m func ptr = some (addrs (postorder t),{ map with root := none },
      (addrs (postorder t)).foldl Memory.free m,visitAll func (addrs (postorder t)) ptr) := by
  cases t with
  | nil =>
    have hroot : map.root = none := h.root
    obtain ⟨root,size⟩ := map
    cases hroot
    rfl
  | node x l r =>
    have hloop : eachFreeLoop func (map.size+1) (map.size+1) m (first (postorder (node x l r))) ptr = _ :=
      eachFreeLoop_spec [] ptr h.links h.apart (by rw [h.size]; omega) rfl (fun _ _ => rfl)
        (by rw [(postorder_perm _).length_eq,items_length,h.size]; omega)
    have hleaf : findLeftMostLeaf (map.size+1) m x.addr = first (postorder (node x l r)) :=
      findLeftMostLeaf_spec h.links (by rw [h.size]; omega)
    cases hi : postorder (node x l r) with
    | nil => exact absurd hi (postorder_node_ne x l r)
    | cons z zs =>
      rw [hi] at hloop hleaf
      simp only [eachFree,h.root,top,hleaf,first_cons,Option.bind_eq_bind,Option.bind_some]
      rw [first_cons] at hloop
      rw [hloop]
      rfl

end Callbacks

/-- The parent of an entry is an entry of the tree, or the parent of the tree. -/
theorem parent_mem {m : Memory} {p : Option Addr} {t : BinaryTree Item} {b : Addr} {e : MapEntry} (hr : Rep m p t)
    (hb : b ∈ addrs (items t)) (he : m b = some e) : e.parent = p ∨ ∃ a ∈ addrs (items t), e.parent = some a := by
  induction t generalizing p with
  | nil => simp [items,addrs] at hb
  | node x l r ihl ihr =>
    obtain ⟨h1,h2,h3⟩ := hr
    simp only [items,addrs_append,addrs_cons,List.mem_append,List.mem_cons] at hb ⊢
    rcases hb with hb | rfl | hb
    · rcases ihl h2 hb with h | ⟨a,ha,h⟩
      · exact .inr ⟨x.addr,.inr (.inl rfl),h⟩
      · exact .inr ⟨a,.inl ha,h⟩
    · rw [h1] at he
      cases he
      exact .inl rfl
    · rcases ihr h3 hb with h | ⟨a,ha,h⟩
      · exact .inr ⟨x.addr,.inr (.inl rfl),h⟩
      · exact .inr ⟨a,.inr (.inr ha),h⟩

/-- In post-order no entry comes after its parent. -/
theorem postorder_children_first {m : Memory} {p : Option Addr} {t : BinaryTree Item} (hr : Rep m p t)
    (hd : (addrs (items t)).Nodup) (hp : ∀ a ∈ addrs (items t), p ≠ some a) :
    (addrs (postorder t)).Pairwise (fun a b => ∀ e, m b = some e → e.parent ≠ some a) := by
  have hmem : ∀ (u : BinaryTree Item) (a : Addr), a ∈ addrs (postorder u) ↔ a ∈ addrs (items u) :=
    fun u a => ((postorder_perm u).map Item.addr).mem_iff
  induction t generalizing p with
  | nil => exact .nil
  | node x l r ihl ihr =>
    obtain ⟨h1,h2,h3⟩ := hr
    simp only [items,addrs_append,addrs_cons,List.nodup_append',List.nodup_cons,List.disjoint_cons_right,List.mem_append,
      List.mem_cons] at hd hp
    obtain ⟨hl,⟨hxr,hrn⟩,hxl,hlr⟩ := hd
    simp only [postorder,addrs_append,addrs_cons,List.pairwise_append,List.mem_append,hmem]
    have hroot : ∀ a, a ∈ addrs (items l) ∨ a ∈ addrs (items r) → ∀ e, m x.addr = some e → e.parent ≠ some a := by
      intro a ha e he
      rw [h1] at he
      cases he
      exact hp a (ha.imp id .inr)
    refine ⟨ihl h2 hl ?_,⟨ihr h3 hrn ?_,List.pairwise_singleton _ _,?_⟩,?_⟩
    · rintro a ha he
      cases he
      exact hxl ha
    · rintro a ha he
      cases he
      exact hxr ha
    · intro a ha b hb
      rw [List.mem_singleton.mp hb]
      exact hroot a (.inr ha)
    · rintro a ha b (hb | hb)
      · intro e he hpa
        -- the parent of an entry on the right is on the right, or the root
        rcases parent_mem h3 hb he with h | ⟨c,hc,h⟩
        · rw [hpa] at h
          cases h
          exact hxl ha
        · rw [hpa] at h
          cases h
          exact hlr ha hc
      · rw [List.mem_singleton.mp hb]
        exact hroot a (.inl ha)

end Spdylay.Map
