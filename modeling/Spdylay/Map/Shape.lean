import Spdylay.Map.Refinement

/-! The shape of the map's tree is a function of the keys in it: no two keys have one
priority, and a treap with such priorities is unique. -/
namespace Spdylay.Map
open BinaryTree Library.Treap

/-! The mixing function. Each of its six steps can be undone. -/

/-- A product with a number that has an inverse. -/
theorem mul_injective {c d : UInt32} (h : c*d = 1) : Function.Injective (fun x : UInt32 => x*c) := by
  intro x y hxy
  have hd : x*c*d = y*c*d := congrArg (· * d) hxy
  rwa [UInt32.mul_assoc,UInt32.mul_assoc,h,UInt32.mul_one,UInt32.mul_one] at hd

/-- The difference of two such values is its own shift, so it is zero. -/
theorem xor_shiftRight_injective {k : UInt32} (hk : k.toNat % 32 ≠ 0) :
    Function.Injective (fun x : UInt32 => x ^^^ (x >>> k)) := by
  intro x y hxy
  have h : x.toNat ^^^ (x.toNat >>> (k.toNat % 32)) = y.toNat ^^^ (y.toNat >>> (k.toNat % 32)) := by
    have hn := congrArg UInt32.toNat hxy
    rwa [UInt32.toNat_xor,UInt32.toNat_xor,UInt32.toNat_shiftRight,UInt32.toNat_shiftRight] at hn
  apply UInt32.toNat_inj.mp
  generalize x.toNat = a at h
  generalize y.toNat = b at h
  generalize k.toNat % 32 = n at h hk
  have hzero : (a ^^^ b) ^^^ ((a ^^^ b) >>> n) = 0 := by
    rw [Nat.shiftRight_xor_distrib]
    calc a ^^^ b ^^^ (a >>> n ^^^ b >>> n) = (a ^^^ (a >>> n)) ^^^ (b ^^^ (b >>> n)) := by
          rw [Nat.xor_assoc,Nat.xor_assoc,← Nat.xor_assoc b,Nat.xor_comm b,Nat.xor_assoc (a >>> n)]
      _ = 0 := by rw [h,Nat.xor_self]
  have hshift : a ^^^ b = (a ^^^ b)/2^n := by
    rw [← Nat.shiftRight_eq_div_pow]
    exact Nat.xor_eq_zero_iff.mp hzero
  apply Nat.xor_eq_zero_iff.mp
  by_contra hne
  have hlt := Nat.div_lt_self (Nat.pos_of_ne_zero hne) (Nat.one_lt_two_pow hk)
  omega

theorem toNat_shiftLeft {x k : UInt32} {n : Nat} (hk : k.toNat % 32 = n) : (x <<< k).toNat = x.toNat*2^n % 2^32 := by
  rw [UInt32.toNat_shiftLeft,hk,Nat.shiftLeft_eq]

theorem not_add_shiftLeft (x : UInt32) : ~~~x+(x <<< 15) = x*32767+4294967295 := by
  apply UInt32.toNat_inj.mp
  have hx := x.toNat_lt
  have h1 : (32767 : UInt32).toNat = 32767 := rfl
  have h2 : (4294967295 : UInt32).toNat = 4294967295 := rfl
  rw [UInt32.toNat_add,UInt32.toNat_add,UInt32.toNat_not,UInt32.toNat_mul,toNat_shiftLeft (n := 15) rfl,h1,h2,UInt32.size]
  generalize x.toNat = n at *
  omega

theorem add_shiftLeft (x : UInt32) : x+(x <<< 2) = x*5 := by
  apply UInt32.toNat_inj.mp
  have h1 : (5 : UInt32).toNat = 5 := rfl
  rw [UInt32.toNat_add,UInt32.toNat_mul,toNat_shiftLeft (n := 2) rfl,h1]
  omega

theorem hash32shift_injective : Function.Injective hash32shift := by
  have h1 : Function.Injective (fun x : UInt32 => ~~~x+(x <<< 15)) := by
    intro x y h
    have h : x*32767+4294967295 = y*32767+4294967295 := by
      rw [← not_add_shiftLeft,← not_add_shiftLeft]
      exact h
    exact mul_injective (d := 3221192703) rfl (UInt32.add_left_inj _ |>.mp h)
  have h2 : Function.Injective (fun x : UInt32 => x+(x <<< 2)) := by
    intro x y h
    have h : x*5 = y*5 := by
      rw [← add_shiftLeft,← add_shiftLeft]
      exact h
    exact mul_injective (d := 3435973837) rfl h
  have h3 : Function.Injective (fun x : UInt32 => x*2057) := mul_injective (d := 3369993785) rfl
  exact (xor_shiftRight_injective (k := 16) (by decide)).comp (h3.comp ((xor_shiftRight_injective (k := 4) (by decide)).comp
    (h2.comp ((xor_shiftRight_injective (k := 12) (by decide)).comp h1))))

/-! The tree of the keys. -/

/-- The keys in the place of the entries, read along the pointers to the children. -/
def keyTree : Nat → Memory → Option Addr → Option (BinaryTree UInt32)
  | _, _, none => some nil
  | 0, _, some _ => none
  | n+1, m, some entry => do
    let e ← m entry
    return node e.key (← keyTree n m e.left) (← keyTree n m e.right)

theorem keyTree_spec {n : Nat} {m : Memory} {p : Option Addr} {t : BinaryTree Item} (hr : Rep m p t)
    (hn : t.numNodes ≤ n) : keyTree n m (top t) = some (t.map Item.key) := by
  induction t generalizing n p with
  | nil => simp [keyTree,top,BinaryTree.map]
  | node x l r ihl ihr =>
    obtain ⟨h1,h2,h3⟩ := hr
    simp only [numNodes] at hn
    obtain ⟨n,rfl⟩ : ∃ j, n = j+1 := ⟨n-1,by omega⟩
    have hl := ihl h2 (show l.numNodes ≤ n by omega)
    have hr := ihr h3 (show r.numNodes ≤ n by omega)
    simp only [top,keyTree,h1,Option.bind_eq_bind,Option.bind_some,BinaryTree.map]
    change (do return node x.key (← keyTree n m (top l)) (← keyTree n m (top r))) = _
    rw [hl,hr]
    rfl

theorem items_map {α β : Type} (f : α → β) (t : BinaryTree α) : items (t.map f) = (items t).map f := by
  induction t with
  | nil => rfl
  | node x l r ihl ihr => simp only [BinaryTree.map,items,ihl,ihr,List.map_append,List.map_cons]

theorem heapOrder_keys {t : BinaryTree Item} (h : HeapOrder Item.priority t) : HeapOrder hash32shift (t.map Item.key) := by
  induction t with
  | nil => trivial
  | node x l r ihl ihr =>
    refine ⟨?_,?_,ihl h.2.2.1,ihr h.2.2.2⟩
    · rw [items_map]
      exact List.forall_mem_map.mpr h.1
    · rw [items_map]
      exact List.forall_mem_map.mpr h.2.1

/-- Two treaps with the same keys. -/
theorem keys_determine {t u : BinaryTree Item} (ht : SearchOrder Item.key t) (hu : SearchOrder Item.key u)
    (hth : HeapOrder Item.priority t) (huh : HeapOrder Item.priority u)
    (h : ∀ k, (∃ x ∈ items t, x.key = k) ↔ ∃ x ∈ items u, x.key = k) : t.map Item.key = u.map Item.key := by
  have hsorted : ∀ {v : BinaryTree Item}, SearchOrder Item.key v → (items (v.map Item.key)).Pairwise (· < ·) := by
    intro v hv
    rw [items_map,List.pairwise_map]
    exact searchOrder_iff.mp hv
  apply eq_of_items (heapOrder_keys hth) (heapOrder_keys huh)
  · exact (hsorted ht).imp (fun hab hp => hab.ne (hash32shift_injective hp))
  · refine List.Perm.eq_of_pairwise ?_ (hsorted ht) (hsorted hu) ?_
    · exact fun a b _ _ h1 h2 => absurd h1 h2.asymm
    refine (List.perm_ext_iff_of_nodup (hsorted ht).nodup (hsorted hu).nodup).mpr ?_
    intro k
    rw [items_map,items_map,List.mem_map,List.mem_map]
    exact h k

theorem absent_iff {map : Map} {m : Memory} {t : BinaryTree Item} (h : Shape map m t) (k : UInt32) :
    find map m k = some none ↔ ¬∃ x ∈ items t, x.key = k := by
  obtain ⟨table,htable⟩ : ∃ table : Table, items t = table.entries := ⟨⟨items t,searchOrder_iff.mp h.search⟩,rfl⟩
  rw [find_spec ⟨t,h,htable⟩ k,htable,Option.some_inj,Option.map_eq_none_iff,Library.OrderedTable.find_eq_none]
  simp only [not_exists,not_and]

/-- The shape of the tree does not depend on the history: after any two sequences of
calls that leave the same keys, the two trees have the same key at the root and at each
node the same children. No two keys have one priority. -/
theorem shape_of_keys {σ : Type} (m₁ m₂ : Memory) (cs₁ cs₂ : List (Call σ)) (hf₁ : Table.AllFresh .empty cs₁)
    (hf₂ : Table.AllFresh .empty cs₂) : Function.Injective hash32shift ∧
    ∃ as₁ map₁ n₁ as₂ map₂ n₂, calls init m₁ cs₁ = some (as₁,map₁,n₁) ∧ calls init m₂ cs₂ = some (as₂,map₂,n₂) ∧
      ((∀ k, find map₁ n₁ k = some none ↔ find map₂ n₂ k = some none) →
        ∃ t, keyTree map₁.size n₁ map₁.root = some t ∧ keyTree map₂.size n₂ map₂.root = some t) := by
  obtain ⟨map₁,n₁,hrun₁,t₁,hs₁,-⟩ := calls_refine (holds_init m₁) cs₁ hf₁
  obtain ⟨map₂,n₂,hrun₂,t₂,hs₂,-⟩ := calls_refine (holds_init m₂) cs₂ hf₂
  refine ⟨hash32shift_injective,_,map₁,n₁,_,map₂,n₂,hrun₁,hrun₂,?_⟩
  intro hkeys
  refine ⟨t₁.map Item.key,?_,?_⟩
  · rw [hs₁.root]
    exact keyTree_spec hs₁.links hs₁.size.ge
  · have heq : t₁.map Item.key = t₂.map Item.key := by
      apply keys_determine hs₁.search hs₂.search hs₁.heap hs₂.heap
      intro k
      have hk := hkeys k
      rw [absent_iff hs₁,absent_iff hs₂] at hk
      exact not_iff_not.mp hk
    rw [heq,hs₂.root]
    exact keyTree_spec hs₂.links hs₂.size.ge

/-- Two ways to the keys 5 and 9. -/
theorem two_histories_one_shape : ∃ as₁ map₁ n₁ as₂ map₂ n₂,
    calls (σ := Unit) init (fun _ => none) [.insert 1 5,.insert 2 3,.insert 3 9,.remove 3] = some (as₁,map₁,n₁) ∧
    calls (σ := Unit) init (fun _ => none) [.insert 7 9,.insert 8 5] = some (as₂,map₂,n₂) ∧
    ∃ t, keyTree map₁.size n₁ map₁.root = some t ∧ keyTree map₂.size n₂ map₂.root = some t := by
  have hf₁ : Table.AllFresh (σ := Unit) .empty [.insert 1 5,.insert 2 3,.insert 3 9,.remove 3] := by
    simp only [Table.AllFresh,Table.Fresh]
    decide
  have hf₂ : Table.AllFresh (σ := Unit) .empty [.insert 7 9,.insert 8 5] := by
    simp only [Table.AllFresh,Table.Fresh]
    decide
  obtain ⟨-,as₁,map₁,n₁,as₂,map₂,n₂,hrun₁,hrun₂,hshape⟩ := shape_of_keys (fun _ => none) (fun _ => none) _ _ hf₁ hf₂
  obtain ⟨map₁',n₁',hrun₁',hheld₁⟩ := calls_refine (holds_init fun _ => none) _ hf₁
  obtain ⟨map₂',n₂',hrun₂',hheld₂⟩ := calls_refine (holds_init fun _ => none) _ hf₂
  cases hrun₁.symm.trans hrun₁'
  cases hrun₂.symm.trans hrun₂'
  refine ⟨_,map₁,n₁,_,map₂,n₂,hrun₁,hrun₂,hshape ?_⟩
  have hentries : (Table.calls (σ := Unit) .empty [.insert 1 5,.insert 2 3,.insert 3 9,.remove 3]).2.entries =
      [⟨1,5⟩,⟨3,9⟩] ∧ (Table.calls (σ := Unit) .empty [.insert 7 9,.insert 8 5]).2.entries = [⟨8,5⟩,⟨7,9⟩] := by
    decide
  intro k
  rw [find_spec hheld₁ k,find_spec hheld₂ k,Option.some_inj,Option.some_inj,Option.map_eq_none_iff,
    Option.map_eq_none_iff,Library.OrderedTable.find_eq_none,Library.OrderedTable.find_eq_none,hentries.1,hentries.2]
  simp only [List.forall_mem_cons]

example : (calls (σ := Unit) init (fun _ => none) [.insert 1 5,.insert 2 3,.insert 3 9,.remove 3]).bind
      (fun r => keyTree r.2.1.size r.2.2 r.2.1.root) =
    (calls (σ := Unit) init (fun _ => none) [.insert 7 9,.insert 8 5]).bind
      (fun r => keyTree r.2.1.size r.2.2 r.2.1.root) := by
  decide +kernel

end Spdylay.Map
