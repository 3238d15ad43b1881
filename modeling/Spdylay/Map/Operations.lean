import Spdylay.Map.Treap
import Spdylay.Library.OrderedTable

/-! Look-up, insertion and removal on a map whose entries form a treap: the tree that is
left in memory is a treap again, and says what the operation returned. -/
namespace Spdylay.Map
open BinaryTree Library.Treap

/-- The entries reached from the map are the tree `t`. -/
structure Shape (map : Map) (m : Memory) (t : BinaryTree Item) : Prop where
  root : map.root = top t
  links : Rep m none t
  apart : (addrs (items t)).Nodup
  search : SearchOrder Item.key t
  heap : HeapOrder Item.priority t
  size : map.size = t.numNodes

/-- The table the map stands for: its entries by key. -/
def Holds (map : Map) (m : Memory) (table : Library.OrderedTable Item Item.key) : Prop :=
  ∃ t, Shape map m t ∧ items t = table.entries

/-! Look-up. -/

theorem findLoop_spec {k : UInt32} {n : Nat} {m : Memory} {p : Option Addr} {t : BinaryTree Item} (path : Path Item)
    (hr : Rep m p t) (hn : t.numNodes < n) :
    findLoop k n m (top t) = some (top (locate Item.key k path t).2) := by
  induction t generalizing n p path with
  | nil =>
    obtain ⟨n,rfl⟩ : ∃ j, n = j+1 := ⟨n-1,by omega⟩
    rfl
  | node x l r ihl ihr =>
    obtain ⟨h1,h2,h3⟩ := hr
    obtain ⟨n,rfl⟩ : ∃ j, n = j+1 := ⟨n-1,by omega⟩
    simp only [numNodes] at hn
    simp only [top,findLoop,h1,Option.bind_eq_bind,Option.bind_some,record_key,locate,gt_iff_lt]
    split
    · exact ihl _ h2 (by omega)
    · split
      · exact ihr _ h3 (by omega)
      · rfl

theorem find_spec {map : Map} {m : Memory} {table : Library.OrderedTable Item Item.key} (h : Holds map m table)
    (k : UInt32) : find map m k = some ((table.find k).map Item.addr) := by
  obtain ⟨t,h,ht⟩ := h
  rw [find,h.root,findLoop_spec [] h.links (by rw [h.size]; omega)]
  congr 1
  cases hloc : (locate Item.key k [] t).2 with
  | nil =>
    rw [Library.OrderedTable.find_eq_none.mpr (ht ▸ absent_of_locate h.search hloc)]
    rfl
  | node x l r =>
    rw [Library.OrderedTable.find_eq_some.mpr (ht ▸ mem_of_locate hloc)]
    rfl

/-! Insertion. -/

/-- Where the way down to the key ends: on an entry with the key, or at a free place of
its parent, which then points to the new entry. -/
theorem insertLoop_spec {y : Addr} {e : MapEntry} {n : Nat} {m : Memory} {p : Option Addr} {x : Item}
    {l r : BinaryTree Item} (path : Path Item) (hy : m y = some e) (hr : Rep m p (node x l r))
    (hn : (node x l r).numNodes < n) :
    insertLoop y n m x.addr =
      match locate Item.key e.key path (node x l r) with
      | (_,node _ _ _) => some (none,m)
      | ([],nil) => none
      | (f :: _,nil) => (m.store f.item.addr (·.setChild f.side (some y))).map (fun m => (some f.item.addr,m)) := by
  generalize ht : node x l r = t at hr hn
  induction t generalizing n p path x l r with
  | nil => cases ht
  | node z a b iha ihb =>
    obtain ⟨rfl,rfl,rfl⟩ : x = z ∧ l = a ∧ r = b := by simpa using ht
    obtain ⟨h1,h2,h3⟩ := hr
    obtain ⟨n,rfl⟩ : ∃ j, n = j+1 := ⟨n-1,by omega⟩
    simp only [numNodes] at hn
    simp only [insertLoop,hy,h1,Option.bind_eq_bind,Option.bind_some,record_key,locate,Option.pure_def]
    by_cases hk : e.key = x.key
    · simp [hk]
    · rw [if_neg hk]
      by_cases hlt : e.key < x.key
      · rw [if_pos hlt,if_pos hlt]
        cases l with
        | nil =>
          simp only [record,top,locate]
          cases m.store x.addr (fun e => e.setChild Side.left (some y)) <;> rfl
        | node z a b =>
          exact iha (⟨.left,x,r⟩ :: path) rfl h2 (by omega)
      · have hgt : x.key < e.key := lt_of_le_of_ne (not_lt.mp hlt) (Ne.symm hk)
        rw [if_neg hlt,if_neg hlt,if_pos hgt]
        cases r with
        | nil =>
          simp only [record,top,locate]
          cases m.store x.addr (fun e => e.setChild Side.right (some y)) <;> rfl
        | node z a b =>
          exact ihb (⟨.right,x,l⟩ :: path) rfl h3 (by omega)

theorem childBefore_spec {m : Memory} {p : Option Addr} {t : BinaryTree Item} (e : MapEntry) (hr : Rep m p t) :
    childBefore m e (top t) = some (match t with
      | nil => false
      | node x _ _ => decide (x.priority < e.priority)) := by
  cases t with
  | nil => rfl
  | node x l r =>
    simp only [top,childBefore,hr.1,Option.bind_eq_bind,Option.bind_some,record_priority]
    rfl

/-- A child in heap order stays where it is. -/
theorem childBefore_false {m : Memory} {p : Option Addr} {t : BinaryTree Item} {e : MapEntry} (hr : Rep m p t)
    (h : ∀ y ∈ items t, e.priority ≤ y.priority) : childBefore m e (top t) = some false := by
  rw [childBefore_spec e hr]
  cases t with
  | nil => rfl
  | node x l r =>
    have hx := h x (by simp [items])
    simp [hx]

/-- The parent of an entry in the hole is the first entry of the path. -/
theorem rep_plug_node {m : Memory} {path : Path Item} {x : Item} {l r : BinaryTree Item}
    (h : Rep m none (plug path (node x l r))) :
    m x.addr = some (record .left x (parentOf path) (top l) (top r)) := (rep_plug.mp h).1.1

section Fix
variable {n : Nat} {map : Map} {m : Memory} {f : Frame Item} {path : Path Item} {y : Item} {l r : BinaryTree Item}

theorem insertFix_stay (hr : Rep m none (plug (f :: path) (node y l r))) (hp : HeapPath Item.priority (f :: path))
    (hle : f.item.priority ≤ y.priority) : insertFix (n+1) map m f.item.addr = some (map,m) := by
  obtain ⟨hy,he,hs,-⟩ := rep_plug.mp hr
  have hb : ∀ s p a b, childBefore m (record s f.item p a b) (top f.sibling) = some false := by
    intro s p a b
    exact childBefore_false hs (by simpa using hp.1)
  have hc : ∀ s p a b, childBefore m (record s f.item p a b) (top (node y l r)) = some false := by
    intro s p a b
    simp [childBefore_spec _ hy,hle]
  simp only [insertFix,he,Option.bind_eq_bind,Option.bind_some]
  cases f.side with
  | left => simp only [record_left_left,record_left_right,hb,hc,Option.bind_some]; rfl
  | right => simp only [record_right_left,record_right_right,hb,hc,Option.bind_some]; rfl

/-- One turn of the loop below an entry of larger priority. -/
theorem insertFix_turn (n : Nat) (map : Map) (hr : Rep m none (plug (f :: path) (node y l r)))
    (hd : (addrs (items (plug (f :: path) (node y l r)))).Nodup) (hp : HeapPath Item.priority (f :: path))
    (hlt : y.priority < f.item.priority) :
    ∃ m', Rep m' none (plug path (node y (f.raise l r).1 (f.raise l r).2)) ∧
      insertFix (n+1) map m f.item.addr =
        match parentOf path with
        | none => some ({ map with root := some y.addr },m')
        | some parent => insertFix n map m' parent := by
  obtain ⟨hy,he,hs,-⟩ := rep_plug.mp hr
  obtain ⟨s,x,b⟩ := f
  have hc : ∀ s p a b, childBefore m (record s x p a b) (top (node y l r)) = some true := by
    intro s p a b
    simpa [childBefore_spec _ hy] using hlt
  simp only [insertFix,he,Option.bind_eq_bind,Option.bind_some]
  cases s with
  | left =>
    obtain ⟨m',hm,hm'⟩ := rotate_spec (s := .right) (x := x) (a := b) (y := y) (b := r) (c := l) hr hd
    refine ⟨m',hm',?_⟩
    simp only [record_left_left,hc,Option.bind_some,if_true,rotateRight,hm,rep_plug_node hm',record_parent]
    rfl
  | right =>
    have hb : ∀ s p a b', childBefore m (record s x p a b') (top b) = some false := by
      intro s p a b'
      exact childBefore_false hs (by simpa using hp.1)
    obtain ⟨m',hm,hm'⟩ := rotate_spec (s := .left) (x := x) (a := b) (y := y) (b := l) (c := r) hr hd
    refine ⟨m',hm',?_⟩
    simp only [record_right_left,record_right_right,hb,hc,Option.bind_some,Bool.false_eq_true,if_false,if_true,
      rotateLeft,hm,rep_plug_node hm',record_parent]
    rfl

/-- The new entry rises: the loop makes the rotations of `rise` and stops where it stops. -/
theorem insertFix_spec (hr : Rep m none (plug (f :: path) (node y l r)))
    (hd : (addrs (items (plug (f :: path) (node y l r)))).Nodup) (hp : HeapPath Item.priority (f :: path))
    (hroot : map.root = top (plug (f :: path) (node y l r))) (hn : path.length < n) :
    ∃ m', insertFix n map m f.item.addr =
        some ({ map with root := top (rise Item.priority (f :: path) y l r) },m') ∧
      Rep m' none (rise Item.priority (f :: path) y l r) := by
  -- one frame less at every rotation
  induction path generalizing n map m f l r with
  | nil =>
    obtain ⟨n,rfl⟩ : ∃ j, n = j+1 := ⟨n-1,by simp at hn; omega⟩
    by_cases hlt : y.priority < f.item.priority
    · obtain ⟨m',hm',hturn⟩ := insertFix_turn n map hr hd hp hlt
      rw [rise,if_pos hlt]
      exact ⟨m',hturn,hm'⟩
    · rw [rise,if_neg hlt,← hroot]
      exact ⟨m,insertFix_stay hr hp (not_lt.mp hlt),hr⟩
  | cons g path ih =>
    obtain ⟨n,rfl⟩ : ∃ j, n = j+1 := ⟨n-1,by omega⟩
    by_cases hlt : y.priority < f.item.priority
    · obtain ⟨m',hm',hturn⟩ := insertFix_turn n map hr hd hp hlt
      rw [rise,if_pos hlt,hturn]
      refine ih hm' ?_ hp.2.2.2 ?_ ?_
      · rw [items_plug,items_raise,← items_plug]
        exact hd
      · rw [hroot]
        exact top_plug_cons g path _ _
      · simpa using hn
    · rw [rise,if_neg hlt,← hroot]
      exact ⟨m,insertFix_stay hr hp (not_lt.mp hlt),hr⟩

end Fix

theorem insert_present {map : Map} {m : Memory} {t : BinaryTree Item} {y : Item} (h : Shape map m t)
    (hy : m y.addr = some (entryInit y.key)) (hp : ∃ x ∈ items t, x.key = y.key) :
    insert map m y.addr = some (some .invalidArgument,map,m) := by
  cases t with
  | nil => simp [items] at hp
  | node x l r =>
    have hl := insertLoop_spec [] hy h.links (Nat.lt_succ_self _)
    rcases hloc : locate Item.key y.key [] (node x l r) with ⟨p,u⟩
    have hk : (entryInit y.key).key = y.key := rfl
    rw [hk,hloc] at hl
    cases u with
    | nil =>
      obtain ⟨z,hz,hzk⟩ := hp
      exact absurd hzk (absent_of_locate h.search (by rw [hloc]) z hz)
    | node z a b =>
      simp only [insert,h.root,top,h.size,Option.bind_eq_bind,hl,Option.bind_some]
      rfl

/-- The linked entry, before the rotations. -/
private theorem insert_link {m : Memory} {f : Frame Item} {path : Path Item} {y : Item}
    (hr : Rep m none (plug (f :: path) nil)) (hn : (addrs (around (f :: path))).Nodup)
    (hy : m y.addr = some (entryInit y.key)) (hf : y.addr ∉ addrs (around (f :: path))) :
    ∃ m₁ m₂, m.store f.item.addr (·.setChild f.side (some y.addr)) = some m₁ ∧
      m₁.store y.addr (·.setParent (some f.item.addr)) = some m₂ ∧ Rep m₂ none (plug (f :: path) (node y nil nil)) := by
  obtain ⟨m₁,h1,hp,hm⟩ := repPath_fill (some y.addr) (rep_plug.mp hr).2 hn
  have hne : y.addr ≠ f.item.addr := fun he => hf (by simp [around_cons,he])
  have hy₁ : m₁ y.addr = some (entryInit y.key) := by rw [hm _ hne,hy]
  refine ⟨m₁,_,h1,store_eq _ hy₁,rep_plug.mpr ⟨⟨Function.update_self _ _ m₁,trivial,trivial⟩,?_⟩⟩
  exact repPath_congr (fun a ha => Function.update_of_ne (ne_of_mem_of_not_mem ha hf) _ _) hp

/-- The new entry at its place in the tree rises, and the tree is a treap again. -/
private theorem insert_rise {map : Map} {m m₂ : Memory} {f : Frame Item} {path : Path Item} {y : Item}
    (h : Shape map m (plug (f :: path) nil)) (hf : y.addr ∉ addrs (around (f :: path)))
    (hr : Rep m₂ none (plug (f :: path) (node y nil nil)))
    (hs : SearchOrder Item.key (plug (f :: path) (node y nil nil))) :
    ∃ root m', insertFix (map.size+1) map m₂ f.item.addr = some (⟨root,map.size⟩,m') ∧
      Shape ⟨root,map.size+1⟩ m' (rise Item.priority (f :: path) y nil nil) := by
  have hn : (addrs (items (plug (f :: path) (node y nil nil)))).Nodup :=
    nodup_plug.mpr (List.nodup_cons.mpr ⟨hf,nodup_plug.mp h.apart⟩)
  obtain ⟨-,hp,-⟩ := heapOrder_plug.mp h.heap
  have hroot : map.root = top (plug (f :: path) (node y nil nil)) := h.root.trans (top_plug_cons f path _ _)
  have hlen := length_le_numNodes (f :: path) (nil : BinaryTree Item)
  rw [← h.size,List.length_cons] at hlen
  obtain ⟨m',hfix,hm'⟩ := insertFix_spec hr hn hp hroot (n := map.size+1) (by omega)
  refine ⟨_,m',hfix,rfl,hm',?_,?_,?_,?_⟩
  · rwa [items_rise]
  · rwa [searchOrder_iff,items_rise,← searchOrder_iff]
  · exact heapOrder_rise hp (by simp [HeapOrder,items]) (by simp [items]) (by simp [items])
  · rw [h.size,← items_length,← items_length,items_rise,(items_plug_perm _ _).length_eq,(items_plug_perm _ _).length_eq]
    simp [items]

/-- Where the key is absent the new entry is linked at its place and rises. -/
theorem insert_absent {map : Map} {m : Memory} {t : BinaryTree Item} {y : Item} (h : Shape map m t)
    (hy : m y.addr = some (entryInit y.key)) (hf : y.addr ∉ addrs (items t)) (ha : ∀ x ∈ items t, x.key ≠ y.key) :
    ∃ map' m' t', insert map m y.addr = some (none,map',m') ∧ Shape map' m' t' ∧ (items t').Perm (y :: items t) := by
  cases t with
  | nil =>
    refine ⟨⟨some y.addr,1⟩,m,node y nil nil,?_,?_,.refl _⟩
    · simp [insert,h.root,top]
    · exact ⟨rfl,⟨hy,trivial,trivial⟩,by simp [items,addrs],by simp [SearchOrder,items],by simp [HeapOrder,items],rfl⟩
  | node x l r =>
    have hl := insertLoop_spec [] hy h.links (Nat.lt_succ_self _)
    have hk : (entryInit y.key).key = y.key := rfl
    have hplug := plug_locate Item.key y.key [] (node x l r)
    have hsearch := sorted_of_locate (y := y) h.search
    rcases hloc : locate Item.key y.key [] (node x l r) with ⟨p,u⟩
    rw [hloc] at hplug hsearch
    rw [hk,hloc] at hl
    cases u with
    | node z a b =>
      obtain ⟨hz,hzk⟩ := mem_of_locate (congrArg Prod.snd hloc)
      exact absurd hzk (ha z hz)
    | nil =>
      cases p with
      | nil => cases hplug
      | cons f path =>
        rw [← plug.eq_1 (node x l r),← hplug] at h hf
        have hf' : y.addr ∉ addrs (around (f :: path)) := by
          intro hm
          exact hf (((items_plug_perm (f :: path) nil).map _).mem_iff.mpr hm)
        obtain ⟨m₁,m₂,h1,h2,hr⟩ := insert_link h.links (nodup_plug.mp h.apart) hy hf'
        obtain ⟨root,m',hfix,hsh⟩ := insert_rise h hf' hr (hsearch rfl)
        refine ⟨_,m',_,?_,hsh,?_⟩
        · have hroot : map.root = some x.addr := by
            rw [h.root,hplug]
            rfl
          have hsize : map.size = (node x l r).numNodes := by rw [h.size,hplug,plug]
          simp only [insert,hroot,hsize,Option.bind_eq_bind,hl,h1,Option.map_some,Option.bind_some,h2]
          rw [← hsize,hfix]
          rfl
        · rw [items_rise,← plug.eq_1 (node x l r),← hplug]
          exact (items_plug_perm _ _).trans ((items_plug_perm (f :: path) nil).symm.cons y)

/-- Insertion of an initialised entry that is not in the map. -/
theorem insert_spec {map : Map} {m : Memory} {table : Library.OrderedTable Item Item.key} {y : Item}
    (h : Holds map m table) (hy : m y.addr = some (entryInit y.key)) (hf : y.addr ∉ addrs table.entries) :
    match table.insert y with
    | none => insert map m y.addr = some (some .invalidArgument,map,m)
    | some table' => ∃ map' m', insert map m y.addr = some (none,map',m') ∧ Holds map' m' table' := by
  obtain ⟨t,h,ht⟩ := h
  cases hk : table.find y.key with
  | none =>
    have ha := Library.OrderedTable.find_eq_none.mp hk
    rw [← ht] at ha hf
    obtain ⟨table',hins,hperm⟩ := Library.OrderedTable.insert_fresh hk
    obtain ⟨map',m',t',h1,h2,h3⟩ := insert_absent h hy hf ha
    rw [hins]
    refine ⟨map',m',h1,t',h2,Library.OrderedTable.eq_entries_of_perm (searchOrder_iff.mp h2.search) ?_⟩
    rw [ht] at h3
    exact h3.trans hperm.symm
  | some x =>
    have hn : table.insert y = none := by rw [Library.OrderedTable.insert,dif_neg (by simp [hk])]
    rw [hn]
    obtain ⟨hx,hxk⟩ := Library.OrderedTable.find_eq_some.mp hk
    exact insert_present h hy ⟨x,ht ▸ hx,hxk⟩

/-! Removal. -/

theorem detach_spec {map : Map} {m : Memory} {path : Path Item} {s : Side} {x : Item} {u : BinaryTree Item}
    (hr : Rep m none (plug path (build s x nil u))) (hd : (addrs (items (plug path (build s x nil u)))).Nodup)
    (hroot : map.root = top (plug path (build s x nil u))) :
    ∃ m', detach map m x.addr (top u) = some ({ map with root := top (plug path u) },m') ∧
      Rep m' none (plug path u) := by
  have hb := ((items_build_perm s x nil u).append_right (around path)).map Item.addr
  have hn := hb.nodup_iff.mp (nodup_plug.mp hd)
  simp only [items,List.nil_append,List.cons_append,List.map_cons,List.map_append,List.nodup_cons,List.nodup_append',
    List.mem_append,not_or] at hn
  obtain ⟨⟨hxu,hxp⟩,hun,hpn,hup⟩ := hn
  obtain ⟨h1,h2⟩ := rep_plug.mp hr
  obtain ⟨hx,-,hu⟩ := rep_build.mp h1
  rw [top_build] at h2
  -- the parent points to the child, the child to the parent
  obtain ⟨m₁,hm₁,hp₁,ho₁⟩ := relink_spec (top u) h2 hpn hxp
  have hu₁ : Rep m₁ (some x.addr) u :=
    rep_congr (fun z hz => ho₁ z (fun he => hup hz (parentOf_mem he))) hu
  obtain ⟨m₂,hm₂,hu₂,ho₂⟩ := adopt_spec (parentOf path) hu₁ hun
  refine ⟨m₂,?_,rep_plug.mpr ⟨hu₂,repPath_congr (fun z hz => ho₂ z (fun he => hup (top_mem he) hz)) hp₁⟩⟩
  simp only [detach,hx,Option.bind_eq_bind,Option.bind_some,record_parent,hm₁,hm₂]
  cases path with
  | nil => rfl
  | cons f path =>
    rw [if_neg (by simp [parentOf]),top_plug_cons f path u (build s x nil u),← hroot]
    rfl

/-- One turn: the child `y` is rotated above the entry, and is the root of the map if the
entry was. -/
private theorem removeLoop_turn {map : Map} {m : Memory} {path : Path Item} {s : Side} {x y : Item}
    {a b c : BinaryTree Item} (hr : Rep m none (plug path (build s x a (build s y b c))))
    (hd : (addrs (items (plug path (build s x a (build s y b c))))).Nodup)
    (hroot : map.root = top (plug path (build s x a (build s y b c)))) :
    ∃ m' map', rotate s m x.addr = some (y.addr,m') ∧
      m' y.addr = some (record s y (parentOf path) (some x.addr) (top c)) ∧
      (if parentOf path = none then { map with root := some y.addr } else map) = map' ∧ map'.size = map.size ∧
      Rep m' none (plug (⟨s,y,c⟩ :: path) (build s x a b)) ∧
      (addrs (items (plug (⟨s,y,c⟩ :: path) (build s x a b)))).Nodup ∧
      map'.root = top (plug (⟨s,y,c⟩ :: path) (build s x a b)) := by
  obtain ⟨m',hm,hr'⟩ := rotate_spec hr hd
  have hy := (rep_build.mp (rep_plug.mp hr').1).1
  rw [top_build] at hy
  refine ⟨m',_,hm,hy,rfl,?_,hr',?_,?_⟩
  · split <;> rfl
  · rwa [plug,items_plug,items_rotate,← items_plug]
  · cases path with
    | nil => simp [parentOf,plug]
    | cons f path =>
      rw [if_neg (by simp [parentOf]),plug,top_plug_cons f path _ (build s x a (build s y b c)),← hroot]

/-- The entry sinks: the loop makes the rotations of `merge` above it. -/
theorem removeLoop_spec {n : Nat} {map : Map} {m : Memory} {path : Path Item} {x : Item} {l r : BinaryTree Item}
    (hr : Rep m none (plug path (node x l r))) (hd : (addrs (items (plug path (node x l r)))).Nodup)
    (hroot : map.root = top (plug path (node x l r))) (hn : l.numNodes + r.numNodes < n) :
    ∃ m', removeLoop n map m x.addr = some ({ map with root := top (plug path (merge Item.priority l r)) },m') ∧
      Rep m' none (plug path (merge Item.priority l r)) := by
  obtain ⟨n,rfl⟩ : ∃ j, n = j+1 := ⟨n-1,by omega⟩
  have hx := rep_plug_node hr
  fun_induction merge Item.priority l r generalizing n map m path with
  | case1 r =>
    obtain ⟨m',hm,hm'⟩ := detach_spec (s := .left) (u := r) hr hd hroot
    refine ⟨m',?_,hm'⟩
    simp only [removeLoop,hx,Option.bind_eq_bind,Option.bind_some,record_left_left,record_left_right]
    exact hm
  | case2 l hl =>
    obtain ⟨m',hm,hm'⟩ := detach_spec (s := .right) (u := l) hr hd hroot
    refine ⟨m',?_,hm'⟩
    simp only [removeLoop,hx,Option.bind_eq_bind,Option.bind_some,record_left_left,record_left_right]
    cases l with
    | nil => exact absurd rfl hl
    | node y a b => exact hm
  | case3 y a b z c d h ih =>
    obtain ⟨-,hy,hz⟩ := (rep_plug.mp hr).1
    obtain ⟨m₁,map₁,hm₁,hy₁,hmap₁,hsize₁,hr₁,hd₁,hroot₁⟩ :=
      removeLoop_turn (s := .right) (x := x) (a := node z c d) (y := y) (b := b) (c := a) hr hd hroot
    simp only [numNodes] at hn
    obtain ⟨n,rfl⟩ : ∃ j, n = j+1 := ⟨n-1,by omega⟩
    obtain ⟨m',hm,hm'⟩ := ih hr₁ hd₁ hroot₁ n (by simp only [numNodes]; omega) (rep_plug_node hr₁)
    refine ⟨m',?_,hm'⟩
    rw [removeLoop]
    simp only [hx,Option.bind_eq_bind,Option.bind_some,record_left_left,record_left_right,top,hy.1,hz.1,record_priority]
    rw [if_pos h,rotateRight,hm₁]
    simp only [Option.bind_some,hy₁,record_parent,record_right_right,hmap₁]
    rw [hm,hsize₁]
    rfl
  | case4 y a b z c d h ih =>
    obtain ⟨-,hy,hz⟩ := (rep_plug.mp hr).1
    obtain ⟨m₁,map₁,hm₁,hy₁,hmap₁,hsize₁,hr₁,hd₁,hroot₁⟩ :=
      removeLoop_turn (s := .left) (x := x) (a := node y a b) (y := z) (b := c) (c := d) hr hd hroot
    simp only [numNodes] at hn
    obtain ⟨n,rfl⟩ : ∃ j, n = j+1 := ⟨n-1,by omega⟩
    obtain ⟨m',hm,hm'⟩ := ih hr₁ hd₁ hroot₁ n (by simp only [numNodes]; omega) (rep_plug_node hr₁)
    refine ⟨m',?_,hm'⟩
    rw [removeLoop]
    simp only [hx,Option.bind_eq_bind,Option.bind_some,record_left_left,record_left_right,top,hy.1,hz.1,record_priority]
    rw [if_neg h,rotateLeft,hm₁]
    simp only [Option.bind_some,hy₁,record_parent,record_left_left,hmap₁]
    rw [hm,hsize₁]
    rfl

/-- The tree without the entry in the hole is a treap again. -/
private theorem remove_shape {map : Map} {m m' : Memory} {path : Path Item} {x : Item} {l r : BinaryTree Item}
    (h : Shape map m (plug path (node x l r))) (hr : Rep m' none (plug path (merge Item.priority l r))) :
    Shape ⟨top (plug path (merge Item.priority l r)),map.size-1⟩ m' (plug path (merge Item.priority l r)) ∧
      (items (plug path (node x l r))).Perm (x :: items (plug path (merge Item.priority l r))) := by
  have hi : items (plug path (merge Item.priority l r)) = before path ++ (items l ++ items r ++ after path) := by
    rw [items_plug,items_merge]
  have ho : items (plug path (node x l r)) = before path ++ (items l ++ x :: items r ++ after path) := items_plug ..
  have hp : (items (plug path (node x l r))).Perm (x :: items (plug path (merge Item.priority l r))) := by
    rw [hi,ho]
    simp only [List.append_assoc,List.cons_append]
    rw [← List.append_assoc,← List.append_assoc]
    exact List.perm_middle
  have hsub : (items (plug path (merge Item.priority l r))).Sublist (items (plug path (node x l r))) := by
    rw [hi,ho]
    exact (((List.sublist_cons_self x _).append_left _).append_right _).append_left _
  obtain ⟨⟨-,-,hl,hr'⟩,hpath,hab⟩ := heapOrder_plug.mp h.heap
  refine ⟨⟨rfl,hr,h.apart.sublist (hsub.map _),?_,?_,?_⟩,hp⟩
  · exact searchOrder_iff.mpr ((searchOrder_iff.mp h.search).sublist hsub)
  · refine heapOrder_plug.mpr ⟨heapOrder_merge hl hr',hpath,?_⟩
    intro y hy
    refine hab y ?_
    rw [items_merge] at hy
    rcases List.mem_append.mp hy with hy | hy
    · simp [items,hy]
    · simp [items,hy]
  · have hlen := hp.length_eq
    rw [List.length_cons,items_length,items_length] at hlen
    rw [h.size,hlen]
    rfl

theorem remove_spec {map : Map} {m : Memory} {table : Library.OrderedTable Item Item.key} (h : Holds map m table)
    (k : UInt32) :
    match table.find k with
    | none => remove map m k = some (some .invalidArgument,map,m)
    | some _ => ∃ map' m', remove map m k = some (none,map',m') ∧ Holds map' m' (table.remove k) := by
  obtain ⟨t,h,ht⟩ := h
  have hfl := findLoop_spec (k := k) [] h.links (Nat.lt_succ_self _)
  have hplug := plug_locate Item.key k [] t
  rcases hloc : locate Item.key k [] t with ⟨p,u⟩
  rw [hloc] at hfl hplug
  cases u with
  | nil =>
    rw [Library.OrderedTable.find_eq_none.mpr (ht ▸ absent_of_locate h.search (congrArg Prod.snd hloc))]
    simp only [remove,h.root,h.size]
    cases t with
    | nil => rfl
    | node x l r =>
      simp only [top] at hfl ⊢
      simp only [hfl,Option.bind_eq_bind,Option.bind_some]
      rfl
  | node x l r =>
    have hx := mem_of_locate (congrArg Prod.snd hloc)
    have hfind := Library.OrderedTable.find_eq_some.mpr (ht ▸ hx)
    rw [hfind]
    simp only [plug] at hplug
    subst hplug
    have hlen := length_le_numNodes p (node x l r)
    rw [← h.size] at hlen
    simp only [numNodes] at hlen
    obtain ⟨m',hm,hr⟩ := removeLoop_spec h.links h.apart h.root (n := map.size+1) (by omega)
    obtain ⟨hsh,hperm⟩ := remove_shape h hr
    refine ⟨_,m',?_,_,hsh,?_⟩
    · rw [← h.size] at hfl
      cases hroot : top (plug p (node x l r)) with
      | none =>
        rw [hroot] at hfl
        cases hfl
      | some a =>
        rw [hroot] at hfl
        have hentry : findLoop k (map.size+1) m (some a) = some (some x.addr) := hfl
        simp only [remove,h.root,hroot,hentry,Option.bind_eq_bind,Option.bind_some,hm]
        rfl
    · refine Library.OrderedTable.eq_entries_of_perm (searchOrder_iff.mp hsh.search) ?_
      rw [ht] at hperm
      exact (hperm.symm.trans (Library.OrderedTable.remove_perm hfind)).cons_inv

end Spdylay.Map
