import Spdylay.Map.Entries

/-! The entries of a map form a tree in memory: each entry points to its children and
back to its parent. The rotations and the detachment of an entry are the tree
operations of the same names, wherever in the tree they are made. -/
namespace Spdylay.Map
open BinaryTree Library.Treap

/-- Keys and priorities are compared as unsigned integers. -/
instance : LinearOrder UInt32 where
  le_refl := UInt32.le_refl
  le_trans := fun _ _ _ => UInt32.le_trans
  lt_iff_le_not_ge := fun a b => by
    simp only [UInt32.lt_iff_toNat_lt,UInt32.le_iff_toNat_le]
    omega
  le_antisymm := fun _ _ => UInt32.le_antisymm
  le_total := UInt32.le_total
  toDecidableLE := inferInstance
  min_def := fun _ _ => rfl
  max_def := fun _ _ => rfl

/-- An entry of the map, with the key it was initialised with. -/
structure Item where
  addr : Addr
  key : UInt32
  deriving DecidableEq, Repr

def Item.priority (x : Item) : UInt32 := hash32shift x.key

def top : BinaryTree Item → Option Addr
  | nil => none
  | node x _ _ => some x.addr

/-- The entry of `x` with the child `a` at the side `s` and `b` at the other. -/
def record (s : Side) (x : Item) (parent a b : Option Addr) : MapEntry :=
  match s with
  | .left => ⟨x.key,parent,a,b,x.priority⟩
  | .right => ⟨x.key,parent,b,a,x.priority⟩

/-- The memory holds the tree, below an entry `parent`. -/
def Rep (m : Memory) : Option Addr → BinaryTree Item → Prop
  | _, nil => True
  | parent, node x l r => m x.addr = some (record .left x parent (top l) (top r)) ∧
      Rep m (some x.addr) l ∧ Rep m (some x.addr) r

def parentOf (path : Path Item) : Option Addr := path.head?.map (·.item.addr)

/-- The memory holds the path and its siblings, with `hole` in the place of the hole. -/
def RepPath (m : Memory) : Path Item → Option Addr → Prop
  | [], _ => True
  | f :: path, hole => m f.item.addr = some (record f.side f.item (parentOf path) hole (top f.sibling)) ∧
      Rep m (some f.item.addr) f.sibling ∧ RepPath m path (some f.item.addr)

def addrs (l : List Item) : List Addr := l.map (·.addr)

/-! Fields of a record. -/

section Record
variable (s : Side) (x : Item) (p a b c : Option Addr)

@[simp] theorem record_key : (record s x p a b).key = x.key := by cases s <;> rfl

@[simp] theorem record_parent : (record s x p a b).parent = p := by cases s <;> rfl

@[simp] theorem record_priority : (record s x p a b).priority = x.priority := by cases s <;> rfl

@[simp] theorem record_child : (record s x p a b).child s = a := by cases s <;> rfl

@[simp] theorem record_child_other : (record s x p a b).child s.other = b := by cases s <;> rfl

@[simp] theorem record_left_left : (record .left x p a b).left = a := rfl

@[simp] theorem record_left_right : (record .left x p a b).right = b := rfl

@[simp] theorem record_right_left : (record .right x p a b).left = b := rfl

@[simp] theorem record_right_right : (record .right x p a b).right = a := rfl

@[simp] theorem record_setChild : (record s x p a b).setChild s c = record s x p c b := by cases s <;> rfl

@[simp] theorem record_setChild_other : (record s x p a b).setChild s.other c = record s x p a c := by
  cases s <;> rfl

@[simp] theorem record_setParent : (record s x p a b).setParent c = record s x c a b := by cases s <;> rfl

end Record

@[simp] theorem top_build (s : Side) (x : Item) (a b : BinaryTree Item) : top (build s x a b) = some x.addr := by
  cases s <;> rfl

/-- Below a frame the root does not depend on the subtree. -/
theorem top_plug_cons (f : Frame Item) (path : Path Item) (t u : BinaryTree Item) :
    top (plug (f :: path) t) = top (plug (f :: path) u) := by
  induction path generalizing f t u with
  | nil => simp [plug]
  | cons g path ih => exact ih g _ _

theorem rep_build {m : Memory} {p : Option Addr} {s : Side} {x : Item} {a b : BinaryTree Item} :
    Rep m p (build s x a b) ↔
      m x.addr = some (record s x p (top a) (top b)) ∧ Rep m (some x.addr) a ∧ Rep m (some x.addr) b := by
  cases s
  · exact Iff.rfl
  · simp only [build,Rep,record]
    tauto

/-- The tree is in memory when its path and the subtree in the hole are. -/
theorem rep_plug {m : Memory} {path : Path Item} {t : BinaryTree Item} :
    Rep m none (plug path t) ↔ Rep m (parentOf path) t ∧ RepPath m path (top t) := by
  induction path generalizing t with
  | nil => simp [plug,RepPath,parentOf]
  | cons f path ih =>
    simp only [plug,ih,rep_build,top_build,RepPath,parentOf,List.head?_cons,Option.map_some]
    tauto

/-! What a store elsewhere leaves as it is. -/

theorem mem_addrs {l : List Item} {x : Item} (h : x ∈ l) : x.addr ∈ addrs l := List.mem_map_of_mem h

@[simp] theorem addrs_append (l k : List Item) : addrs (l ++ k) = addrs l ++ addrs k := List.map_append

@[simp] theorem addrs_cons (x : Item) (l : List Item) : addrs (x :: l) = x.addr :: addrs l := rfl

theorem rep_congr {m m' : Memory} {p : Option Addr} {t : BinaryTree Item}
    (h : ∀ a ∈ addrs (items t), m' a = m a) (hr : Rep m p t) : Rep m' p t := by
  induction t generalizing p with
  | nil => trivial
  | node x l r ihl ihr =>
    simp only [items,addrs_append,addrs_cons,List.mem_append,List.mem_cons] at h
    obtain ⟨h1,h2,h3⟩ := hr
    refine ⟨?_,ihl (fun a ha => h a (.inl ha)) h2,ihr (fun a ha => h a (.inr (.inr ha))) h3⟩
    rw [h x.addr (.inr (.inl rfl)),h1]

theorem repPath_congr {m m' : Memory} {path : Path Item} {hole : Option Addr}
    (h : ∀ a ∈ addrs (around path), m' a = m a) (hr : RepPath m path hole) : RepPath m' path hole := by
  induction path generalizing hole with
  | nil => trivial
  | cons f path ih =>
    simp only [around_cons,addrs_append,addrs_cons,List.mem_append,List.mem_cons] at h
    obtain ⟨h1,h2,h3⟩ := hr
    refine ⟨?_,rep_congr (fun a ha => h a (.inr (.inl ha))) h2,ih (fun a ha => h a (.inr (.inr ha))) h3⟩
    rw [h f.item.addr (.inl rfl),h1]

theorem top_mem {t : BinaryTree Item} {a : Addr} (h : top t = some a) : a ∈ addrs (items t) := by
  cases t with
  | nil => cases h
  | node x l r =>
    cases h
    simp [items]

theorem store_eq {m : Memory} {a : Addr} {e : MapEntry} (f : MapEntry → MapEntry) (h : m a = some e) :
    m.store a f = some (Function.update m a (some (f e))) := by
  rw [Memory.store,h]
  rfl

/-- `adopt` moves the tree below another entry. -/
theorem adopt_spec {m : Memory} {p : Option Addr} {t : BinaryTree Item} (q : Option Addr) (hr : Rep m p t)
    (hn : (addrs (items t)).Nodup) :
    ∃ m', adopt m (top t) q = some m' ∧ Rep m' q t ∧ ∀ a, top t ≠ some a → m' a = m a := by
  cases t with
  | nil => exact ⟨m,rfl,trivial,fun a _ => rfl⟩
  | node x l r =>
    obtain ⟨h1,h2,h3⟩ := hr
    simp only [items,addrs_append,addrs_cons,List.nodup_middle,List.nodup_cons,List.mem_append,not_or] at hn
    refine ⟨_,store_eq _ h1,⟨?_,rep_congr ?_ h2,rep_congr ?_ h3⟩,?_⟩
    · simp
    · intro a ha
      exact Function.update_of_ne (ne_of_mem_of_not_mem ha hn.1.1) _ _
    · intro a ha
      exact Function.update_of_ne (ne_of_mem_of_not_mem ha hn.1.2) _ _
    · intro a ha
      exact Function.update_of_ne (fun he => ha (congrArg some he.symm)) _ _

/-- The pointer of the first entry of the path is the one to the hole. -/
theorem repPath_fill {m : Memory} {f : Frame Item} {path : Path Item} {hole : Option Addr} (new : Option Addr)
    (hr : RepPath m (f :: path) hole) (hn : (addrs (around (f :: path))).Nodup) :
    ∃ m', m.store f.item.addr (·.setChild f.side new) = some m' ∧ RepPath m' (f :: path) new ∧
      ∀ a, a ≠ f.item.addr → m' a = m a := by
  obtain ⟨h1,h2,h3⟩ := hr
  simp only [around_cons,addrs_append,addrs_cons,List.nodup_cons,List.mem_append,not_or] at hn
  refine ⟨_,store_eq _ h1,⟨?_,rep_congr ?_ h2,repPath_congr ?_ h3⟩,?_⟩
  · rw [Function.update_self,record_setChild]
  · intro a ha
    exact Function.update_of_ne (ne_of_mem_of_not_mem ha hn.1.1) _ _
  · intro a ha
    exact Function.update_of_ne (ne_of_mem_of_not_mem ha hn.1.2) _ _
  · intro a ha
    exact Function.update_of_ne ha _ _

/-- `relink` changes what is in the hole of the path. -/
theorem relink_spec {m : Memory} {path : Path Item} {old : Addr} (new : Option Addr) (hr : RepPath m path (some old))
    (hn : (addrs (around path)).Nodup) (ho : old ∉ addrs (around path)) :
    ∃ m', relink m (parentOf path) old new = some m' ∧ RepPath m' path new ∧
      ∀ a, parentOf path ≠ some a → m' a = m a := by
  cases path with
  | nil => exact ⟨m,rfl,trivial,fun a _ => rfl⟩
  | cons f path =>
    obtain ⟨m',hs,hp,hm⟩ := repPath_fill new hr hn
    refine ⟨m',?_,hp,fun a ha => hm a (fun he => ha (congrArg some he.symm))⟩
    -- the hole is at the side where the parent points to the old entry
    rw [← hs,parentOf]
    simp only [List.head?_cons,Option.map_some,relink,hr.1,Option.bind_eq_bind,Option.bind_some]
    cases hf : f.side with
    | left => simp
    | right =>
      simp only [around_cons,addrs_append,addrs_cons,List.mem_cons,List.mem_append,not_or] at ho
      have ht : top f.sibling ≠ some old := fun he => ho.2.1 (top_mem he)
      simp [ht]

/-- The stores of a rotation before the parent and the inner subtree are told: the two
entries change places. -/
private theorem rotate_eq {m : Memory} {s : Side} {x y : Item} {p a b c : Option Addr} (hxy : x.addr ≠ y.addr)
    (hx : m x.addr = some (record s x p a (some y.addr))) (hy : m y.addr = some (record s y (some x.addr) b c)) :
    rotate s m x.addr =
      (relink (Function.update (Function.update m x.addr (some (record s x (some y.addr) a b))) y.addr
          (some (record s y p (some x.addr) c))) p x.addr (some y.addr)).bind (fun m =>
        (m x.addr).bind (fun e => (adopt m (e.child s.other) (some x.addr)).bind (fun m => some (y.addr,m)))) := by
  have hyx := hxy.symm
  simp only [rotate,Option.bind_eq_bind,Option.pure_def,hx,hy,Option.bind_some,record_child,record_child_other,
    Memory.store,Option.map_some,record_setChild,record_setChild_other,record_setParent,record_parent,
    Function.update_self,Function.update_of_ne hxy,Function.update_of_ne hyx,Function.update_idem]
  rw [Function.update_comm hyx,Function.update_idem]

theorem parentOf_mem {path : Path Item} {a : Addr} (h : parentOf path = some a) : a ∈ addrs (around path) := by
  cases path with
  | nil => cases h
  | cons f path =>
    cases h
    simp [around_cons]

theorem nodup_plug {path : Path Item} {t : BinaryTree Item} :
    (addrs (items (plug path t))).Nodup ↔ (addrs (items t ++ around path)).Nodup :=
  ((items_plug_perm path t).map _).nodup_iff

/-- The places of an entry, one of its children, their subtrees and the rest of the tree
are apart. -/
private theorem nodup_edge {s : Side} {path : Path Item} {x y : Item} {a b c : BinaryTree Item}
    (hn : (addrs (items (plug path (build s x a (build s y b c))))).Nodup) :
    (addrs (x :: y :: (items a ++ (items b ++ (items c ++ around path))))).Nodup := by
  refine (List.Perm.nodup_iff (List.Perm.map _ ?_)).mp (nodup_plug.mp hn)
  have hyt := (items_build_perm s y b c).trans List.perm_middle
  have hxt := (items_build_perm s x a (build s y b c)).trans List.perm_middle
  refine (hxt.append_right _).trans (List.Perm.cons x ?_)
  rw [List.append_eq,List.append_assoc]
  refine (List.Perm.append_left _ (hyt.append_right _)).trans ?_
  simp only [List.cons_append,List.append_assoc]
  exact List.perm_middle

/-- A rotation of the entry `x` towards the side `s`, anywhere in the tree. -/
theorem rotate_spec {m : Memory} {s : Side} {path : Path Item} {x y : Item} {a b c : BinaryTree Item}
    (hr : Rep m none (plug path (build s x a (build s y b c))))
    (hn : (addrs (items (plug path (build s x a (build s y b c))))).Nodup) :
    ∃ m', rotate s m x.addr = some (y.addr,m') ∧ Rep m' none (plug path (build s y (build s x a b) c)) := by
  have hd := nodup_edge hn
  simp only [addrs_append,addrs_cons,List.nodup_append',List.nodup_cons,List.mem_append,List.mem_cons,not_or,
    List.disjoint_append_right] at hd
  obtain ⟨⟨hxy,hxa,hxb,hxc,hxp⟩,⟨hya,hyb,hyc,hyp⟩,-,⟨hbn,⟨-,hpn,hcp⟩,hbc,hbp⟩,hab,-,hap⟩ := hd
  obtain ⟨h1,h2⟩ := rep_plug.mp hr
  obtain ⟨hx,ha,hyt⟩ := rep_build.mp h1
  obtain ⟨hy,hb,hc⟩ := rep_build.mp hyt
  rw [top_build] at hx h2
  -- the entries change places
  rw [rotate_eq hxy hx hy]
  generalize hm1 : Function.update (Function.update m x.addr (some (record s x (some y.addr) (top a) (top b))))
    y.addr (some (record s y (parentOf path) (some x.addr) (top c))) = m1
  have h1x : m1 x.addr = some (record s x (some y.addr) (top a) (top b)) := by
    rw [← hm1,Function.update_of_ne hxy,Function.update_self]
  have h1y : m1 y.addr = some (record s y (parentOf path) (some x.addr) (top c)) := by
    rw [← hm1,Function.update_self]
  have h1o : ∀ z, z ≠ x.addr → z ≠ y.addr → m1 z = m z := by
    intro z hzx hzy
    rw [← hm1,Function.update_of_ne hzy,Function.update_of_ne hzx]
  -- the parent is told
  have hp1 : RepPath m1 path (some x.addr) := by
    refine repPath_congr ?_ h2
    exact fun z hz => h1o z (ne_of_mem_of_not_mem hz hxp) (ne_of_mem_of_not_mem hz hyp)
  obtain ⟨m2,hm2,hp2,h2o⟩ := relink_spec (some y.addr) hp1 hpn hxp
  have h2p : ∀ z, z ∉ addrs (around path) → m2 z = m1 z := fun z hz => h2o z (fun he => hz (parentOf_mem he))
  -- the inner subtree is told
  have hb2 : Rep m2 (some y.addr) b := by
    refine rep_congr ?_ hb
    intro z hz
    rw [h2p z (fun hzp => hbp hz hzp),h1o z (ne_of_mem_of_not_mem hz hxb) (ne_of_mem_of_not_mem hz hyb)]
  obtain ⟨m3,hm3,hb3,h3o⟩ := adopt_spec (some x.addr) hb2 hbn
  have h3b : ∀ z, z ∉ addrs (items b) → m3 z = m2 z := fun z hz => h3o z (fun he => hz (top_mem he))
  have h3 : ∀ z, z ∉ addrs (items b) → z ∉ addrs (around path) → m3 z = m1 z := by
    intro z hzb hzp
    rw [h3b z hzb,h2p z hzp]
  refine ⟨m3,?_,?_⟩
  · rw [hm2,Option.bind_some,h2p _ hxp,h1x,Option.bind_some,record_child_other,hm3]
    rfl
  · refine rep_plug.mpr ⟨rep_build.mpr ⟨?_,rep_build.mpr ⟨?_,rep_congr ?_ ha,hb3⟩,rep_congr ?_ hc⟩,?_⟩
    · rw [h3 _ hyb hyp,h1y,top_build]
    · rw [h3 _ hxb hxp,h1x]
    · intro z hz
      rw [h3 z (fun hzb => hab hz hzb) (fun hzp => hap hz hzp),
        h1o z (ne_of_mem_of_not_mem hz hxa) (ne_of_mem_of_not_mem hz hya)]
    · intro z hz
      rw [h3 z (fun hzb => hbc hzb hz) (fun hzp => hcp hz hzp),
        h1o z (ne_of_mem_of_not_mem hz hxc) (ne_of_mem_of_not_mem hz hyc)]
    · rw [top_build]
      exact repPath_congr (fun z hz => h3b z (fun hzb => hbp hzb hz)) hp2

end Spdylay.Map
