import Spdylay.Map.Traversals

/-! The map as its callers use it: any sequence of calls gives the answers of a table of
the inserted entries by key. -/
namespace Spdylay.Map
open BinaryTree Library.Treap

abbrev Table := Library.OrderedTable Item Item.key

variable {σ : Type}

/-- A call. The entry of an insertion is initialised with its key just before. -/
inductive Call (σ : Type)
  | insert (entry : Addr) (key : UInt32)
  | find (key : UInt32)
  | remove (key : UInt32)
  | size
  | each (func : Addr → σ → Int × σ) (ptr : σ)

inductive Answer (σ : Type)
  | code (rv : Option Err)
  | entry (a : Option Addr)
  | size (n : Nat)
  | visited (rv : Int) (entries : List Addr) (ptr : σ)
  deriving DecidableEq, Repr

/-- The memory in which the caller has initialised the entry. -/
def withEntry (m : Memory) (entry : Addr) (key : UInt32) : Memory := Function.update m entry (some (entryInit key))

def call (map : Map) (m : Memory) : Call σ → Option (Answer σ × Map × Memory)
  | .insert entry key => do
    let (rv,map,m) ← insert map (withEntry m entry key) entry
    return (.code rv,map,m)
  | .find key => do return (.entry (← find map m key),map,m)
  | .remove key => do
    let (rv,map,m) ← remove map m key
    return (.code rv,map,m)
  | .size => some (.size map.size,map,m)
  | .each func ptr => do
    let (rv,entries,ptr) ← each map m func ptr
    return (.visited rv entries ptr,map,m)

def calls (map : Map) (m : Memory) : List (Call σ) → Option (List (Answer σ) × Map × Memory)
  | [] => some ([],map,m)
  | c :: cs => do
    let (a,map,m) ← call map m c
    let (as,map,m) ← calls map m cs
    return (a :: as,map,m)

/-! The same calls on a table. -/

namespace Table

def call (table : Table) : Call σ → Answer σ × Table
  | .insert entry key =>
    match table.insert ⟨entry,key⟩ with
    | none => (.code (some .invalidArgument),table)
    | some table' => (.code none,table')
  | .find key => (.entry ((table.find key).map Item.addr),table)
  | .remove key =>
    match table.find key with
    | none => (.code (some .invalidArgument),table)
    | some _ => (.code none,table.remove key)
  | .size => (.size table.size,table)
  | .each func ptr =>
    let (rv,entries,ptr) := visit func (addrs table.entries) ptr
    (.visited rv entries ptr,table)

def calls (table : Table) : List (Call σ) → List (Answer σ) × Table
  | [] => ([],table)
  | c :: cs =>
    let (a,table) := call table c
    let (as,table) := calls table cs
    (a :: as,table)

/-- The entry of an insertion is not in the map. -/
def Fresh (table : Table) : Call σ → Prop
  | .insert entry _ => entry ∉ addrs table.entries
  | _ => True

/-- Every insertion of the sequence is made with an entry that is not in the map then. -/
def AllFresh (table : Table) : List (Call σ) → Prop
  | [] => True
  | c :: cs => Fresh table c ∧ AllFresh (call table c).2 cs

end Table

/-! One call, and a sequence of calls. -/

theorem withEntry_congr {m : Memory} {map : Map} {table : Table} {entry : Addr} (key : UInt32)
    (h : Holds map m table) (hf : entry ∉ addrs table.entries) : Holds map (withEntry m entry key) table := by
  obtain ⟨t,h,ht⟩ := h
  refine ⟨t,⟨h.root,rep_congr ?_ h.links,h.apart,h.search,h.heap,h.size⟩,ht⟩
  intro a ha
  rw [ht] at ha
  exact Function.update_of_ne (ne_of_mem_of_not_mem ha hf) _ _

theorem call_refines {map : Map} {m : Memory} {table : Table} (h : Holds map m table) (c : Call σ)
    (hf : Table.Fresh table c) :
    ∃ map' m', call map m c = some ((Table.call table c).1,map',m') ∧ Holds map' m' (Table.call table c).2 := by
  cases c with
  | insert entry key =>
    have hs := insert_spec (y := ⟨entry,key⟩) (withEntry_congr key h hf) (Function.update_self ..) hf
    simp only [call,Table.call]
    cases hi : table.insert ⟨entry,key⟩ with
    | none =>
      rw [hi] at hs
      exact ⟨map,withEntry m entry key,by rw [hs]; rfl,withEntry_congr key h hf⟩
    | some table' =>
      rw [hi] at hs
      obtain ⟨map',m',h1,h2⟩ := hs
      exact ⟨map',m',by rw [h1]; rfl,h2⟩
  | find key => exact ⟨map,m,by simp only [call,find_spec h]; rfl,h⟩
  | remove key =>
    have hs := remove_spec h key
    simp only [call,Table.call]
    cases hk : table.find key with
    | none =>
      rw [hk] at hs
      exact ⟨map,m,by rw [hs]; rfl,h⟩
    | some x =>
      rw [hk] at hs
      obtain ⟨map',m',h1,h2⟩ := hs
      exact ⟨map',m',by rw [h1]; rfl,h2⟩
  | size =>
    refine ⟨map,m,?_,h⟩
    obtain ⟨t,h,ht⟩ := h
    rw [call,Table.call,h.size,← items_length,ht]
    rfl
  | each func ptr => exact ⟨map,m,by simp only [call,each_spec h]; rfl,h⟩

theorem calls_refine {map : Map} {m : Memory} {table : Table} (h : Holds map m table) (cs : List (Call σ))
    (hf : Table.AllFresh table cs) :
    ∃ map' m', calls map m cs = some ((Table.calls table cs).1,map',m') ∧ Holds map' m' (Table.calls table cs).2 := by
  induction cs generalizing map m table with
  | nil => exact ⟨map,m,rfl,h⟩
  | cons c cs ih =>
    obtain ⟨map₁,m₁,h1,h2⟩ := call_refines h c hf.1
    obtain ⟨map₂,m₂,h3,h4⟩ := ih h2 hf.2
    refine ⟨map₂,m₂,?_,h4⟩
    simp only [calls,h1,h3,Option.bind_eq_bind,Option.bind_some]
    rfl

theorem holds_init (m : Memory) : Holds init m .empty :=
  ⟨nil,⟨rfl,trivial,.nil,trivial,trivial,rfl⟩,rfl⟩

theorem visit_of_zero {func : Addr → σ → Int × σ} (h : ∀ a ptr, (func a ptr).1 = 0) (l : List Addr) (ptr : σ) :
    visit func l ptr = (0,l,visitAll func l ptr) := by
  induction l generalizing ptr with
  | nil => rfl
  | cons a l ih =>
    rw [visit,if_neg (by simp [h]),ih]
    rfl

/-- Every sequence of calls on an initialised map runs without a fault and gives the
answers of a table. What it leaves is a treap in memory with as many nodes as the size
says; an insertion or a removal that fails there changes nothing, a complete traversal
takes the entries by increasing key, and `each_free` takes each entry once, before its
parent, while all that it was given before is gone. -/
theorem map_refines_table (m₀ : Memory) (cs : List (Call σ)) (hf : Table.AllFresh .empty cs) :
    ∃ map m t, calls init m₀ cs = some ((Table.calls .empty cs).1,map,m) ∧
      Shape map m t ∧ items t = (Table.calls .empty cs).2.entries ∧
      (∀ entry key, entry ∉ addrs (items t) → (∃ x ∈ items t, x.key = key) →
        insert map (withEntry m entry key) entry = some (some .invalidArgument,map,withEntry m entry key)) ∧
      (∀ key, (∀ x ∈ items t, x.key ≠ key) → remove map m key = some (some .invalidArgument,map,m)) ∧
      (∀ (func : Addr → σ → Int × σ) ptr, (∀ a ptr, (func a ptr).1 = 0) →
        each map m func ptr = some (0,addrs (items t),visitAll func (addrs (items t)) ptr)) ∧
      ∀ (func : Addr → σ → Int × σ) ptr, ∃ visited, eachFree map m func ptr =
          some (visited,{ map with root := none },visited.foldl Memory.free m,visitAll func visited ptr) ∧
        visited.Perm (addrs (items t)) ∧ visited.Nodup ∧
        visited.Pairwise (fun a b => ∀ e, m b = some e → e.parent ≠ some a) := by
  obtain ⟨map,m,hrun,h⟩ := calls_refine (holds_init m₀) cs hf
  obtain ⟨t,hs,ht⟩ := id h
  refine ⟨map,m,t,hrun,hs,ht,?_,?_,?_,?_⟩
  · intro entry key hn hk
    rw [ht] at hn
    obtain ⟨u,hu,hut⟩ := withEntry_congr key h hn
    rw [ht,← hut] at hk
    exact insert_present (y := ⟨entry,key⟩) hu (Function.update_self ..) hk
  · intro key hk
    have hr := remove_spec h key
    rw [ht] at hk
    rwa [Library.OrderedTable.find_eq_none.mpr hk] at hr
  · intro func ptr h0
    rw [each_spec h,visit_of_zero h0,ht]
  · intro func ptr
    have hp := (postorder_perm t).map Item.addr
    refine ⟨addrs (postorder t),eachFree_spec hs ptr,hp,hp.nodup_iff.mpr hs.apart,?_⟩
    exact postorder_children_first hs.links hs.apart (fun _ _ he => by cases he)

/-- Three entries come and go, one of them twice. -/
theorem three_entries_refine :
    ∃ map m t, calls (σ := Unit) init (fun _ => none)
        [.insert 1 5,.insert 2 3,.insert 3 5,.find 3,.insert 3 9,.remove 5,.insert 1 4,.size,.remove 5] =
          some ([.code none,.code none,.code (some .invalidArgument),.entry (some 2),.code none,.code none,.code none,
            .size 3,.code (some .invalidArgument)],map,m) ∧
      Shape map m t ∧ items t = [⟨2,3⟩,⟨1,4⟩,⟨3,9⟩] := by
  obtain ⟨map,m,t,hrun,hs,ht,-⟩ := map_refines_table (σ := Unit) (fun _ => none)
    [.insert 1 5,.insert 2 3,.insert 3 5,.find 3,.insert 3 9,.remove 5,.insert 1 4,.size,.remove 5]
    (by simp only [Table.AllFresh,Table.Fresh]; decide)
  exact ⟨map,m,t,hrun,hs,ht⟩

end Spdylay.Map
