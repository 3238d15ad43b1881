import Spdylay.Transport.Preparing
import Spdylay.Wire.HeaderRoundTrip
import Spdylay.Session.SynStreamHeader

/-! The names of SPDY/2 and SPDY/3. An application always uses the SPDY/3 names; a SPDY/2
session writes the old ones and gives the new ones back. The two renamings undo each
other on the lists that use no old name. -/
namespace Spdylay.Transport
open Library Library.BinaryHeap Library.StableSort Session

variable {P Q : Platform}

/-! One name. -/

def name3to2 (name : Bytes) : Bytes := ((nv3to2.find? (fun t => t.1 = name)).map Prod.snd).getD name

def name2to3 (name : Bytes) : Bytes := ((nv3to2.find? (fun t => t.2 = name)).map Prod.fst).getD name

/-- The names that SPDY/2 uses in the place of a name with a colon. -/
def oldNames : List Bytes := nv3to2.map Prod.snd

theorem frameNv3to2_eq (nv : Nv) : frameNv3to2 nv = nv.map (fun p => (name3to2 p.1,p.2)) := by
  apply List.map_congr_left
  intro p _
  unfold name3to2
  cases nv3to2.find? (fun t => t.1 = p.1) <;> rfl

theorem frameNv2to3_eq (nv : Nv) : frameNv2to3 nv = nv.map (fun p => (name2to3 p.1,p.2)) := by
  apply List.map_congr_left
  intro p _
  unfold name2to3
  cases nv3to2.find? (fun t => t.2 = p.1) <;> rfl

theorem name3to2_row : ∀ t ∈ nv3to2, name3to2 t.1 = t.2 := by decide

theorem name2to3_row : ∀ t ∈ nv3to2, name2to3 t.2 = t.1 := by decide

theorem row_new : ∀ t ∈ nv3to2, t.1 ∉ oldNames := by decide

theorem row_eq : ∀ t ∈ nv3to2, ∀ u ∈ nv3to2, t.1 = u.1 → t = u := by decide

theorem name3to2_other {name : Bytes} (h : name ∉ nv3to2.map Prod.fst) : name3to2 name = name := by
  have hnone : nv3to2.find? (fun t => t.1 = name) = none := by
    apply List.find?_eq_none.mpr
    intro t ht heq
    exact h (List.mem_map.mpr ⟨t,ht,by simpa using heq⟩)
  unfold name3to2
  rw [hnone]
  rfl

theorem name2to3_other {name : Bytes} (h : name ∉ oldNames) : name2to3 name = name := by
  have hnone : nv3to2.find? (fun t => t.2 = name) = none := by
    apply List.find?_eq_none.mpr
    intro t ht heq
    exact h (List.mem_map.mpr ⟨t,ht,by simpa using heq⟩)
  unfold name2to3
  rw [hnone]
  rfl

/-- The renaming leaves no old name. -/
theorem name2to3_new (name : Bytes) : name2to3 name ∉ oldNames := by
  by_cases h : name ∈ oldNames
  · obtain ⟨t,ht,rfl⟩ := List.mem_map.mp h
    rw [name2to3_row t ht]
    exact row_new t ht
  · rwa [name2to3_other h]

theorem name2to3_name3to2 {name : Bytes} (h : name ∉ oldNames) : name2to3 (name3to2 name) = name := by
  by_cases hrow : name ∈ nv3to2.map Prod.fst
  · obtain ⟨t,ht,rfl⟩ := List.mem_map.mp hrow
    rw [name3to2_row t ht,name2to3_row t ht]
  · rw [name3to2_other hrow,name2to3_other h]

/-- Two names become one only where they are the two spellings of a row. -/
theorem name2to3_eq_iff (a b : Bytes) : name2to3 a = name2to3 b ↔ a = b ∨ (a,b) ∈ nv3to2 ∨ (b,a) ∈ nv3to2 := by
  constructor
  · intro h
    by_cases ha : a ∈ oldNames
    · obtain ⟨t,ht,rfl⟩ := List.mem_map.mp ha
      rw [name2to3_row t ht] at h
      by_cases hb : b ∈ oldNames
      · obtain ⟨u,hu,rfl⟩ := List.mem_map.mp hb
        rw [name2to3_row u hu] at h
        rw [row_eq t ht u hu h]
        exact .inl rfl
      · rw [name2to3_other hb] at h
        subst h
        exact .inr (.inr ht)
    · rw [name2to3_other ha] at h
      by_cases hb : b ∈ oldNames
      · obtain ⟨u,hu,rfl⟩ := List.mem_map.mp hb
        rw [name2to3_row u hu] at h
        subst h
        exact .inr (.inl hu)
      · rw [name2to3_other hb] at h
        exact .inl h
  · rintro (rfl | h | h)
    · rfl
    · rw [name2to3_other (row_new _ h),name2to3_row _ h]
    · rw [name2to3_other (row_new _ h),name2to3_row _ h]

/-! Received lists. -/

/-- The index of a block that was parsed, sorted by name. -/
def parsedIndex (qsort : Qsort) (lenSize : Nat) (input : Bytes) : NvIndex :=
  qsort (Nat × Bytes × Bytes) (fun l r => strcmp l.2.1 r.2.1)
    (unpackNvLoop lenSize (getNvLen lenSize input) 0 (input.drop lenSize) [] false).1

/-- The index after the renaming. Each pair keeps the number of its entry. -/
def receivedIndex (qsort : Qsort) (lenSize : Nat) (input : Bytes) : NvIndex :=
  (parsedIndex qsort lenSize input).map (fun x => (x.1,name2to3 x.2.1,x.2.2))

/-- An entry of the block has this name. -/
def NamesEntry (lenSize : Nat) (input name : Bytes) : Prop :=
  ∃ es, Spdylay.Fits lenSize es ∧ input = blockBytes lenSize es ∧ name ∈ es.map (fun e => e.1)

theorem indexNv_receivedIndex (qsort : Qsort) (lenSize : Nat) (input : Bytes) :
    indexNv (receivedIndex qsort lenSize input) = frameNv2to3 (indexNv (parsedIndex qsort lenSize input)) := by
  rw [frameNv2to3_eq]
  unfold indexNv receivedIndex
  rw [List.map_map,List.map_map]
  rfl

theorem cstr_name2to3 {e : Bytes × Bytes} (h : invalidEntry e = false) :
    cstr (name2to3 (cstr e.1)) = name2to3 (cstr e.1) := by
  by_cases hold : cstr e.1 ∈ oldNames
  · have hrows : ∀ t ∈ nv3to2, cstr (name2to3 t.2) = name2to3 t.2 := by decide
    obtain ⟨t,ht,heq⟩ := List.mem_map.mp hold
    rw [← heq]
    exact hrows t ht
  · rw [name2to3_other hold,cstr_name h,cstr_name h]

/-- The entries with their names as the application gets them. -/
def renamedEntries (es : List (Bytes × Bytes)) : List (Bytes × Bytes) := es.map (fun e => (name2to3 (cstr e.1),e.2))

theorem entryIndex_renamed (i : Nat) {es : List (Bytes × Bytes)} (h : ∀ e ∈ es, invalidEntry e = false) :
    (entryIndex i es).map (fun x => (x.1,name2to3 x.2.1,x.2.2)) = entryIndex i (renamedEntries es) := by
  induction es generalizing i with
  | nil => rfl
  | cons e es ih =>
    obtain ⟨he,hes⟩ := List.forall_mem_cons.mp h
    have hrest := ih (i+1) hes
    unfold renamedEntries at hrest ⊢
    rw [List.map_cons]
    unfold entryIndex entryPairs
    rw [List.map_append,hrest,cstr_name2to3 he]
    simp only [List.map_map]
    rfl

theorem pairwise_renamed {es : List (Bytes × Bytes)} (hvalid : ∀ e ∈ es, invalidEntry e = false)
    (hnames : (es.map (fun e => e.1)).Nodup) :
    ((entryIndex 0 es).map (fun x => (x.1,name2to3 x.2.1,x.2.2))).Pairwise OneEntry ↔
      ∀ t ∈ nv3to2, ¬(t.1 ∈ es.map (fun e => e.1) ∧ t.2 ∈ es.map (fun e => e.1)) := by
  have hmap : (renamedEntries es).map (fun e => cstr e.1) = (es.map (fun e => e.1)).map name2to3 := by
    unfold renamedEntries
    rw [List.map_map,List.map_map]
    apply List.map_congr_left
    intro e he
    exact (cstr_name2to3 (hvalid e he)).trans (congrArg name2to3 (cstr_name (hvalid e he)))
  rw [entryIndex_renamed 0 hvalid,pairwise_entryIndex,hmap,List.nodup_map_iff_inj_on hnames]
  constructor
  · rintro h t ht ⟨hnew,hold⟩
    have heq : t.1 = t.2 := h t.1 hnew t.2 hold ((name2to3_eq_iff _ _).mpr (.inr (.inl ht)))
    apply row_new t ht
    rw [heq]
    exact List.mem_map_of_mem ht
  · intro h a ha b hb heq
    rcases (name2to3_eq_iff a b).mp heq with hab | hab | hab
    · exact hab
    · exact absurd ⟨ha,hb⟩ (h _ hab)
    · exact absurd ⟨hb,ha⟩ (h _ hab)

theorem namesEntry_iff {lenSize : Nat} (hl : lenSize = 2 ∨ lenSize = 4) {es : List (Bytes × Bytes)}
    (hes : Accepted lenSize es) (name : Bytes) :
    NamesEntry lenSize (blockBytes lenSize es) name ↔ name ∈ es.map (fun e => e.1) := by
  constructor
  · rintro ⟨es',hfits,hblock,hname⟩
    -- both lists of entries give the parser's index, which has the names of either
    have hindex : entryIndex 0 es' = entryIndex 0 es := by
      have hx := unpackNvLoop_block hl hfits
      rw [← hblock,unpackNvLoop_block hl hes.fits] at hx
      exact (congrArg Prod.fst hx).symm
    have hvalid' : ∀ e ∈ es', invalidEntry e = false := by
      have hany := any_invalidEntry_eq hl hes.fits hfits hblock
      have hnone : es.any invalidEntry = false := by
        have := hes.valid
        simpa using this
      rw [hnone] at hany
      simpa using hany.symm
    obtain ⟨e,he,rfl⟩ := List.mem_map.mp hname
    obtain ⟨x,hx,hxn⟩ := name_mem_entryIndex (i := 0) he
    rw [hindex] at hx
    have hmem := (mem_entryIndex hx).2
    rw [hxn,cstr_name (hvalid' e he)] at hmem
    obtain ⟨e',he',heq⟩ := List.mem_map.mp hmem
    rw [← heq,cstr_name (hes.valid e' he')]
    exact List.mem_map_of_mem he'
  · intro h
    exact ⟨es,hes.fits,rfl,h⟩

/-- In the list that a SPDY/2 session gives to its application, pairs with one name come
from one entry of the accepted block exactly when the block does not have both spellings
of a name. -/
theorem received_names_unique_iff (hq : Sorts P.qsort) {s : Session} (hs : s.version = .spdy2) {lenSize : Nat}
    (hl : lenSize = 2 ∨ lenSize = 4) {m m' : Mem} {input : Bytes} {nv : Nv}
    (h : frameUnpackNv P.qsort m input lenSize = (m',nv,none)) :
    s.receivedNv nv = indexNv (receivedIndex P.qsort lenSize input) ∧
    ((receivedIndex P.qsort lenSize input).Pairwise OneEntry ↔
      ∀ t ∈ nv3to2, ¬(NamesEntry lenSize input t.1 ∧ NamesEntry lenSize input t.2)) := by
  obtain ⟨-,-,es,hes,rfl,rfl⟩ := (frameUnpackNv_ok_iff hq hl m m' input nv).mp h
  have hindex : parsedIndex P.qsort lenSize (blockBytes lenSize es) =
      P.qsort (Nat × Bytes × Bytes) (fun l r => strcmp l.2.1 r.2.1) (entryIndex 0 es) := by
    unfold parsedIndex
    rw [unpackNvLoop_block hl hes.fits]
  refine ⟨?_,?_⟩
  · unfold receivedNv
    rw [hs,indexNv_receivedIndex,hindex]
    rfl
  · have hperm := hq.perm _ _ (entryIndex 0 es) (name_order (fun x : Nat × Bytes × Bytes => x.2.1))
    have hsymm : ∀ {x y : Nat × Bytes × Bytes}, OneEntry x y → OneEntry y x := fun h hxy => (h hxy.symm).symm
    unfold receivedIndex
    rw [hindex,(hperm.map _).pairwise_iff hsymm,pairwise_renamed hes.valid hes.names]
    apply forall₂_congr
    intro t _
    rw [namesEntry_iff hl hes,namesEntry_iff hl hes]

/-- A block with the entries `:host: a` and `host: b`. -/
def twoHosts : Bytes := blockBytes 2 [([58,104,111,115,116],[97]),([104,111,115,116],[98])]

def spdy2Server : Session := (⟨true,.spdy2,.int32,false,⟨[],[],[],[],[]⟩⟩ : Setup).start samplePlatform

/-- Both hosts are given to the application under one name. -/
theorem two_hosts_received :
    Sorts samplePlatform.qsort ∧ spdy2Server.version = .spdy2 ∧
    (∃ nv, frameUnpackNv samplePlatform.qsort [] twoHosts 2 = ([],nv,none) ∧
      spdy2Server.receivedNv nv = indexNv (receivedIndex samplePlatform.qsort 2 twoHosts)) ∧
    ¬(receivedIndex samplePlatform.qsort 2 twoHosts).Pairwise OneEntry := by
  have hindex : receivedIndex samplePlatform.qsort 2 twoHosts =
      [(0,[58,104,111,115,116],[97]),(1,[58,104,111,115,116],[98])] := by decide +kernel
  refine ⟨insertionSort_stably.toSorts,rfl,⟨[([58,104,111,115,116],[97]),([104,111,115,116],[98])],?_,?_⟩,?_⟩
  · decide +kernel
  · rw [hindex]
    decide +kernel
  · rw [hindex]
    intro h
    cases List.rel_of_pairwise_cons h List.mem_cons_self rfl

/-- A block with the entries `:host: a` and `x: b`. -/
def oneHost : Bytes := blockBytes 2 [([58,104,111,115,116],[97]),([120],[98])]

theorem one_host_received : (receivedIndex samplePlatform.qsort 2 oneHost).Pairwise OneEntry := by
  have hok : frameUnpackNv samplePlatform.qsort [] oneHost 2 = ([],[([58,104,111,115,116],[97]),([120],[98])],none) := by
    decide +kernel
  have hes : Accepted 2 [([58,104,111,115,116],[97]),([120],[98])] := by
    refine ⟨⟨by decide,?_⟩,by decide +kernel,by decide⟩
    unfold EntryFits
    decide
  refine (received_names_unique_iff insertionSort_stably.toSorts (s := spdy2Server) rfl (.inl rfl) hok).2.mpr ?_
  intro t ht
  rw [oneHost,namesEntry_iff (.inl rfl) hes,namesEntry_iff (.inl rfl) hes]
  revert t
  decide

/-! Lists that a SPDY/2 session sends. -/

/-- Lower-case printable names and values that are not empty, short in total. -/
structure Plain (nv : List Bytes) : Prop where
  complete : frameNvCheckNull nv = true
  names : ∀ p ∈ frameNvCopy nv, p.1.all validNameByte = true
  values : ∀ p ∈ frameNvCopy nv, p.2 ≠ []
  total : ((frameNvCopy nv).map (fun p => p.1.length+p.2.length)).sum < 65536

theorem downcaseByte_valid {c : UInt8} (h : validNameByte c = true) : downcaseByte c = c := by
  have hup := ((validNameByte_iff c).mp h).2.2
  apply if_neg
  rwa [UInt8.le_iff_toNat_le,UInt8.le_iff_toNat_le]

theorem frameNvDowncase_valid {nv : Nv} (h : ∀ p ∈ nv, p.1.all validNameByte = true) : frameNvDowncase nv = nv := by
  refine (List.map_congr_left fun p hp => ?_).trans (List.map_id _)
  have hname : p.1.map downcaseByte = p.1 :=
    (List.map_congr_left fun c hc => downcaseByte_valid (List.all_eq_true.mp (h p hp) c hc)).trans (List.map_id _)
  rw [hname]
  rfl

theorem name3to2_valid {name : Bytes} (h : name ≠ [] ∧ name.all validNameByte = true) :
    name3to2 name ≠ [] ∧ (name3to2 name).all validNameByte = true ∧ (name3to2 name).length ≤ name.length := by
  by_cases hrow : name ∈ nv3to2.map Prod.fst
  · have hrows : ∀ t ∈ nv3to2, t.2 ≠ [] ∧ t.2.all validNameByte = true ∧ t.2.length ≤ t.1.length := by decide
    obtain ⟨t,ht,rfl⟩ := List.mem_map.mp hrow
    rw [name3to2_row t ht]
    exact hrows t ht
  · rw [name3to2_other hrow]
    exact ⟨h.1,h.2,le_rfl⟩

/-- The pairs of a list under the names of SPDY/2. -/
def oldPairs (nv : Nv) : Nv := nv.map (fun p => (name3to2 p.1,p.2))

theorem frameNv2to3_oldPairs {nv : Nv} (h : ∀ p ∈ nv, p.1 ∉ oldNames) : frameNv2to3 (oldPairs nv) = nv := by
  rw [frameNv2to3_eq,oldPairs,List.map_map]
  refine (List.map_congr_left fun p hp => ?_).trans (List.map_id _)
  exact congrArg (·,p.2) (name2to3_name3to2 (h p hp))

theorem frameNv2to3_perm {nv nv' : Nv} (h : nv.Perm nv') : (frameNv2to3 nv).Perm (frameNv2to3 nv') := h.map _

section Sending
variable {s : Session} {nv : List Bytes}

theorem frameNvSort_perm (hq : Sorts P.qsort) (nv : Nv) : (frameNvSort P.qsort nv).Perm nv :=
  hq.perm _ _ _ (name_order (fun p : Bytes × Bytes => p.1))

theorem frameNvNormCopy_perm (hq : Sorts P.qsort) (h : Plain nv) :
    (frameNvNormCopy P.qsort nv).Perm (frameNvCopy nv) := by
  rw [frameNvNormCopy,frameNvDowncase_valid h.names]
  exact frameNvSort_perm hq _

theorem wireNv_perm (hq : Sorts P.qsort) (hs : s.version = .spdy2) (h : Plain nv) :
    (s.wireNv P (frameNvNormCopy P.qsort nv)).Perm (oldPairs (frameNvCopy nv)) := by
  rw [wireNv,hs]
  refine (frameNvSort_perm hq _).trans ?_
  rw [frameNv3to2_eq]
  exact (frameNvNormCopy_perm hq h).map _

theorem wireNv_sorted (hq : Sorts P.qsort) (hs : s.version = .spdy2) (nv : Nv) :
    Sorted (fun a b => strcmp a.1 b.1) (s.wireNv P nv) := by
  rw [wireNv,hs]
  exact hq.sorted _ _ _ (name_order (fun p : Bytes × Bytes => p.1))

theorem appNv_perm (hq : Sorts P.qsort) (hs : s.version = .spdy2) (h : Plain nv)
    (hold : ∀ p ∈ frameNvCopy nv, p.1 ∉ oldNames) :
    (s.appNv P (s.wireNv P (frameNvNormCopy P.qsort nv))).Perm (frameNvCopy nv) := by
  rw [appNv,hs]
  refine (frameNvSort_perm hq _).trans ?_
  have hx := frameNv2to3_perm (wireNv_perm hq hs h)
  rwa [frameNv2to3_oldPairs hold] at hx

theorem mem_oldPairs (h : Plain nv) : ∀ p ∈ oldPairs (frameNvCopy nv),
    p.1 ≠ [] ∧ p.1.all validNameByte = true ∧ (∀ c ∈ p.2, c ≠ 0) ∧ p.2 ≠ [] := by
  intro p hp
  obtain ⟨q,hq,rfl⟩ := List.mem_map.mp hp
  obtain ⟨hne,hvalue⟩ := mem_frameNvCopy h.complete q hq
  obtain ⟨hne',hvalid,-⟩ := name3to2_valid ⟨hne,h.names q hq⟩
  exact ⟨hne',hvalid,hvalue,h.values q hq⟩

theorem total_oldPairs (h : Plain nv) :
    ((oldPairs (frameNvCopy nv)).map (fun p => p.1.length+p.2.length)).sum < 65536 := by
  refine lt_of_le_of_lt ?_ h.total
  rw [oldPairs,List.map_map]
  apply List.sum_le_sum
  intro p hp
  have hne := (mem_frameNvCopy h.complete p hp).1
  exact Nat.add_le_add_right (name3to2_valid ⟨hne,h.names p hp⟩).2.2 _

/-- The peer reads the pairs that were written. -/
theorem wireNv_unpacks {qsort : Qsort} (hP : Sorts P.qsort) (hQ : Sorts qsort) (hs : s.version = .spdy2)
    (h : Plain nv) {m : Mem} (hm : m.headD true = true) :
    ∃ m' nv', frameUnpackNv qsort m (packedBlock (s.wireNv P (frameNvNormCopy P.qsort nv)) 2) 2 = (m',nv',none) ∧
      nv'.Perm (oldPairs (frameNvCopy nv)) := by
  have hperm := wireNv_perm hP hs h
  have hsorted := wireNv_sorted hP hs (frameNvNormCopy P.qsort nv)
  have hmem := fun p hp => mem_oldPairs h p (hperm.subset hp)
  generalize s.wireNv P (frameNvNormCopy P.qsort nv) = wire at hperm hsorted hmem
  have hlen := framePackNv_length (.inl rfl) (fun p hp => (hmem p hp).1)
  have hempty : NoEmptyBefore wire := by
    have hp : wire.Pairwise (fun p q => p.1 = q.1 → p.2 ≠ []) :=
      List.pairwise_of_forall_mem_list (fun p hp _ _ _ => (hmem p hp).2.2.2)
    exact hp.isChain
  have hsizes : SizesFit 2 wire := by
    apply sizesFit_of_total (fun p hp => (hmem p hp).1)
    rw [(hperm.map _).sum_eq]
    exact total_oldPairs h
  obtain ⟨m',nv',hok,hnv⟩ := (sorted_list_unpacks_iff hQ (.inl rfl) m hsorted
    (fun p hp => ⟨(hmem p hp).1,(hmem p hp).2.1,(hmem p hp).2.2.1⟩)).mpr ⟨hm,hempty,hsizes⟩
  refine ⟨m',nv',?_,hnv.trans hperm⟩
  rwa [packedBlock,← hlen,List.take_length]

end Sending

/-! The list that stays in the frame. -/

/-- The list of names and values in an item. -/
def itemList (item : OutboundItem) : Option (Nat × Nv) :=
  match item.frame with
  | .ctrl f => headerList f
  | .data _ => none

theorem prepSynStreamPack_list {s : Session} {item : OutboundItem} {f : SynStream} {bytes : Bytes}
    (h : (prepSynStreamPack P s item f).result = .ok bytes) :
    itemList (prepSynStreamPack P s item f).item = some (f.hd.version,s.appNv P (s.wireNv P f.nv)) := by
  rw [prepSynStreamPack] at h ⊢
  dsimp only at h ⊢
  split at h
  · cases h
  rename_i hlen
  rw [if_neg hlen]
  split at h
  · cases h
  split at h
  · rename_i hopen
    rw [if_pos hopen]
    rfl
  · cases h

theorem prepStreamHeaders_list {s : Session} {item : OutboundItem} {type : FrameType} {wrap : StreamHeaders → Frame}
    {f : StreamHeaders} (hl : ∀ f, headerList (wrap f) = some (f.hd.version,f.nv)) {bytes : Bytes}
    (h : (prepStreamHeaders P s item type wrap f).result = .ok bytes) :
    itemList (prepStreamHeaders P s item type wrap f).item = some (f.hd.version,s.appNv P (s.wireNv P f.nv)) := by
  rw [prepStreamHeaders] at h ⊢
  dsimp only at h ⊢
  split at h
  · cases h
  rename_i hlen
  rw [if_neg hlen]
  split at h
  · cases h
  split at h
  · cases h
  exact hl _

/-- A frame that was prepared keeps its list renamed and renamed back. -/
theorem prepFrame_list {s : Session} (hs : s.version = .spdy2) {item : OutboundItem} {v : Nat} {nv : Nv}
    (hi : itemList item = some (v,nv)) {bytes : Bytes} (h : (prepFrame P s item).result = .ok bytes) :
    itemList (prepFrame P s item).item = some (v,s.appNv P (s.wireNv P nv)) := by
  rw [itemList] at hi
  rw [prepFrame] at h ⊢
  split at h
  · rename_i f hf
    rw [hf] at hi
    cases hi
    rw [prepSynStream] at h ⊢
    split at h
    · cases h
    rename_i hsend
    rw [if_neg (by rw [hs]; simp)] at h ⊢
    exact prepSynStreamPack_list h
  · rename_i f hf
    rw [hf] at hi
    cases hi
    split at h
    · cases h
    · exact prepStreamHeaders_list (fun _ => rfl) h
  case h_6 f hf =>
    rw [hf] at hi
    cases hi
    split at h
    · cases h
    · exact prepStreamHeaders_list (fun _ => rfl) h
  all_goals
    rename_i hf
    rw [hf] at hi
    cases hi

/-- The block of a frame that was prepared went through the compressor. -/
theorem prepFrame_compresses {s : Session} (hs : s.version = .spdy2) {item : OutboundItem} {v : Nat} {nv : Nv}
    (hi : itemList item = some (v,nv)) {bytes : Bytes} (h : (prepFrame P s item).result = .ok bytes) :
    (prepFrame P s item).ses.hdDeflater = s.hdDeflater ++ [packedBlock (s.wireNv P nv) (frameGetLenSize v)] := by
  have hlist := prepFrame_list hs hi h
  have houtcome := prepFrame_outcome (P := P) s item
  generalize prepFrame P s item = p at houtcome hlist h
  rw [itemList] at hi
  cases houtcome with
  | refused e he _ => cases he.symm.trans h
  | lost f block e he _ _ _ _ _ => cases he.symm.trans h
  | plain f _ _ _ hf hplain _ =>
    rw [hf] at hi
    cases f <;> simp [headerList,packedPlain] at hi hplain
  | headers f f' block _ _ hf _ hblock _ hsq =>
    rw [hf] at hi
    obtain ⟨⟨s1,hroom,hside⟩,-⟩ := hsq
    have hd : p.ses.hdDeflater = s1.hdDeflater ++ [block] := congrArg SendSide.hdDeflater hside
    have hb : block = packedBlock (s.wireNv P nv) (frameGetLenSize v) := by
      dsimp only at hi
      rw [blockOf,hi] at hblock
      exact (Option.some.inj hblock).symm
    rw [hd,hroom.hdDeflater,hb]
  | data d _ _ _ _ _ hd _ _ _ _ _ =>
    rw [itemList,hd] at hlist
    cases hlist

/-! The list that the peer gets. -/

/-- A frame of the type is complete, its fixed part and its block are there and there is
memory for its list. -/
structure HoldsBlock (t : Session) (type : FrameType) (block : Bytes) : Prop where
  version : (frameUnpackCtrlHd t.iframe.headbuf).version = 2
  parsed : t.iframe.errorCode = none
  fixed : frameNvOffset type 2 = some (headLen+t.iframe.buflen)
  inflated : t.iframe.inflatebuf.bytes = block
  memory : t.host.mem.headD true = true

/-- The list of a frame as it is processed, and whether the frame was parsed. -/
def processedList (Q : Platform) (t : Session) : FrameType → Nv × Option Err
  | .synStream => (t.receivedNv (t.parseSynStream Q).2.1.nv,(t.parseSynStream Q).2.2)
  | type => (t.receivedNv (t.parseStreamHeaders Q type).2.1.nv,(t.parseStreamHeaders Q type).2.2)

theorem processedList_eq {t : Session} {type : FrameType} (ht : type = .synStream ∨ type = .synReply ∨ type = .headers)
    {block : Bytes} (h : HoldsBlock t type block) {m' : Mem} {nv : Nv}
    (hnv : frameUnpackNv Q.qsort t.host.mem block 2 = (m',nv,none)) :
    processedList Q t type = (t.receivedNv nv,none) := by
  have hv := h.version
  have hfixed := h.fixed
  rcases ht with rfl | rfl | rfl
  · have hoff : headLen+t.iframe.buflen = synStreamNvOffset := (Option.some.inj hfixed).symm
    simp [processedList,parseSynStream,h.parsed,frameUnpackSynStream,frameUnpackSynStreamWithoutNv,hoff,hv,
      frameGetLenSize,h.inflated,hnv]
  · have hoff : headLen+t.iframe.buflen = 14 := (Option.some.inj hfixed).symm
    simp [processedList,parseStreamHeaders,h.parsed,unpackStreamHeaders,unpackStreamHeadersWithoutNv,frameNvOffset,hoff,
      hv,frameGetLenSize,h.inflated,hnv]
  · have hoff : headLen+t.iframe.buflen = 14 := (Option.some.inj hfixed).symm
    simp [processedList,parseStreamHeaders,h.parsed,unpackStreamHeaders,unpackStreamHeadersWithoutNv,frameNvOffset,hoff,
      hv,frameGetLenSize,h.inflated,hnv]

/-- A list that uses no old name stays in the frame of a SPDY/2 session as it was
submitted, and a SPDY/2 peer whose inflater restores the block gets the same pairs. -/
theorem spdy2_lists_transparent (hP : Sorts P.qsort) (hQ : Sorts Q.qsort) {s t : Session} (hs : s.version = .spdy2)
    (ht : t.version = .spdy2) {nv : List Bytes} (h : Plain nv) (hold : ∀ p ∈ frameNvCopy nv, p.1 ∉ oldNames)
    {item : OutboundItem} (hi : itemList item = some (2,frameNvNormCopy P.qsort nv)) {bytes : Bytes}
    (hok : (prepFrame P s item).result = .ok bytes) :
    (∃ nv', itemList (prepFrame P s item).item = some (2,nv') ∧ nv'.Perm (frameNvCopy nv)) ∧
    ∃ block, (prepFrame P s item).ses.hdDeflater = s.hdDeflater ++ [block] ∧
      ∀ type, type = .synStream ∨ type = .synReply ∨ type = .headers → HoldsBlock t type block →
        (processedList Q t type).2 = none ∧ (processedList Q t type).1.Perm (frameNvCopy nv) := by
  refine ⟨⟨_,prepFrame_list hs hi hok,appNv_perm hP hs h hold⟩,?_⟩
  refine ⟨packedBlock (s.wireNv P (frameNvNormCopy P.qsort nv)) 2,?_,?_⟩
  · exact prepFrame_compresses hs hi hok
  · intro type htype hheld
    obtain ⟨m',nv',hnv,hperm⟩ := wireNv_unpacks hP hQ hs h hheld.memory
    rw [processedList_eq htype hheld hnv,receivedNv,ht]
    refine ⟨rfl,?_⟩
    have hx := frameNv2to3_perm hperm
    rwa [frameNv2to3_oldPairs hold] at hx

def hostBlock : Bytes := [56,234,223,162,81,178,98,96,100,96,1,229,18,6,198,68,0,0,0,0,255,255]

/-- zlib's answers for the block with the entry `host: a`. -/
def hostPlatform : Platform := blockPlatform [0,1,0,4,104,111,115,116,0,1,97] hostBlock
  [(7,[0]),(8,[1]),(9,[0]),(10,[4]),(12,[104,111,115,116]),(13,[0]),(14,[1]),(15,[97])]

def spdy2Client : Session := (⟨false,.spdy2,.int32,false,⟨[],[],[],[],[]⟩⟩ : Setup).start hostPlatform

/-- The item of a request with these names and values. -/
def requestItem (nv : List Bytes) : OutboundItem :=
  ⟨.ctrl (.synStream (submittedSynStream hostPlatform spdy2Client 1 0 0 nv 0 0)),none,0,0⟩

/-- A request with the old name `host` keeps the name `:host`. -/
theorem old_name_not_kept :
    let nv : List Bytes := [[104,111,115,116],[97]]
    Sorts hostPlatform.qsort ∧ spdy2Client.version = .spdy2 ∧ Plain nv ∧
    itemList (requestItem nv) = some (2,frameNvNormCopy hostPlatform.qsort nv) ∧
    (∃ bytes, (prepFrame hostPlatform spdy2Client (requestItem nv)).result = .ok bytes) ∧
    ¬∃ nv', itemList (prepFrame hostPlatform spdy2Client (requestItem nv)).item = some (2,nv') ∧
      nv'.Perm (frameNvCopy nv) := by
  intro nv
  have hlist : itemList (prepFrame hostPlatform spdy2Client (requestItem nv)).item =
      some (2,[([58,104,111,115,116],[97])]) := by decide +kernel
  refine ⟨insertionSort_stably.toSorts,rfl,⟨by decide,by decide,by decide,by decide⟩,by decide +kernel,?_,?_⟩
  · exact ⟨framePackSynStream ⟨⟨2,1,32⟩,1,0,0,0,[]⟩ hostBlock,by decide +kernel⟩
  · rintro ⟨nv',hnv,hperm⟩
    rw [hlist] at hnv
    cases hnv
    revert hperm
    decide

/-- A server that has been given the frame of the request but for its last byte. -/
def hostReceiver : Session := ((⟨true,.spdy2,.int32,false,⟨[],[],[],[],[]⟩⟩ : Setup).start hostPlatform).run hostPlatform
  [.memRecv (framePackSynStream ⟨⟨2,1,32⟩,1,0,0,0,[]⟩ hostBlock).dropLast]

/-- The server when it has read the last byte and is about to process the frame. -/
def hostServer : Session := hostReceiver.recvChunk hostPlatform [255]

theorem new_name_kept :
    let nv : List Bytes := [[58,104,111,115,116],[97]]
    (∃ nv', itemList (prepFrame hostPlatform spdy2Client (requestItem nv)).item = some (2,nv') ∧
      nv'.Perm (frameNvCopy nv)) ∧
    (processedList hostPlatform hostServer .synStream).2 = none ∧
    (processedList hostPlatform hostServer .synStream).1.Perm (frameNvCopy nv) ∧
    .ctrlRecv (.synStream ⟨⟨2,1,32⟩,1,0,0,0,[([58,104,111,115,116],[97])]⟩) ∈
      (hostReceiver.run hostPlatform [.memRecv [255]]).host.log := by
  intro nv
  have hok : (prepFrame hostPlatform spdy2Client (requestItem nv)).result =
      .ok (framePackSynStream ⟨⟨2,1,32⟩,1,0,0,0,[]⟩ hostBlock) := by decide +kernel
  have hdeflater : (prepFrame hostPlatform spdy2Client (requestItem nv)).ses.hdDeflater =
      [[0,1,0,4,104,111,115,116,0,1,97]] := by decide +kernel
  have hplain : Plain nv := ⟨by decide,by decide,by decide,by decide⟩
  obtain ⟨hlist,block,hblock,hpeer⟩ := spdy2_lists_transparent (Q := hostPlatform) (t := hostServer)
    insertionSort_stably.toSorts insertionSort_stably.toSorts rfl (by decide +kernel) hplain (by decide) (by decide +kernel) hok
  rw [hdeflater] at hblock
  cases hblock
  have hheld : HoldsBlock hostServer .synStream [0,1,0,4,104,111,115,116,0,1,97] :=
    ⟨by decide +kernel,by decide +kernel,by decide +kernel,by decide +kernel,by decide +kernel⟩
  obtain ⟨hparsed,hperm⟩ := hpeer .synStream (.inl rfl) hheld
  exact ⟨hlist,hparsed,hperm,by decide +kernel⟩

end Spdylay.Transport
