import Spdylay.Wire.HeaderBlocks

/-! Reading what was written and writing what was read. A list whose equal names are
neighbours is the pairs of its entries, one entry for a name, and the packer writes
those entries. -/
namespace Spdylay
open Library Library.BinaryHeap Library.StableSort

/-! Joined values. -/

theorem valuePieces_zero_cons (cs : Bytes) : valuePieces (0 :: cs) = [] :: valuePieces cs := by
  rw [valuePieces,if_pos rfl]

theorem valuePieces_cons {c : UInt8} {cs p : Bytes} {ps : List Bytes} (hc : c ≠ 0) (hp : valuePieces cs = p :: ps) :
    valuePieces (c :: cs) = (c :: p) :: ps := by
  rw [valuePieces,if_neg hc,hp]

theorem valuePieces_join (value : Bytes) :
    ∃ p ps, valuePieces value = p :: ps ∧ value = p ++ ps.flatMap (fun v => 0 :: v) := by
  induction value with
  | nil => exact ⟨[],[],rfl,rfl⟩
  | cons c cs ih =>
    obtain ⟨p,ps,hp,hcs⟩ := ih
    by_cases hc : c = 0
    · subst hc
      refine ⟨[],p :: ps,?_,?_⟩
      · rw [valuePieces_zero_cons,hp]
      · rw [List.flatMap_cons]
        exact congrArg (0 :: ·) hcs
    · exact ⟨c :: p,ps,valuePieces_cons hc hp,congrArg (c :: ·) hcs⟩

theorem valuePieces_append (a b : Bytes) : valuePieces (a ++ 0 :: b) = valuePieces a ++ valuePieces b := by
  induction a with
  | nil => exact valuePieces_zero_cons b
  | cons c cs ih =>
    rw [List.cons_append]
    by_cases hc : c = 0
    · rw [hc,valuePieces_zero_cons,valuePieces_zero_cons,ih]
      rfl
    · obtain ⟨p,ps,hp,-⟩ := valuePieces_join cs
      have hrest : valuePieces (cs ++ 0 :: b) = p :: (ps ++ valuePieces b) := by
        rw [ih,hp]
        rfl
      rw [valuePieces_cons hc hp,valuePieces_cons hc hrest]
      rfl

theorem valuePieces_single {v : Bytes} (h : ∀ c ∈ v, c ≠ 0) : valuePieces v = [v] := by
  induction v with
  | nil => rfl
  | cons c cs ih =>
    obtain ⟨hc,hcs⟩ := List.forall_mem_cons.mp h
    unfold valuePieces
    rw [if_neg hc,ih hcs]

theorem packNvStep_same (acc : List (Bytes × Bytes)) (name v w : Bytes) :
    packNvStep (acc ++ [(name,v)]) (name,w) = acc ++ [(name,v ++ 0 :: w)] := by
  unfold packNvStep
  rw [List.getLast?_concat,List.dropLast_concat]
  exact if_pos rfl

theorem packNvStep_new {acc : List (Bytes × Bytes)} {p : Bytes × Bytes} (h : p.1 ∉ acc.map (fun e => e.1)) :
    packNvStep acc p = acc ++ [p] := by
  unfold packNvStep
  cases hlast : acc.getLast? with
  | none =>
    rw [List.getLast?_eq_none_iff.mp hlast]
    rfl
  | some last =>
    refine if_neg (fun hname => h ?_)
    rw [← hname]
    exact List.mem_map_of_mem (List.mem_of_getLast? hlast)

theorem foldl_packNvStep_same (acc : List (Bytes × Bytes)) (name v : Bytes) (ps : List Bytes) :
    (ps.map (fun w => (name,w))).foldl packNvStep (acc ++ [(name,v)]) =
      acc ++ [(name,v ++ ps.flatMap (fun w => 0 :: w))] := by
  induction ps generalizing v with
  | nil => simp
  | cons p ps ih =>
    rw [List.map_cons,List.foldl_cons,packNvStep_same,ih,List.flatMap_cons]
    simp

theorem foldl_packNvStep_entry {acc : List (Bytes × Bytes)} {e : Bytes × Bytes} (h : e.1 ∉ acc.map (fun x => x.1)) :
    (entryPairs e).foldl packNvStep acc = acc ++ [e] := by
  obtain ⟨p,ps,hp,hv⟩ := valuePieces_join e.2
  unfold entryPairs
  rw [hp,List.map_cons,List.foldl_cons,packNvStep_new (p := (e.1,p)) h,foldl_packNvStep_same,← hv]

/-- The packer restores the entries from their pairs. -/
theorem foldl_packNvStep_entries {acc es : List (Bytes × Bytes)} (h : ((acc ++ es).map (fun e => e.1)).Nodup) :
    (es.flatMap entryPairs).foldl packNvStep acc = acc ++ es := by
  induction es generalizing acc with
  | nil => simp
  | cons e es ih =>
    have hnot : e.1 ∉ acc.map (fun x => x.1) := by
      rw [List.map_append,List.map_cons,List.nodup_append] at h
      exact fun hm => h.2.2 _ hm _ List.mem_cons_self rfl
    rw [List.flatMap_cons,List.foldl_append,foldl_packNvStep_entry hnot,ih]
    · exact List.append_assoc _ _ _
    · rwa [List.append_assoc]

theorem framePackNv_entries {es : List (Bytes × Bytes)} (h : (es.map (fun e => e.1)).Nodup) (lenSize : Nat) :
    framePackNv (es.flatMap entryPairs) lenSize = blockBytes lenSize es := by
  rw [framePackNv_eq,foldl_packNvStep_entries (by simpa using h)]
  rfl

/-! What the parser accepted can be packed again. -/

theorem Accepted.perm {lenSize : Nat} {es es' : List (Bytes × Bytes)} (h : Accepted lenSize es) (hp : es'.Perm es) :
    Accepted lenSize es' where
  fits := ⟨hp.length_eq ▸ h.fits.count,fun e he => h.fits.entries e (hp.subset he)⟩
  valid e he := h.valid e (hp.subset he)
  names := (hp.map _).nodup_iff.mpr h.names

theorem entryPairs_name {e p : Bytes × Bytes} (h : p ∈ entryPairs e) : p.1 = e.1 := by
  obtain ⟨v,-,rfl⟩ := List.mem_map.mp h
  rfl

theorem filter_flatMap_entryPairs (k : Bytes × Bytes) (es : List (Bytes × Bytes)) :
    (es.flatMap entryPairs).filter (tied (fun a b => strcmp a.1 b.1) k) =
      (es.filter (tied (fun a b => strcmp a.1 b.1) k)).flatMap entryPairs := by
  induction es with
  | nil => rfl
  | cons e es ih =>
    rw [List.flatMap_cons,List.filter_append,ih]
    by_cases hk : k.1 = e.1
    · rw [List.filter_cons_of_pos (tied_name.mpr hk),List.flatMap_cons,List.filter_eq_self.mpr]
      exact fun p hp => tied_name.mpr (hk.trans (entryPairs_name hp).symm)
    · rw [List.filter_cons_of_neg (fun h => hk (tied_name.mp h)),List.filter_eq_nil_iff.mpr]
      · rfl
      · exact fun p hp h => hk ((tied_name.mp h).trans (entryPairs_name hp))

/-- The index is sorted as the pairs in it are. -/
theorem unpackedNv_pairs {qsort : Qsort} (hq : SortsStably qsort) {es : List (Bytes × Bytes)}
    (hvalid : ∀ e ∈ es, invalidEntry e = false) :
    unpackedNv qsort es = qsort _ (fun a b => strcmp a.1 b.1) (es.flatMap entryPairs) := by
  rw [← indexNv_entryIndex 0 hvalid]
  exact hq.map (name_order (fun p : Bytes × Bytes => p.1)) (fun x : Nat × Bytes × Bytes => x.2) (entryIndex 0 es)

/-- A stable sort of the pairs sorts the entries and keeps each of them together. -/
theorem unpackedNv_eq {qsort : Qsort} (hq : SortsStably qsort) {es : List (Bytes × Bytes)}
    (hvalid : ∀ e ∈ es, invalidEntry e = false) :
    unpackedNv qsort es = (qsort _ (fun a b => strcmp a.1 b.1) es).flatMap entryPairs := by
  have ho := name_order (fun p : Bytes × Bytes => p.1)
  rw [unpackedNv_pairs hq hvalid]
  apply Sorted.eq_of_filter ho
  · exact hq.sorted _ _ _ ho
  · refine List.pairwise_flatMap.mpr ⟨?_,?_⟩
    · intro e _
      refine List.pairwise_of_forall_mem_list (fun p hp q hq => ?_)
      change strcmp p.1 q.1 ≤ 0
      rw [entryPairs_name hp,entryPairs_name hq]
      exact (strcmp_eq_zero.mpr rfl).le
    · refine (hq.sorted _ _ es ho).imp (fun {a b} hab p hp q hq => ?_)
      change strcmp p.1 q.1 ≤ 0
      rw [entryPairs_name hp,entryPairs_name hq]
      exact hab
  · intro k
    rw [hq.stable _ _ _ _ ho,filter_flatMap_entryPairs,filter_flatMap_entryPairs,hq.stable _ _ _ _ ho]

theorem blockBytes_length {lenSize : Nat} (hl : lenSize = 2 ∨ lenSize = 4) {es es' : List (Bytes × Bytes)}
    (h : es'.Perm es) : (blockBytes lenSize es').length = (blockBytes lenSize es).length := by
  unfold blockBytes
  rw [List.length_append,List.length_append,putNvLen_length hl,putNvLen_length hl,(h.flatMap_right _).length_eq]

/-- A block the parser accepts is packed again to a block of its length with its
entries in the order of their names, and reading that gives the list again. -/
theorem accepted_bytes_repack {qsort : Qsort} (hq : SortsStably qsort) {lenSize : Nat}
    (hl : lenSize = 2 ∨ lenSize = 4) {m m' : Mem} {b : Bytes} {nv : Nv}
    (h : frameUnpackNv qsort m b lenSize = (m',nv,none)) :
    (framePackNv nv lenSize).length = b.length ∧
    (∃ es es', es'.Perm es ∧ Accepted lenSize es ∧ b = blockBytes lenSize es ∧
      framePackNv nv lenSize = blockBytes lenSize es') ∧
    ∀ m2 : Mem, m2.headD true = true →
      frameUnpackNv qsort m2 (framePackNv nv lenSize) lenSize = (m2.tail,nv,none) := by
  have ho := name_order (fun p : Bytes × Bytes => p.1)
  obtain ⟨-,-,es,hes,rfl,rfl⟩ := (frameUnpackNv_ok_iff hq.toSorts hl m m' b nv).mp h
  have hperm := hq.perm _ _ es ho
  have hes' := hes.perm hperm
  have hsorted := hq.eq_self ho (hq.sorted _ _ es ho)
  rw [unpackedNv_eq hq hes.valid,framePackNv_entries hes'.names]
  refine ⟨blockBytes_length hl hperm,⟨es,_,hperm,hes,rfl,rfl⟩,?_⟩
  intro m2 hm2
  refine (frameUnpackNv_ok_iff hq.toSorts hl _ _ _ _).mpr ⟨hm2,rfl,_,hes',rfl,?_⟩
  rw [unpackedNv_eq hq hes'.valid,hsorted]

def insertionQsort : Qsort := fun _ compar l => l.insertionSort (fun a b => compar a b ≤ 0)

/-! Lists with equal names next to each other. -/

/-- No empty value stands before another value of the same name. -/
def NoEmptyBefore (nv : Nv) : Prop := nv.IsChain (fun p q => p.1 = q.1 → p.2 ≠ [])

/-- The fields can hold the number of names, the length of each, and the length of
its values with a NUL between any two. -/
structure SizesFit (lenSize : Nat) (nv : Nv) : Prop where
  count : (nv.map (fun p => p.1)).dedup.length < 256^lenSize
  names : ∀ p ∈ nv, p.1.length < 256^lenSize
  values : ∀ p ∈ nv, ((nv.filter (fun q => q.1 = p.1)).map (fun q => q.2.length+1)).sum ≤ 256^lenSize

theorem pieces_length (value : Bytes) : ((valuePieces value).map (fun v => v.length+1)).sum = value.length+1 := by
  induction value with
  | nil => rfl
  | cons c cs ih =>
    by_cases hc : c = 0
    · rw [hc,valuePieces_zero_cons,List.map_cons,List.sum_cons,ih]
      simp
      omega
    · obtain ⟨p,ps,hp,-⟩ := valuePieces_join cs
      rw [hp,List.map_cons,List.sum_cons] at ih
      rw [valuePieces_cons hc hp,List.map_cons,List.sum_cons,List.length_cons,List.length_cons]
      omega

theorem mem_names_iff {es : List (Bytes × Bytes)} {name : Bytes} :
    name ∈ (es.flatMap entryPairs).map (fun p => p.1) ↔ name ∈ es.map (fun e => e.1) := by
  constructor
  · intro h
    obtain ⟨p,hp,rfl⟩ := List.mem_map.mp h
    obtain ⟨e,he,hpe⟩ := List.mem_flatMap.mp hp
    exact List.mem_map.mpr ⟨e,he,(entryPairs_name hpe).symm⟩
  · intro h
    obtain ⟨e,he,rfl⟩ := List.mem_map.mp h
    obtain ⟨v,hv⟩ := List.exists_mem_of_ne_nil _ (valuePieces_ne_nil e.2)
    exact List.mem_map.mpr ⟨(e.1,v),List.mem_flatMap.mpr ⟨e,he,List.mem_map.mpr ⟨v,hv,rfl⟩⟩,rfl⟩

/-- Where names differ, the pairs with an entry's name are the entry's. -/
theorem filter_name {es : List (Bytes × Bytes)} (h : (es.map (fun e => e.1)).Nodup) {e : Bytes × Bytes}
    (he : e ∈ es) : (es.flatMap entryPairs).filter (fun q => q.1 = e.1) = entryPairs e := by
  have hother : ∀ {x : Bytes × Bytes}, x.1 ≠ e.1 → (entryPairs x).filter (fun q => q.1 = e.1) = [] := by
    intro x hx
    refine List.filter_eq_nil_iff.mpr (fun p hp hpe => hx ?_)
    rw [← entryPairs_name hp]
    simpa using hpe
  induction es with
  | nil => cases he
  | cons x es ih =>
    rw [List.map_cons,List.nodup_cons] at h
    rw [List.flatMap_cons,List.filter_append]
    rcases List.mem_cons.mp he with rfl | he
    · have hrest : (es.flatMap entryPairs).filter (fun q => q.1 = e.1) = [] := by
        refine List.filter_eq_nil_iff.mpr (fun p hp hpe => h.1 ?_)
        rw [← mem_names_iff]
        exact List.mem_map.mpr ⟨p,hp,by simpa using hpe⟩
      rw [hrest,List.append_nil,List.filter_eq_self.mpr]
      intro p hp
      simpa using entryPairs_name hp
    · have hx : x.1 ≠ e.1 := fun hx => h.1 (hx ▸ List.mem_map_of_mem he)
      rw [hother hx,ih h.2 he]
      rfl

/-- What holds of each name and the length of its joined values. -/
theorem forall_entries_iff {es : List (Bytes × Bytes)} (h : (es.map (fun e => e.1)).Nodup) {nv : Nv}
    (hp : (es.flatMap entryPairs).Perm nv) (P : Bytes → Nat → Prop) : (∀ e ∈ es, P e.1 (e.2.length+1)) ↔
      ∀ p ∈ nv, P p.1 ((nv.filter (fun q => q.1 = p.1)).map (fun q => q.2.length+1)).sum := by
  have hvalue : ∀ e ∈ es, ((nv.filter (fun q => q.1 = e.1)).map (fun q => q.2.length+1)).sum = e.2.length+1 := by
    intro e he
    rw [← ((hp.filter _).map _).sum_eq,filter_name h he]
    unfold entryPairs
    rw [List.map_map]
    exact pieces_length e.2
  constructor
  · intro hes p hpn
    obtain ⟨e,he,hep⟩ := List.mem_map.mp (mem_names_iff.mp (List.mem_map_of_mem (hp.symm.subset hpn)))
    rw [← hep,hvalue e he]
    exact hes e he
  · intro hnv e he
    obtain ⟨p,hpm,hpe⟩ := List.mem_map.mp (mem_names_iff.mpr (List.mem_map_of_mem he))
    have hx := hnv p (hp.subset hpm)
    rwa [hpe,hvalue e he] at hx

theorem fits_iff {es : List (Bytes × Bytes)} (h : (es.map (fun e => e.1)).Nodup) {nv : Nv}
    (hp : (es.flatMap entryPairs).Perm nv) (lenSize : Nat) : Fits lenSize es ↔ SizesFit lenSize nv := by
  have hcount : (nv.map (fun p => p.1)).dedup.length = es.length := by
    have hperm : (nv.map (fun p => p.1)).dedup.Perm (es.map (fun e => e.1)) := by
      refine (List.perm_ext_iff_of_nodup (List.nodup_dedup _) h).mpr (fun name => ?_)
      rw [List.mem_dedup]
      exact ((hp.map _).mem_iff).symm.trans mem_names_iff
    rw [hperm.length_eq,List.length_map]
  have hentries := forall_entries_iff h hp (fun name len => name.length < 256^lenSize ∧ len ≤ 256^lenSize)
  constructor
  · intro hf
    have hnv := hentries.mp hf.entries
    exact ⟨by rw [hcount]; exact hf.count,fun p hpn => (hnv p hpn).1,fun p hpn => (hnv p hpn).2⟩
  · intro hs
    refine ⟨by rw [← hcount]; exact hs.count,?_⟩
    exact hentries.mpr (fun p hpn => ⟨hs.names p hpn,hs.values p hpn⟩)

/-- A list that is short enough in total fits. -/
theorem sizesFit_of_total {lenSize : Nat} {nv : Nv} (hne : ∀ p ∈ nv, p.1 ≠ [])
    (h : (nv.map (fun p => p.1.length+p.2.length)).sum < 256^lenSize) : SizesFit lenSize nv := by
  have hone : ∀ p ∈ nv, p.2.length+1 ≤ p.1.length+p.2.length := by
    intro p hp
    have := List.length_pos_iff.mpr (hne p hp)
    omega
  refine ⟨?_,?_,?_⟩
  · calc
      (nv.map (fun p => p.1)).dedup.length ≤ (nv.map (fun p => p.1)).length := (List.dedup_sublist _).length_le
      _ = (nv.map (fun _ => 1)).sum := by simp
      _ ≤ (nv.map (fun p => p.1.length+p.2.length)).sum :=
        List.sum_le_sum (fun p hp => (Nat.le_add_left 1 _).trans (hone p hp))
      _ < 256^lenSize := h
  · intro p hp
    have hle := List.single_le_sum (l := nv.map (fun p => p.1.length+p.2.length)) (fun _ _ => Nat.zero_le _) _
      (List.mem_map_of_mem hp)
    omega
  · intro p _
    calc
      ((nv.filter (fun q => q.1 = p.1)).map (fun q => q.2.length+1)).sum ≤ (nv.map (fun q => q.2.length+1)).sum :=
        (List.filter_sublist.map _).sum_le_sum (fun _ _ => Nat.zero_le _)
      _ ≤ (nv.map (fun p => p.1.length+p.2.length)).sum := List.sum_le_sum hone
      _ ≤ 256^lenSize := h.le

theorem isChain_pairs (name : Bytes) (ps : List Bytes) :
    NoEmptyBefore (ps.map (fun v => (name,v))) ↔ ∀ v ∈ ps.dropLast, v ≠ [] := by
  unfold NoEmptyBefore
  induction ps with
  | nil => simp
  | cons p ps ih =>
    cases ps with
    | nil => simp
    | cons q ps =>
      rw [List.map_cons,List.map_cons,List.isChain_cons_cons,← List.map_cons (f := fun v => (name,v)),ih,
        List.dropLast_cons_cons,List.forall_mem_cons]
      simp

/-- An entry is split badly exactly where an empty value is joined to a later one. -/
theorem noEmptyBefore_entries {es : List (Bytes × Bytes)} (h : (es.map (fun e => e.1)).Nodup) :
    NoEmptyBefore (es.flatMap entryPairs) ↔ ∀ e ∈ es, ∀ v ∈ (valuePieces e.2).dropLast, v ≠ [] := by
  induction es with
  | nil => simp [NoEmptyBefore]
  | cons e es ih =>
    rw [List.map_cons,List.nodup_cons] at h
    have hboundary : ∀ p ∈ (entryPairs e).getLast?, ∀ q ∈ (es.flatMap entryPairs).head?, p.1 = q.1 → p.2 ≠ [] := by
      intro p hp q hq hpq
      refine absurd ?_ h.1
      rw [← entryPairs_name (List.mem_of_getLast? hp),hpq,← mem_names_iff]
      exact List.mem_map_of_mem (List.mem_of_head? hq)
    rw [List.flatMap_cons,List.forall_mem_cons,← ih h.2,← isChain_pairs e.1]
    unfold NoEmptyBefore
    rw [List.isChain_append]
    exact ⟨fun hx => ⟨hx.1,hx.2.1⟩,fun hx => ⟨hx.1,hx.2,hboundary⟩⟩

/-- A list sorted by name is the pairs of entries with different names. -/
theorem exists_entries {nv : Nv} (hs : Sorted (fun a b => strcmp a.1 b.1) nv) (hv : ∀ p ∈ nv, ∀ c ∈ p.2, c ≠ 0) :
    ∃ es : List (Bytes × Bytes), (es.map (fun e => e.1)).Nodup ∧ es.flatMap entryPairs = nv := by
  induction nv with
  | nil => exact ⟨[],List.nodup_nil,rfl⟩
  | cons p nv ih =>
    obtain ⟨hp,hnv⟩ := List.forall_mem_cons.mp hv
    obtain ⟨es,hnodup,hes⟩ := ih hs.of_cons hnv
    have hpieces := valuePieces_single hp
    by_cases hmem : p.1 ∈ es.map (fun e => e.1)
    · -- the name goes on: its entry is the first, as no name comes before it
      cases es with
      | nil => cases hmem
      | cons e es =>
        have hfirst : p.1 = e.1 := by
          obtain ⟨v,hv⟩ := List.exists_mem_of_ne_nil _ (valuePieces_ne_nil e.2)
          have he : (e.1,v) ∈ nv := by
            rw [← hes]
            exact List.mem_flatMap.mpr ⟨e,List.mem_cons_self,List.mem_map.mpr ⟨v,hv,rfl⟩⟩
          have hpe : strcmp p.1 (e.1,v).1 ≤ 0 := List.rel_of_pairwise_cons hs he
          have hep : strcmp e.1 p.1 ≤ 0 := by
            obtain ⟨q,hq,hqp⟩ := List.mem_map.mp (mem_names_iff.mpr hmem)
            have hsorted := hs.of_cons
            rw [← hes,List.flatMap_cons] at hsorted
            rw [← hqp]
            rcases List.mem_append.mp (List.flatMap_cons ▸ hq) with hq | hq
            · rw [entryPairs_name hq]
              exact (strcmp_eq_zero.mpr rfl).le
            · exact (List.pairwise_append.mp hsorted).2.2 (e.1,v) (List.mem_map.mpr ⟨v,hv,rfl⟩) q hq
          rw [strcmp_swap p.1 e.1] at hep
          exact strcmp_eq_zero.mp (by dsimp only at hpe; omega)
        refine ⟨(e.1,p.2 ++ 0 :: e.2) :: es,hnodup,?_⟩
        rw [List.flatMap_cons] at hes ⊢
        unfold entryPairs at hes ⊢
        dsimp only
        rw [valuePieces_append,hpieces,← hes,← hfirst]
        rfl
    · refine ⟨p :: es,List.nodup_cons.mpr ⟨hmem,hnodup⟩,?_⟩
      rw [List.flatMap_cons,hes]
      unfold entryPairs
      rw [hpieces]
      rfl

/-! The space a list needs. -/

theorem packStr_length {lenSize : Nat} (hl : lenSize = 2 ∨ lenSize = 4) (s : Bytes) :
    (packStr lenSize s).length = lenSize+s.length := by
  unfold packStr
  rw [List.length_append,putNvLen_length hl]

theorem entryBytes_length {lenSize : Nat} (hl : lenSize = 2 ∨ lenSize = 4) (e : Bytes × Bytes) :
    (entryBytes lenSize e).length = e.1.length+e.2.length+lenSize*2 := by
  rw [entryBytes,List.length_append,packStr_length hl,packStr_length hl]
  omega

/-- The name that the next pair is compared with. -/
def lastName (es : List (Bytes × Bytes)) : Option Bytes := es.getLast?.map (fun e => e.1)

theorem lastName_concat (es : List (Bytes × Bytes)) (e : Bytes × Bytes) : lastName (es ++ [e]) = some e.1 := by
  rw [lastName,List.getLast?_concat]
  rfl

/-- A pair extends the last entry or makes one of its own. -/
theorem packNvStep_cases (es : List (Bytes × Bytes)) (p : Bytes × Bytes) :
    (∃ front v, es = front ++ [(p.1,v)] ∧ packNvStep es p = front ++ [(p.1,v ++ 0 :: p.2)]) ∨
      lastName es ≠ some p.1 ∧ packNvStep es p = es ++ [p] := by
  obtain rfl | ⟨front,⟨name,v⟩,rfl⟩ := List.eq_nil_or_concat' es
  · exact .inr ⟨nofun,rfl⟩
  · obtain ⟨key,val⟩ := p
    by_cases hname : name = key
    · subst hname
      exact .inl ⟨front,v,rfl,packNvStep_same front name v val⟩
    · refine .inr ⟨?_,?_⟩
      · rw [lastName_concat]
        exact fun h => hname (Option.some.inj h)
      · rw [packNvStep,List.getLast?_concat]
        exact if_neg hname

theorem lastName_packNvStep (es : List (Bytes × Bytes)) (p : Bytes × Bytes) : lastName (packNvStep es p) = some p.1 := by
  obtain ⟨front,v,-,h⟩ | ⟨-,h⟩ := packNvStep_cases es p
  · rw [h,lastName_concat]
  · rw [h,lastName_concat]

/-- The bytes of the entries. -/
def entriesSize (lenSize : Nat) (es : List (Bytes × Bytes)) : Nat := (es.flatMap (entryBytes lenSize)).length

theorem entriesSize_concat {lenSize : Nat} (hl : lenSize = 2 ∨ lenSize = 4) (es : List (Bytes × Bytes))
    (e : Bytes × Bytes) : entriesSize lenSize (es ++ [e]) = entriesSize lenSize es+(e.1.length+e.2.length+lenSize*2) := by
  rw [entriesSize,List.flatMap_append,List.length_append,List.flatMap_singleton,entryBytes_length hl]
  rfl

/-- Both loops join a value to the one before for the same pairs, so that they keep step. -/
theorem countNvSpaceStep_entries {lenSize : Nat} (hl : lenSize = 2 ∨ lenSize = 4) (es : List (Bytes × Bytes))
    {p : Bytes × Bytes} (hp : p.1 ≠ []) (c : Nat) :
    countNvSpaceStep lenSize (c+entriesSize lenSize es,(lastName es).getD []) p =
      (c+entriesSize lenSize (packNvStep es p),(lastName (packNvStep es p)).getD []) := by
  rw [lastName_packNvStep]
  obtain ⟨front,v,rfl,h⟩ | ⟨hlast,h⟩ := packNvStep_cases es p
  · rw [h,lastName_concat,countNvSpaceStep,Option.getD_some,if_pos rfl,entriesSize_concat hl,entriesSize_concat hl,
      List.length_append,List.length_cons]
    refine Prod.ext ?_ rfl
    dsimp only
    omega
  · have hne : (lastName es).getD [] ≠ p.1 := by
      cases hes : lastName es with
      | none => exact hp.symm
      | some name => exact fun hname => hlast (hes.trans (congrArg some hname))
    rw [h,countNvSpaceStep,if_neg hne,entriesSize_concat hl,Nat.add_assoc]
    rfl

theorem foldl_countNvSpaceStep {lenSize : Nat} (hl : lenSize = 2 ∨ lenSize = 4) {nv : Nv} (hnv : ∀ p ∈ nv, p.1 ≠ [])
    (es : List (Bytes × Bytes)) (c : Nat) :
    nv.foldl (countNvSpaceStep lenSize) (c+entriesSize lenSize es,(lastName es).getD []) =
      (c+entriesSize lenSize (nv.foldl packNvStep es),(lastName (nv.foldl packNvStep es)).getD []) := by
  induction nv generalizing es with
  | nil => rfl
  | cons p nv ih =>
    obtain ⟨hp,hnv⟩ := List.forall_mem_cons.mp hnv
    rw [List.foldl_cons,List.foldl_cons,countNvSpaceStep_entries hl es hp,ih hnv]

/-- The counted space is the space the packer fills. -/
theorem framePackNv_length {lenSize : Nat} (hl : lenSize = 2 ∨ lenSize = 4) {nv : Nv} (hnv : ∀ p ∈ nv, p.1 ≠ []) :
    (framePackNv nv lenSize).length = frameCountNvSpace nv lenSize := by
  have hfold : nv.foldl (countNvSpaceStep lenSize) (lenSize,[]) = _ := foldl_countNvSpaceStep hl hnv [] lenSize
  rw [framePackNv_eq,blockBytes,List.length_append,putNvLen_length hl,frameCountNvSpace,hfold]
  rfl

/-! Lists the application passes. -/

theorem mem_frameNvCopy {nv : List Bytes} (h : frameNvCheckNull nv = true) :
    ∀ p ∈ frameNvCopy nv, p.1 ≠ [] ∧ ∀ c ∈ p.2, c ≠ 0 := by
  induction nv using frameNvCheckNull.induct with
  | case1 => exact nofun
  | case2 => exact nofun
  | case3 name value rest hname =>
    rw [frameNvCheckNull,if_pos hname] at h
    cases h
  | case4 name value rest hname ih =>
    rw [frameNvCheckNull,if_neg hname] at h
    rw [frameNvCopy,List.forall_mem_cons]
    refine ⟨⟨hname,?_⟩,ih h⟩
    intro c hc
    have := List.mem_takeWhile_imp hc
    simpa using this

theorem unpackedNv_perm {qsort : Qsort} (hq : Sorts qsort) {es : List (Bytes × Bytes)}
    (hvalid : ∀ e ∈ es, invalidEntry e = false) : (unpackedNv qsort es).Perm (es.flatMap entryPairs) := by
  rw [← indexNv_entryIndex 0 hvalid]
  exact (hq.perm _ _ _ (name_order (fun x : Nat × Bytes × Bytes => x.2.1))).map _

theorem invalidEntry_eq_false {e : Bytes × Bytes} (hname : e.1 ≠ [] ∧ e.1.all validNameByte = true) :
    invalidEntry e = false ↔ ∀ v ∈ (valuePieces e.2).dropLast, v ≠ [] := by
  unfold invalidEntry
  rw [hname.2]
  simp [hname.1]

/-- Written blocks tell which entries are valid, whatever entries they were written from. -/
theorem any_invalidEntry_eq {lenSize : Nat} (hl : lenSize = 2 ∨ lenSize = 4) {es es' : List (Bytes × Bytes)}
    (h : Fits lenSize es) (h' : Fits lenSize es') (heq : blockBytes lenSize es = blockBytes lenSize es') :
    es.any invalidEntry = es'.any invalidEntry := by
  have hx := unpackNvLoop_block hl h
  rw [heq,unpackNvLoop_block hl h'] at hx
  exact (congrArg Prod.snd hx).symm

/-- A sorted list of valid names and values is packed to the block of acceptable entries
exactly when every length fits its field and no empty value is joined to a later one. -/
theorem packed_list_accepted_iff {lenSize : Nat} (hl : lenSize = 2 ∨ lenSize = 4) {nv : Nv}
    (hs : Sorted (fun a b => strcmp a.1 b.1) nv)
    (hmem : ∀ p ∈ nv, p.1 ≠ [] ∧ p.1.all validNameByte = true ∧ ∀ c ∈ p.2, c ≠ 0) :
    (∃ es, Accepted lenSize es ∧ framePackNv nv lenSize = blockBytes lenSize es ∧ (es.flatMap entryPairs).Perm nv) ↔
    NoEmptyBefore nv ∧ SizesFit lenSize nv := by
  obtain ⟨es,hnodup,hes⟩ := exists_entries hs (fun p hp => (hmem p hp).2.2)
  have hentry : ∀ e ∈ es, e.1 ≠ [] ∧ e.1.all validNameByte = true := by
    intro e he
    obtain ⟨p,hp,hpe⟩ := List.mem_map.mp (mem_names_iff.mpr (List.mem_map_of_mem he))
    rw [hes] at hp
    have hx := hmem p hp
    rw [hpe] at hx
    exact ⟨hx.1,hx.2.1⟩
  have hvalid : (∀ e ∈ es, invalidEntry e = false) ↔ NoEmptyBefore nv := by
    rw [← hes,noEmptyBefore_entries hnodup]
    exact forall₂_congr (fun e he => invalidEntry_eq_false (hentry e he))
  have hfits := fits_iff hnodup (List.Perm.of_eq hes) lenSize
  have hpack : framePackNv nv lenSize = blockBytes lenSize es := by
    rw [← hes]
    exact framePackNv_entries hnodup lenSize
  constructor
  · rintro ⟨es',hes',hblock,hpairs⟩
    have hsizes := (fits_iff hes'.names hpairs lenSize).mp hes'.fits
    refine ⟨hvalid.mp ?_,hsizes⟩
    have hany := any_invalidEntry_eq hl (hfits.mpr hsizes) hes'.fits (hpack.symm.trans hblock)
    have hnone : es'.any invalidEntry = false := by
      have := hes'.valid
      simpa using this
    rw [hnone] at hany
    simpa using hany
  · rintro ⟨hempty,hsizes⟩
    exact ⟨es,⟨hfits.mpr hsizes,hvalid.mpr hempty,hnodup⟩,hpack,List.Perm.of_eq hes⟩

/-- Such a list is read back by the session's model. -/
theorem sorted_list_unpacks_iff {qsort : Qsort} (hq : Sorts qsort) {lenSize : Nat} (hl : lenSize = 2 ∨ lenSize = 4)
    (m : Mem) {nv : Nv} (hs : Sorted (fun a b => strcmp a.1 b.1) nv)
    (hmem : ∀ p ∈ nv, p.1 ≠ [] ∧ p.1.all validNameByte = true ∧ ∀ c ∈ p.2, c ≠ 0) :
    (∃ m' nv', frameUnpackNv qsort m (framePackNv nv lenSize) lenSize = (m',nv',none) ∧ nv'.Perm nv) ↔
    m.headD true = true ∧ NoEmptyBefore nv ∧ SizesFit lenSize nv := by
  rw [← packed_list_accepted_iff hl hs hmem]
  constructor
  · rintro ⟨m',nv',hok,hnv⟩
    obtain ⟨hm,-,es,hes,hblock,rfl⟩ := (frameUnpackNv_ok_iff hq hl m m' _ nv').mp hok
    exact ⟨hm,es,hes,hblock,(unpackedNv_perm hq hes.valid).symm.trans hnv⟩
  · rintro ⟨hm,es,hes,hblock,hpairs⟩
    exact ⟨m.tail,unpackedNv qsort es,(frameUnpackNv_ok_iff hq hl _ _ _ _).mpr ⟨hm,rfl,es,hes,hblock,rfl⟩,
      (unpackedNv_perm hq hes.valid).trans hpairs⟩

end Spdylay
