import Spdylay.Wire.NameValueBlock
import Spdylay.Library.StableSort

/-! An uncompressed header block is a count and its entries, each a name and a value
behind their lengths. The parser accepts exactly the blocks whose entries are well
formed and have different names, and its list is read off the entries. -/
namespace Spdylay
open Library Library.BinaryHeap Library.StableSort

/-! Length fields. -/

theorem putNvLen_length {lenSize : Nat} (hl : lenSize = 2 ∨ lenSize = 4) (n : Nat) :
    (putNvLen lenSize n).length = lenSize := by
  rcases hl with rfl | rfl <;> rfl

theorem getNvLen_put {lenSize n : Nat} (hl : lenSize = 2 ∨ lenSize = 4) (hn : n < 256^lenSize) (rest : Bytes) :
    getNvLen lenSize (putNvLen lenSize n ++ rest) = n := by
  rcases hl with rfl | rfl
  · exact getUint16_put n rest hn
  · exact getUint32_put n rest hn

theorem getNvLen_lt {lenSize : Nat} (hl : lenSize = 2 ∨ lenSize = 4) (rd : Bytes) :
    getNvLen lenSize rd < 256^lenSize := by
  rcases hl with rfl | rfl
  · exact getUint16_lt rd
  · exact getUint32_lt rd

/-- A length field that is there is what the writer makes of its value. -/
theorem putNvLen_get {lenSize : Nat} (hl : lenSize = 2 ∨ lenSize = 4) {rd : Bytes} (h : lenSize ≤ rd.length) :
    putNvLen lenSize (getNvLen lenSize rd) ++ rd.drop lenSize = rd := by
  have hbyte : ∀ b : UInt8, UInt8.ofNat b.toNat = b := fun b => UInt8.ofNat_toNat
  rcases hl with rfl | rfl
  · match rd, h with
    | a :: b :: rest, _ =>
      have ha := a.toNat_lt
      have hb := b.toNat_lt
      have h1 : UInt8.ofNat ((a.toNat*256+b.toNat)/256) = a := by
        rw [show (a.toNat*256+b.toNat)/256 = a.toNat by omega,hbyte]
      have h2 : UInt8.ofNat (a.toNat*256+b.toNat) = b := by
        rw [← UInt8.toNat_inj,UInt8.toNat_ofNat']
        omega
      change UInt8.ofNat ((a.toNat*256+b.toNat)/256) :: UInt8.ofNat (a.toNat*256+b.toNat) :: rest = _
      rw [h1,h2]
  · match rd, h with
    | a :: b :: c :: d :: rest, _ =>
      have ha := a.toNat_lt
      have hb := b.toNat_lt
      have hc := c.toNat_lt
      have hd := d.toNat_lt
      let n := a.toNat*16777216+b.toNat*65536+c.toNat*256+d.toNat
      have h1 : UInt8.ofNat (n/16777216) = a := by
        rw [show n/16777216 = a.toNat by omega,hbyte]
      have h2 : UInt8.ofNat (n/65536) = b := by
        rw [← UInt8.toNat_inj,UInt8.toNat_ofNat']
        omega
      have h3 : UInt8.ofNat (n/256) = c := by
        rw [← UInt8.toNat_inj,UInt8.toNat_ofNat']
        omega
      have h4 : UInt8.ofNat n = d := by
        rw [← UInt8.toNat_inj,UInt8.toNat_ofNat']
        omega
      change UInt8.ofNat (n/16777216) :: UInt8.ofNat (n/65536) :: UInt8.ofNat (n/256) :: UInt8.ofNat n :: rest = _
      rw [h1,h2,h3,h4]

/-! Entries. -/

def entryBytes (lenSize : Nat) (e : Bytes × Bytes) : Bytes := packStr lenSize e.1 ++ packStr lenSize e.2

def blockBytes (lenSize : Nat) (es : List (Bytes × Bytes)) : Bytes :=
  putNvLen lenSize es.length ++ es.flatMap (entryBytes lenSize)

/-- Name and value have lengths that their fields can hold. -/
def EntryFits (lenSize : Nat) (e : Bytes × Bytes) : Prop := e.1.length < 256^lenSize ∧ e.2.length < 256^lenSize

structure Fits (lenSize : Nat) (es : List (Bytes × Bytes)) : Prop where
  count : es.length < 256^lenSize
  entries : ∀ e ∈ es, EntryFits lenSize e

theorem framePackNv_eq (nv : Nv) (lenSize : Nat) : framePackNv nv lenSize = blockBytes lenSize (nv.foldl packNvStep []) := rfl

/-- A string that was read is one that can be written. -/
theorem readStr_ok_iff {lenSize inlen off : Nat} (hl : lenSize = 2 ∨ lenSize = 4) {rd : Bytes}
    (hoff : off+rd.length = inlen) (s : Bytes) (off' : Nat) (rd' : Bytes) :
    readStr lenSize inlen off rd = .ok (s,off',rd') ↔
      s.length < 256^lenSize ∧ rd = packStr lenSize s ++ rd' ∧ off'+rd'.length = inlen := by
  unfold packStr
  constructor
  · intro h
    unfold readStr at h
    dsimp only at h
    split_ifs at h with h1 h2
    cases h
    have hput := putNvLen_get hl (show lenSize ≤ rd.length by omega)
    have hlen : (List.take (getNvLen lenSize rd) (rd.drop lenSize)).length = getNvLen lenSize rd := by
      rw [List.length_take,List.length_drop]
      omega
    refine ⟨?_,?_,?_⟩
    · rw [hlen]
      exact getNvLen_lt hl rd
    · rw [hlen,List.append_assoc,List.take_append_drop,hput]
    · rw [List.length_drop,List.length_drop]
      omega
  · rintro ⟨hs,rfl,hoff'⟩
    have hp := putNvLen_length hl s.length
    rw [List.length_append,List.length_append,hp] at hoff
    unfold readStr
    rw [List.append_assoc,getNvLen_put hl hs,List.drop_left' hp]
    dsimp only
    rw [if_neg (by omega),if_neg (by omega),List.take_left' rfl,List.drop_left' rfl]
    congr
    omega

theorem readStr_packStr {lenSize inlen off : Nat} (hl : lenSize = 2 ∨ lenSize = 4) {s rd : Bytes}
    (hs : s.length < 256^lenSize) (hoff : off+(packStr lenSize s ++ rd).length = inlen) :
    readStr lenSize inlen off (packStr lenSize s ++ rd) = .ok (s,inlen-rd.length,rd) := by
  refine (readStr_ok_iff hl hoff s _ rd).mpr ⟨hs,rfl,?_⟩
  rw [List.length_append] at hoff
  omega

theorem entryBytes_append (lenSize : Nat) (e : Bytes × Bytes) (rd : Bytes) :
    entryBytes lenSize e ++ rd = packStr lenSize e.1 ++ (packStr lenSize e.2 ++ rd) := List.append_assoc _ _ _

theorem countUnpackNvLoop_entry {lenSize inlen off : Nat} (hl : lenSize = 2 ∨ lenSize = 4) {e : Bytes × Bytes}
    {rd : Bytes} (he : EntryFits lenSize e) (n nvlen : Nat)
    (hoff : off+(entryBytes lenSize e ++ rd).length = inlen) :
    countUnpackNvLoop lenSize inlen (n+1) (entryBytes lenSize e ++ rd) off nvlen =
      countUnpackNvLoop lenSize inlen n rd (inlen-rd.length) (nvlen+e.2.count 0+1) := by
  rw [entryBytes_append] at hoff ⊢
  have hoff2 : inlen-(packStr lenSize e.2 ++ rd).length+(packStr lenSize e.2 ++ rd).length = inlen := by
    rw [List.length_append] at hoff
    omega
  rw [countUnpackNvLoop,readStr_packStr hl he.1 hoff]
  dsimp only
  rw [readStr_packStr hl he.2 hoff2]

/-- The counting pass succeeds on the bytes of entries and on nothing else. -/
theorem countUnpackNvLoop_ok {lenSize inlen n : Nat} (hl : lenSize = 2 ∨ lenSize = 4) {rd : Bytes}
    {off nvlen off' nvlen' : Nat} (hoff : off+rd.length = inlen)
    (h : countUnpackNvLoop lenSize inlen n rd off nvlen = .ok (off',nvlen')) :
    ∃ (es : List (Bytes × Bytes)) (rest : Bytes), es.length = n ∧ (∀ e ∈ es, EntryFits lenSize e) ∧
      rd = es.flatMap (entryBytes lenSize) ++ rest ∧ off'+rest.length = inlen := by
  induction n generalizing rd off nvlen with
  | zero =>
    cases h
    exact ⟨[],rd,rfl,nofun,rfl,hoff⟩
  | succ n ih =>
    unfold countUnpackNvLoop at h
    split at h
    · cases h
    rename_i name off1 rd1 h1
    split at h
    · cases h
    rename_i value off2 rd2 h2
    obtain ⟨hname,rfl,hoff1⟩ := (readStr_ok_iff hl hoff name off1 rd1).mp h1
    obtain ⟨hvalue,rfl,hoff2⟩ := (readStr_ok_iff hl hoff1 value off2 rd2).mp h2
    obtain ⟨es,rest,rfl,hes,rfl,hoff'⟩ := ih hoff2 h
    refine ⟨(name,value) :: es,rest,rfl,List.forall_mem_cons.mpr ⟨⟨hname,hvalue⟩,hes⟩,?_,hoff'⟩
    rw [List.flatMap_cons]
    unfold entryBytes
    simp only [List.append_assoc]

theorem countUnpackNvLoop_entries {lenSize inlen : Nat} (hl : lenSize = 2 ∨ lenSize = 4) (es : List (Bytes × Bytes))
    (hes : ∀ e ∈ es, EntryFits lenSize e) (off nvlen : Nat)
    (hoff : off+(es.flatMap (entryBytes lenSize)).length = inlen) :
    ∃ nvlen', countUnpackNvLoop lenSize inlen es.length (es.flatMap (entryBytes lenSize)) off nvlen = .ok (inlen,nvlen') := by
  induction es generalizing off nvlen with
  | nil =>
    cases hoff
    exact ⟨nvlen,rfl⟩
  | cons e es ih =>
    obtain ⟨he,hes⟩ := List.forall_mem_cons.mp hes
    rw [List.flatMap_cons] at hoff ⊢
    rw [List.length_cons,countUnpackNvLoop_entry hl he _ _ hoff]
    apply ih hes
    rw [List.length_append] at hoff
    omega

theorem frameCountUnpackNvSpace_ok_iff {lenSize : Nat} (hl : lenSize = 2 ∨ lenSize = 4) (input : Bytes) :
    (∃ nvlen, frameCountUnpackNvSpace input lenSize = .ok nvlen) ↔
      ∃ es, Fits lenSize es ∧ input = blockBytes lenSize es := by
  unfold frameCountUnpackNvSpace
  constructor
  · rintro ⟨nvlen,h⟩
    split at h
    · cases h
    split at h
    · cases h
    rename_i hlen off nvlen' hloop
    split at h
    · obtain ⟨es,rest,hn,hes,hrd,hoff⟩ := countUnpackNvLoop_ok hl (by rw [List.length_drop]; omega) hloop
      have hrest : rest = [] := List.eq_nil_of_length_eq_zero (by omega)
      subst hrest
      refine ⟨es,⟨?_,hes⟩,?_⟩
      · rw [hn]
        exact getNvLen_lt hl input
      · unfold blockBytes
        rw [List.append_nil] at hrd
        rw [hn,← hrd,putNvLen_get hl (by omega)]
    · cases h
  · rintro ⟨es,hfits,rfl⟩
    have hp := putNvLen_length hl es.length
    unfold blockBytes
    rw [getNvLen_put hl hfits.count,List.drop_left' hp,List.length_append,hp,if_neg (by omega)]
    obtain ⟨nvlen,h⟩ := countUnpackNvLoop_entries hl es hfits.entries lenSize 0 rfl
    rw [h]
    exact ⟨nvlen,if_pos rfl⟩

/-! The index. -/

/-- The pairs an entry stands for. -/
def entryPairs (e : Bytes × Bytes) : Nv := (valuePieces e.2).map (fun v => (e.1,v))

/-- The parser calls the block invalid for such an entry. -/
def invalidEntry (e : Bytes × Bytes) : Bool :=
  e.1.length = 0 || !e.1.all validNameByte || (valuePieces e.2).dropLast.any (·.isEmpty)

def entryIndex : Nat → List (Bytes × Bytes) → NvIndex
  | _, [] => []
  | i, e :: es => (entryPairs (cstr e.1,e.2)).map (fun p => (i,p)) ++ entryIndex (i+1) es

theorem unpackNvLoop_entries {lenSize : Nat} (hl : lenSize = 2 ∨ lenSize = 4) (es : List (Bytes × Bytes))
    (hes : ∀ e ∈ es, EntryFits lenSize e) (i : Nat) (idx : NvIndex) (invalid : Bool) :
    unpackNvLoop lenSize es.length i (es.flatMap (entryBytes lenSize)) idx invalid =
      (idx ++ entryIndex i es,invalid || es.any invalidEntry) := by
  induction es generalizing i idx invalid with
  | nil => simp [unpackNvLoop,entryIndex]
  | cons e es ih =>
    obtain ⟨he,hes⟩ := List.forall_mem_cons.mp hes
    have hname := putNvLen_length hl e.1.length
    have hvalue := putNvLen_length hl e.2.length
    rw [List.flatMap_cons,List.length_cons,entryBytes_append]
    unfold packStr unpackNvLoop
    dsimp only
    rw [List.append_assoc,getNvLen_put hl he.1,List.drop_left' hname,List.take_left' rfl,List.drop_left' rfl,
      List.append_assoc,getNvLen_put hl he.2,List.drop_left' hvalue,List.take_left' rfl,List.drop_left' rfl,ih hes]
    simp only [entryIndex,entryPairs,invalidEntry,List.map_map,List.any_cons,List.append_assoc,Bool.or_assoc]
    rfl

theorem valuePieces_ne_nil (value : Bytes) : valuePieces value ≠ [] := by
  intro h
  have hlen := valuePieces_length value
  rw [h] at hlen
  cases hlen

theorem cstr_eq_self {s : Bytes} : cstr s = s ↔ ∀ c ∈ s, c ≠ 0 := by
  unfold cstr
  rw [List.takeWhile_eq_self_iff]
  simp

theorem validNameByte_iff (c : UInt8) :
    validNameByte c = true ↔ 0x20 ≤ c.toNat ∧ c.toNat ≤ 0x7e ∧ ¬(65 ≤ c.toNat ∧ c.toNat ≤ 90) := by
  unfold validNameByte
  simp only [Bool.not_eq_true',Bool.or_eq_false_iff,Bool.and_eq_false_iff,decide_eq_false_iff_not,UInt8.lt_iff_toNat_lt,
    UInt8.le_iff_toNat_le]
  simp
  omega

theorem cstr_name {e : Bytes × Bytes} (h : invalidEntry e = false) : cstr e.1 = e.1 := by
  unfold invalidEntry at h
  simp only [Bool.or_eq_false_iff,Bool.not_eq_false'] at h
  refine cstr_eq_self.mpr (fun c hc hzero => ?_)
  have hv := List.all_eq_true.mp h.1.2 c hc
  rw [hzero] at hv
  cases hv

/-- The index when each entry takes a number of places of its own. -/
def placedIndex (places : Bytes × Bytes → Nat) : Nat → List (Bytes × Bytes) → NvIndex
  | _, [] => []
  | i, e :: es => (entryPairs (cstr e.1,e.2)).map (fun p => (i,p)) ++ placedIndex places (i+places e) es

theorem entryIndex_eq (i : Nat) (es : List (Bytes × Bytes)) : entryIndex i es = placedIndex (fun _ => 1) i es := by
  induction es generalizing i with
  | nil => rfl
  | cons e es ih => rw [entryIndex,placedIndex,ih]

theorem indexNv_placedIndex (places : Bytes × Bytes → Nat) (i : Nat) {es : List (Bytes × Bytes)}
    (h : ∀ e ∈ es, invalidEntry e = false) : indexNv (placedIndex places i es) = es.flatMap entryPairs := by
  induction es generalizing i with
  | nil => rfl
  | cons e es ih =>
    obtain ⟨he,hes⟩ := List.forall_mem_cons.mp h
    have hx := ih (i+places e) hes
    rw [indexNv] at hx ⊢
    rw [placedIndex,List.map_append,hx,List.map_map,cstr_name he,List.flatMap_cons]
    exact congrArg (· ++ _) (List.map_id _)

theorem indexNv_entryIndex (i : Nat) {es : List (Bytes × Bytes)} (h : ∀ e ∈ es, invalidEntry e = false) :
    indexNv (entryIndex i es) = es.flatMap entryPairs := by
  rw [entryIndex_eq,indexNv_placedIndex _ i h]

/-! The order of names. -/

theorem strcmp_eq_zero {a b : Bytes} : strcmp a b = 0 ↔ a = b := by
  induction a generalizing b with
  | nil => cases b <;> simp [strcmp]
  | cons x xs ih =>
    cases b with
    | nil => simp [strcmp]
    | cons y ys =>
      unfold strcmp
      split
      · rename_i hlt
        simp [UInt8.ne_of_lt hlt]
      · rename_i hge
        split
        · rename_i hlt
          simp [(UInt8.ne_of_lt hlt).symm]
        · rename_i hle
          have hxy : x = y := UInt8.le_antisymm (UInt8.not_lt.mp hle) (UInt8.not_lt.mp hge)
          simp [ih,hxy]

theorem strcmp_swap (a b : Bytes) : strcmp b a = -strcmp a b := by
  induction a generalizing b with
  | nil => cases b <;> rfl
  | cons x xs ih =>
    cases b with
    | nil => rfl
    | cons y ys =>
      unfold strcmp
      by_cases hxy : x < y
      · rw [if_pos hxy,if_neg (UInt8.not_lt.mpr (UInt8.le_of_lt hxy)),if_pos hxy]
        rfl
      · rw [if_neg hxy,if_neg hxy,ih]
        split <;> rfl

theorem strcmp_trans {a b c : Bytes} (hab : strcmp a b ≤ 0) (hbc : strcmp b c ≤ 0) : strcmp a c ≤ 0 := by
  induction a generalizing b c with
  | nil => cases c <;> simp [strcmp]
  | cons x xs ih =>
    cases b with
    | nil => simp [strcmp] at hab
    | cons y ys =>
      cases c with
      | nil => simp [strcmp] at hbc
      | cons z zs =>
        unfold strcmp at hab hbc ⊢
        simp only [UInt8.lt_iff_toNat_lt] at hab hbc ⊢
        split_ifs at hab hbc ⊢ <;> first | omega | exact ih hab hbc

theorem name_order {α : Type} (name : α → Bytes) : TotalOrder (fun a b => strcmp (name a) (name b)) where
  total a b := by
    rw [strcmp_swap (name a) (name b)]
    omega
  trans _ _ _ := strcmp_trans

theorem tied_name {α : Type} {name : α → Bytes} {a b : α} :
    tied (fun a b => strcmp (name a) (name b)) a b = true ↔ name a = name b := by
  rw [tied_iff,strcmp_swap (name a) (name b),← strcmp_eq_zero]
  omega

/-! Different entries have different names. -/

/-- Pairs with one name come from one entry. -/
def OneEntry (x y : Nat × Bytes × Bytes) : Prop := x.2.1 = y.2.1 → x.1 = y.1

section Placed
variable {places : Bytes × Bytes → Nat} {i : Nat} {es : List (Bytes × Bytes)}

theorem mem_placedIndex {x : Nat × Bytes × Bytes} (h : x ∈ placedIndex places i es) :
    i ≤ x.1 ∧ x.2.1 ∈ es.map (fun e => cstr e.1) := by
  induction es generalizing i with
  | nil => cases h
  | cons e es ih =>
    rw [placedIndex,entryPairs] at h
    rcases List.mem_append.mp h with hx | hx
    · simp only [List.mem_map] at hx
      obtain ⟨p,⟨v,-,rfl⟩,rfl⟩ := hx
      exact ⟨le_rfl,List.mem_cons_self⟩
    · obtain ⟨hi,hm⟩ := ih hx
      exact ⟨by omega,List.mem_cons_of_mem _ hm⟩

theorem name_mem_placedIndex {e : Bytes × Bytes} (h : e ∈ es) : ∃ x ∈ placedIndex places i es, x.2.1 = cstr e.1 := by
  induction es generalizing i with
  | nil => cases h
  | cons e' es ih =>
    rw [placedIndex,entryPairs]
    rcases List.mem_cons.mp h with rfl | h
    · obtain ⟨v,hv⟩ := List.exists_mem_of_ne_nil _ (valuePieces_ne_nil e.2)
      refine ⟨(i,cstr e.1,v),List.mem_append_left _ ?_,rfl⟩
      simp only [List.mem_map]
      exact ⟨(cstr e.1,v),⟨v,hv,rfl⟩,rfl⟩
    · obtain ⟨x,hx,hn⟩ := ih (i := i+places e') h
      exact ⟨x,List.mem_append_right _ hx,hn⟩

theorem pairwise_placedIndex (hplaces : ∀ e, 0 < places e) :
    (placedIndex places i es).Pairwise OneEntry ↔ (es.map (fun e => cstr e.1)).Nodup := by
  induction es generalizing i with
  | nil => simp [placedIndex]
  | cons e es ih =>
    have hfirst : ((entryPairs (cstr e.1,e.2)).map (fun p => (i,p))).Pairwise OneEntry := by
      rw [List.pairwise_map]
      exact List.pairwise_of_forall (fun _ _ _ => rfl)
    rw [placedIndex,List.pairwise_append,ih,List.map_cons,List.nodup_cons]
    constructor
    · rintro ⟨-,hnodup,hcross⟩
      refine ⟨?_,hnodup⟩
      intro hm
      obtain ⟨e',he',hname⟩ := List.mem_map.mp hm
      obtain ⟨x,hx,hxn⟩ := name_mem_placedIndex (i := i+places e) he'
      obtain ⟨v,hv⟩ := List.exists_mem_of_ne_nil _ (valuePieces_ne_nil e.2)
      have hmem : (i,cstr e.1,v) ∈ (entryPairs (cstr e.1,e.2)).map (fun p => (i,p)) := by
        rw [entryPairs]
        simp only [List.mem_map]
        exact ⟨(cstr e.1,v),⟨v,hv,rfl⟩,rfl⟩
      have heq : i = x.1 := hcross _ hmem x hx (hname.symm.trans hxn.symm)
      have hle := (mem_placedIndex hx).1
      have hpos := hplaces e
      omega
    · rintro ⟨hnotin,hnodup⟩
      refine ⟨hfirst,hnodup,?_⟩
      intro x hx y hy hxy
      rw [entryPairs] at hx
      simp only [List.mem_map] at hx
      obtain ⟨p,⟨v,-,rfl⟩,rfl⟩ := hx
      dsimp only at hxy
      rw [hxy] at hnotin
      exact absurd (mem_placedIndex hy).2 hnotin

theorem mem_entryIndex {x : Nat × Bytes × Bytes} (h : x ∈ entryIndex i es) :
    i ≤ x.1 ∧ x.2.1 ∈ es.map (fun e => cstr e.1) := by
  rw [entryIndex_eq] at h
  exact mem_placedIndex h

theorem name_mem_entryIndex {e : Bytes × Bytes} (h : e ∈ es) : ∃ x ∈ entryIndex i es, x.2.1 = cstr e.1 := by
  rw [entryIndex_eq]
  exact name_mem_placedIndex h

theorem pairwise_entryIndex (i : Nat) (es : List (Bytes × Bytes)) :
    (entryIndex i es).Pairwise OneEntry ↔ (es.map (fun e => cstr e.1)).Nodup := by
  rw [entryIndex_eq]
  exact pairwise_placedIndex (fun _ => Nat.one_pos)

end Placed

/-- In a list sorted by name it is enough to compare neighbours. -/
theorem hasDuplicateName_eq_false {l : NvIndex} (hs : Sorted (fun x y => strcmp x.2.1 y.2.1) l) :
    hasDuplicateName l = false ↔ l.Pairwise OneEntry := by
  induction l with
  | nil => simp [hasDuplicateName]
  | cons x l ih =>
    cases l with
    | nil => simp [hasDuplicateName]
    | cons y l =>
      rw [hasDuplicateName,Bool.or_eq_false_iff,ih hs.of_cons,List.pairwise_cons (a := x)]
      refine and_congr_left (fun hrest => ?_)
      have hneighbour : (decide (x.2.1 = y.2.1) && x.1 != y.1) = false ↔ OneEntry x y := by
        unfold OneEntry
        simp
      rw [hneighbour]
      constructor
      · intro hxy z hz hname
        rcases List.mem_cons.mp hz with rfl | hz
        · exact hxy hname
        · -- y stands between x and z, so it has their name
          have hle : strcmp x.2.1 y.2.1 ≤ 0 := List.rel_of_pairwise_cons hs List.mem_cons_self
          have hle' : strcmp y.2.1 z.2.1 ≤ 0 := List.rel_of_pairwise_cons hs.of_cons hz
          have hyx : x.2.1 = y.2.1 := by
            rw [← hname] at hle'
            rw [← strcmp_eq_zero]
            rw [strcmp_swap] at hle'
            omega
          exact (hxy hyx).trans (List.rel_of_pairwise_cons hrest hz (hyx.symm.trans hname))
      · intro h
        exact h y List.mem_cons_self

/-! What the parser accepts. -/

structure Accepted (lenSize : Nat) (es : List (Bytes × Bytes)) : Prop where
  fits : Fits lenSize es
  valid : ∀ e ∈ es, invalidEntry e = false
  names : (es.map (fun e => e.1)).Nodup

/-- The list the parser makes of valid entries. -/
def unpackedNv (qsort : Qsort) (es : List (Bytes × Bytes)) : Nv :=
  indexNv (qsort (Nat × Bytes × Bytes) (fun l r => strcmp l.2.1 r.2.1) (entryIndex 0 es))

/-- In the sorted index of valid entries a duplicate is a name of two entries. -/
theorem duplicate_placed_iff {places : Bytes × Bytes → Nat} (hplaces : ∀ e, 0 < places e) {i : Nat}
    {es : List (Bytes × Bytes)} (hvalid : ∀ e ∈ es, invalidEntry e = false) {l : NvIndex}
    (hs : Sorted (fun x y => strcmp x.2.1 y.2.1) l) (hp : l.Perm (placedIndex places i es)) :
    hasDuplicateName l = false ↔ (es.map (fun e => e.1)).Nodup := by
  have hcstr : es.map (fun e => cstr e.1) = es.map (fun e => e.1) :=
    List.map_congr_left (fun e he => cstr_name (hvalid e he))
  have hsymm : ∀ {x y : Nat × Bytes × Bytes}, OneEntry x y → OneEntry y x := fun h hxy => (h hxy.symm).symm
  rw [hasDuplicateName_eq_false hs,hp.pairwise_iff hsymm,pairwise_placedIndex hplaces,hcstr]

theorem duplicate_iff {qsort : Qsort} (hq : Sorts qsort) {es : List (Bytes × Bytes)}
    (hvalid : ∀ e ∈ es, invalidEntry e = false) :
    hasDuplicateName (qsort (Nat × Bytes × Bytes) (fun l r => strcmp l.2.1 r.2.1) (entryIndex 0 es)) = false ↔
      (es.map (fun e => e.1)).Nodup := by
  have ho := name_order (fun x : Nat × Bytes × Bytes => x.2.1)
  have hp := hq.perm _ _ (entryIndex 0 es) ho
  rw [entryIndex_eq] at hp ⊢
  exact duplicate_placed_iff (fun _ => Nat.one_pos) hvalid (hq.sorted _ _ _ ho) hp

theorem unpackNvLoop_block {lenSize : Nat} (hl : lenSize = 2 ∨ lenSize = 4) {es : List (Bytes × Bytes)}
    (hes : Fits lenSize es) : unpackNvLoop lenSize (getNvLen lenSize (blockBytes lenSize es)) 0
      ((blockBytes lenSize es).drop lenSize) [] false = (entryIndex 0 es,es.any invalidEntry) := by
  unfold blockBytes
  rw [getNvLen_put hl hes.count,List.drop_left' (putNvLen_length hl _)]
  exact unpackNvLoop_entries hl es hes.entries 0 [] false

theorem frameUnpackNv_ok_iff {qsort : Qsort} (hq : Sorts qsort) {lenSize : Nat} (hl : lenSize = 2 ∨ lenSize = 4)
    (m m' : Mem) (input : Bytes) (nv : Nv) :
    frameUnpackNv qsort m input lenSize = (m',nv,none) ↔ m.headD true = true ∧ m' = m.tail ∧
      ∃ es, Accepted lenSize es ∧ input = blockBytes lenSize es ∧ nv = unpackedNv qsort es := by
  unfold frameUnpackNv
  constructor
  · intro h
    split at h
    · cases h
    rename_i nvlen hcount
    obtain ⟨es,hfits,rfl⟩ := (frameCountUnpackNvSpace_ok_iff hl input).mp ⟨nvlen,hcount⟩
    split at h
    · rename_i hmem
      dsimp only at h
      rw [unpackNvLoop_block hl hfits] at h
      dsimp only at h
      split at h
      · cases h
      split at h
      · cases h
      rename_i hvalid
      have hvalid' : ∀ e ∈ es, invalidEntry e = false := by simpa using hvalid
      simp only [Prod.mk.injEq] at h
      obtain ⟨rfl,rfl,hdup⟩ := h
      split at hdup
      · cases hdup
      rename_i hnames
      refine ⟨hmem,rfl,es,⟨hfits,hvalid',(duplicate_iff hq hvalid').mp ?_⟩,rfl,rfl⟩
      exact Bool.eq_false_of_not_eq_true hnames
    · cases h
  · rintro ⟨hmem,rfl,es,hes,rfl,rfl⟩
    obtain ⟨nvlen,hcount⟩ := (frameCountUnpackNvSpace_ok_iff hl _).mpr ⟨es,hes.fits,rfl⟩
    have hlen := frameCountUnpackNvSpace_length hcount
    have hvalid : es.any invalidEntry = false := by
      have := hes.valid
      simpa using this
    rw [hcount]
    dsimp only
    rw [unpackNvLoop_block hl hes.fits] at hlen ⊢
    rw [if_pos hmem,if_neg (not_not_intro hlen),hvalid,(duplicate_iff hq hes.valid).mpr hes.names]
    rfl

end Spdylay
