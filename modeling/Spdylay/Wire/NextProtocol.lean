import Spdylay.Wire.Integers

/-! The choice among the protocols that a server announces: a list of entries, each
behind a byte with its length. -/
namespace Spdylay
namespace Npn

def spdy3 : Bytes := [115,112,100,121,47,51]
def spdy2 : Bytes := [115,112,100,121,47,50]
def http11 : Bytes := [104,116,116,112,47,49,46,49]

structure Proto where
  proto : Bytes
  len : Nat
  version : Int
  deriving DecidableEq, Repr

def protoList : List Proto := [⟨spdy3,6,3⟩,⟨spdy2,6,2⟩]

/-- What `*out` and `*outlen` are set to: a place in the input and a length. -/
structure Selected where
  out : Nat
  outlen : Nat
  deriving DecidableEq, Repr

/-- `out` is `none` where `*out` and `*outlen` are untouched. -/
inductive Outcome
  | returned (version : Int) (out : Option Selected)
  | outOfBounds
  deriving DecidableEq, Repr

def lengthAt (input : Bytes) (i : Nat) : Nat := (input.getD i 0).toNat

/-- Whether so many bytes from a place on are equal to the pattern's; all of them are
read. -/
def memcmpEqual (input : Bytes) (start : Nat) (pattern : Bytes) (n : Nat) : Option Bool :=
  if start+n ≤ input.length then some ((input.drop start).take n = pattern.take n) else none

/-- The inner loop over the supported versions. -/
def findProto (input : Bytes) (i : Nat) : List Proto → Option (Option Proto)
  | [] => some none
  | p :: ps =>
    if lengthAt input i = p.len then
      match memcmpEqual input (i+1) p.proto (lengthAt input i) with
      | none => none
      | some true => some (some p)
      | some false => findProto input i ps
    else findProto input i ps

/-- The index is an unsigned int. -/
def next (input : Bytes) (i : Nat) : Nat := (i+lengthAt input i+1) % 4294967296

/-- `none` as long as the loop goes on. -/
def selectLoop (input : Bytes) : Nat → Nat → Option Selected → Option Outcome
  | 0, _, _ => none
  | fuel+1, i, http =>
    if i < input.length then
      match findProto input i protoList with
      | none => some .outOfBounds
      | some (some p) => some (.returned p.version (some ⟨i+1,lengthAt input i⟩))
      | some none =>
        if lengthAt input i = 8 then
          match memcmpEqual input (i+1) http11 (lengthAt input i) with
          | none => some .outOfBounds
          -- a SPDY entry may still follow
          | some true => selectLoop input fuel (next input i) (some ⟨i+1,lengthAt input i⟩)
          | some false => selectLoop input fuel (next input i) http
        else selectLoop input fuel (next input i) http
    else some (.returned (if http.isSome then 0 else -1) http)

def selectNextProtocol (fuel : Nat) (input : Bytes) : Option Outcome := selectLoop input fuel 0 none

/-! One pass. -/

/-- The entry behind a length byte, if all of it is there. -/
def entryAt (input : Bytes) (i : Nat) : Option Bytes :=
  if i+1+lengthAt input i ≤ input.length then some ((input.drop (i+1)).take (lengthAt input i)) else none

/-- The version of a SPDY entry. -/
def version (e : Bytes) : Option Int := if e = spdy3 then some 3 else if e = spdy2 then some 2 else none

variable {input : Bytes} {i fuel : Nat} {http : Option Selected} {e : Bytes}

theorem length_of_entryAt (h : entryAt input i = some e) : e.length = lengthAt input i ∧ i+1+e.length ≤ input.length := by
  rw [entryAt] at h
  split at h
  · rename_i hle
    cases h
    have hlen : ((input.drop (i+1)).take (lengthAt input i)).length = lengthAt input i := by
      rw [List.length_take,List.length_drop]
      omega
    rw [hlen]
    exact ⟨rfl,hle⟩
  · cases h

theorem memcmpEqual_entry (pattern : Bytes) (hp : pattern.length = lengthAt input i) :
    memcmpEqual input (i+1) pattern (lengthAt input i) = (entryAt input i).map (fun e => decide (e = pattern)) := by
  rw [memcmpEqual,entryAt,List.take_of_length_le hp.le]
  split <;> rfl

theorem findProto_eq : findProto input i protoList =
    if lengthAt input i = 6 then
      (entryAt input i).map (fun e => if e = spdy3 then some ⟨spdy3,6,3⟩ else if e = spdy2 then some ⟨spdy2,6,2⟩ else none)
    else some none := by
  rw [protoList,findProto,findProto,findProto]
  dsimp only
  split
  · rename_i h6
    rw [memcmpEqual_entry spdy3 h6.symm,memcmpEqual_entry spdy2 h6.symm]
    cases entryAt input i with
    | none => rfl
    | some e =>
      by_cases h3 : e = spdy3
      · simp [h3]
      · by_cases h2 : e = spdy2
        · subst h2
          simp [h3]
        · simp [h3,h2]
  · rfl

theorem version_of_length (h : e.length ≠ 6) : version e = none := by
  rw [version,if_neg,if_neg]
  · rintro rfl
    exact h rfl
  · rintro rfl
    exact h rfl

/-- What a pass at an index of the input does. -/
theorem selectLoop_pass (hi : i < input.length) : selectLoop input (fuel+1) i http =
    match entryAt input i with
    | none =>
      if lengthAt input i = 6 ∨ lengthAt input i = 8 then some .outOfBounds
      else selectLoop input fuel (next input i) http
    | some e =>
      match version e with
      | some v => some (.returned v (some ⟨i+1,e.length⟩))
      | none => selectLoop input fuel (next input i) (if e = http11 then some ⟨i+1,e.length⟩ else http) := by
  rw [selectLoop,if_pos hi,findProto_eq]
  cases he : entryAt input i with
  | none =>
    by_cases h6 : lengthAt input i = 6
    · simp [h6]
    · by_cases h8 : lengthAt input i = 8
      · rw [memcmpEqual_entry http11 h8.symm,he]
        simp [h8]
      · simp [h6,h8]
  | some e =>
    obtain ⟨hlen,-⟩ := length_of_entryAt he
    by_cases h6 : lengthAt input i = 6
    · have hh : e ≠ http11 := by
        rintro rfl
        rw [h6] at hlen
        exact absurd hlen (by decide)
      have h8 : lengthAt input i ≠ 8 := by omega
      rw [if_pos h6,Option.map_some]
      dsimp only
      rw [version]
      by_cases h3 : e = spdy3
      · simp [h3,h6,spdy3]
      · by_cases h2 : e = spdy2
        · simp [h2,h6,spdy2,spdy3]
        · simp [h3,h2,h8,hh]
    · have hv : version e = none := version_of_length (by omega)
      rw [if_neg h6]
      dsimp only
      rw [hv]
      dsimp only
      by_cases h8 : lengthAt input i = 8
      · rw [if_pos h8,memcmpEqual_entry http11 h8.symm,he,hlen]
        by_cases hh : e = http11
        · simp [hh]
        · simp [hh]
      · have hh : e ≠ http11 := by
          rintro rfl
          exact h8 hlen.symm
        rw [if_neg h8,if_neg hh]

/-- Behind the input the loop ends. -/
theorem selectLoop_past (hi : input.length ≤ i) :
    selectLoop input (fuel+1) i http = some (.returned (if http.isSome then 0 else -1) http) := by
  rw [selectLoop,if_neg (Nat.not_lt.mpr hi)]

/-- More passes do not change the outcome. -/
theorem selectLoop_mono {r : Outcome} (h : selectLoop input fuel i http = some r) (k : Nat) :
    selectLoop input (fuel+k) i http = some r := by
  induction fuel generalizing i http with
  | zero => cases h
  | succ fuel ih =>
    rw [Nat.succ_add]
    by_cases hi : i < input.length
    · rw [selectLoop_pass hi] at h ⊢
      cases he : entryAt input i with
      | none =>
        rw [he] at h
        dsimp only at h ⊢
        split
        · rename_i hcut
          rwa [if_pos hcut] at h
        · rename_i hcut
          rw [if_neg hcut] at h
          exact ih h
      | some e =>
        rw [he] at h
        dsimp only at h ⊢
        cases hv : version e with
        | some v =>
          rw [hv] at h
          exact h
        | none =>
          rw [hv] at h
          exact ih h
    · rw [selectLoop_past (Nat.not_lt.mp hi)] at h ⊢
      exact h

theorem outcome_unique {fuel' : Nat} {r r' : Outcome} (h : selectLoop input fuel i http = some r)
    (h' : selectLoop input fuel' i http = some r') : r = r' := by
  have h1 := selectLoop_mono h fuel'
  have h2 := selectLoop_mono h' fuel
  rw [Nat.add_comm,h1] at h2
  exact Option.some.inj h2

/-! Following the length bytes. -/

/-- From the index on, a SPDY entry or an index behind the input is reached, and no
length byte 6 or 8 whose entry is cut off before that. -/
inductive EndsWell (input : Bytes) : Nat → Prop
  | past {i : Nat} : input.length ≤ i → EndsWell input i
  | spdy {i : Nat} {e : Bytes} {v : Int} : i < input.length → entryAt input i = some e → version e = some v →
      EndsWell input i
  | entry {i : Nat} {e : Bytes} : i < input.length → entryAt input i = some e → EndsWell input (next input i) →
      EndsWell input i
  | cut {i : Nat} : i < input.length → entryAt input i = none → lengthAt input i ≠ 6 → lengthAt input i ≠ 8 →
      EndsWell input (next input i) → EndsWell input i

theorem endsWell_of_returned {v : Int} {out : Option Selected}
    (h : selectLoop input fuel i http = some (.returned v out)) : EndsWell input i := by
  induction fuel generalizing i http with
  | zero => cases h
  | succ fuel ih =>
    by_cases hi : i < input.length
    · rw [selectLoop_pass hi] at h
      split at h
      · rename_i he
        split at h
        · cases h
        · rename_i hlen
          exact .cut hi he (fun h6 => hlen (.inl h6)) (fun h8 => hlen (.inr h8)) (ih h)
      · rename_i he
        split at h
        · rename_i hv
          exact .spdy hi he hv
        · exact .entry hi he (ih h)
    · exact .past (Nat.not_lt.mp hi)

/-- The selection is a complete entry of the input. -/
def IsEntry (input : Bytes) (s : Selected) : Prop :=
  0 < s.out ∧ s.out+s.outlen ≤ input.length ∧ s.outlen = lengthAt input (s.out-1)

theorem isEntry_of_entryAt (h : entryAt input i = some e) : IsEntry input ⟨i+1,e.length⟩ := by
  obtain ⟨h1,h2⟩ := length_of_entryAt h
  exact ⟨Nat.succ_pos i,h2,h1⟩

/-- What a return means: 0 and a SPDY version come with an entry, -1 with none. -/
def SelectsEntry (input : Bytes) (v : Int) (out : Option Selected) : Prop :=
  (v = -1 ∧ out = none) ∨ ((v = 0 ∨ v = 2 ∨ v = 3) ∧ ∃ s, out = some s ∧ IsEntry input s)

theorem returned_of_spdy {v : Int} (hi : i < input.length) (he : entryAt input i = some e) (hv : version e = some v) :
    ∃ fuel v out, selectLoop input fuel i http = some (.returned v out) ∧ SelectsEntry input v out := by
  refine ⟨1,v,some ⟨i+1,e.length⟩,?_,.inr ⟨?_,_,rfl,isEntry_of_entryAt he⟩⟩
  · rw [selectLoop_pass hi,he]
    simp only [hv]
  · rw [version] at hv
    split_ifs at hv <;> cases hv
    · exact .inr (.inr rfl)
    · exact .inr (.inl rfl)

theorem returned_of_endsWell (http : Option Selected) (h : EndsWell input i) (hh : ∀ s, http = some s → IsEntry input s) :
    ∃ fuel v out, selectLoop input fuel i http = some (.returned v out) ∧ SelectsEntry input v out := by
  induction h generalizing http with
  | past hi =>
    refine ⟨1,_,_,selectLoop_past hi,?_⟩
    cases http with
    | none => exact .inl ⟨rfl,rfl⟩
    | some s => exact .inr ⟨.inl rfl,s,rfl,hh s rfl⟩
  | spdy hi he hv => exact returned_of_spdy hi he hv
  | @entry i e hi he _ ih =>
    cases hv : version e with
    | some v => exact returned_of_spdy hi he hv
    | none =>
      have hh' : ∀ s, (if e = http11 then some ⟨i+1,e.length⟩ else http) = some s → IsEntry input s := by
        intro s hs
        split at hs
        · cases hs
          exact isEntry_of_entryAt he
        · exact hh s hs
      obtain ⟨fuel,v,out,hrun,hsel⟩ := ih _ hh'
      refine ⟨fuel+1,v,out,?_,hsel⟩
      rw [selectLoop_pass hi,he]
      simp only [hv]
      exact hrun
  | cut hi he h6 h8 _ ih =>
    obtain ⟨fuel,v,out,hrun,hsel⟩ := ih _ hh
    refine ⟨fuel+1,v,out,?_,hsel⟩
    rw [selectLoop_pass hi,he]
    dsimp only
    rw [if_neg (by omega)]
    exact hrun

/-! Well-formed lists. -/

def listBytes (es : List Bytes) : Bytes := es.flatMap (fun e => UInt8.ofNat e.length :: e)

theorem listBytes_cons (e : Bytes) (es : List Bytes) : listBytes (e :: es) = UInt8.ofNat e.length :: (e ++ listBytes es) :=
  List.flatMap_cons

theorem lengthAt_front (front rest : Bytes) (he : e.length < 256) :
    lengthAt (front ++ UInt8.ofNat e.length :: rest) front.length = e.length := by
  rw [lengthAt,List.getD_eq_getElem?_getD,List.getElem?_append_right le_rfl,Nat.sub_self,List.getElem?_cons_zero]
  exact Nat.mod_eq_of_lt he

theorem entryAt_front (front rest : Bytes) (he : e.length < 256) :
    entryAt (front ++ UInt8.ofNat e.length :: (e ++ rest)) front.length = some e := by
  rw [entryAt,lengthAt_front front _ he,if_pos (by simp; omega)]
  congr 1
  rw [List.drop_append,List.drop_eq_nil_of_le (Nat.le_succ _),Nat.add_sub_cancel_left,List.nil_append,List.drop_succ_cons,
    List.drop_zero,List.take_left]

/-- The choice among entries that begin at an index: the first SPDY entry, else some
http/1.1 entry, else what was chosen before. -/
structure Chosen (start : Nat) (es : List Bytes) (http : Option Selected) (v : Int) (out : Option Selected) : Prop where
  spdy : ∀ pre e post w, es = pre ++ e :: post → (∀ x ∈ pre, version x = none) → version e = some w →
    v = w ∧ out = some ⟨start+(listBytes pre).length+1,e.length⟩
  http11 : (∀ x ∈ es, version x = none) → http11 ∈ es → v = 0 ∧
    ∃ pre post, es = pre ++ http11 :: post ∧ out = some ⟨start+(listBytes pre).length+1,8⟩
  other : (∀ x ∈ es, version x = none) → Npn.http11 ∉ es → v = (if http.isSome then 0 else -1) ∧ out = http

theorem chosen_nil (start : Nat) (http : Option Selected) :
    Chosen start [] http (if http.isSome then 0 else -1) http := by
  refine ⟨?_,?_,fun _ _ => ⟨rfl,rfl⟩⟩
  · intro pre e post w h
    cases pre <;> cases h
  · intro _ h
    cases h

theorem chosen_spdy (start : Nat) (es : List Bytes) (http : Option Selected) {v : Int} (hv : version e = some v) :
    Chosen start (e :: es) http v (some ⟨start+1,e.length⟩) := by
  have hnone : ¬∀ x ∈ e :: es, version x = none := by
    intro h
    rw [h e List.mem_cons_self] at hv
    cases hv
  refine ⟨?_,fun h => absurd h hnone,fun h => absurd h hnone⟩
  intro pre e' post w h hpre hw
  cases pre with
  | nil =>
    cases h
    rw [hv] at hw
    cases hw
    exact ⟨rfl,rfl⟩
  | cons x pre =>
    cases h
    rw [hpre e List.mem_cons_self] at hv
    cases hv

theorem chosen_cons {start : Nat} {es : List Bytes} {v : Int} {out : Option Selected} (hv : version e = none)
    (h : Chosen (start+1+e.length) es (if e = http11 then some ⟨start+1,e.length⟩ else http) v out) :
    Chosen start (e :: es) http v out := by
  have hoff : ∀ pre, start+(listBytes (e :: pre)).length = start+1+e.length+(listBytes pre).length := by
    intro pre
    rw [listBytes_cons,List.length_cons,List.length_append]
    omega
  constructor
  · intro pre e' post w hes hpre hw
    cases pre with
    | nil =>
      cases hes
      rw [hv] at hw
      cases hw
    | cons x pre =>
      cases hes
      rw [hoff]
      exact h.spdy pre e' post w rfl (fun x hx => hpre x (.tail _ hx)) hw
  · intro hall hmem
    have hall' : ∀ x ∈ es, version x = none := fun x hx => hall x (.tail _ hx)
    by_cases hin : http11 ∈ es
    · obtain ⟨hv0,pre,post,hes,hout⟩ := h.http11 hall' hin
      refine ⟨hv0,e :: pre,post,by rw [hes]; rfl,?_⟩
      rw [hoff]
      exact hout
    · obtain rfl : e = http11 := ((List.mem_cons.mp hmem).resolve_right hin).symm
      obtain ⟨hv0,hout⟩ := h.other hall' hin
      rw [if_pos rfl] at hv0 hout
      exact ⟨hv0,[],es,rfl,hout⟩
  · intro hall hmem
    have hne : e ≠ http11 := fun he => hmem (List.mem_cons.mpr (.inl he.symm))
    have ho := h.other (fun x hx => hall x (.tail _ hx)) (fun hx => hmem (.tail _ hx))
    rwa [if_neg hne] at ho

theorem selectLoop_chosen {es : List Bytes} (front : Bytes) {v : Int} {out : Option Selected}
    (hes : ∀ e ∈ es, e.length < 256) (hn : (front ++ listBytes es).length < 4294967296)
    (h : selectLoop (front ++ listBytes es) fuel front.length http = some (.returned v out)) :
    Chosen front.length es http v out := by
  induction es generalizing front http fuel with
  | nil =>
    cases fuel with
    | zero => cases h
    | succ fuel =>
      rw [selectLoop_past (by simp [listBytes])] at h
      cases h
      exact chosen_nil _ _
  | cons e es ih =>
    obtain ⟨he,hes⟩ := List.forall_mem_cons.mp hes
    cases fuel with
    | zero => cases h
    | succ fuel =>
      rw [listBytes_cons] at h hn
      rw [selectLoop_pass (by simp),entryAt_front front _ he] at h
      dsimp only at h
      cases hv : version e with
      | some w =>
        rw [hv] at h
        cases h
        exact chosen_spdy _ es http hv
      | none =>
        rw [hv] at h
        dsimp only at h
        have hsplit : front ++ UInt8.ofNat e.length :: (e ++ listBytes es) =
            (front ++ UInt8.ofNat e.length :: e) ++ listBytes es := by simp
        have hlen : (front ++ UInt8.ofNat e.length :: e).length = front.length+1+e.length := by
          simp
          omega
        have hnext : next (front ++ UInt8.ofNat e.length :: (e ++ listBytes es)) front.length =
            (front ++ UInt8.ofNat e.length :: e).length := by
          rw [next,lengthAt_front front _ he,hlen]
          have : front.length+1+e.length ≤ (front ++ UInt8.ofNat e.length :: (e ++ listBytes es)).length := by
            simp
            omega
          omega
        rw [hnext,hsplit] at h
        rw [hsplit] at hn
        have hrest := ih _ hes hn h
        rw [hlen] at hrest
        exact chosen_cons hv hrest

/-- The call ends, reads the input only, selects a complete entry of it where it returns
0 or a version, and chooses as documented where the list is well-formed. -/
def SelectsWell (input : Bytes) : Prop :=
  ∃ fuel v out, selectNextProtocol fuel input = some (.returned v out) ∧ SelectsEntry input v out ∧
    ∀ es : List Bytes, (∀ e ∈ es, e.length < 256) → input = listBytes es → Chosen 0 es none v out

theorem selects_well_iff (input : Bytes) (hn : input.length < 4294967296) : SelectsWell input ↔ EndsWell input 0 := by
  constructor
  · rintro ⟨fuel,v,out,h,-⟩
    exact endsWell_of_returned h
  · intro h
    obtain ⟨fuel,v,out,hrun,hsel⟩ := returned_of_endsWell none h nofun
    refine ⟨fuel,v,out,hrun,hsel,?_⟩
    rintro es hes rfl
    exact selectLoop_chosen [] hes hn hrun

/-- The length byte announces six bytes and five follow: the comparison reads a byte
behind the input. -/
theorem cut_off_entry_read_out_of_bounds : selectNextProtocol 1 [6,115,112,100,121,47] = some .outOfBounds ∧
    ¬SelectsWell [6,115,112,100,121,47] := by
  have hout : selectNextProtocol 1 [6,115,112,100,121,47] = some .outOfBounds := by decide
  refine ⟨hout,?_⟩
  rintro ⟨fuel,v,out,hrun,-⟩
  cases outcome_unique hout hrun

/-- The list of http/1.1, spdy/2 and spdy/3. -/
theorem announced_list_selects_well : SelectsWell (listBytes [http11,spdy2,spdy3]) := by
  apply (selects_well_iff (listBytes [http11,spdy2,spdy3]) (by decide)).mpr
  refine .entry (e := http11) (by decide) (by decide) ?_
  exact .spdy (e := spdy2) (v := 2) (by decide) (by decide) (by decide)

end Npn
end Spdylay
