import Mathlib.Data.List.DropRight
import Mathlib.Data.List.Infix

/-! Reading HTTP/1.1 requests: a request line, header fields and a body whose extent the
fields decide. The reader is strict: lines end with CRLF, folded fields are refused, a
transfer coding that does not end with chunked has no length, and all fields that give a
length have to agree. -/
namespace Spdylay.Library.Http

abbrev Octets := List UInt8

/-! Octets. -/

def isDigit (c : UInt8) : Bool := 48 ≤ c && c ≤ 57

def isAlpha (c : UInt8) : Bool := (65 ≤ c && c ≤ 90) || (97 ≤ c && c ≤ 122)

def isTchar (c : UInt8) : Bool :=
  isDigit c || isAlpha c || [33,35,36,37,38,39,42,43,45,46,94,95,96,124,126].contains c

def isVchar (c : UInt8) : Bool := 33 ≤ c && c ≤ 126

def isBlank (c : UInt8) : Bool := c = 32 || c = 9

/-- What may stand in the value of a field. -/
def isFieldByte (c : UInt8) : Bool := c = 9 || (32 ≤ c && c ≠ 127)

def isToken (s : Octets) : Bool := !s.isEmpty && s.all isTchar

def isTarget (s : Octets) : Bool := !s.isEmpty && s.all isVchar

def lower (c : UInt8) : UInt8 := if 65 ≤ c ∧ c ≤ 90 then c+32 else c

/-- Without the blanks around it. -/
def trim (s : Octets) : Octets := (s.dropWhile isBlank).rdropWhile isBlank

/-! Lines. -/

/-- The octets before the first CRLF and those behind it. -/
def readLine : Octets → Option (Octets × Octets)
  | [] => none
  | c :: s => if c = 13 ∧ s.head? = some 10 then some ([],s.tail) else (readLine s).map (fun p => (c :: p.1,p.2))

/-- The octets before the first `sep` and those behind it. -/
def cut (sep : UInt8) : Octets → Option (Octets × Octets)
  | [] => none
  | c :: s => if c = sep then some ([],s) else (cut sep s).map (fun p => (c :: p.1,p.2))

theorem readLine_append {line : Octets} (h : 13 ∉ line) (rest : Octets) :
    readLine (line ++ 13 :: 10 :: rest) = some (line,rest) := by
  induction line with
  | nil => rfl
  | cons c line ih =>
    rw [List.mem_cons,not_or] at h
    rw [List.cons_append,readLine,if_neg (fun hc => h.1 hc.1.symm),ih h.2]
    rfl

theorem length_readLine {s line rest : Octets} (h : readLine s = some (line,rest)) :
    line.length+2+rest.length = s.length := by
  induction s generalizing line with
  | nil => cases h
  | cons c s ih =>
    rw [readLine] at h
    split at h
    · rename_i hc
      cases h
      cases s with
      | nil => exact absurd hc.2 nofun
      | cons d s =>
        simp only [List.length_nil,List.tail_cons,List.length_cons]
        omega
    · obtain ⟨⟨line',rest'⟩,hr,he⟩ := Option.map_eq_some_iff.mp h
      cases he
      have := ih hr
      simp only [List.length_cons] at this ⊢
      omega

theorem cut_append {sep : UInt8} {a : Octets} (h : sep ∉ a) (b : Octets) : cut sep (a ++ sep :: b) = some (a,b) := by
  induction a with
  | nil => exact if_pos rfl
  | cons c a ih =>
    rw [List.mem_cons,not_or] at h
    rw [List.cons_append,cut,if_neg (Ne.symm h.1),ih h.2]
    rfl

/-! The head of a request. -/

structure RequestLine where
  method : Octets
  target : Octets
  deriving DecidableEq, Repr

def httpVersion : Octets := [72,84,84,80,47,49,46,49]

def readRequestLine (line : Octets) : Option RequestLine :=
  match cut 32 line with
  | none => none
  | some (method,rest) =>
    match cut 32 rest with
    | none => none
    | some (target,version) =>
      if isToken method ∧ isTarget target ∧ version = httpVersion then some ⟨method,target⟩ else none

/-- A name and a value without the blanks around it. -/
def readField (line : Octets) : Option (Octets × Octets) :=
  match cut 58 line with
  | none => none
  | some (name,value) => if isToken name ∧ value.all isFieldByte then some (name,trim value) else none

/-- The fields up to the empty line. -/
def readFields : Nat → Octets → Option (List (Octets × Octets) × Octets)
  | 0, _ => none
  | fuel+1, s =>
    match readLine s with
    | none => none
    | some (line,rest) =>
      if line = [] then some ([],rest)
      else
        match readField line with
        | none => none
        | some field => (readFields fuel rest).map (fun p => (field :: p.1,p.2))

theorem length_readFields {fuel : Nat} {s rest : Octets} {fields : List (Octets × Octets)}
    (h : readFields fuel s = some (fields,rest)) : rest.length+2 ≤ s.length := by
  induction fuel generalizing s fields with
  | zero => cases h
  | succ fuel ih =>
    rw [readFields] at h
    split at h
    · cases h
    · rename_i line rest' hline
      have hlen := length_readLine hline
      split at h
      · cases h
        omega
      · split at h
        · cases h
        · obtain ⟨⟨fields',r⟩,hr,he⟩ := Option.map_eq_some_iff.mp h
          cases he
          have := ih hr
          omega

/-! The body. -/

/-- Values of the fields of a name, in lower case letters. -/
def valuesOf (name : Octets) (fields : List (Octets × Octets)) : List Octets :=
  (fields.filter (fun f => f.1.map lower = name)).map Prod.snd

def transferEncoding : Octets := [116,114,97,110,115,102,101,114,45,101,110,99,111,100,105,110,103]
def contentLength : Octets := [99,111,110,116,101,110,116,45,108,101,110,103,116,104]
def chunkedCoding : Octets := [99,104,117,110,107,101,100]

def decimal (s : Octets) : Nat := s.foldl (fun n c => n*10+(c.toNat-48)) 0

def isHexDigit (c : UInt8) : Bool := isDigit c || (65 ≤ c && c ≤ 70) || (97 ≤ c && c ≤ 102)

def hexDigit (c : UInt8) : Nat := if isDigit c then c.toNat-48 else (lower c).toNat-87

def hexadecimal (s : Octets) : Nat := s.foldl (fun n c => n*16+hexDigit c) 0

/-- Chunks up to the one of size zero, and the fields of the trailer. -/
def readChunks : Nat → Octets → Option (Octets × Octets)
  | 0, _ => none
  | fuel+1, s =>
    match readLine s with
    | none => none
    | some (line,rest) =>
      let size := line.takeWhile isHexDigit
      let extension := line.dropWhile isHexDigit
      let n := hexadecimal size
      if size = [] ∨ ¬(extension = [] ∨ extension.head? = some 59) then none
      else if n = 0 then (readFields (rest.length+1) rest).map (fun p => ([],p.2))
      else if (rest.drop n).take 2 = [13,10] then
        (readChunks fuel (rest.drop (n+2))).map (fun p => (rest.take n ++ p.1,p.2))
      else none

/-- Each chunk takes five octets more than what it carries, at least. -/
theorem length_readChunks {fuel : Nat} {s body rest : Octets} (h : readChunks fuel s = some (body,rest)) :
    body.length+rest.length+5 ≤ s.length ∧ (body ≠ [] → body.length+rest.length+10 ≤ s.length) := by
  induction fuel generalizing s body with
  | zero => cases h
  | succ fuel ih =>
    rw [readChunks] at h
    split at h
    · cases h
    · rename_i line rest' hline
      have hlen := length_readLine hline
      dsimp only at h
      split at h
      · cases h
      · rename_i hsize
        have hline : 0 < line.length := by
          apply List.length_pos_of_ne_nil
          rintro rfl
          exact hsize (.inl rfl)
        split at h
        · obtain ⟨⟨fields,r⟩,hr,he⟩ := Option.map_eq_some_iff.mp h
          cases he
          have := length_readFields hr
          refine ⟨?_,fun hbody => absurd rfl hbody⟩
          simp only [List.length_nil]
          omega
        · split at h
          · rename_i hcrlf
            obtain ⟨⟨p,r⟩,hr,he⟩ := Option.map_eq_some_iff.mp h
            cases he
            have h1 := (ih hr).1
            have h2 := congrArg List.length hcrlf
            simp only [List.length_take,List.length_drop,List.length_cons,List.length_nil] at h2
            rw [List.length_drop] at h1
            rw [List.length_append,List.length_take]
            dsimp only at h1 ⊢
            constructor
            · omega
            · intro _
              omega
          · cases h

/-- The last coding that is named. -/
def lastCoding (values : List Octets) : Octets :=
  trim ((values.getLastD []).reverse.takeWhile (fun c => c ≠ 44)).reverse

/-- The body and what follows it. -/
def readBody (fields : List (Octets × Octets)) (s : Octets) : Option (Octets × Octets) :=
  if valuesOf transferEncoding fields ≠ [] then
    if (lastCoding (valuesOf transferEncoding fields)).map lower = chunkedCoding then readChunks (s.length+1) s else none
  else
    match valuesOf contentLength fields with
    | [] => some ([],s)
    | v :: vs =>
      if v ≠ [] ∧ v.all isDigit ∧ vs.all (· = v) then
        if decimal v ≤ s.length then some (s.take (decimal v),s.drop (decimal v)) else none
      else none

structure Request where
  method : Octets
  target : Octets
  fields : List (Octets × Octets)
  body : Octets
  deriving DecidableEq, Repr

/-- A request and what follows it. -/
def readRequest (s : Octets) : Option (Request × Octets) :=
  match readLine s with
  | none => none
  | some (line,rest) =>
    match readRequestLine line with
    | none => none
    | some l =>
      match readFields (rest.length+1) rest with
      | none => none
      | some (fields,rest) => (readBody fields rest).map (fun p => (⟨l.method,l.target,fields,p.1⟩,p.2))

/-! What the reader lets through. -/

theorem not_mem_of_all {s : Octets} {p : UInt8 → Bool} (h : s.all p) {c : UInt8} (hc : p c = false) : c ∉ s := by
  intro hm
  rw [List.all_eq_true.mp h c hm] at hc
  cases hc

theorem isToken_iff {s : Octets} : isToken s = true ↔ s ≠ [] ∧ s.all isTchar = true := by
  cases s <;> simp [isToken]

theorem isTarget_iff {s : Octets} : isTarget s = true ↔ s ≠ [] ∧ s.all isVchar = true := by
  cases s <;> simp [isTarget]

theorem isFieldByte_of_isBlank {c : UInt8} (h : isBlank c = true) : isFieldByte c = true := by
  rw [isBlank,Bool.or_eq_true,decide_eq_true_iff,decide_eq_true_iff] at h
  rcases h with rfl | rfl <;> decide

theorem all_dropWhile_iff {p q : UInt8 → Bool} (hqp : ∀ c, q c = true → p c = true) (s : Octets) :
    (s.dropWhile q).all p = true ↔ s.all p = true := by
  induction s with
  | nil => rfl
  | cons c s ih =>
    rw [List.dropWhile_cons]
    split
    · rename_i hc
      rw [ih,List.all_cons,hqp c hc,Bool.true_and]
    · rfl

/-- Blanks are among the bytes of a value. -/
theorem all_trim_iff (s : Octets) : (trim s).all isFieldByte = true ↔ s.all isFieldByte = true := by
  rw [trim,List.rdropWhile,List.all_reverse,all_dropWhile_iff fun c hc => isFieldByte_of_isBlank hc,
    List.all_reverse,all_dropWhile_iff fun c hc => isFieldByte_of_isBlank hc]

/-- A field as it is read. -/
def trimmed (f : Octets × Octets) : Octets × Octets := (f.1,trim f.2)

theorem trim_blank_cons (s : Octets) : trim (32 :: s) = trim s := by
  rw [trim,List.dropWhile_cons,if_pos (by decide),trim]

/-- A name that is a token, and a value with bytes of a value only. -/
def ValidField (f : Octets × Octets) : Prop := isToken f.1 = true ∧ f.2.all isFieldByte = true

instance (f : Octets × Octets) : Decidable (ValidField f) := inferInstanceAs (Decidable (_ ∧ _))

theorem readField_valid {line : Octets} {f : Octets × Octets} (h : readField line = some f) : ValidField f := by
  rw [readField] at h
  split at h
  · cases h
  · split at h
    · rename_i hv
      cases h
      exact ⟨hv.1,(all_trim_iff _).mpr hv.2⟩
    · cases h

theorem readFields_valid {fuel : Nat} {s rest : Octets} {fields : List (Octets × Octets)}
    (h : readFields fuel s = some (fields,rest)) : ∀ f ∈ fields, ValidField f := by
  induction fuel generalizing s fields with
  | zero => cases h
  | succ fuel ih =>
    rw [readFields] at h
    split at h
    · cases h
    · split at h
      · cases h
        intro f hf
        cases hf
      · split at h
        · cases h
        · rename_i hfield
          obtain ⟨⟨fields',r⟩,hr,he⟩ := Option.map_eq_some_iff.mp h
          cases he
          intro f hf
          rcases List.mem_cons.mp hf with rfl | hf
          · exact readField_valid hfield
          · exact ih hr f hf

theorem readRequestLine_valid {line : Octets} {l : RequestLine} (h : readRequestLine line = some l) :
    isToken l.method = true ∧ isTarget l.target = true := by
  rw [readRequestLine] at h
  split at h
  · cases h
  · split at h
    · cases h
    · split at h
      · rename_i hv
        cases h
        exact ⟨hv.1,hv.2.1⟩
      · cases h

theorem readRequest_valid {s rest : Octets} {r : Request} (h : readRequest s = some (r,rest)) :
    isToken r.method = true ∧ isTarget r.target = true ∧ ∀ f ∈ r.fields, ValidField f := by
  rw [readRequest] at h
  split at h
  · cases h
  · split at h
    · cases h
    · rename_i hl
      split at h
      · cases h
      · rename_i hf
        obtain ⟨p,-,he⟩ := Option.map_eq_some_iff.mp h
        cases he
        obtain ⟨h1,h2⟩ := readRequestLine_valid hl
        exact ⟨h1,h2,readFields_valid hf⟩

/-! Writing a head and reading it back. -/

def fieldLine (f : Octets × Octets) : Octets := f.1 ++ 58 :: 32 :: (f.2 ++ [13,10])

def writeHead (method target : Octets) (fields : List (Octets × Octets)) : Octets :=
  method ++ 32 :: (target ++ 32 :: (httpVersion ++ 13 :: 10 :: (fields.flatMap fieldLine ++ [13,10])))

theorem readField_line {f : Octets × Octets} (h : ValidField f) :
    readField (f.1 ++ 58 :: 32 :: f.2) = some (f.1,trim f.2) := by
  have hn := not_mem_of_all (isToken_iff.mp h.1).2 (show isTchar 58 = false by decide)
  rw [readField,cut_append hn]
  have hv : (32 :: f.2).all isFieldByte = true := by
    rw [List.all_cons,h.2]
    decide
  dsimp only
  rw [if_pos ⟨h.1,hv⟩,trim_blank_cons]

theorem readLine_field {f : Octets × Octets} (h : ValidField f) (rest : Octets) :
    readLine (fieldLine f ++ rest) = some (f.1 ++ 58 :: 32 :: f.2,rest) := by
  have hn := not_mem_of_all (isToken_iff.mp h.1).2 (show isTchar 13 = false by decide)
  have hv := not_mem_of_all h.2 (show isFieldByte 13 = false by decide)
  have hline : 13 ∉ f.1 ++ 58 :: 32 :: f.2 := by
    simp [hn,hv]
  have happ := readLine_append hline rest
  simpa [fieldLine] using happ

theorem readFields_write {fields : List (Octets × Octets)} (h : ∀ f ∈ fields, ValidField f) (rest : Octets) {fuel : Nat}
    (hfuel : fields.length < fuel) : readFields fuel (fields.flatMap fieldLine ++ 13 :: 10 :: rest) =
      some (fields.map trimmed,rest) := by
  induction fields generalizing fuel with
  | nil =>
    cases fuel with
    | zero => cases hfuel
    | succ fuel => rfl
  | cons f fields ih =>
    cases fuel with
    | zero => cases hfuel
    | succ fuel =>
      have hf := h f List.mem_cons_self
      have hne : f.1 ++ 58 :: 32 :: f.2 ≠ [] := by simp
      have hr := ih (fun g hg => h g (List.mem_cons_of_mem _ hg)) (Nat.lt_of_succ_lt_succ hfuel)
      rw [List.flatMap_cons,List.append_assoc,readFields,readLine_field hf]
      dsimp only
      rw [if_neg hne,readField_line hf]
      dsimp only
      rw [hr]
      rfl

theorem length_le_flatMap_fieldLine (fields : List (Octets × Octets)) :
    fields.length ≤ (fields.flatMap fieldLine).length := by
  induction fields with
  | nil => exact Nat.le_refl 0
  | cons f fields ih =>
    rw [List.flatMap_cons,List.length_append,List.length_cons,fieldLine]
    simp only [List.length_append,List.length_cons,List.length_nil]
    omega

theorem readRequestLine_line {method target : Octets} (hm : isToken method = true) (ht : isTarget target = true) :
    readRequestLine (method ++ 32 :: (target ++ 32 :: httpVersion)) = some ⟨method,target⟩ := by
  have h1 := not_mem_of_all (isToken_iff.mp hm).2 (show isTchar 32 = false by decide)
  have h2 := not_mem_of_all (isTarget_iff.mp ht).2 (show isVchar 32 = false by decide)
  rw [readRequestLine,cut_append h1]
  dsimp only
  rw [cut_append h2]
  exact if_pos ⟨hm,ht,rfl⟩

theorem readLine_head {method target : Octets} (hm : isToken method = true) (ht : isTarget target = true)
    (rest : Octets) : readLine (method ++ 32 :: (target ++ 32 :: (httpVersion ++ 13 :: 10 :: rest))) =
      some (method ++ 32 :: (target ++ 32 :: httpVersion),rest) := by
  have h1 := not_mem_of_all (isToken_iff.mp hm).2 (show isTchar 13 = false by decide)
  have h2 := not_mem_of_all (isTarget_iff.mp ht).2 (show isVchar 13 = false by decide)
  have h3 : (13 : UInt8) ∉ httpVersion := by decide
  have hline : 13 ∉ method ++ 32 :: (target ++ 32 :: httpVersion) := by
    simp [h1,h2,h3]
  have happ := readLine_append hline rest
  simpa using happ

/-- Of a valid head the reader takes every field and hands the rest to the body. -/
theorem readRequest_write {method target : Octets} {fields : List (Octets × Octets)} (hm : isToken method = true)
    (ht : isTarget target = true) (hf : ∀ f ∈ fields, ValidField f) (body : Octets) :
    readRequest (writeHead method target fields ++ body) =
      (readBody (fields.map trimmed) body).map
        (fun p => (⟨method,target,fields.map trimmed,p.1⟩,p.2)) := by
  have happ : writeHead method target fields ++ body =
      method ++ 32 :: (target ++ 32 :: (httpVersion ++ 13 :: 10 :: (fields.flatMap fieldLine ++ 13 :: 10 :: body))) := by
    simp [writeHead]
  have hfuel : fields.length < (fields.flatMap fieldLine ++ 13 :: 10 :: body).length+1 := by
    have := length_le_flatMap_fieldLine fields
    rw [List.length_append]
    omega
  rw [happ,readRequest,readLine_head hm ht]
  dsimp only
  rw [readRequestLine_line hm ht]
  dsimp only
  rw [readFields_write hf body hfuel]

/-! Fields of a name. -/

theorem valuesOf_append (name : Octets) (fields more : List (Octets × Octets)) :
    valuesOf name (fields ++ more) = valuesOf name fields ++ valuesOf name more := by
  rw [valuesOf,List.filter_append,List.map_append,valuesOf,valuesOf]

theorem valuesOf_cons (name : Octets) (f : Octets × Octets) (fields : List (Octets × Octets)) :
    valuesOf name (f :: fields) = (if f.1.map lower = name then [f.2] else []) ++ valuesOf name fields := by
  rw [valuesOf,List.filter_cons,valuesOf]
  split_ifs <;> simp_all

theorem valuesOf_eq_nil_iff (name : Octets) (fields : List (Octets × Octets)) :
    valuesOf name fields = [] ↔ ∀ f ∈ fields, f.1.map lower ≠ name := by
  simp [valuesOf]

/-! The extent of the body. -/

/-- All fields give the same length, none standing for no body. -/
def LengthIs (values : List Octets) (n : Nat) : Prop :=
  match values with
  | [] => n = 0
  | v :: vs => v ≠ [] ∧ v.all isDigit = true ∧ vs.all (· = v) = true ∧ decimal v = n

instance (values : List Octets) (n : Nat) : Decidable (LengthIs values n) :=
  match values with
  | [] => inferInstanceAs (Decidable (n = 0))
  | _ :: _ => inferInstanceAs (Decidable (_ ∧ _ ∧ _ ∧ _))

/-- Octets that are not in chunks are the whole body just where their number is
given. -/
theorem readBody_all_iff (fields : List (Octets × Octets)) (body : Octets) :
    readBody fields body = some (body,[]) ↔
      valuesOf transferEncoding fields = [] ∧ LengthIs (valuesOf contentLength fields) body.length := by
  rw [readBody]
  split
  · rename_i hte
    constructor
    · intro h
      split at h
      · have := length_readChunks h
        omega
      · cases h
    · rintro ⟨h,-⟩
      exact absurd h hte
  · rename_i hte
    rw [not_not] at hte
    rw [and_iff_right hte]
    split
    · rename_i hv
      rw [hv,LengthIs,List.length_eq_zero_iff]
      constructor
      · intro h
        cases h
        rfl
      · rintro rfl
        rfl
    · rename_i v vs hv
      rw [hv,LengthIs]
      split
      · rename_i hd
        split
        · rename_i hle
          rw [Option.some.injEq,Prod.mk.injEq,List.drop_eq_nil_iff,List.take_eq_self_iff]
          constructor
          · intro h
            exact ⟨hd.1,hd.2.1,hd.2.2,Nat.le_antisymm hle h.2⟩
          · rintro ⟨-,-,-,h⟩
            exact ⟨h.ge,h.ge⟩
        · rename_i hle
          constructor
          · intro h
            cases h
          · rintro ⟨-,-,-,h⟩
            exact absurd h.le hle
      · rename_i hd
        constructor
        · intro h
          cases h
        · rintro ⟨h1,h2,h3,-⟩
          exact absurd ⟨h1,h2,h3⟩ hd

end Spdylay.Library.Http
