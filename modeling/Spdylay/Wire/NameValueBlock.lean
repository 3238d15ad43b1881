import Spdylay.Wire.HeaderInflater

/-! Name/value lists and their uncompressed wire form. A list is the sequence of
its pairs; the NULL-terminated array an application passes is flat. `qsort` is
the C library's and a parameter. -/
namespace Spdylay

abbrev Nv := List (Bytes × Bytes)

/-- The C library's sort, for any element type and comparison. -/
abbrev Qsort := (α : Type) → (α → α → Int) → List α → List α

/-- Sign of the first difference, bytes being unsigned. -/
def strcmp : Bytes → Bytes → Int
  | [], [] => 0
  | [], _ :: _ => -1
  | _ :: _, [] => 1
  | a :: as, b :: bs => if a < b then -1 else if b < a then 1 else strcmp as bs

/-! Lists from the application. -/

/-- Every name is nonempty and followed by a value. -/
def frameNvCheckNull : List Bytes → Bool
  | [] => true
  | [_] => false
  | name :: _ :: rest => if cstr name = [] then false else frameNvCheckNull rest

def frameNvCopy : List Bytes → Nv
  | name :: value :: rest => (cstr name,cstr value) :: frameNvCopy rest
  | _ => []

def frameNvSort (qsort : Qsort) (nv : Nv) : Nv :=
  qsort (Bytes × Bytes) (fun l r => strcmp l.1 r.1) nv

def downcaseByte (c : UInt8) : UInt8 := if 65 ≤ c ∧ c ≤ 90 then c+32 else c

def frameNvDowncase (nv : Nv) : Nv := nv.map (fun p => (p.1.map downcaseByte,p.2))

def frameNvNormCopy (qsort : Qsort) (nv : List Bytes) : Nv :=
  frameNvSort qsort (frameNvDowncase (frameNvCopy nv))

/-- SPDY/3 names and their SPDY/2 forms: host, method, path, scheme, status, version. -/
def nv3to2 : List (Bytes × Bytes) := [
  ([58,104,111,115,116],[104,111,115,116]),
  ([58,109,101,116,104,111,100],[109,101,116,104,111,100]),
  ([58,112,97,116,104],[117,114,108]),
  ([58,115,99,104,101,109,101],[115,99,104,101,109,101]),
  ([58,115,116,97,116,117,115],[115,116,97,116,117,115]),
  ([58,118,101,114,115,105,111,110],[118,101,114,115,105,111,110])]

def frameNv3to2 (nv : Nv) : Nv :=
  nv.map (fun p => match nv3to2.find? (fun t => t.1 = p.1) with
    | some t => (t.2,p.2)
    | none => p)

def frameNv2to3 (nv : Nv) : Nv :=
  nv.map (fun p => match nv3to2.find? (fun t => t.2 = p.1) with
    | some t => (t.1,p.2)
    | none => p)

/-! Packing. -/

def putNvLen (lenSize n : Nat) : Bytes := if lenSize = 2 then putUint16be n else putUint32be n

/-- Bytes needed by `framePackNv`, and the name last counted. -/
def countNvSpaceStep (lenSize : Nat) (acc : Nat × Bytes) (p : Bytes × Bytes) : Nat × Bytes :=
  if acc.2 = p.1 then (acc.1+(p.2.length+1),acc.2)
  else (acc.1+(p.1.length+p.2.length+lenSize*2),p.1)

def frameCountNvSpace (nv : Nv) (lenSize : Nat) : Nat :=
  (nv.foldl (countNvSpaceStep lenSize) (lenSize,[])).1

/-- A name equal to the last one written extends its value after a NUL. -/
def packNvStep (acc : List (Bytes × Bytes)) (p : Bytes × Bytes) : List (Bytes × Bytes) :=
  match acc.getLast? with
  | some last => if last.1 = p.1 then acc.dropLast ++ [(last.1,last.2 ++ 0 :: p.2)] else acc ++ [p]
  | none => [p]

def packStr (lenSize : Nat) (s : Bytes) : Bytes := putNvLen lenSize s.length ++ s

def framePackNv (nv : Nv) (lenSize : Nat) : Bytes :=
  let entries := nv.foldl packNvStep []
  putNvLen lenSize entries.length ++ entries.flatMap (fun p => packStr lenSize p.1 ++ packStr lenSize p.2)

/-! Unpacking. -/

def getNvLen (lenSize : Nat) (rd : Bytes) : Nat := if lenSize = 2 then getUint16 rd else getUint32 rd

/-- A length-prefixed string within the bytes left; its bytes and what follows. -/
def readStr (lenSize inlen off : Nat) (rd : Bytes) : Except Err (Bytes × Nat × Bytes) :=
  if inlen-off < lenSize then .error .invalidFrame
  else
    let len := getNvLen lenSize rd
    let rd := rd.drop lenSize
    if inlen-(off+lenSize) < len then .error .invalidFrame
    else .ok (rd.take len,off+lenSize+len,rd.drop len)

/-- The counting pass over `n` entries: final offset and number of pairs. -/
def countUnpackNvLoop (lenSize inlen : Nat) : Nat → Bytes → Nat → Nat → Except Err (Nat × Nat)
  | 0, _, off, nvlen => .ok (off,nvlen)
  | n+1, rd, off, nvlen =>
    match readStr lenSize inlen off rd with
    | .error e => .error e
    | .ok (_, off, rd) =>
      match readStr lenSize inlen off rd with
      | .error e => .error e
      | .ok (value, off, rd) => countUnpackNvLoop lenSize inlen n rd off (nvlen+value.count 0+1)

def frameCountUnpackNvSpace (input : Bytes) (lenSize : Nat) : Except Err Nat :=
  if input.length < lenSize then .error .invalidFrame
  else
    match countUnpackNvLoop lenSize input.length (getNvLen lenSize input) (input.drop lenSize) lenSize 0 with
    | .error e => .error e
    | .ok (off, nvlen) => if input.length = off then .ok nvlen else .error .invalidFrame

/-- The NUL-separated pieces of a value. -/
def valuePieces : Bytes → List Bytes
  | [] => [[]]
  | c :: cs =>
    if c = 0 then [] :: valuePieces cs
    else
      match valuePieces cs with
      | [] => [[c]]
      | p :: ps => (c :: p) :: ps

def validNameByte (c : UInt8) : Bool := !(c < 0x20 || 0x7e < c || (65 ≤ c && c ≤ 90))

/-- Index entries of the copying pass. The first component is the entry a name
belongs to: pairs of one entry share the pointer to their name. -/
abbrev NvIndex := List (Nat × Bytes × Bytes)

def unpackNvLoop (lenSize : Nat) : Nat → Nat → Bytes → NvIndex → Bool → NvIndex × Bool
  | 0, _, _, idx, invalid => (idx,invalid)
  | n+1, i, rd, idx, invalid =>
    let nlen := getNvLen lenSize rd
    let rd := rd.drop lenSize
    let name := rd.take nlen
    let rd := rd.drop nlen
    let vlen := getNvLen lenSize rd
    let rd := rd.drop lenSize
    let pieces := valuePieces (rd.take vlen)
    let invalid := invalid || nlen = 0 || !name.all validNameByte || pieces.dropLast.any (·.isEmpty)
    unpackNvLoop lenSize n (i+1) (rd.drop vlen) (idx ++ pieces.map (fun v => (i,cstr name,v))) invalid

/-- Two neighbours with equal names from different entries. -/
def hasDuplicateName : NvIndex → Bool
  | a :: b :: rest => (a.2.1 = b.2.1 && a.1 != b.1) || hasDuplicateName (b :: rest)
  | _ => false

def indexNv (idx : NvIndex) : Nv := idx.map (fun e => e.2)

/-- The list, which is set also when the block is invalid, and the error. Sizes are not cut
to 32 bits here: mem_recv hands over fewer than 2^24 bytes, where `Chunked.frameUnpackNv`,
the parser with its buffers and words, does the same (`Chunked.frameUnpackNv_contents`). -/
def frameUnpackNv (qsort : Qsort) (m : Mem) (input : Bytes) (lenSize : Nat) : Mem × Nv × Option Err :=
  match frameCountUnpackNvSpace input lenSize with
  | .error e => (m,[],some e)
  | .ok nvlen =>
    if m.headD true then
      let r := unpackNvLoop lenSize (getNvLen lenSize input) 0 (input.drop lenSize) [] false
      if r.1.length ≠ nvlen then (m.tail,[],some (.assertion .nvIndexCount))
      else if r.2 then (m.tail,indexNv r.1,some .invalidHeaderBlock)
      else
        let sorted := qsort (Nat × Bytes × Bytes) (fun l r => strcmp l.2.1 r.2.1) r.1
        (m.tail,indexNv sorted,if hasDuplicateName sorted then some .invalidHeaderBlock else none)
    else (m.tail,[],some .nomem)

/-! The counting pass counts what the copying pass writes. -/

theorem valuePieces_length (value : Bytes) : (valuePieces value).length = value.count 0+1 := by
  induction value with
  | nil => rfl
  | cons c cs ih =>
    unfold valuePieces
    split
    · rename_i hc
      simp [hc,ih]
    · rename_i hc
      have hne : (valuePieces cs).length ≠ 0 := by omega
      rw [List.count_cons_of_ne (by simpa using hc)]
      cases hp : valuePieces cs with
      | nil => exact absurd (by rw [hp]; rfl) hne
      | cons p ps =>
        rw [hp] at ih
        simpa using ih

theorem readStr_ok {lenSize inlen off : Nat} {rd : Bytes} {r : Bytes × Nat × Bytes}
    (h : readStr lenSize inlen off rd = .ok r) :
    r.1 = (rd.drop lenSize).take (getNvLen lenSize rd) ∧ r.2.2 = (rd.drop lenSize).drop (getNvLen lenSize rd) := by
  unfold readStr at h
  dsimp only at h
  split_ifs at h
  cases h
  exact ⟨rfl,rfl⟩

theorem countUnpackNvLoop_error {lenSize inlen n : Nat} {rd : Bytes} {off nvlen : Nat} {e : Err}
    (h : countUnpackNvLoop lenSize inlen n rd off nvlen = .error e) : ¬e ≠ .invalidFrame := by
  have hr : ∀ {off rd e}, readStr lenSize inlen off rd = .error e → e = .invalidFrame := by
    intro off rd e h
    unfold readStr at h
    dsimp only at h
    split_ifs at h <;> cases h <;> rfl
  induction n generalizing rd off nvlen with
  | zero => cases h
  | succ n ih =>
    unfold countUnpackNvLoop at h
    split at h
    · rename_i h1
      cases h
      exact not_not_intro (hr h1)
    · split at h
      · rename_i h2
        cases h
        exact not_not_intro (hr h2)
      · exact ih h

theorem unpackNvLoop_length {lenSize inlen n : Nat} {rd : Bytes} {off nvlen : Nat} {r : Nat × Nat}
    (h : countUnpackNvLoop lenSize inlen n rd off nvlen = .ok r) (i : Nat) (idx : NvIndex) (invalid : Bool) :
    (unpackNvLoop lenSize n i rd idx invalid).1.length+nvlen = idx.length+r.2 := by
  induction n generalizing rd off nvlen i idx invalid with
  | zero =>
    unfold countUnpackNvLoop at h
    cases h
    rfl
  | succ n ih =>
    unfold countUnpackNvLoop at h
    split at h
    · cases h
    · rename_i name off1 rd1 h1
      split at h
      · cases h
      · rename_i value off2 rd2 h2
        obtain ⟨-,hrd1⟩ := readStr_ok h1
        obtain ⟨hv,hrd2⟩ := readStr_ok h2
        dsimp only at hrd1 hv hrd2
        subst hrd1
        subst hv
        subst hrd2
        unfold unpackNvLoop
        dsimp only
        have hx := ih h (i+1) (idx ++ (valuePieces (List.take (getNvLen lenSize ((rd.drop lenSize).drop
          (getNvLen lenSize rd))) (((rd.drop lenSize).drop (getNvLen lenSize rd)).drop lenSize))).map
          (fun v => (i,cstr ((rd.drop lenSize).take (getNvLen lenSize rd)),v)))
        rw [List.length_append,List.length_map,valuePieces_length] at hx
        refine (?_ : ∀ b, (unpackNvLoop lenSize n (i+1) _ _ b).1.length+nvlen = _) _
        intro b
        have hy := hx b
        omega

theorem frameCountUnpackNvSpace_length {input : Bytes} {lenSize nvlen : Nat}
    (h : frameCountUnpackNvSpace input lenSize = .ok nvlen) :
    (unpackNvLoop lenSize (getNvLen lenSize input) 0 (input.drop lenSize) [] false).1.length = nvlen := by
  unfold frameCountUnpackNvSpace at h
  split at h
  · cases h
  · split at h
    · cases h
    · rename_i off nv hc
      split at h
      · cases h
        have := unpackNvLoop_length hc 0 [] false
        simpa using this
      · cases h

theorem frameCountUnpackNvSpace_error {input : Bytes} {lenSize : Nat} {e : Err}
    (h : frameCountUnpackNvSpace input lenSize = .error e) : e = .invalidFrame := by
  rw [frameCountUnpackNvSpace] at h
  split at h
  · cases h
    rfl
  · split at h
    · rename_i hc
      cases h
      exact not_not.mp (countUnpackNvLoop_error hc)
    · split at h <;> cases h
      rfl

/-! The web origin of a request. -/

structure Origin where
  scheme : Bytes
  host : Bytes
  port : Nat
  deriving DecidableEq, Repr

def isSpace (c : UInt8) : Bool := c = 0x20 || (9 ≤ c && c ≤ 13)

def isDigit (c : UInt8) : Bool := 48 ≤ c && c ≤ 57

/-- `strtoul` in base ten on a 64-bit unsigned long; `none` where errno is set. -/
def strtoul (s : Bytes) : Option Nat :=
  let s := s.dropWhile isSpace
  let negative := s.head? = some 45
  let s := if s.head? = some 43 ∨ negative then s.tail else s
  let n := (s.takeWhile isDigit).foldl (fun acc c => acc*10+(c.toNat-48)) 0
  if 2^64 ≤ n then none else if negative then some ((2^64-n)%2^64) else some n

def httpsPort : Nat := 443

/-- Host and port of a `:host` value, if they are usable. -/
def hostPort (value : Bytes) : Option (Bytes × Nat) :=
  let host := value.takeWhile (fun c => c ≠ 58)
  let port := if host.length = value.length then some httpsPort
    else match strtoul (value.drop (host.length+1)) with
      | some p => if p = 0 ∨ 65535 < p then none else some p
      | none => none
  match port with
  | some p => if maxHostname < host.length then none else some (host,p)
  | none => none

def setOriginStep (acc : Option Bytes × Option (Bytes × Nat)) (p : Bytes × Bytes) :
    Option Bytes × Option (Bytes × Nat) :=
  if acc.1 = none ∧ p.1 = [58,115,99,104,101,109,101] then
    (if p.2.length ≤ maxScheme then some p.2 else none,acc.2)
  else if acc.2 = none ∧ p.1 = [58,104,111,115,116] then (acc.1,hostPort p.2)
  else acc

def frameNvSetOrigin (nv : Nv) : Option Origin :=
  match nv.foldl setOriginStep (none,none) with
  | (some scheme, some (host, port)) => some ⟨scheme,host,port⟩
  | _ => none

end Spdylay
