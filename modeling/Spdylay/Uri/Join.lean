import Spdylay.Uri.RoundTrip

/-! Relative references: the segments of a path are joined behind the authority of a base. -/
namespace Spdylay
namespace Uri
open Util Library.Http Library.Segments
open Shrpx (str)

/-- The pieces between slashes that are not empty. -/
def split (s : Bytes) : List Bytes := (s.splitOn 47).filter (· ≠ [])

def joinStep (elements : List Bytes) (part : Bytes) : List Bytes :=
  if part = str ".." then elements.dropLast else if part = str "." then elements else elements ++ [part]

def pathElements (parts : List Bytes) : List Bytes := parts.foldl joinStep []

def joinPath (parts : List Bytes) : Bytes := [47].intercalate (pathElements parts)

def joinUri (baseUri uri : Bytes) : Bytes :=
  match parse uri with
  | some _ => uri
  | none =>
    match parse baseUri with
    | none => uri
    | some bus =>
      let path := before 63 (before 35 uri)
      let parts := (if uri.head? ≠ some 47 then split bus.dir else []) ++ split path
      let res := construct { bus with dir := [], file := [], query := [] } ++ joinPath parts
      let res := if (path = [] ∨ path.getLast? = some 47) ∧ res.getLast? ≠ some 47 then res ++ [47] else res
      res ++ onward 63 (before 35 uri)

/-! Normal paths. -/

/-- Behind the first slash there is no dot segment, and the last segment only may be
empty. -/
def NormalPath (path : Bytes) : Prop :=
  ∃ rest, path = 47 :: rest ∧ (∀ seg ∈ rest.splitOn 47, seg ≠ str "." ∧ seg ≠ str "..") ∧
    ∀ seg ∈ (rest.splitOn 47).dropLast, seg ≠ []

theorem mem_split {s seg : Bytes} (h : seg ∈ split s) : seg ≠ [] ∧ 47 ∉ seg ∧ ∀ c ∈ seg, c ∈ s := by
  rw [split,List.mem_filter,decide_eq_true_iff] at h
  exact ⟨h.2,(mem_splitOn_iff.mp h.1).1,fun c hc => mem_of_mem_splitOn h.1 hc⟩

theorem mem_joinStep {elements : List Bytes} {part e : Bytes} (h : e ∈ joinStep elements part) :
    e ∈ elements ∨ e = part ∧ e ≠ str "." ∧ e ≠ str ".." := by
  rw [joinStep] at h
  split_ifs at h with h1 h2
  · exact .inl (List.mem_of_mem_dropLast h)
  · exact .inl h
  · rw [List.mem_append,List.mem_singleton] at h
    rcases h with h | rfl
    · exact .inl h
    · exact .inr ⟨rfl,h2,h1⟩

/-- What is left are parts, none of them dots. -/
theorem mem_foldl_joinStep {parts elements : List Bytes} {e : Bytes} (h : e ∈ parts.foldl joinStep elements) :
    e ∈ elements ∨ e ∈ parts ∧ e ≠ str "." ∧ e ≠ str ".." := by
  induction parts generalizing elements with
  | nil => exact .inl h
  | cons part parts ih =>
    rcases ih h with h | ⟨hp,hdots⟩
    · exact (mem_joinStep h).imp_right (fun ⟨he,hdots⟩ => ⟨List.mem_cons.mpr (.inl he),hdots⟩)
    · exact .inr ⟨List.mem_cons_of_mem _ hp,hdots⟩

theorem mem_pathElements {parts : List Bytes} {e : Bytes} (h : e ∈ pathElements parts) :
    e ∈ parts ∧ e ≠ str "." ∧ e ≠ str ".." :=
  (mem_foldl_joinStep h).resolve_left List.not_mem_nil

/-- Elements joined behind a slash are a normal path, with one more slash if there are
any. -/
theorem normalPath_joined {elements : List Bytes} (h : ∀ e ∈ elements, e ≠ [] ∧ 47 ∉ e ∧ e ≠ str "." ∧ e ≠ str "..")
    {slash : Bytes} (hslash : slash = [] ∨ slash = [47] ∧ elements ≠ []) :
    NormalPath (47 :: ([47].intercalate elements ++ slash)) := by
  refine ⟨_,rfl,?_⟩
  by_cases hne : elements = []
  · have hnil : slash = [] := hslash.resolve_right (fun hs => hs.2 hne)
    rw [hne,hnil]
    decide
  · obtain ⟨hplain,hend⟩ := splitOn_joined hne (fun e he => (h e he).2.1)
    rcases hslash with rfl | ⟨rfl,-⟩
    · rw [List.append_nil,hplain]
      exact ⟨fun seg hs => (h seg hs).2.2,fun seg hs => (h seg (List.mem_of_mem_dropLast hs)).1⟩
    · rw [hend,List.dropLast_concat]
      refine ⟨?_,fun seg hs => (h seg hs).1⟩
      intro seg hs
      rcases List.mem_append.mp hs with hs | hs
      · exact (h seg hs).2.2
      · rw [List.mem_singleton.mp hs]
        decide

/-! The reference. -/

/-- The slash that is added at the end. -/
def endSlash (path : Bytes) (elements : List Bytes) : Bytes :=
  if (path = [] ∨ path.getLast? = some 47) ∧ (47 :: [47].intercalate elements).getLast? ≠ some 47 then [47] else []

theorem endSlash_spec (path : Bytes) (elements : List Bytes) :
    endSlash path elements = [] ∨ endSlash path elements = [47] ∧ elements ≠ [] := by
  rw [endSlash]
  split
  · rename_i h
    refine .inr ⟨rfl,?_⟩
    rintro rfl
    exact h.2 rfl
  · exact .inl rfl

/-- The elements of the path: those of the base's directory unless the reference begins with
a slash, and those of the reference. -/
def referenceElements (bus : UriStruct) (uri : Bytes) : List Bytes :=
  pathElements ((if uri.head? ≠ some 47 then split bus.dir else []) ++ split (before 63 (before 35 uri)))

def referencePath (bus : UriStruct) (uri : Bytes) : Bytes :=
  47 :: ([47].intercalate (referenceElements bus uri) ++
    endSlash (before 63 (before 35 uri)) (referenceElements bus uri))

theorem construct_authority (bus : UriStruct) : construct { bus with dir := [], file := [], query := [] } =
    bus.protocol ++ (str "://" ++ (authorityText bus ++ [47])) := by
  rw [construct,if_pos (by rintro ⟨⟩),authorityText]
  simp only [List.append_assoc,List.append_nil]
  rfl

/-- What is joined: the authority of the base, the path of the elements, the query of the
reference. -/
theorem joinUri_eq {baseUri uri : Bytes} {bus : UriStruct} (hbase : parse baseUri = some bus) (huri : parse uri = none) :
    joinUri baseUri uri = bus.protocol ++ (str "://" ++ (authorityText bus ++
      (referencePath bus uri ++ onward 63 (before 35 uri)))) := by
  have hlast : (construct { bus with dir := [], file := [], query := [] } ++
      [47].intercalate (referenceElements bus uri)).getLast? = (47 :: [47].intercalate (referenceElements bus uri)).getLast? := by
    rw [construct_authority,← List.getLast?_append_of_ne_nil (bus.protocol ++ (str "://" ++ authorityText bus))
      (List.cons_ne_nil _ _)]
    simp only [List.append_assoc,List.singleton_append]
  rw [joinUri,huri,hbase]
  dsimp only
  rw [joinPath,← referenceElements,hlast,referencePath,endSlash,construct_authority]
  split <;> simp only [List.append_assoc,List.cons_append,List.nil_append,List.append_nil]

section
variable {baseUri : Bytes} {bus : UriStruct} (hbase : parse baseUri = some bus)
include hbase

theorem referenceElements_spec {uri e : Bytes} (h : e ∈ referenceElements bus uri) :
    e ≠ [] ∧ 47 ∉ e ∧ 63 ∉ e ∧ 35 ∉ e ∧ e ≠ str "." ∧ e ≠ str ".." := by
  obtain ⟨p,-,hread⟩ := exists_parts hbase
  obtain ⟨a,-,rfl⟩ := Option.map_eq_some_iff.mp hread
  obtain ⟨-,-,-,hd63,hd35⟩ := cutFile_spec p.path_head p.path_plain
  have hu63 := not_mem_before 63 (before 35 uri)
  have hu35 : 35 ∉ before 63 (before 35 uri) := by
    intro hm
    apply not_mem_before 35 uri
    rw [← before_append_onward 63 (before 35 uri)]
    exact List.mem_append_left _ hm
  obtain ⟨hm,hdots⟩ := mem_pathElements h
  rw [List.mem_append] at hm
  rcases hm with hm | hm
  · split at hm
    · obtain ⟨hne,h47,hsub⟩ := mem_split hm
      exact ⟨hne,h47,fun hc => hd63 (List.mem_append_left _ (hsub _ hc)),
        fun hc => hd35 (List.mem_append_left _ (hsub _ hc)),hdots⟩
    · cases hm
  · obtain ⟨hne,h47,hsub⟩ := mem_split hm
    exact ⟨hne,h47,fun hc => hu63 (hsub _ hc),fun hc => hu35 (hsub _ hc),hdots⟩

theorem referencePath_spec (uri : Bytes) : NormalPath (referencePath bus uri) ∧
    63 ∉ referencePath bus uri ∧ 35 ∉ referencePath bus uri := by
  have hslash := endSlash_spec (before 63 (before 35 uri)) (referenceElements bus uri)
  have hplain : ∀ c ∈ referencePath bus uri, c = 47 ∨ ∃ e ∈ referenceElements bus uri, c ∈ e := by
    intro c hc
    rw [referencePath,List.mem_cons,List.mem_append] at hc
    rcases hc with hc | hc | hc
    · exact .inl hc
    · exact mem_intercalate hc
    · rcases hslash with hs | ⟨hs,-⟩
      · rw [hs] at hc
        cases hc
      · rw [hs] at hc
        exact .inl (List.mem_singleton.mp hc)
  refine ⟨normalPath_joined ?_ hslash,?_,?_⟩
  · intro e he
    obtain ⟨hne,h47,-,-,hdots⟩ := referenceElements_spec hbase he
    exact ⟨hne,h47,hdots⟩
  · intro hm
    rcases hplain 63 hm with h | ⟨e,he,hc⟩
    · cases h
    · exact (referenceElements_spec hbase he).2.2.1 hc
  · intro hm
    rcases hplain 35 hm with h | ⟨e,he,hc⟩
    · cases h
    · exact (referenceElements_spec hbase he).2.2.2.1 hc

/-- A reference that is no URI of its own is read as a URI of the base's host, with a normal
path, the query of the reference and no fragment; joining it again changes nothing. -/
theorem joinUri_normal {uri : Bytes} (huri : parse uri = none) :
    ∃ us, parse (joinUri baseUri uri) = some us ∧ us.protocol = bus.protocol ∧ us.host = bus.host ∧
      us.ipv6LiteralAddress = bus.ipv6LiteralAddress ∧ NormalPath (us.dir ++ us.file) ∧
      us.query = onward 63 (before 35 uri) ∧ 35 ∉ joinUri baseUri uri ∧
      joinUri baseUri (joinUri baseUri uri) = joinUri baseUri uri := by
  obtain ⟨p,-,hread⟩ := exists_parts hbase
  have hp := printable_of_read hread
  obtain ⟨hnormal,h63,h35⟩ := referencePath_spec hbase uri
  have hq35 : 35 ∉ onward 63 (before 35 uri) := by
    intro hm
    apply not_mem_before 35 uri
    rw [← before_append_onward 63 (before 35 uri)]
    exact List.mem_append_right _ hm
  have hhead : (referencePath bus uri).head? = some 47 := rfl
  have hparse := parse_authorityText hp hhead ⟨h63,h35⟩ (head?_onward 63 (before 35 uri)) hq35
  have hjoin := joinUri_eq hbase huri
  rw [← hjoin] at hparse
  refine ⟨_,hparse,rfl,rfl,rfl,?_,rfl,?_,?_⟩
  · dsimp only
    rw [cutFile_append rfl]
    exact hnormal
  · obtain ⟨defPort,hd⟩ := Option.isSome_iff_exists.mp hp.protocol
    have hproto := (protocol_plain hd).2
    rw [List.mem_append,not_or] at hproto
    rw [hjoin]
    simp only [List.mem_append,not_or]
    exact ⟨hproto.1,hproto.2,(authorityText_plain hp).2.2,h35,hq35⟩
  · rw [joinUri,hparse]

end

/-- The dots lead above the root and have no effect there. -/
theorem joined_reference_normal : ∃ us ∈ parse (joinUri exampleUri (str "../../a/./b//?q#x")),
    us.host = str "::1" ∧ NormalPath (us.dir ++ us.file) ∧ us.query = str "?q" := by
  obtain ⟨bus,h⟩ := Option.isSome_iff_exists.mp (show (parse exampleUri).isSome = true by decide)
  have huri : parse (str "../../a/./b//?q#x") = none := by decide
  obtain ⟨us,hus,-,hhost,-,hpath,hquery,-⟩ := joinUri_normal h huri
  have hbus : (parse exampleUri).map UriStruct.host = some (str "::1") := by decide
  rw [h] at hbus
  exact ⟨us,hus,hhost.trans (Option.some.inj hbus),hpath,hquery⟩

end Uri
end Spdylay
