import Spdylay.Library.Segments
import Spdylay.Proxy.Request
import Spdylay.Uri.PercentCoding

/-! The file server: what it opens for a request. -/
namespace Spdylay
namespace Spdyd
open Util Library.Segments
open Shrpx (str)

/-- The document root is given as a C string. -/
structure Config where
  htdocs : Bytes
  htdocs_nul : 0 ∉ htdocs
  deriving DecidableEq, Repr

def defaultHtml : Bytes := str "index.html"

def endsWith (a b : Bytes) : Bool := b.isSuffixOf a

def checkUrl (url : Bytes) : Bool :=
  !url.isEmpty && url.head? = some 47 && find (str "\\") url = none && find (str "/../") url = none &&
    find (str "/./") url = none && !endsWith url (str "/..") && !endsWith url (str "/.")

/-- What the scan of the header list has found. The date of a condition has no effect on
the response. -/
structure Scan where
  url : Option Bytes := none
  methodFound : Bool := false
  schemeFound : Bool := false
  versionFound : Bool := false
  hostFound : Bool := false
  deriving DecidableEq, Repr

def scanStep (s : Scan) (i : Bytes × Bytes) : Scan :=
  if s.url = none ∧ i.1 = str ":path" then { s with url := some i.2 }
  else if i.1 = str ":method" then { s with methodFound := true }
  else if i.1 = str ":scheme" then { s with schemeFound := true }
  else if i.1 = str ":version" then { s with versionFound := true }
  else if i.1 = str ":host" then { s with hostFound := true }
  else s

def status400 : Bytes := str "400 Bad Request"

def status404 : Bytes := str "404 Not Found"

inductive Response
  | silence
  | status (status : Bytes)
  /-- A file is opened; the response depends on whether there is one. -/
  | file (name : Bytes)
  deriving DecidableEq, Repr

/-- The url without its query, decoded; none for a request that asks for no response. -/
def decodedUrl (url : Bytes) : Option Bytes :=
  match find (str "?") url with
  | none => some (percentDecode url)
  | some queryPos =>
    if find (str "spdyd_do_not_respond_to_req=yes") (url.drop queryPos) ≠ none then none
    else some (percentDecode (url.take queryPos))

/-- The counted string, and of it what `open` is given. -/
def filePath (config : Config) (url : Bytes) : Bytes :=
  let path := config.htdocs ++ url
  if path.getLast? = some 47 then path ++ defaultHtml else path

def respond (config : Config) (url : Bytes) : Response :=
  match decodedUrl url with
  | none => .silence
  | some url => if checkUrl url then .file (cstr (filePath config url)) else .status status404

def prepareResponse (config : Config) (headers : Nv) : Response :=
  let s := headers.foldl scanStep {}
  match s.url with
  | none => .status status400
  | some url =>
    if s.methodFound && s.schemeFound && s.versionFound && s.hostFound then respond config url else .status status400

/-! The document root. -/

/-- None of the segments leads elsewhere. -/
def NoDots (path : Bytes) : Prop := ∀ seg ∈ path.splitOn 47, seg ≠ str "." ∧ seg ≠ str ".."

instance (path : Bytes) : Decidable (NoDots path) := inferInstanceAs (Decidable (∀ seg ∈ _, _ ∧ _))

/-- The root and behind it a path without dot segments. -/
def InsideRoot (config : Config) (name : Bytes) : Prop :=
  ∃ path, name = config.htdocs ++ path ∧ path.head? = some 47 ∧ NoDots path

theorem checkUrl_iff (url : Bytes) : checkUrl url = true ↔
    url.head? = some 47 ∧ ¬str "\\" <:+: url ∧ ¬str "/../" <:+: url ∧ ¬str "/./" <:+: url ∧
      ¬str "/.." <:+ url ∧ ¬str "/." <:+ url := by
  have hne : url.head? = some 47 → url.isEmpty = false := by
    intro h
    cases url with
    | nil => cases h
    | cons c url => rfl
  simp only [checkUrl,endsWith,Bool.and_eq_true,Bool.not_eq_true',decide_eq_true_iff,find_eq_none_iff,
    Bool.eq_false_iff,ne_eq,List.isSuffixOf_iff_suffix]
  constructor
  · rintro ⟨⟨⟨⟨⟨⟨-,h1⟩,h2⟩,h3⟩,h4⟩,h5⟩,h6⟩
    exact ⟨h1,h2,h3,h4,h5,h6⟩
  · rintro ⟨h1,h2,h3,h4,h5,h6⟩
    exact ⟨⟨⟨⟨⟨⟨Bool.eq_false_iff.mp (hne h1),h1⟩,h2⟩,h3⟩,h4⟩,h5⟩,h6⟩

/-- Dot segments of an absolute path. -/
theorem noDots_iff {path : Bytes} (h : path.head? = some 47) : NoDots path ↔
    ¬(str "/./" <:+: path ∨ str "/." <:+ path) ∧ ¬(str "/../" <:+: path ∨ str "/.." <:+ path) := by
  cases path with
  | nil => cases h
  | cons c path =>
    cases h
    have hone := mem_splitOn_cons_iff 47 path (str ".") (by decide) (by decide)
    have htwo := mem_splitOn_cons_iff 47 path (str "..") (by decide) (by decide)
    rw [show str "/./" = 47 :: (str "." ++ [47]) by decide,show str "/." = 47 :: str "." by decide,
      show str "/../" = 47 :: (str ".." ++ [47]) by decide,show str "/.." = 47 :: str ".." by decide,← hone,← htwo,NoDots]
    constructor
    · intro hno
      exact ⟨fun hm => (hno _ hm).1 rfl,fun hm => (hno _ hm).2 rfl⟩
    · rintro ⟨h1,h2⟩ seg hseg
      constructor
      · rintro rfl
        exact h1 hseg
      · rintro rfl
        exact h2 hseg

theorem noDots_of_checkUrl {url : Bytes} (h : checkUrl url = true) : NoDots url := by
  obtain ⟨h1,-,h3,h4,h5,h6⟩ := (checkUrl_iff url).mp h
  rw [noDots_iff h1]
  exact ⟨not_or.mpr ⟨h4,h6⟩,not_or.mpr ⟨h3,h5⟩⟩

/-- The default file is one more segment. -/
theorem noDots_defaultHtml {url : Bytes} (h : NoDots url) (hlast : url.getLast? = some 47) : NoDots (url ++ defaultHtml) := by
  obtain ⟨u,rfl⟩ := List.getLast?_eq_some_iff.mp hlast
  have hno : (47 : UInt8) ∉ defaultHtml := by decide
  intro seg hseg
  rw [List.append_assoc,List.singleton_append,List.splitOn_append_cons_self,List.splitOn_eq_singleton hno,
    List.mem_append,List.mem_singleton] at hseg
  rcases hseg with hseg | rfl
  · apply h
    rw [List.splitOn_append_cons_self]
    exact List.mem_append_left _ hseg
  · decide

/-! C strings. -/

theorem cstr_append_of_not_mem {a : Bytes} (h : 0 ∉ a) (b : Bytes) : cstr (a ++ b) = a ++ cstr b := by
  rw [cstr,List.takeWhile_append_of_pos,cstr]
  intro c hc
  rw [decide_eq_true_iff]
  rintro rfl
  exact h hc

theorem cstr_of_not_mem {a : Bytes} (h : 0 ∉ a) : cstr a = a := by
  have := cstr_append_of_not_mem h []
  rw [List.append_nil] at this
  rw [this,cstr,List.takeWhile_nil,List.append_nil]

/-- What is behind a NUL is not seen. -/
theorem cstr_append_of_mem {a : Bytes} (h : 0 ∈ a) (b : Bytes) : cstr (a ++ b) = cstr a := by
  induction a with
  | nil => cases h
  | cons c a ih =>
    rw [cstr,List.cons_append,List.takeWhile_cons,cstr,List.takeWhile_cons]
    split
    · rename_i hc
      have hm := (List.mem_cons.mp h).resolve_left (fun he => by rw [← he] at hc; exact absurd hc (by decide))
      exact congrArg (c :: ·) (ih hm)
    · rfl

theorem cstr_isPrefix (a : Bytes) : cstr a <+: a := List.takeWhile_prefix _

theorem filePath_eq (config : Config) {url : Bytes} (h : url.head? = some 47) :
    ∃ ext, filePath config url = config.htdocs ++ (url ++ ext) ∧
      (ext = [] ∨ ext = defaultHtml ∧ url.getLast? = some 47) := by
  have hne : url ≠ [] := by
    rintro rfl
    cases h
  rw [filePath,List.getLast?_append_of_ne_nil _ hne]
  split
  · rename_i hl
    exact ⟨defaultHtml,List.append_assoc _ _ _,.inr ⟨rfl,hl⟩⟩
  · exact ⟨[],by rw [List.append_nil],.inl rfl⟩

theorem insideRoot_append_iff (config : Config) (path : Bytes) :
    InsideRoot config (config.htdocs ++ path) ↔ path.head? = some 47 ∧ NoDots path := by
  constructor
  · rintro ⟨path',he,h⟩
    rw [List.append_cancel_left he]
    exact h
  · intro h
    exact ⟨path,rfl,h⟩

/-- Of a checked url the name that is opened is inside the root just where the url, up to
its first NUL, does not end with a dot segment. -/
theorem insideRoot_filePath_iff (config : Config) {url : Bytes} (h : checkUrl url = true) :
    InsideRoot config (cstr (filePath config url)) ↔
      endsWith (cstr url) (str "/..") = false ∧ endsWith (cstr url) (str "/.") = false := by
  obtain ⟨h1,-,h3,h4,h5,h6⟩ := (checkUrl_iff url).mp h
  obtain ⟨ext,hpath,hext⟩ := filePath_eq config h1
  rw [hpath,cstr_append_of_not_mem config.htdocs_nul,insideRoot_append_iff,endsWith,endsWith,Bool.eq_false_iff,
    Bool.eq_false_iff,ne_eq,ne_eq,List.isSuffixOf_iff_suffix,List.isSuffixOf_iff_suffix]
  by_cases hnul : 0 ∈ url
  · have hhead : (cstr url).head? = some 47 := by
      cases url with
      | nil => cases h1
      | cons c url =>
        cases h1
        rw [cstr,List.takeWhile_cons]
        rfl
    rw [cstr_append_of_mem hnul,and_iff_right hhead,noDots_iff hhead,
      or_iff_right (fun hi => h4 (hi.trans (cstr_isPrefix url).isInfix)),
      or_iff_right (fun hi => h3 (hi.trans (cstr_isPrefix url).isInfix))]
    exact and_comm
  · have hextnul : (0 : UInt8) ∉ ext := by
      rcases hext with rfl | ⟨rfl,-⟩
      · exact List.not_mem_nil
      · decide
    rw [cstr_of_not_mem hnul,cstr_append_of_not_mem hnul,cstr_of_not_mem hextnul]
    refine iff_of_true ⟨?_,?_⟩ ⟨h5,h6⟩
    · rw [List.head?_append,h1]
      rfl
    · rcases hext with rfl | ⟨rfl,hlast⟩
      · rw [List.append_nil]
        exact noDots_of_checkUrl h
      · exact noDots_defaultHtml (noDots_of_checkUrl h) hlast

/-! A request. -/

theorem prepareResponse_file {config : Config} {headers : Nv} {url decoded name : Bytes}
    (h : prepareResponse config headers = .file name) (hurl : (headers.foldl scanStep {}).url = some url)
    (hdec : decodedUrl url = some decoded) : checkUrl decoded = true ∧ name = cstr (filePath config decoded) := by
  rw [prepareResponse,hurl] at h
  dsimp only at h
  split at h
  · rw [respond,hdec] at h
    dsimp only at h
    split at h
    · rename_i hc
      cases h
      exact ⟨hc,rfl⟩
    · cases h
  · cases h

/-- The file that a request opens is inside the document root just where the decoded url, up
to its first NUL, does not end with a dot segment. -/
theorem opened_inside_root_iff {config : Config} {headers : Nv} {url decoded name : Bytes}
    (h : prepareResponse config headers = .file name) (hurl : (headers.foldl scanStep {}).url = some url)
    (hdec : decodedUrl url = some decoded) : InsideRoot config name ↔
      endsWith (cstr decoded) (str "/..") = false ∧ endsWith (cstr decoded) (str "/.") = false := by
  obtain ⟨hc,rfl⟩ := prepareResponse_file h hurl hdec
  exact insideRoot_filePath_iff config hc

def requestFor (path : Bytes) : Nv :=
  [(str ":method",str "GET"),(str ":path",path),(str ":scheme",str "https"),(str ":version",str "HTTP/1.1"),
    (str ":host",str "localhost")]

theorem index_inside_root : InsideRoot ⟨str "/srv",by decide⟩ (str "/srv/a/index.html") := by
  have hfile : prepareResponse ⟨str "/srv",by decide⟩ (requestFor (str "/%61/?q")) = .file (str "/srv/a/index.html") := by
    decide
  have hurl : ((requestFor (str "/%61/?q")).foldl scanStep {}).url = some (str "/%61/?q") := by decide
  have hdec : decodedUrl (str "/%61/?q") = some (str "/a/") := by decide
  rw [opened_inside_root_iff hfile hurl hdec]
  decide

/-- A NUL behind the two dots hides them from the check. -/
theorem parent_directory_opened :
    prepareResponse ⟨str "/srv",by decide⟩ (requestFor (str "/..%00x")) = .file (str "/srv/..") ∧
      ¬InsideRoot ⟨str "/srv",by decide⟩ (str "/srv/..") := by
  refine ⟨by decide,?_⟩
  rw [show str "/srv/.." = str "/srv" ++ str "/.." by decide,insideRoot_append_iff ⟨str "/srv",by decide⟩]
  decide

end Spdyd
end Spdylay
