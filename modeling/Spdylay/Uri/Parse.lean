import Spdylay.Library.Segments
import Spdylay.Proxy.Request
import Spdylay.Uri.PercentCoding

/-! URIs: taking them apart and printing them. -/
namespace Spdylay
namespace Uri
open Util Library.Http Library.Segments
open Shrpx (str)

structure UriStruct where
  protocol : Bytes
  host : Bytes
  port : Nat
  dir : Bytes
  file : Bytes
  query : Bytes
  username : Bytes
  password : Bytes
  hasPassword : Bool
  ipv6LiteralAddress : Bool
  deriving DecidableEq, Repr

/-! The C library. -/

def isSpace (c : UInt8) : Bool := c = 32 || (9 ≤ c && c ≤ 13)

/-- `strtol` in base ten with a long of 64 bits, none when it reports a range error. Text
without digits is zero. -/
def strtol (s : Bytes) : Option Int :=
  let s := (cstr s).dropWhile isSpace
  let digits := (if s.head? = some 45 ∨ s.head? = some 43 then s.tail else s).takeWhile isDigit
  if s.head? = some 45 then
    if decimal digits ≤ 9223372036854775808 then some (-(decimal digits : Int)) else none
  else if decimal digits < 9223372036854775808 then some (decimal digits : Int) else none

/-! Parts of an authority. -/

def defaultPort (protocol : Bytes) : Option Nat :=
  if protocol = str "http" then some 80 else if protocol = str "https" then some 443 else none

/-- The user information, if there is a separator, and the rest. -/
def cutUserInfo (authority : Bytes) : Option Bytes × Bytes :=
  match cutLast 64 authority with
  | some (userInfo,hostPort) => (some userInfo,hostPort)
  | none => (none,authority)

/-- The user name, the password and whether there is one. -/
def readUserInfo : Option Bytes → Bytes × Bytes × Bool
  | none => ([],[],false)
  | some userInfo =>
    match cutFirst 58 userInfo with
    | some (user,password) => (percentDecode user,percentDecode password,true)
    | none => (percentDecode userInfo,[],false)

/-- The host, whether it is an IPv6 address, and the text of the port. -/
def cutHost (hostPort : Bytes) : Option (Bytes × Bool × Bytes) :=
  if hostPort.head? = some 91 then
    match cutFirst 93 hostPort with
    | none => none
    | some (host,rest) =>
      if rest = [] then some (host.tail,true,[])
      else if rest.head? = some 58 then some (host.tail,true,rest.tail)
      else none
  else
    let r := (cutFirst 58 hostPort).getD (hostPort,[])
    if r.1 = [] then none else some (r.1,false,r.2)

/-- The value goes into a uint32_t before its range is checked. -/
def readPort (defPort : Nat) (text : Bytes) : Option Nat :=
  if text = [] then some defPort
  else
    match strtol text with
    | none => none
    | some value => if 65535 < toUint32 value then none else some (toUint32 value)

/-- The directory, with the last slash, and the file. -/
def cutFile (path : Bytes) : Bytes × Bytes :=
  match cutLast 47 path with
  | some (dir,file) => (dir ++ [47],file)
  | none => ([47],path)

structure Authority where
  username : Bytes
  password : Bytes
  hasPassword : Bool
  host : Bytes
  ipv6LiteralAddress : Bool
  port : Nat
  deriving DecidableEq, Repr

def readAuthority (defPort : Nat) (authority : Bytes) : Option Authority :=
  let u := cutUserInfo authority
  let user := readUserInfo u.1
  match cutHost u.2 with
  | none => none
  | some (host,ipv6,portText) =>
    (readPort defPort portText).map (fun port => ⟨user.1,user.2.1,user.2.2,host,ipv6,port⟩)

/-! The parser. -/

def parse (uri : Bytes) : Option UriStruct :=
  let untilFragment := before 35 uri
  match find (str "://") uri with
  | none => none
  | some protocolOffset =>
    let protocol := uri.take protocolOffset
    match defaultPort protocol with
    | none => none
    | some defPort =>
      let rest := (before 63 untilFragment).drop (protocolOffset+3)
      let path := cutFile (onward 47 rest)
      if before 47 rest = [] then none
      else
        (readAuthority defPort (before 47 rest)).map (fun a =>
          ⟨protocol,a.host,a.port,path.1,path.2,onward 63 untilFragment,a.username,a.password,a.hasPassword,
            a.ipv6LiteralAddress⟩)

/-! Printing. -/

def userText (us : UriStruct) : Bytes :=
  if us.username ≠ [] then
    percentEncode us.username ++ (if us.hasPassword then str ":" ++ percentEncode us.password else []) ++ str "@"
  else []

def hostText (us : UriStruct) : Bytes := if us.ipv6LiteralAddress then str "[" ++ us.host ++ str "]" else us.host

def portText (us : UriStruct) : Bytes :=
  let defPort := (defaultPort us.protocol).getD 0
  if us.port ≠ 0 ∧ defPort ≠ us.port then str ":" ++ numeral 10 us.port else []

def construct (us : UriStruct) : Bytes :=
  us.protocol ++ str "://" ++ userText us ++ hostText us ++ portText us ++ us.dir ++
    (if us.dir.getLast? ≠ some 47 then str "/" else []) ++ us.file ++ us.query

/-! The parts of a text that is accepted. -/

/-- The text between the marks, each part in the characters it can have. -/
structure Parts where
  protocol : Bytes
  defPort : Nat
  authority : Bytes
  path : Bytes
  query : Bytes
  fragment : Bytes
  protocol_known : defaultPort protocol = some defPort
  authority_ne : authority ≠ []
  authority_plain : 47 ∉ authority ∧ 63 ∉ authority ∧ 35 ∉ authority
  path_head : ∀ c ∈ path.head?, c = 47
  path_plain : 63 ∉ path ∧ 35 ∉ path
  query_head : ∀ c ∈ query.head?, c = 63
  query_plain : 35 ∉ query
  fragment_head : ∀ c ∈ fragment.head?, c = 35

namespace Parts

def text (p : Parts) : Bytes := p.protocol ++ (str "://" ++ (p.authority ++ (p.path ++ (p.query ++ p.fragment))))

def read (p : Parts) : Option UriStruct :=
  (readAuthority p.defPort p.authority).map (fun a =>
    ⟨p.protocol,a.host,a.port,(cutFile p.path).1,(cutFile p.path).2,p.query,a.username,a.password,a.hasPassword,
      a.ipv6LiteralAddress⟩)

end Parts

theorem defaultPort_eq_some {protocol : Bytes} {defPort : Nat} (h : defaultPort protocol = some defPort) :
    protocol = str "http" ∧ defPort = 80 ∨ protocol = str "https" ∧ defPort = 443 := by
  rw [defaultPort] at h
  split_ifs at h with h1 h2
  · cases h
    exact .inl ⟨h1,rfl⟩
  · cases h
    exact .inr ⟨h2,rfl⟩

/-- The first mark of a text that begins with a protocol is behind it. -/
theorem find_mark {protocol : Bytes} {defPort : Nat} (h : defaultPort protocol = some defPort) (s : Bytes) :
    find (str "://") (protocol ++ (str "://" ++ s)) = some protocol.length := by
  rcases defaultPort_eq_some h with ⟨rfl,-⟩ | ⟨rfl,-⟩ <;> rfl

theorem protocol_plain {protocol : Bytes} {defPort : Nat} (h : defaultPort protocol = some defPort) :
    63 ∉ protocol ++ str "://" ∧ 35 ∉ protocol ++ str "://" := by
  rcases defaultPort_eq_some h with ⟨rfl,-⟩ | ⟨rfl,-⟩ <;> decide

theorem parse_known {protocol : Bytes} {defPort : Nat} (h : defaultPort protocol = some defPort) (s : Bytes) :
    parse (protocol ++ (str "://" ++ s)) =
      if before 47 (before 63 (before 35 s)) = [] then none
      else
        (readAuthority defPort (before 47 (before 63 (before 35 s)))).map (fun a =>
          ⟨protocol,a.host,a.port,(cutFile (onward 47 (before 63 (before 35 s)))).1,
            (cutFile (onward 47 (before 63 (before 35 s)))).2,onward 63 (before 35 s),a.username,a.password,
            a.hasPassword,a.ipv6LiteralAddress⟩) := by
  obtain ⟨h63,h35⟩ := protocol_plain h
  have hlen : (protocol ++ str "://").length = protocol.length+3 := List.length_append
  have hfragment := (split_append h35 s).1
  have hquery := split_append h63 (before 35 s)
  rw [List.append_assoc] at hfragment
  rw [parse,find_mark h,hfragment]
  dsimp only
  rw [List.take_left,h]
  dsimp only
  rw [hquery.1,hquery.2,List.drop_left' hlen]

theorem Parts.parse_text (p : Parts) : parse p.text = p.read := by
  have hs := split_unique 35 (p.authority ++ (p.path ++ p.query)) p.fragment
    (by simp [p.authority_plain,p.path_plain,p.query_plain]) p.fragment_head
  have hquery := split_unique 63 (p.authority ++ p.path) p.query
    (by simp [p.authority_plain,p.path_plain]) p.query_head
  have hpath := split_unique 47 _ _ p.authority_plain.1 p.path_head
  rw [List.append_assoc,List.append_assoc] at hs
  rw [List.append_assoc] at hquery
  rw [Parts.text,parse_known p.protocol_known,hs.1,hquery.1,hquery.2,hpath.1,hpath.2,if_neg p.authority_ne,Parts.read]

/-- A text that is accepted is made of parts. -/
theorem exists_parts {uri : Bytes} {us : UriStruct} (h : parse uri = some us) :
    ∃ p : Parts, uri = p.text ∧ p.read = some us := by
  have hknown : ∃ protocol defPort s, defaultPort protocol = some defPort ∧ uri = protocol ++ (str "://" ++ s) := by
    rw [parse] at h
    dsimp only at h
    cases hf : find (str "://") uri with
    | none =>
      rw [hf] at h
      cases h
    | some n =>
      rw [hf] at h
      dsimp only at h
      cases hp : defaultPort (uri.take n) with
      | none =>
        rw [hp] at h
        cases h
      | some defPort =>
        obtain ⟨s,hs⟩ := find_spec hf
        exact ⟨uri.take n,defPort,s,hp,by rw [hs,List.take_append_drop]⟩
  obtain ⟨protocol,defPort,s,hp,rfl⟩ := hknown
  have hne : before 47 (before 63 (before 35 s)) ≠ [] := by
    intro hnil
    rw [parse_known hp,if_pos hnil] at h
    cases h
  have hmem : ∀ {sep c : UInt8} {t : Bytes}, c ∉ t → c ∉ before sep t ∧ c ∉ onward sep t := by
    intro sep c t ht
    rw [← before_append_onward sep t,List.mem_append,not_or] at ht
    exact ht
  have h35 := not_mem_before 35 s
  have h63 := not_mem_before 63 (before 35 s)
  refine ⟨⟨protocol,defPort,before 47 (before 63 (before 35 s)),onward 47 (before 63 (before 35 s)),
    onward 63 (before 35 s),onward 35 s,hp,hne,⟨not_mem_before _ _,(hmem h63).1,(hmem (hmem h35).1).1⟩,head?_onward _ _,
    ⟨(hmem h63).2,(hmem (hmem h35).1).2⟩,head?_onward _ _,(hmem h35).2,head?_onward _ _⟩,?_⟩
  have htext : s = before 47 (before 63 (before 35 s)) ++ (onward 47 (before 63 (before 35 s)) ++
      (onward 63 (before 35 s) ++ onward 35 s)) := by
    rw [← List.append_assoc,before_append_onward,← List.append_assoc,before_append_onward,before_append_onward]
  constructor
  · rw [Parts.text]
    exact congrArg (fun t => protocol ++ (str "://" ++ t)) htext
  · rw [parse_known hp,if_neg hne] at h
    exact h

end Uri
end Spdylay
