import Spdylay.Uri.Parse

/-! What is printed of a URI reads back, but for a password without a user and for the port
zero. -/
namespace Spdylay
namespace Uri
open Util Library.Http Library.Segments
open Shrpx (str)

/-! Values that can be printed. -/

/-- The host has none of the characters that end it: slash, question mark, number sign and
at sign. -/
structure Printable (us : UriStruct) : Prop where
  protocol : (defaultPort us.protocol).isSome = true
  host_plain : ∀ c ∈ us.host, c ∉ [47,63,35,64]
  host_form : if us.ipv6LiteralAddress then 93 ∉ us.host
    else us.host ≠ [] ∧ us.host.head? ≠ some 91 ∧ 58 ∉ us.host
  port_le : us.port ≤ 65535
  password_nil : us.hasPassword = false → us.password = []

/-- What may stand between the protocol and the path. -/
def authorityText (us : UriStruct) : Bytes := userText us ++ (hostText us ++ portText us)

/-- The port that is understood when a URI is printed and read. -/
def printedPort (us : UriStruct) : Nat := if us.port = 0 then (defaultPort us.protocol).getD 0 else us.port

/-- A password goes lost without a user. -/
def printedAuthority (us : UriStruct) : Authority where
  username := us.username
  password := if us.username = [] then [] else us.password
  hasPassword := us.username ≠ [] && us.hasPassword
  host := us.host
  ipv6LiteralAddress := us.ipv6LiteralAddress
  port := printedPort us

/-! Numbers. -/

theorem mem_decimal {n : Nat} {c : UInt8} (h : c ∈ numeral 10 n) :
    isDigit c = true ∧ isSpace c = false ∧ c ≠ 0 ∧ c ∉ [45,43,47,63,35,64,58] := by
  have hdigit : ∀ d : Fin 10, isDigit (digit d) = true ∧ isSpace (digit d) = false ∧ digit d ≠ 0 ∧
      digit d ∉ [45,43,47,63,35,64,58] := by decide
  obtain ⟨d,hd,rfl⟩ := mem_numeral (by decide) h
  exact hdigit ⟨d,hd⟩

theorem strtol_numeral {n : Nat} (h : n ≤ 65535) : strtol (numeral 10 n) = some (n : Int) := by
  have hcstr : cstr (numeral 10 n) = numeral 10 n :=
    List.takeWhile_eq_self_iff.mpr (fun c hc => decide_eq_true (mem_decimal hc).2.2.1)
  have htake : (numeral 10 n).takeWhile isDigit = numeral 10 n :=
    List.takeWhile_eq_self_iff.mpr (fun c hc => (mem_decimal hc).1)
  have hhead : (numeral 10 n).dropWhile isSpace = numeral 10 n ∧ (numeral 10 n).head? ≠ some 45 ∧
      (numeral 10 n).head? ≠ some 43 := by
    cases hn : numeral 10 n with
    | nil => exact absurd hn (numeral_ne_nil 10 n)
    | cons c s =>
      obtain ⟨-,hspace,-,hsign⟩ := mem_decimal (n := n) (c := c) (by rw [hn]; exact List.mem_cons_self)
      refine ⟨List.dropWhile_cons_of_neg (ne_true_of_eq_false hspace),?_,?_⟩
      · rintro ⟨rfl⟩
        exact hsign (by decide)
      · rintro ⟨rfl⟩
        exact hsign (by decide)
  rw [strtol,hcstr,hhead.1,if_neg (not_or.mpr hhead.2),if_neg hhead.2.1,htake,decimal_numeral,if_pos (by omega)]

theorem defaultPort_pos {protocol : Bytes} {defPort : Nat} (h : defaultPort protocol = some defPort) :
    0 < defPort ∧ defPort ≤ 65535 := by
  rcases defaultPort_eq_some h with ⟨-,rfl⟩ | ⟨-,rfl⟩ <;> decide

theorem readPort_le {defPort : Nat} {text : Bytes} {port : Nat} (hd : defPort ≤ 65535)
    (h : readPort defPort text = some port) : port ≤ 65535 := by
  rw [readPort] at h
  split at h
  · cases h
    exact hd
  · split at h
    · cases h
    · split at h
      · cases h
      · cases h
        omega

/-- The port that is printed reads back, and the one that is left out is the default. -/
theorem readPort_portText {us : UriStruct} {defPort : Nat} (h : defaultPort us.protocol = some defPort)
    (hle : us.port ≤ 65535) : readPort defPort (portText us).tail = some (printedPort us) := by
  rw [portText,printedPort,h,Option.getD_some]
  split
  · rename_i hp
    have hv : toUint32 (us.port : Int) = us.port := by
      rw [toUint32]
      omega
    rw [show (str ":" ++ numeral 10 us.port).tail = numeral 10 us.port from rfl,readPort,if_neg (numeral_ne_nil 10 _),
      strtol_numeral hle]
    dsimp only
    rw [hv,if_neg (by omega),if_neg hp.1]
  · rename_i hp
    rw [show ([] : Bytes).tail = [] from rfl,readPort,if_pos rfl]
    split
    · rfl
    · rename_i hz
      rw [not_and,not_not] at hp
      rw [hp hz]

/-! Authorities. -/

theorem mem_portText {us : UriStruct} {c : UInt8} (h : c ∈ portText us) : c ∉ [47,63,35,64] := by
  have hsub : ∀ c : UInt8, c ∈ [47,63,35,64] → c ∈ [45,43,47,63,35,64,58] := by
    intro c hc
    exact List.mem_append_right [45,43] (List.mem_append_left [58] hc)
  rw [portText] at h
  split at h
  · rcases List.mem_append.mp h with h | h
    · rw [List.mem_singleton.mp h]
      decide
    · exact fun hc => (mem_decimal h).2.2.2 (hsub c hc)
  · cases h

theorem portText_head (us : UriStruct) : ∀ c ∈ (portText us).head?, c = 58 := by
  intro c hc
  rw [portText] at hc
  split at hc
  · exact (Option.some.inj hc).symm
  · cases hc

theorem mem_userText {us : UriStruct} {c : UInt8} (h : c ∈ userText us) : c ∉ [47,63,35] := by
  have hplain : ∀ c : UInt8, inRFC3986UnreservedChars c = true ∨ c = 37 → c ∉ [47,63,35] := by
    rintro c (hu | rfl)
    · intro hc
      rw [List.mem_cons,List.mem_pair] at hc
      rcases hc with rfl | rfl | rfl <;> exact absurd hu (by decide)
    · decide
  rw [userText] at h
  split at h
  · rcases List.mem_append.mp h with h | h
    · rcases List.mem_append.mp h with h | h
      · exact hplain c (mem_percentEncode h)
      · split at h
        · rcases List.mem_append.mp h with h | h
          · rw [List.mem_singleton.mp h]
            decide
          · exact hplain c (mem_percentEncode h)
        · cases h
    · rw [List.mem_singleton.mp h]
      decide
  · cases h

section
variable {us : UriStruct} (hp : Printable us)
include hp

theorem mem_hostText {c : UInt8} (h : c ∈ hostText us) : c ∉ [47,63,35,64] := by
  rw [hostText] at h
  split at h
  · rcases List.mem_append.mp h with h | h
    · rcases List.mem_append.mp h with h | h
      · rw [List.mem_singleton.mp h]
        decide
      · exact hp.host_plain c h
    · rw [List.mem_singleton.mp h]
      decide
  · exact hp.host_plain c h

theorem hostText_ne_nil : hostText us ≠ [] := by
  have hform := hp.host_form
  rw [hostText]
  split
  · exact nofun
  · rename_i h
    rw [if_neg h] at hform
    exact hform.1

theorem authorityText_ne_nil : authorityText us ≠ [] := by
  intro h
  rw [authorityText,List.append_eq_nil_iff,List.append_eq_nil_iff] at h
  exact hostText_ne_nil hp h.2.1

theorem authorityText_plain : 47 ∉ authorityText us ∧ 63 ∉ authorityText us ∧ 35 ∉ authorityText us := by
  have hmem : ∀ c ∈ authorityText us, c ∉ [47,63,35] := by
    have hsub : ∀ c : UInt8, c ∈ [47,63,35] → c ∈ [47,63,35,64] := by
      intro c hc
      exact List.mem_append_left [64] hc
    intro c hc
    rw [authorityText,List.mem_append,List.mem_append] at hc
    rcases hc with hc | hc | hc
    · exact mem_userText hc
    · exact fun h => mem_hostText hp hc (hsub c h)
    · exact fun h => mem_portText hc (hsub c h)
  exact ⟨fun h => hmem 47 h (by decide),fun h => hmem 63 h (by decide),fun h => hmem 35 h (by decide)⟩

/-- The user is read back. -/
theorem cutUserInfo_authorityText :
    (cutUserInfo (authorityText us)).2 = hostText us ++ portText us ∧
      readUserInfo (cutUserInfo (authorityText us)).1 =
        (us.username,if us.username = [] then [] else us.password,us.username ≠ [] && us.hasPassword) := by
  have h64 : 64 ∉ hostText us ++ portText us := by
    rw [List.mem_append,not_or]
    exact ⟨fun h => mem_hostText hp h (by decide),fun h => mem_portText h (by decide)⟩
  have h58 : ∀ x : Bytes, 58 ∉ percentEncode x := by
    intro x hx
    rcases mem_percentEncode hx with h | h
    · exact absurd h (by decide)
    · exact absurd h (by decide)
  rw [authorityText,userText]
  by_cases hu : us.username = []
  · rw [if_neg (not_not.mpr hu),List.nil_append,cutUserInfo,cutLast_eq_none_iff.mpr h64,hu]
    exact ⟨rfl,rfl⟩
  · rw [if_pos hu,List.append_assoc _ (str "@"),show str "@" = [64] from rfl,List.singleton_append,cutUserInfo,
      cutLast_append 64 _ h64,if_neg hu]
    refine ⟨rfl,?_⟩
    dsimp only
    rw [readUserInfo]
    cases hpw : us.hasPassword with
    | true =>
      rw [if_pos rfl,show str ":" = [58] from rfl,List.singleton_append,cutFirst_append (h58 _)]
      dsimp only
      rw [percentDecode_encode,percentDecode_encode]
      simp [hu]
    | false =>
      rw [if_neg Bool.false_ne_true,List.append_nil,cutFirst_eq_none_iff.mpr (h58 _),
        hp.password_nil hpw]
      dsimp only
      rw [percentDecode_encode]
      simp

/-- The host is read back, and the text of the port. -/
theorem cutHost_hostText : cutHost (hostText us ++ portText us) =
    some (us.host,us.ipv6LiteralAddress,(portText us).tail) := by
  have hform := hp.host_form
  have hport := portText_head us
  rw [cutHost,hostText]
  by_cases hv6 : us.ipv6LiteralAddress = true
  · rw [if_pos hv6] at hform ⊢
    have hbracket : (93 : UInt8) ∉ 91 :: us.host := List.not_mem_cons_of_ne_of_not_mem (by decide) hform
    have hcut := cutFirst_append hbracket (portText us)
    rw [show str "[" = [91] from rfl,show str "]" = [93] from rfl,List.append_assoc,List.append_assoc,
      List.singleton_append,List.singleton_append,← List.cons_append,hcut,hv6]
    cases ht : portText us with
    | nil => rfl
    | cons c t =>
      rw [ht] at hport
      have hc := hport c rfl
      rw [hc]
      rfl
  · rw [if_neg hv6] at hform ⊢
    obtain ⟨hne,hhead,h58⟩ := hform
    have hhead' : (us.host ++ portText us).head? ≠ some 91 := by
      cases hh : us.host with
      | nil => exact absurd hh hne
      | cons c t =>
        rw [hh] at hhead
        exact hhead
    rw [if_neg hhead',Bool.eq_false_iff.mpr hv6]
    cases ht : portText us with
    | nil =>
      rw [List.append_nil,cutFirst_eq_none_iff.mpr h58,Option.getD_none,if_neg hne]
      rfl
    | cons c t =>
      rw [ht] at hport
      have hc := hport c rfl
      rw [hc,cutFirst_append h58,Option.getD_some,if_neg hne]
      rfl

theorem readAuthority_authorityText {defPort : Nat} (h : defaultPort us.protocol = some defPort) :
    readAuthority defPort (authorityText us) = some (printedAuthority us) := by
  obtain ⟨hhost,huser⟩ := cutUserInfo_authorityText hp
  rw [readAuthority,hhost,huser,cutHost_hostText hp]
  dsimp only
  rw [readPort_portText h hp.port_le]
  rfl

/-- The authority of a value, with any path and query behind it, reads back. -/
theorem parse_authorityText {path query : Bytes} (hpath : path.head? = some 47) (hplain : 63 ∉ path ∧ 35 ∉ path)
    (hquery : ∀ c ∈ query.head?, c = 63) (hq35 : 35 ∉ query) :
    parse (us.protocol ++ (str "://" ++ (authorityText us ++ (path ++ query)))) =
      some ⟨us.protocol,us.host,printedPort us,(cutFile path).1,(cutFile path).2,query,us.username,
        if us.username = [] then [] else us.password,us.username ≠ [] && us.hasPassword,us.ipv6LiteralAddress⟩ := by
  obtain ⟨defPort,hd⟩ := Option.isSome_iff_exists.mp hp.protocol
  have hhead : ∀ c ∈ path.head?, c = 47 := by
    intro c hc
    rw [hpath] at hc
    exact (Option.some.inj hc).symm
  have h := Parts.parse_text ⟨us.protocol,defPort,authorityText us,path,query,[],hd,authorityText_ne_nil hp,
    authorityText_plain hp,hhead,hplain,hquery,hq35,nofun⟩
  rw [Parts.text,Parts.read] at h
  dsimp only at h
  rw [List.append_nil,readAuthority_authorityText hp hd] at h
  exact h

end

/-! Values that are read. -/

theorem cutHost_spec {hostPort host text : Bytes} {ipv6 : Bool} (h : cutHost hostPort = some (host,ipv6,text)) :
    (∀ c ∈ host, c ∈ hostPort) ∧ (if ipv6 then 93 ∉ host else host ≠ [] ∧ host.head? ≠ some 91 ∧ 58 ∉ host) := by
  rw [cutHost] at h
  split at h
  · cases hc : cutFirst 93 hostPort with
    | none =>
      rw [hc] at h
      cases h
    | some r =>
      obtain ⟨a,b⟩ := r
      rw [hc] at h
      obtain ⟨rfl,ha⟩ := cutFirst_spec hc
      have hhost : host = a.tail ∧ ipv6 = true := by
        dsimp only at h
        split_ifs at h <;> (cases h; exact ⟨rfl,rfl⟩)
      rw [hhost.1,hhost.2]
      exact ⟨fun c hm => List.mem_append_left _ (List.mem_of_mem_tail hm),fun hm => ha (List.mem_of_mem_tail hm)⟩
  · rename_i hhead
    dsimp only at h
    split at h
    · cases h
    · rename_i hne
      cases h
      cases hc : cutFirst 58 hostPort with
      | none =>
        rw [hc,Option.getD_none] at hne
        rw [Option.getD_none,if_neg Bool.false_ne_true]
        exact ⟨fun c hm => hm,hne,hhead,cutFirst_eq_none_iff.mp hc⟩
      | some r =>
        obtain ⟨a,b⟩ := r
        rw [hc,Option.getD_some] at hne
        obtain ⟨rfl,ha⟩ := cutFirst_spec hc
        rw [Option.getD_some,if_neg Bool.false_ne_true]
        refine ⟨fun c hm => List.mem_append_left _ hm,hne,?_,ha⟩
        cases a with
        | nil => exact absurd rfl hne
        | cons c t => exact hhead

theorem cutUserInfo_spec (authority : Bytes) :
    64 ∉ (cutUserInfo authority).2 ∧ ∀ c ∈ (cutUserInfo authority).2, c ∈ authority := by
  rw [cutUserInfo]
  cases h : cutLast 64 authority with
  | none => exact ⟨cutLast_eq_none_iff.mp h,fun c hc => hc⟩
  | some r =>
    obtain ⟨a,b⟩ := r
    obtain ⟨rfl,hb⟩ := cutLast_spec h
    exact ⟨hb,fun c hc => List.mem_append_right _ (List.mem_cons_of_mem _ hc)⟩

theorem readUserInfo_password (userInfo : Option Bytes) :
    (readUserInfo userInfo).2.2 = false → (readUserInfo userInfo).2.1 = [] := by
  cases userInfo with
  | none => exact fun _ => rfl
  | some userInfo =>
    rw [readUserInfo]
    split
    · exact nofun
    · exact fun _ => rfl

/-- What an accepted authority is read as. -/
theorem readAuthority_spec {defPort : Nat} {authority : Bytes} {a : Authority} (h : readAuthority defPort authority = some a) :
    ∃ text, cutHost (cutUserInfo authority).2 = some (a.host,a.ipv6LiteralAddress,text) ∧
      readPort defPort text = some a.port ∧
      readUserInfo (cutUserInfo authority).1 = (a.username,a.password,a.hasPassword) := by
  rw [readAuthority] at h
  cases hc : cutHost (cutUserInfo authority).2 with
  | none =>
    rw [hc] at h
    cases h
  | some r =>
    obtain ⟨host,ipv6,text⟩ := r
    rw [hc] at h
    obtain ⟨port,hport,he⟩ := Option.map_eq_some_iff.mp h
    rw [← he]
    exact ⟨text,rfl,hport,rfl⟩

theorem printable_of_read {p : Parts} {us : UriStruct} (h : p.read = some us) : Printable us := by
  obtain ⟨a,ha,rfl⟩ := Option.map_eq_some_iff.mp h
  obtain ⟨text,hhost,hport,huser⟩ := readAuthority_spec ha
  obtain ⟨hmem,hform⟩ := cutHost_spec hhost
  obtain ⟨h64,hsub⟩ := cutUserInfo_spec p.authority
  obtain ⟨h47,h63,h35⟩ := p.authority_plain
  have hpass := readUserInfo_password (cutUserInfo p.authority).1
  rw [huser] at hpass
  refine ⟨Option.isSome_iff_exists.mpr ⟨_,p.protocol_known⟩,?_,hform,readPort_le (defaultPort_pos p.protocol_known).2 hport,
    hpass⟩
  intro c hc hm
  have hin := hmem c hc
  simp only [List.mem_cons,List.not_mem_nil,or_false] at hm
  rcases hm with rfl | rfl | rfl | rfl
  · exact h47 (hsub _ hin)
  · exact h63 (hsub _ hin)
  · exact h35 (hsub _ hin)
  · exact h64 hin

/-! Paths. -/

theorem cutFile_append {path : Bytes} (h : path.head? = some 47) : (cutFile path).1 ++ (cutFile path).2 = path := by
  rw [cutFile]
  cases hc : cutLast 47 path with
  | none => exact absurd (List.mem_of_head? h) (cutLast_eq_none_iff.mp hc)
  | some r =>
    obtain ⟨rfl,-⟩ := cutLast_spec hc
    rw [List.append_assoc]
    rfl

theorem cutFile_spec {path : Bytes} (h : ∀ c ∈ path.head?, c = 47) (hplain : 63 ∉ path ∧ 35 ∉ path) :
    (cutFile path).1.getLast? = some 47 ∧ ((cutFile path).1 ++ (cutFile path).2).head? = some 47 ∧
      cutFile ((cutFile path).1 ++ (cutFile path).2) = cutFile path ∧
      63 ∉ (cutFile path).1 ++ (cutFile path).2 ∧ 35 ∉ (cutFile path).1 ++ (cutFile path).2 := by
  cases path with
  | nil => decide
  | cons c path =>
    have hc := h c rfl
    subst hc
    rw [cutFile_append rfl]
    refine ⟨?_,rfl,rfl,hplain⟩
    rw [cutFile]
    cases hc : cutLast 47 (47 :: path) with
    | none => exact absurd List.mem_cons_self (cutLast_eq_none_iff.mp hc)
    | some r => exact List.getLast?_concat

theorem construct_eq {us : UriStruct} (h : us.dir.getLast? = some 47) : construct us =
    us.protocol ++ (str "://" ++ (authorityText us ++ ((us.dir ++ us.file) ++ us.query))) := by
  rw [construct,if_neg (not_not.mpr h),authorityText]
  simp only [List.append_assoc,List.nil_append]

/-! The round trip. -/

theorem parse_construct {p : Parts} {us : UriStruct} (h : p.read = some us) : parse (construct us) =
    some { us with port := printedPort us, password := if us.username = [] then [] else us.password,
                   hasPassword := us.username ≠ [] && us.hasPassword } := by
  have hp := printable_of_read h
  obtain ⟨a,-,rfl⟩ := Option.map_eq_some_iff.mp h
  obtain ⟨hlast,hhead,hcut,hplain⟩ := cutFile_spec p.path_head p.path_plain
  rw [construct_eq hlast,parse_authorityText hp hhead hplain p.query_head p.query_plain,hcut]

theorem printedPort_eq_iff {us : UriStruct} (hp : Printable us) : printedPort us = us.port ↔ us.port ≠ 0 := by
  obtain ⟨defPort,hd⟩ := Option.isSome_iff_exists.mp hp.protocol
  have hpos := (defaultPort_pos hd).1
  rw [printedPort,hd,Option.getD_some]
  split
  · omega
  · rename_i h
    exact iff_of_true rfl h

/-- A value that was read survives just where it has a port and no password without a
user. -/
theorem construct_round_trip_iff {p : Parts} {us : UriStruct} (h : p.read = some us) :
    parse (construct us) = some us ↔ ¬(us.username = [] ∧ us.hasPassword = true) ∧ us.port ≠ 0 := by
  have hp := printable_of_read h
  have hpass := hp.password_nil
  rw [parse_construct h,← printedPort_eq_iff hp,Option.some.injEq]
  obtain ⟨protocol,host,port,dir,file,query,username,password,hasPassword,ipv6⟩ := us
  dsimp only at hpass ⊢
  simp only [UriStruct.mk.injEq,true_and,and_true]
  by_cases hu : username = []
  · cases hasPassword with
    | true => simp [hu]
    | false => simp [hu,hpass rfl]
  · simp [hu]

/-! The text. -/

def authorityOf (uri : Bytes) : Bytes := before 47 ((before 63 (before 35 uri)).drop ((find (str "://") uri).getD 0+3))

/-- What is before the last at sign of the authority, empty without one. -/
def userInfoOf (uri : Bytes) : Bytes := (cutUserInfo (authorityOf uri)).1.getD []

/-- What is behind the host and a colon, empty without them. -/
def portTextOf (uri : Bytes) : Bytes := ((cutHost (cutUserInfo (authorityOf uri)).2).map (fun r => r.2.2)).getD []

theorem authorityOf_text (p : Parts) : authorityOf p.text = p.authority := by
  obtain ⟨h63,h35⟩ := protocol_plain p.protocol_known
  have hlen : (p.protocol ++ str "://").length = p.protocol.length+3 := List.length_append
  have hs := split_unique 35 (p.protocol ++ str "://" ++ (p.authority ++ (p.path ++ p.query))) p.fragment
    (by simp only [List.mem_append,not_or] at h35 ⊢; exact ⟨h35,p.authority_plain.2.2,p.path_plain.2,p.query_plain⟩)
    p.fragment_head
  have hquery := split_unique 63 (p.protocol ++ str "://" ++ (p.authority ++ p.path)) p.query
    (by simp only [List.mem_append,not_or] at h63 ⊢; exact ⟨h63,p.authority_plain.2.1,p.path_plain.1⟩) p.query_head
  have htext : p.text = p.protocol ++ str "://" ++ (p.authority ++ (p.path ++ p.query)) ++ p.fragment := by
    simp only [Parts.text,List.append_assoc]
  have hhier : p.protocol ++ str "://" ++ (p.authority ++ (p.path ++ p.query)) =
      p.protocol ++ str "://" ++ (p.authority ++ p.path) ++ p.query := by
    simp only [List.append_assoc]
  have hfind : find (str "://") p.text = some p.protocol.length := find_mark p.protocol_known _
  rw [authorityOf,hfind,htext,hs.1,hhier,hquery.1,Option.getD_some,List.drop_left' hlen,
    (split_unique 47 _ _ p.authority_plain.1 p.path_head).1]

theorem readUserInfo_lost_iff (userInfo : Option Bytes) :
    (readUserInfo userInfo).1 = [] ∧ (readUserInfo userInfo).2.2 = true ↔ (userInfo.getD []).head? = some 58 := by
  cases userInfo with
  | none => exact iff_of_false nofun nofun
  | some s =>
    rw [readUserInfo,Option.getD_some]
    cases hc : cutFirst 58 s with
    | none =>
      refine iff_of_false nofun ?_
      intro hh
      exact cutFirst_eq_none_iff.mp hc (List.mem_of_head? hh)
    | some r =>
      obtain ⟨a,b⟩ := r
      obtain ⟨rfl,ha⟩ := cutFirst_spec hc
      dsimp only
      rw [percentDecode_eq_nil_iff]
      cases a with
      | nil => exact iff_of_true ⟨rfl,rfl⟩ rfl
      | cons c a =>
        refine iff_of_false nofun ?_
        intro hh
        exact ha (List.mem_of_head? hh)

theorem readPort_zero_iff {defPort port : Nat} {text : Bytes} (hd : 0 < defPort) (h : readPort defPort text = some port) :
    port = 0 ↔ text ≠ [] ∧ (strtol text).map toUint32 = some 0 := by
  rw [readPort] at h
  split at h
  · rename_i ht
    cases h
    exact iff_of_false hd.ne' (fun hn => hn.1 ht)
  · rename_i ht
    cases hv : strtol text with
    | none =>
      rw [hv] at h
      cases h
    | some v =>
      rw [hv] at h
      dsimp only at h
      split at h
      · cases h
      · cases h
        rw [Option.map_some,Option.some.injEq,and_iff_right ht]

/-- Decoding undoes encoding. What is printed of an accepted URI reads back as the same
value just where the user information does not begin with a colon and no port is given
whose number, as a uint32_t, is zero. -/
theorem uri_round_trip_iff {uri : Bytes} {us : UriStruct} (h : parse uri = some us) :
    (∀ x, percentDecode (percentEncode x) = x) ∧ (parse (construct us) = some us ↔
      (userInfoOf uri).head? ≠ some 58 ∧ (portTextOf uri = [] ∨ (strtol (portTextOf uri)).map toUint32 ≠ some 0)) := by
  refine ⟨percentDecode_encode,?_⟩
  obtain ⟨p,rfl,hread⟩ := exists_parts h
  rw [construct_round_trip_iff hread]
  obtain ⟨a,ha,rfl⟩ := Option.map_eq_some_iff.mp hread
  obtain ⟨text,hhost,hport,huser⟩ := readAuthority_spec ha
  have hlost := readUserInfo_lost_iff (cutUserInfo p.authority).1
  have hzero := readPort_zero_iff (defaultPort_pos p.protocol_known).1 hport
  rw [huser] at hlost
  rw [userInfoOf,portTextOf,authorityOf_text,hhost,Option.map_some,Option.getD_some]
  apply and_congr (not_congr hlost)
  exact (not_congr hzero).trans (not_and_or.trans (or_congr not_not Iff.rfl))

def exampleUri : Bytes := str "https://a%40b:@[::1]:8443/d/f?q#x"

theorem example_uri_round_trip : ∃ us ∈ parse exampleUri, parse (construct us) = some us := by
  obtain ⟨us,h⟩ := Option.isSome_iff_exists.mp (show (parse exampleUri).isSome = true by decide)
  exact ⟨us,h,(uri_round_trip_iff h).2.mpr (by decide)⟩

/-- A password without a user, and a port that is no number. -/
theorem uri_round_trip_fails :
    (∃ us ∈ parse (str "http://:p@h/"), parse (construct us) ≠ some us) ∧
      ∃ us ∈ parse (str "http://h:x/"), parse (construct us) ≠ some us := by
  decide

end Uri
end Spdylay
