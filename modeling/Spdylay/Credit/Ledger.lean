import Spdylay.Credit.Receiving
import Spdylay.Protocol.CredentialOrder

/-! The ledger of a stream's receive credit: what has been received on the stream is
either still in its receive window or has been given back. -/
namespace Spdylay
open Library Machine Session

/-- A turn whose call, if it is one, is admitted. -/
inductive TurnWith (P : Platform) (ok : Session → Op → Prop) : Session → Session → Prop
  | prepare (s : Session) : s.aob.item = none → TurnWith P ok s (s.prepareNext P)
  | write (s : Session) (item : OutboundItem) : s.aob.item = some item → TurnWith P ok s (s.sendWrite item).1
  | recv (s : Session) (input : Bytes) : TurnWith P ok s (s.recvIter P input).1
  | submit (s : Session) (op : Op) : op ≠ .send → (∀ input, op ≠ .memRecv input) → ok s op →
      TurnWith P ok s (s.call P op).1
  | report (s : Session) (e : Err) : TurnWith P ok s (s.emit (.fatal e))

theorem TurnWith.turn {P : Platform} {ok : Session → Op → Prop} {s s' : Session} (h : TurnWith P ok s s') : Turn P s s' := by
  cases h with
  | prepare h => exact .prepare s h
  | write item h => exact .write s item h
  | recv input => exact .recv s input
  | submit op hs hr _ => exact .submit s op hs hr
  | report e => exact .report s e

theorem Turn.unrestricted {P : Platform} {s s' : Session} (h : Turn P s s') : TurnWith P (fun _ _ => True) s s' := by
  cases h with
  | prepare h => exact .prepare s h
  | write item h => exact .write s item h
  | recv input => exact .recv s input
  | submit op hs hr => exact .submit s op hs hr trivial
  | report e => exact .report s e

/-- What a turn does to the receive side, calls that fail included. -/
inductive CreditMove (P : Platform) (ok : Session → Op → Prop) (s s' : Session) : Prop
  | receive : Receives s s' → CreditMove P ok s s'
  | giveBack (id delta : Int) (item : OutboundItem) : 0 < delta → ok s (.submitWindowUpdate id delta) →
      (∃ st, s.getStream id = some st) →
      item.frame = .ctrl (.windowUpdate (frameWindowUpdateInit s.version.num id delta)) →
      Credits (fun k r => if id = k then r-min delta r else r) [.accepted item] s s' → CreditMove P ok s s'
  | settings (flags : Nat) (iv : List SettingsEntry) (s1 : Session) : ok s (.submitSettings flags iv) →
      settingsUnique iv = true → Calm s s1 → s' = s1.updateLocalSettings (frameIvSort P iv) → CreditMove P ok s s'
  | autoUpdate (on : Bool) : ok s (.setNoAutoWindowUpdate on) → s' = s.setNoAutoWindowUpdate on → CreditMove P ok s s'

theorem TurnWith.credit {P : Platform} {ok : Session → Op → Prop} {s s' : Session} (h : TurnWith P ok s s') (ha : Ample s)
    (hok : FrameOk s.iframe) (hb : s.iframe.Blockless) : CreditMove P ok s s' := by
  have calm : ∀ {t : Session}, Calm s t → CreditMove P ok s t := fun h => .receive (.opens h.opens)
  cases h with
  | prepare _ => exact .receive (.opens (prepareNext_opens P s))
  | write item _ => exact calm (sendWrite_calm P s item)
  | recv input => exact .receive (recvIter_receives P ha hb hok input)
  | report e => exact calm (calm_emit s _ rfl)
  | submit op hs hr hop =>
    by_cases hp : Op.isPlain op = true
    · exact calm (plain_changes P s op hp).calm
    · cases op with
      | submitSettings flags iv =>
        obtain ⟨s1,hc,⟨heq,hu⟩ | ⟨e,heq⟩⟩ := submitSettings_changes P s flags iv
        · rw [call,heq]
          exact .settings flags iv s1 hop hu hc.calm rfl
        · rw [call,heq]
          exact calm hc.calm
      | submitWindowUpdate id delta =>
        rw [call,submitWindowUpdate]
        split
        · exact calm (.refl s)
        · rename_i hdelta
          cases hst : s.getStream id with
          | none => exact calm (.refl s)
          | some st =>
            have hlow := credits_modifyStream s id (fun st => {st with
              recvWindowSize := st.recvWindowSize-min delta st.recvWindowSize}) (fun _ => rfl)
              (fun r => r-min delta r) (fun _ => rfl) (fun _ h => h)
            obtain ⟨item,hi,-,hg⟩ := addWindowUpdate_gives (ha.of_suffix hlow.mem) id delta
            exact .giveBack id delta item (not_le.mp hdelta) hop ⟨st,hst⟩ hi (hlow.trans hg)
      | setNoAutoWindowUpdate on => exact .autoUpdate on hop rfl
      | send => exact absurd rfl hs
      | memRecv input => exact absurd rfl (hr input)
      | _ => exact absurd rfl hp

theorem CreditMove.mem {P : Platform} {ok : Session → Op → Prop} {s s' : Session} (h : CreditMove P ok s s') :
    s'.host.mem <:+ s.host.mem := by
  cases h with
  | receive h =>
    cases h with
    | opens h => exact h.mem
    | uncounted flags id data _ h => exact h.mem
    | counted flags id data st r _ _ _ h => exact h.mem
    | givenBack flags id data st delta item _ _ _ _ h => exact h.mem
  | giveBack id delta item _ _ _ _ h => exact h.mem
  | settings flags iv s1 _ _ h heq =>
    rw [heq]
    exact h.mem
  | autoUpdate on _ heq =>
    rw [heq]
    exact List.suffix_rfl

theorem CreditMove.flowControl {P : Platform} {ok : Session → Op → Prop} {s s' : Session} (h : CreditMove P ok s s') :
    s'.flowControl = s.flowControl := by
  cases h with
  | receive h =>
    cases h with
    | opens h => exact congrArg CreditSide.flowControl h.side
    | uncounted flags id data _ h => exact congrArg CreditSide.flowControl h.side
    | counted flags id data st r _ _ _ h => exact congrArg CreditSide.flowControl h.side
    | givenBack flags id data st delta item _ _ _ _ h => exact congrArg CreditSide.flowControl h.side
  | giveBack id delta item _ _ _ _ h => exact congrArg CreditSide.flowControl h.side
  | settings flags iv s1 _ _ h heq =>
    rw [heq]
    exact congrArg CreditSide.flowControl h.side
  | autoUpdate on _ heq =>
    rw [heq]
    rfl

/-! The ledger. -/

/-- Payload bytes accepted on a stream. -/
def received (id : Int) : Event → Int
  | .dataChunkRecv _ k data => if k = id then data.length else 0
  | _ => 0

/-- Credit queued for a stream. -/
def credited (id : Int) : Event → Int
  | .accepted ⟨.ctrl (.windowUpdate f),_,_,_⟩ => if f.streamId = id then f.deltaWindowSize else 0
  | _ => 0

def total (f : Event → Int) (log : List Event) : Int := (log.map f).sum

theorem total_append (f : Event → Int) (l l' : List Event) : total f (l ++ l') = total f l+total f l' := by
  rw [total,List.map_append,List.sum_append]
  rfl

/-- Only the events of credit count. -/
theorem total_filter {f : Event → Int} (h : ∀ e, ofCredit e = false → f e = 0) (log : List Event) :
    total f (log.filter ofCredit) = total f log := by
  induction log with
  | nil => rfl
  | cons e log ih =>
    cases he : ofCredit e with
    | true =>
      rw [List.filter_cons_of_pos he,total,total,List.map_cons,List.map_cons,List.sum_cons,List.sum_cons]
      exact congrArg (f e + ·) ih
    | false =>
      rw [List.filter_cons_of_neg (by rw [he]; exact nofun),ih,total,total,List.map_cons,List.sum_cons,h e he,zero_add]

theorem received_eq_zero (id : Int) (e : Event) (h : ofCredit e = false) : received id e = 0 := by
  cases e with
  | dataChunkRecv => cases h
  | _ => rfl

theorem credited_eq_zero (id : Int) (e : Event) (h : ofCredit e = false) : credited id e = 0 := by
  unfold credited
  split
  · cases h
  · rfl

/-- The account of a stream over the events `es`. -/
structure Balanced (id : Int) (es : List Event) (st : Stream) : Prop where
  balance : st.recvWindowSize+total (credited id) es = total (received id) es
  deltas : ∀ item f, .accepted item ∈ es → item.frame = .ctrl (.windowUpdate f) → f.streamId = id →
    1 ≤ f.deltaWindowSize ∧ f.deltaWindowSize ≤ int32Max
  window : 0 ≤ st.recvWindowSize ∧ st.recvWindowSize ≤ int32Max

/-- Calls that give back no more than has been received. -/
def Affordable (id : Int) (s : Session) : Op → Prop
  | .submitWindowUpdate k delta => k = id → ∀ st, s.getStream id = some st → delta ≤ st.recvWindowSize
  | _ => True

/-- A turn in the life of a stream whose receive window does not saturate. -/
structure CreditTurn (P : Platform) (id : Int) (s s' : Session) : Prop where
  turn : TurnWith P (Affordable id) s s'
  stays : (s'.getStream id).isSome = true
  room : ∀ st, s.getStream id = some st →
    st.recvWindowSize+(total (received id) s'.host.log-total (received id) s.host.log) ≤ int32Max

theorem Balanced.append {id : Int} {es new : List Event} {st st' : Stream} (h : Balanced id es st)
    (hr : st'.recvWindowSize+total (credited id) new = st.recvWindowSize+total (received id) new)
    (hd : ∀ item f, .accepted item ∈ new → item.frame = .ctrl (.windowUpdate f) → f.streamId = id →
      1 ≤ f.deltaWindowSize ∧ f.deltaWindowSize ≤ int32Max)
    (hw : 0 ≤ st'.recvWindowSize ∧ st'.recvWindowSize ≤ int32Max) : Balanced id (es ++ new) st' := by
  have hb := h.balance
  refine ⟨?_,?_,hw⟩
  · rw [total_append,total_append]
    omega
  · intro item f hmem
    rcases List.mem_append.mp hmem with hmem | hmem
    · exact h.deltas item f hmem
    · exact hd item f hmem

section Step
variable {P : Platform} {id : Int} {s s' : Session} {st st' : Stream} {es : List Event}

theorem Session.Credits.window {g : Int → Int → Int} {new : List Event} (h : Credits g new s s') (hst : s.getStream id = some st)
    (hst' : s'.getStream id = some st') : st'.recvWindowSize = g id st.recvWindowSize := by
  obtain ⟨x,hx,hr,-⟩ := h.streams id st' hst'
  cases hst.symm.trans hx
  exact hr

theorem Session.Credits.events {g : Int → Int → Int} {new : List Event} (h : Credits g new s s') :
    s'.creditSide.events = s.creditSide.events ++ new := congrArg CreditSide.events h.side

theorem received_events (id : Int) {new : List Event} (h : s'.creditSide.events = s.creditSide.events ++ new) :
    total (received id) s'.host.log-total (received id) s.host.log = total (received id) new := by
  have h' := congrArg (total (received id)) h
  rw [total_append] at h'
  have h1 := total_filter (received_eq_zero id) s'.host.log
  have h2 := total_filter (received_eq_zero id) s.host.log
  simp only [creditSide] at h'
  omega

/-- Events of other streams do not count. -/
theorem received_chunk (flags : Nat) (k : Int) (data : Bytes) :
    total (received id) [.dataChunkRecv flags k data] = if k = id then (data.length : Int) else 0 := by
  rw [total,List.map_singleton,List.sum_singleton]
  rfl

theorem credited_chunk (flags : Nat) (k : Int) (data : Bytes) : total (credited id) [.dataChunkRecv flags k data] = 0 := rfl

theorem totals_accepted (id : Int) {item : OutboundItem} {v : Nat} {k delta : Int}
    (h : item.frame = .ctrl (.windowUpdate (frameWindowUpdateInit v k delta))) :
    total (credited id) [.accepted item] = (if k = id then delta else 0) ∧ total (received id) [.accepted item] = 0 := by
  obtain ⟨frame,aux,pri,seq⟩ := item
  cases h
  exact ⟨(add_zero _),rfl⟩

/-- The window after a chunk that fits in. -/
theorem tally_of_room {w : CreditSide} {r : Int} {n : Nat} (h : r+n ≤ int32Max) :
    (w.tally r n).1+(w.tally r n).2.getD 0 = r+n ∧ ((w.tally r n).1 = 0 ∨ (w.tally r n).1 = r+n) := by
  have hsize : (if int32Max-n < r then int32Max else r+n) = r+n := if_neg (by omega)
  rw [CreditSide.tally,hsize]
  split
  · exact ⟨zero_add _,.inl rfl⟩
  · exact ⟨add_zero _,.inr rfl⟩

/-- Nothing happens to the window of the stream. -/
theorem Balanced.idle (hb : Balanced id es st) {new : List Event}
    (hev : s'.creditSide.events = s.creditSide.events ++ new) (hr : st'.recvWindowSize = st.recvWindowSize)
    (hc : total (credited id) new = 0) (hd : total (received id) new = 0)
    (hn : ∀ item f, .accepted item ∈ new → item.frame = .ctrl (.windowUpdate f) → f.streamId ≠ id) :
    ∃ new, s'.creditSide.events = s.creditSide.events ++ new ∧ Balanced id (es ++ new) st' := by
  refine ⟨new,hev,hb.append ?_ (fun item f h1 h2 h3 => absurd h3 (hn item f h1 h2)) (hr ▸ hb.window)⟩
  rw [hr,hc,hd]

/-- A chunk that leaves the window alone: without flow control, empty, the last one of
its stream, or for no stream. -/
theorem Balanced.uncounted (hb : Balanced id es st) (hst : s.getStream id = some st) (hst' : s'.getStream id = some st')
    (hfc : s.flowControl = true)
    (hfin : ∀ flags data, .dataChunkRecv flags id data ∈ s'.creditSide.events → flagFin flags = false)
    {flags : Nat} {k : Int} {data : Bytes}
    (hu : s.flowControl = false ∨ data = [] ∨ flagFin flags = true ∨ s.getStream k = none)
    (h : Credits (fun _ r => r) [.dataChunkRecv flags k data] s s') :
    ∃ new, s'.creditSide.events = s.creditSide.events ++ new ∧ Balanced id (es ++ new) st' := by
  refine hb.idle h.events (h.window hst hst') (credited_chunk flags k data) ?_ ?_
  · rw [received_chunk]
    by_cases hk : k = id
    · subst hk
      have hflag := hfin flags data (by rw [h.events]; exact List.mem_append_right _ List.mem_cons_self)
      rcases hu with hu | hu | hu | hu
      · rw [hfc] at hu
        cases hu
      · rw [hu,if_pos rfl]
        rfl
      · rw [hflag] at hu
        cases hu
      · rw [hst] at hu
        cases hu
    · exact if_neg hk
  · intro item f hmem
    cases List.mem_singleton.mp hmem

/-- A chunk whose bytes wait for a later update. -/
theorem Balanced.counted (hb : Balanced id es st) (hst : s.getStream id = some st) (hst' : s'.getStream id = some st')
    (hroom : st.recvWindowSize+(total (received id) s'.host.log-total (received id) s.host.log) ≤ int32Max)
    {flags : Nat} {k : Int} {data : Bytes} {x : Stream} {r : Int} (hx : s.getStream k = some x)
    (ht : s.creditSide.tally x.recvWindowSize data.length = (r,none))
    (h : Credits (fun k' r' => if k = k' then r else r') [.dataChunkRecv flags k data] s s') :
    ∃ new, s'.creditSide.events = s.creditSide.events ++ new ∧ Balanced id (es ++ new) st' := by
  have hw := hb.window
  have hr := h.window hst hst'
  have hrec := received_events id h.events
  by_cases hk : k = id
  · subst hk
    cases hst.symm.trans hx
    rw [received_chunk,if_pos rfl] at hrec
    rw [if_pos rfl] at hr
    obtain ⟨htotal,hcase⟩ := tally_of_room (w := s.creditSide) (hrec ▸ hroom)
    rw [ht] at htotal hcase
    simp only [Option.getD_none] at htotal hcase
    refine ⟨_,h.events,hb.append ?_ ?_ ?_⟩
    · rw [credited_chunk,received_chunk,if_pos rfl]
      omega
    · intro item f hmem
      cases List.mem_singleton.mp hmem
    · omega
  · rw [if_neg hk] at hr
    refine hb.idle h.events hr (credited_chunk flags k data) ?_ ?_
    · rw [received_chunk,if_neg hk]
    · intro item f hmem
      cases List.mem_singleton.mp hmem

/-- A chunk that makes the session give back all that the window has counted. -/
theorem Balanced.givenBack (hb : Balanced id es st) (hst : s.getStream id = some st) (hst' : s'.getStream id = some st')
    (hroom : st.recvWindowSize+(total (received id) s'.host.log-total (received id) s.host.log) ≤ int32Max)
    {flags v : Nat} {k delta : Int} {data : Bytes} {x : Stream} {item : OutboundItem} (hne : data ≠ [])
    (hx : s.getStream k = some x) (ht : s.creditSide.tally x.recvWindowSize data.length = (0,some delta))
    (hi : item.frame = .ctrl (.windowUpdate (frameWindowUpdateInit v k delta)))
    (h : Credits (fun k' r => if k = k' then 0 else r) [.dataChunkRecv flags k data,.accepted item] s s') :
    ∃ new, s'.creditSide.events = s.creditSide.events ++ new ∧ Balanced id (es ++ new) st' := by
  have hw := hb.window
  have hr := h.window hst hst'
  have hrec := received_events id h.events
  obtain ⟨hcr,hre⟩ := totals_accepted id hi
  have hsplit : ∀ f : Event → Int, total f [.dataChunkRecv flags k data,.accepted item] =
      total f [.dataChunkRecv flags k data]+total f [.accepted item] :=
    fun f => total_append f [_] [_]
  have hpos : 0 < data.length := List.length_pos_of_ne_nil hne
  by_cases hk : k = id
  · subst hk
    cases hst.symm.trans hx
    rw [hsplit,received_chunk,if_pos rfl,hre] at hrec
    rw [if_pos rfl] at hr hcr
    obtain ⟨htotal,-⟩ := tally_of_room (w := s.creditSide) (r := st.recvWindowSize) (n := data.length) (by omega)
    rw [ht] at htotal
    simp only [Option.getD_some] at htotal
    refine ⟨_,h.events,hb.append ?_ ?_ ?_⟩
    · rw [hsplit,hsplit,credited_chunk,received_chunk,if_pos rfl,hcr,hre]
      omega
    · intro item' f hmem hf _
      rcases List.mem_cons.mp hmem with hmem | hmem
      · cases hmem
      · cases List.mem_singleton.mp hmem
        cases hi.symm.trans hf
        simp only [frameWindowUpdateInit]
        omega
    · omega
  · rw [if_neg hk] at hr hcr
    refine hb.idle h.events hr ?_ ?_ ?_
    · rw [hsplit,credited_chunk,hcr]
      rfl
    · rw [hsplit,received_chunk,if_neg hk,hre]
      rfl
    · intro item' f hmem hf hid
      rcases List.mem_cons.mp hmem with hmem | hmem
      · cases hmem
      · cases List.mem_singleton.mp hmem
        cases hi.symm.trans hf
        exact hk hid

/-- A call that gives back a part of what the window has counted. -/
theorem Balanced.giveBack (hb : Balanced id es st) (hst : s.getStream id = some st) (hst' : s'.getStream id = some st')
    {v : Nat} {k delta : Int} {item : OutboundItem} (hpos : 1 ≤ delta)
    (hok : k = id → ∀ st, s.getStream id = some st → delta ≤ st.recvWindowSize)
    (hi : item.frame = .ctrl (.windowUpdate (frameWindowUpdateInit v k delta)))
    (h : Credits (fun k' r => if k = k' then r-min delta r else r) [.accepted item] s s') :
    ∃ new, s'.creditSide.events = s.creditSide.events ++ new ∧ Balanced id (es ++ new) st' := by
  have hw := hb.window
  have hr := h.window hst hst'
  obtain ⟨hcr,hre⟩ := totals_accepted id hi
  by_cases hk : k = id
  · subst hk
    have hle : delta ≤ st.recvWindowSize := hok rfl st hst
    rw [if_pos rfl,min_eq_left hle] at hr
    rw [if_pos rfl] at hcr
    refine ⟨_,h.events,hb.append ?_ ?_ ?_⟩
    · rw [hcr,hre]
      omega
    · intro item' f hmem hf _
      cases List.mem_singleton.mp hmem
      cases hi.symm.trans hf
      simp only [frameWindowUpdateInit]
      omega
    · omega
  · rw [if_neg hk] at hr hcr
    refine hb.idle h.events hr hcr hre ?_
    intro item' f hmem hf hid
    cases List.mem_singleton.mp hmem
    cases hi.symm.trans hf
    exact hk hid

theorem Balanced.move (hm : CreditMove P (Affordable id) s s') (hst : s.getStream id = some st)
    (hst' : s'.getStream id = some st') (hfc : s.flowControl = true)
    (hroom : st.recvWindowSize+(total (received id) s'.host.log-total (received id) s.host.log) ≤ int32Max)
    (hfin : ∀ flags data, .dataChunkRecv flags id data ∈ s'.creditSide.events → flagFin flags = false)
    (hb : Balanced id es st) :
    ∃ new, s'.creditSide.events = s.creditSide.events ++ new ∧ Balanced id (es ++ new) st' := by
  cases hm with
  | receive h =>
    cases h with
    | opens h =>
      have hev : s'.creditSide.events = s.creditSide.events ++ [] := by
        rw [List.append_nil,h.side]
      rcases h.streams id st' hst' with ⟨x,hx,hr,-⟩ | ⟨hnone,-⟩
      · cases hst.symm.trans hx
        exact hb.idle hev hr rfl rfl nofun
      · rw [hst] at hnone
        cases hnone
    | uncounted flags k data hu h => exact hb.uncounted hst hst' hfc hfin hu h
    | counted flags k data x r hne hx ht h => exact hb.counted hst hst' hroom hx ht h
    | givenBack flags k data x delta item hne hx ht hi h => exact hb.givenBack hst hst' hroom hne hx ht hi h
  | giveBack k delta item hpos hok hpresent hi h => exact hb.giveBack hst hst' hpos hok hi h
  | settings flags iv s1 _ _ h heq =>
    subst heq
    have hev : (s1.updateLocalSettings (frameIvSort P iv)).creditSide.events = s.creditSide.events ++ [] := h.events
    exact hb.idle hev (h.window hst hst') rfl rfl nofun
  | autoUpdate on _ heq =>
    subst heq
    cases hst.symm.trans hst'
    exact hb.idle (List.append_nil _).symm rfl rfl rfl nofun

/-- A stream that a turn opens has received nothing yet. -/
theorem CreditMove.opening {ok : Session → Op → Prop} (hm : CreditMove P ok s s') (hnew : s.getStream id = none)
    (hst' : s'.getStream id = some st') : s'.creditSide = s.creditSide ∧ st'.recvWindowSize = 0 := by
  have habsent : ∀ {t : Session} {g new}, Credits g new s t → t.getStream id ≠ some st' := by
    intro t g new h ht
    obtain ⟨x,hx,-⟩ := h.streams id st' ht
    rw [hnew] at hx
    cases hx
  cases hm with
  | receive h =>
    cases h with
    | opens h =>
      rcases h.streams id st' hst' with ⟨x,hx,-⟩ | ⟨-,hr⟩
      · rw [hnew] at hx
        cases hx
      · exact ⟨h.side,hr⟩
    | uncounted flags k data _ h => exact absurd hst' (habsent h)
    | counted flags k data x r _ _ _ h => exact absurd hst' (habsent h)
    | givenBack flags k data x delta item _ _ _ _ h => exact absurd hst' (habsent h)
  | giveBack k delta item _ _ _ _ h => exact absurd hst' (habsent h)
  | settings flags iv s1 _ _ h heq =>
    subst heq
    exact absurd (show s1.getStream id = some st' from hst') (habsent h)
  | autoUpdate on _ heq =>
    subst heq
    rw [show (s.setNoAutoWindowUpdate on).getStream id = s.getStream id from rfl,hnew] at hst'
    cases hst'

end Step

/-- What a turn needs to be looked at. -/
structure Sound (s : Session) : Prop where
  ample : Ample s
  frame : FrameOk s.iframe
  blockless : s.iframe.Blockless

theorem TurnWith.sound {P : Platform} {u : Setup} {ok : Session → Op → Prop} {s s' : Session} (h : TurnWith P ok s s')
    (hr : Reachable P u s) (hs : Sound s) : Reachable P u s' ∧ Sound s' := by
  have hr' : Reachable P u s' := hr.tail h.turn
  exact ⟨hr',hs.ample.of_suffix (h.credit hs.ample hs.frame hs.blockless).mem,(reachable_quiet hr').1,
    reachable_blockless hr'⟩

/-- The account over a run, from any account to begin with. -/
theorem balanced_run {P : Platform} {u : Setup} {id : Int} {s1 s : Session} {st1 : Stream} (h1 : Reachable P u s1)
    (hs1 : Sound s1) (hfc : s1.flowControl = true) (hst1 : s1.getStream id = some st1) {es1 : List Event}
    (hb1 : Balanced id es1 st1) (hrun : Relation.ReflTransGen (CreditTurn P id) s1 s)
    (hfin : ∀ flags data, .dataChunkRecv flags id data ∈ s.creditSide.events → flagFin flags = false) :
    Reachable P u s ∧ Sound s ∧ s.flowControl = true ∧ ∃ st new, s.getStream id = some st ∧
      s.creditSide.events = s1.creditSide.events ++ new ∧ Balanced id (es1 ++ new) st := by
  induction hrun with
  | refl => exact ⟨h1,hs1,hfc,st1,[],hst1,(List.append_nil _).symm,(List.append_nil es1).symm ▸ hb1⟩
  | @tail t t' _ ht ih =>
    have hgrow : ∀ e, e ∈ t.creditSide.events → e ∈ t'.creditSide.events := by
      intro e he
      obtain ⟨hl,hc⟩ := List.mem_filter.mp he
      exact List.mem_filter.mpr ⟨(Protocol.turn_log_grows ht.turn.turn).subset hl,hc⟩
    obtain ⟨hr,hs,hf,st,new,hst,hev,hb⟩ := ih (fun flags data h => hfin flags data (hgrow _ h))
    obtain ⟨hr',hs'⟩ := ht.turn.sound hr hs
    have hm := ht.turn.credit hs.ample hs.frame hs.blockless
    obtain ⟨st',hst'⟩ := Option.isSome_iff_exists.mp ht.stays
    obtain ⟨new',hev',hb'⟩ := hb.move hm hst hst' hf (ht.room st hst) hfin
    refine ⟨hr',hs',hm.flowControl.trans hf,st',new ++ new',hst',?_,?_⟩
    · rw [hev',hev,List.append_assoc]
    · rw [← List.append_assoc]
      exact hb'

/-- Receive credit is conserved. From the turn that opens a flow-controlled stream on,
over any turns that keep the stream, with no failing allocation, no FIN, no manual
update beyond what has been received and no saturation: what is in the window and what
has been given back are together what has been received. -/
theorem receive_credit_conserved (P : Platform) (u : Setup) {s0 s1 s : Session} {id : Int} (h0 : Reachable P u s0)
    (hfc : s0.flowControl = true) (hmem : s0.Ample) (hopen : Turn P s0 s1) (hnew : s0.getStream id = none)
    (hin : (s1.getStream id).isSome = true) (hrun : Relation.ReflTransGen (CreditTurn P id) s1 s)
    (hfin : ∀ flags data, .dataChunkRecv flags id data ∈ s.host.log → flagFin flags = false) :
    ∃ st es, s.getStream id = some st ∧ s.host.log = s0.host.log ++ es ∧
      st.recvWindowSize+total (credited id) es = total (received id) es ∧
      (∀ item f, .accepted item ∈ es → item.frame = .ctrl (.windowUpdate f) → f.streamId = id →
        1 ≤ f.deltaWindowSize ∧ f.deltaWindowSize ≤ int32Max) ∧
      0 ≤ st.recvWindowSize ∧ st.recvWindowSize ≤ int32Max := by
  have hs0 : Sound s0 := ⟨hmem,(reachable_quiet h0).1,reachable_blockless h0⟩
  have hturn := hopen.unrestricted
  have hm := hturn.credit hs0.ample hs0.frame hs0.blockless
  obtain ⟨h1,hs1⟩ := hturn.sound h0 hs0
  obtain ⟨st1,hst1⟩ := Option.isSome_iff_exists.mp hin
  obtain ⟨hside,hzero⟩ := hm.opening hnew hst1
  have hb1 : Balanced id [] st1 := by
    refine ⟨?_,nofun,?_⟩
    · rw [hzero]
      rfl
    · rw [hzero]
      exact ⟨le_rfl,by decide⟩
  have hfin' : ∀ flags data, .dataChunkRecv flags id data ∈ s.creditSide.events → flagFin flags = false :=
    fun flags data h => hfin flags data (List.mem_of_mem_filter h)
  obtain ⟨-,-,-,st,new,hst,hev,hb⟩ := balanced_run h1 hs1 (hm.flowControl.trans hfc) hst1 hb1 hrun hfin'
  have hturns : Turns P s0 s :=
    .head hopen (Relation.ReflTransGen.mono (fun _ _ (h : CreditTurn P id _ _) => h.turn.turn) _ _ hrun)
  obtain ⟨es,hes⟩ := Protocol.turns_log_grows hturns
  have hnewes : new = es.filter ofCredit := by
    have h := hev
    rw [hside] at h
    change s.host.log.filter ofCredit = s0.host.log.filter ofCredit ++ new at h
    rw [← hes,List.filter_append] at h
    exact (List.append_cancel_left h).symm
  subst hnewes
  have hbal := hb.balance
  rw [List.nil_append,total_filter (credited_eq_zero id),total_filter (received_eq_zero id)] at hbal
  refine ⟨st,es,hst,hes.symm,hbal,?_,hb.window⟩
  intro item f hmem hf
  refine hb.deltas item f (List.mem_append_right _ (List.mem_filter.mpr ⟨hmem,?_⟩)) hf
  rw [ofCredit,hf]
  rfl

/-! An upload: a request without FIN, a DATA frame of three bytes, two of which are given
back by hand. -/

def uploadOpened : Session := (((sampleServer [] []).start peerPlatform).recvIter peerPlatform (firstRequest 0 1)).1

def uploadRead : Session := (uploadOpened.recvIter peerPlatform [0,0,0,1,0,0,0,3,7,8,9]).1

def uploadCredited : Session := (uploadRead.call peerPlatform (.submitWindowUpdate 1 2)).1

theorem forall_stream {s : Session} {id : Int} {p : Stream → Prop} [DecidablePred p]
    (h : ((s.getStream id).all (fun st => decide (p st))) = true) (st : Stream) (hst : s.getStream id = some st) : p st := by
  rw [hst] at h
  exact of_decide_eq_true h

theorem upload_credit_conserved : ∃ st es, uploadCredited.getStream 1 = some st ∧
    uploadCredited.host.log = ((sampleServer [] []).start peerPlatform).host.log ++ es ∧
    st.recvWindowSize+total (credited 1) es = total (received 1) es ∧
    (∀ item f, .accepted item ∈ es → item.frame = .ctrl (.windowUpdate f) → f.streamId = 1 →
      1 ≤ f.deltaWindowSize ∧ f.deltaWindowSize ≤ int32Max) ∧
    0 ≤ st.recvWindowSize ∧ st.recvWindowSize ≤ int32Max := by
  have hread : CreditTurn peerPlatform 1 uploadOpened uploadRead :=
    ⟨.recv _ _,by decide +kernel,forall_stream (by decide +kernel)⟩
  have hcredited : CreditTurn peerPlatform 1 uploadRead uploadCredited := by
    refine ⟨.submit _ (.submitWindowUpdate 1 2) nofun nofun ?_,by decide +kernel,forall_stream (by decide +kernel)⟩
    exact fun _ => forall_stream (by decide +kernel)
  refine receive_credit_conserved peerPlatform (sampleServer [] []) .refl rfl nofun (.recv _ (firstRequest 0 1)) rfl
    (by decide +kernel) (.tail (.single hread) hcredited) ?_
  have hlog : ∀ e ∈ uploadCredited.host.log, (match e with | .dataChunkRecv flags _ _ => !flagFin flags | _ => true) = true := by
    decide +kernel
  intro flags data h
  exact (Bool.not_eq_true' _).mp (hlog _ h)

example : total (received 1) uploadCredited.host.log = 3 ∧ total (credited 1) uploadCredited.host.log = 2 := by
  decide +kernel

end Spdylay
