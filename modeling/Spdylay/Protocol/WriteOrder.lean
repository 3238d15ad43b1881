import Spdylay.Protocol.StreamRecords

/-! The order in which the frames of one stream are written. -/
namespace Spdylay.Protocol
open Library Session Conn

/-! What the log says of a stream. -/

/-- A SYN_REPLY, HEADERS or DATA of the stream is begun. -/
def Starts (id : Int) : Event → Bool
  | .beforeCtrlSend (.synReply f) => f.streamId = id
  | .beforeCtrlSend (.headers f) => f.streamId = id
  | .read _ k _ => k = id
  | _ => false

/-- A HEADERS or DATA of the stream is begun. -/
def StartsBody (id : Int) : Event → Bool
  | .beforeCtrlSend (.headers f) => f.streamId = id
  | .read _ k _ => k = id
  | _ => false

/-- A frame that is refused on a stream being reset is begun. -/
def StartsAny (id : Int) : Event → Bool
  | .beforeCtrlSend (.windowUpdate f) => f.streamId = id
  | e => Starts id e

/-- A frame of the stream that carries FIN is complete. -/
def CompletesFin (id : Int) : Event → Bool
  | .ctrlSend (.synStream f) => f.streamId = id && flagFin f.hd.flags
  | .ctrlSend (.synReply f) => f.streamId = id && flagFin f.hd.flags
  | .ctrlSend (.headers f) => f.streamId = id && flagFin f.hd.flags
  | .dataSend flags k _ => k = id && flagFin flags
  | _ => false

/-- The stream has been opened from either side. -/
def Opened (log : List Event) (id : Int) : Prop :=
  (∃ f : SynStream, f.streamId = id ∧ .beforeCtrlSend (.synStream f) ∈ log) ∨
  (∃ f : SynStream, f.streamId = id ∧ .ctrlRecv (.synStream f) ∈ log)

/-- The rules for each event of a log, `mine` telling the ids of this side. -/
structure WritesInOrder (mine : Int → Bool) (pre : List Event) (e : Event) : Prop where
  /-- Nothing is begun after FIN. -/
  fin : ∀ id, Starts id e = true → ∀ x ∈ pre, CompletesFin id x = false
  /-- A SYN_REPLY answers a SYN_STREAM of the peer, once. -/
  reply : ∀ f, e = .beforeCtrlSend (.synReply f) → mine f.streamId = false ∧
    (∃ g : SynStream, g.streamId = f.streamId ∧ .ctrlRecv (.synStream g) ∈ pre) ∧
    ∀ g, .beforeCtrlSend (.synReply g) ∈ pre → g.streamId ≠ f.streamId
  /-- On a stream of the peer the SYN_REPLY goes first. -/
  afterReply : ∀ id, StartsBody id e = true → mine id = false →
    ∃ f : StreamHeaders, f.streamId = id ∧ .ctrlSend (.synReply f) ∈ pre
  /-- On a stream of this side the SYN_STREAM goes first. -/
  afterSynStream : ∀ id, StartsBody id e = true → mine id = true →
    ∃ f : SynStream, f.streamId = id ∧ .ctrlSend (.synStream f) ∈ pre
  /-- Nothing is begun after an RST_STREAM that was completed for an opened stream. -/
  reset : ∀ id, StartsAny id e = true → ∀ a f b, pre = a ++ .ctrlSend (.rstStream f) :: b → f.streamId = id →
    ¬Opened a id
  /-- Nothing is begun on a unidirectional stream of the peer. -/
  unidirectional : ∀ id, Starts id e = true → ∀ f : SynStream, .ctrlRecv (.synStream f) ∈ pre → f.streamId = id →
    flagUnidirectional f.hd.flags = false
  /-- Nor has anything been begun before it was received. -/
  unidirectionalBefore : ∀ f, e = .ctrlRecv (.synStream f) → ∀ x ∈ pre, Starts f.streamId x = false

/-- Events that begin nothing are in order. -/
theorem WritesInOrder.other {mine : Int → Bool} {pre : List Event} {e : Event} (h1 : ∀ id, StartsAny id e = false)
    (h2 : ∀ f, e ≠ .ctrlRecv (.synStream f)) : WritesInOrder mine pre e := by
  have hany : ∀ id, StartsAny id e ≠ true := by
    intro id
    rw [h1]
    nofun
  have hstart : ∀ id, Starts id e ≠ true := by
    intro id hs
    refine hany id ?_
    unfold StartsAny
    split
    · cases hs
    · exact hs
  have hbody : ∀ id, StartsBody id e ≠ true := by
    intro id hs
    refine hstart id ?_
    unfold StartsBody at hs
    split at hs
    · exact hs
    · exact hs
    · cases hs
  refine ⟨fun id h => absurd h (hstart id),?_,fun id h => absurd h (hbody id),fun id h => absurd h (hbody id),
    fun id h => absurd h (hany id),fun id h => absurd h (hstart id),fun f h => absurd h (h2 f)⟩
  rintro f rfl
  exact absurd (decide_eq_true rfl) (hstart f.streamId)

/-! The invariant. -/

structure Written (c : Conn) : Prop where
  fin : ∀ id, ∀ x ∈ c.log, CompletesFin id x = true → c.Used id ∧ ∀ l, c.streams id = some l → l.shutWr = true
  unidirectional : ∀ f, .ctrlRecv (.synStream f) ∈ c.log → flagUnidirectional f.hd.flags = true →
    ∀ l, c.streams f.streamId = some l → l.shutWr = true
  started : ∀ id, ∀ x ∈ c.log, Starts id x = true → c.Used id
  replying : ∀ f, .beforeCtrlSend (.synReply f) ∈ c.log → c.Writes (.ctrl (.synReply f)) ∨ .ctrlSend (.synReply f) ∈ c.log
  reset : ∀ a f b, c.log = a ++ .ctrlSend (.rstStream f) :: b → Opened a f.streamId →
    c.streams f.streamId = none ∨ ∃ g : RstStream, g.streamId = f.streamId ∧ c.Writes (.ctrl (.rstStream g))
  order : Guarded (WritesInOrder c.isMine) c.log

theorem Opened.mono {log log' : List Event} {id : Int} (h : Opened log id) (hs : log ⊆ log') : Opened log' id := by
  rcases h with ⟨f,hid,hf⟩ | ⟨f,hid,hf⟩
  · exact .inl ⟨f,hid,hs hf⟩
  · exact .inr ⟨f,hid,hs hf⟩

theorem Opened.used {c : Conn} (hr : Records c) {id : Int} (h : Opened c.log id) : c.Used id := by
  rcases h with ⟨f,rfl,hf⟩ | ⟨f,rfl,hf⟩
  · exact (hr.begun _ hf).2
  · exact (hr.received f hf).2

/-- Events that a rule looks at. -/
def begins : Event → Bool
  | .beforeCtrlSend _ | .read _ _ _ | .ctrlRecv (.synStream _) => true
  | _ => false

/-- Events of the same step that come before one of these. -/
def dull : Event → Bool
  | .prepared _ _ => true
  | e => quiet e

theorem dull_of_ahead {e x : Event} (hb : begins e = true) (ha : Ahead e x) : dull x = true := by
  unfold Ahead at ha
  split at ha
  · rfl
  · cases hb
  · cases hb
  · cases hb
  · cases hb
  · cases hb
  · unfold dull
    split
    · rfl
    · exact ha

theorem mem_of_dull {log es : List Event} (hes : ∀ x ∈ es, dull x = true) {x : Event} (hx : x ∈ log ++ es)
    (hn : dull x = false) : x ∈ log := by
  rcases List.mem_append.mp hx with hx | hx
  · exact hx
  · rw [hes x hx] at hn
    cases hn

theorem notDull_of_starts {id : Int} {x : Event} (h : Starts id x = true) : dull x = false := by
  cases x with
  | beforeCtrlSend f => rfl
  | read q k bytes => rfl
  | _ => cases h

theorem notDull_of_completesFin {id : Int} {x : Event} (h : CompletesFin id x = true) : dull x = false := by
  cases x with
  | ctrlSend f => rfl
  | dataSend flags k n => rfl
  | _ => cases h

/-- A stream shut for writing stays so. -/
theorem Records.stays_shut {c c' : Conn} (hr : Records c) (h : Step c c') {id : Int} (hu : c.Used id) (hs : ∀ l, c.streams id = some l → l.shutWr = true) :
    ∀ l, c'.streams id = some l → l.shutWr = true := by
  intro l' hl'
  obtain ⟨l,hl,hg⟩ := hr.ids.old h hu hl'
  exact hg.shutWr (hs l hl)

/-- A frame that carries FIN shuts its stream. -/
theorem Meets.shut {c c' : Conn} (hr : Records c) (hl : Later c c') {id : Int} {x : Event} (hx : CompletesFin id x = true)
    (hm : Meets c c' x) : c'.Used id ∧ ∀ l, c'.streams id = some l → l.shutWr = true := by
  cases x with
  | ctrlSend f =>
    obtain ⟨hwr,-,-,hs⟩ := hm
    have hp := hr.writes _ hwr
    cases f with
    | synStream f =>
      simp only [CompletesFin,Bool.and_eq_true,decide_eq_true_eq] at hx
      obtain ⟨rfl,hfin⟩ := hx
      refine ⟨hl.used hp.2,?_⟩
      intro l' hl'
      simp only [hs,Conn.completed,Function.update_self] at hl'
      obtain ⟨l,-,rfl⟩ := Option.map_eq_some_iff.mp hl'
      simp [hfin]
    | synReply f =>
      simp only [CompletesFin,Bool.and_eq_true,decide_eq_true_eq] at hx
      obtain ⟨rfl,hfin⟩ := hx
      refine ⟨hl.used hp.2,?_⟩
      intro l' hl'
      simp only [hs,Conn.completed,Function.update_self] at hl'
      obtain ⟨l,-,rfl⟩ := Option.map_eq_some_iff.mp hl'
      simp [hfin]
    | headers f =>
      simp only [CompletesFin,Bool.and_eq_true,decide_eq_true_eq] at hx
      obtain ⟨rfl,hfin⟩ := hx
      refine ⟨hl.used hp,?_⟩
      intro l' hl'
      simp only [hs,Conn.completed,Function.update_self] at hl'
      obtain ⟨l,-,rfl⟩ := Option.map_eq_some_iff.mp hl'
      simp [hfin]
    | _ => cases hx
  | dataSend flags k n =>
    obtain ⟨d,hwr,hid,hflags,-,hs⟩ := hm
    simp only [CompletesFin,Bool.and_eq_true,decide_eq_true_eq] at hx
    obtain ⟨rfl,hfin⟩ := hx
    have hp : c.Used d.streamId := hr.writes _ hwr
    rw [hid] at hp
    refine ⟨hl.used hp,?_⟩
    intro l' hl'
    rw [hs,Function.update_self] at hl'
    obtain ⟨l,-,rfl⟩ := Option.map_eq_some_iff.mp hl'
    rw [hflags] at hfin
    split at hfin
    · rename_i heof
      simp [heof,hfin]
    · cases hfin
  | _ => cases hx

/-- The stream of a unidirectional SYN_STREAM is shut from the beginning. -/
theorem Meets.shut_unidirectional {c c' : Conn} (hr : Records c) {f : SynStream}
    (hu : flagUnidirectional f.hd.flags = true) (hm : Meets c c' (.ctrlRecv (.synStream f))) :
    ∀ l, c'.streams f.streamId = some l → l.shutWr = true := by
  obtain ⟨-,hn,-,-,-,hs⟩ := hm
  intro l hl
  rcases hs with hs | ⟨-,hs⟩
  · rw [hs] at hl
    exact absurd (hr.ids.used _ l hl) (newPeerId_fresh hn)
  · rw [hs,Function.update_self] at hl
    cases hl
    exact hu

theorem Meets.used_of_starts {c c' : Conn} (hr : Records c) (hl : Later c c') {id : Int} {x : Event}
    (hx : Starts id x = true) (hm : Meets c c' x) : c'.Used id := by
  cases x with
  | beforeCtrlSend f =>
    have hp := hm.placed hr.ids hl
    cases f with
    | synReply f =>
      have hid := of_decide_eq_true hx
      exact hid ▸ hp.2
    | headers f =>
      have hid := of_decide_eq_true hx
      exact hid ▸ hp
    | _ => cases hx
  | read q k bytes =>
    obtain ⟨-,-,d,rfl,hstart,-⟩ := hm
    have hid := of_decide_eq_true hx
    exact hid ▸ hl.used (MayStart.placed hr.ids hstart)
  | _ => cases hx

/-- What is being written is not freed before it is complete. -/
theorem Step.still_writes {c c' : Conn} (h : Step c c') {f : Frame} (hw : c.Writes (.ctrl f)) :
    c'.Writes (.ctrl f) ∨ (.ctrlSend f ∈ c.log ∧ ∀ g, f = .rstStream g → c'.streams g.streamId = none) := by
  obtain ⟨item,ha,hf⟩ := hw
  cases h.acts with
  | same he => exact .inl ⟨item,he.trans ha,hf⟩
  | begins item0 h0 =>
    rw [h0] at ha
    cases ha
  | frees item0 h0 _ _ hs hsent hrst =>
    rw [h0] at ha
    cases ha
    refine .inr ⟨hsent f hf,?_⟩
    rintro g rfl
    rw [hs]
    exact hrst g hf
  | data item0 d h0 hd =>
    rw [h0] at ha
    cases ha
    rw [hd] at hf
    cases hf

/-! A frame may be begun on a stream that is there. -/

section
variable {c : Conn} (hw : Written c) {es : List Event} (hes : ∀ x ∈ es, dull x = true) {id : Int} {l : Life}
  (hl : c.streams id = some l)
include hw hes hl

theorem Written.not_fin (hs : l.shutWr = false) : ∀ x ∈ c.log ++ es, CompletesFin id x = false := by
  intro x hx
  by_contra hfin
  have hfin := Bool.not_eq_false _ ▸ hfin
  have h := (hw.fin id x (mem_of_dull hes hx (notDull_of_completesFin hfin)) hfin).2 l hl
  rw [hs] at h
  cases h

theorem Written.not_unidirectional (hs : l.shutWr = false) (f : SynStream) (hf : .ctrlRecv (.synStream f) ∈ c.log ++ es)
    (hid : f.streamId = id) : flagUnidirectional f.hd.flags = false := by
  by_contra hu
  have h := hw.unidirectional f (mem_of_dull hes hf rfl) (Bool.not_eq_false _ ▸ hu) l (hid ▸ hl)
  rw [hs] at h
  cases h

/-- The RST_STREAM is not the active item. -/
theorem Written.not_reset (hact : c.active = none ∨ ∃ d, c.Writes (.data d)) (a : List Event) (f : RstStream)
    (b : List Event) (hcut : c.log ++ es = a ++ .ctrlSend (.rstStream f) :: b) (hid : f.streamId = id) :
    ¬Opened a id := by
  intro ho
  rcases append_eq_append_cons hcut with ⟨b',-,hcut'⟩ | ⟨a',-,hcut'⟩
  · rcases hw.reset a f b' hcut' (hid ▸ ho) with h | ⟨g,-,item,hg,hf⟩
    · rw [hid,hl] at h
      cases h
    · rcases hact with hact | ⟨d,item',hd,hf'⟩
      · rw [hact] at hg
        cases hg
      · rw [hd] at hg
        cases hg
        rw [hf'] at hf
        cases hf
  · cases hes (.ctrlSend (.rstStream f)) (hcut' ▸ List.mem_append_right _ (.head _))

end

theorem Written.reply_in_order {c : Conn} (hw : Written c) (hr : Records c) {es : List Event}
    (hes : ∀ x ∈ es, dull x = true) {f : StreamHeaders} (hact : c.active = none)
    (hm : c.MayStart (.ctrl (.synReply f))) : WritesInOrder c.isMine (c.log ++ es) (.beforeCtrlSend (.synReply f)) := by
  obtain ⟨l,hl,hs,hmine,hstate⟩ := hm
  refine ⟨?_,?_,fun _ h => (by cases h),fun _ h => (by cases h),?_,?_,fun _ h => (by cases h)⟩
  · intro id hid
    obtain rfl := of_decide_eq_true hid
    exact hw.not_fin hes hl hs
  · intro g hg
    obtain ⟨rfl⟩ := Frame.synReply.inj (Event.beforeCtrlSend.inj hg)
    obtain ⟨r,hrid,hrecv⟩ := hr.peer _ l hl hmine
    refine ⟨hmine,⟨r,hrid,List.mem_append_left _ hrecv⟩,?_⟩
    intro g hg hid
    rcases hw.replying g (mem_of_dull hes hg rfl) with ⟨item,h,-⟩ | h
    · rw [hact] at h
      cases h
    · rcases hr.replied g h l (hid ▸ hl) with h | h
      · rw [hstate] at h
        cases h
      · rw [hstate] at h
        cases h
  · intro id hid
    obtain rfl := of_decide_eq_true hid
    exact hw.not_reset hes hl (.inl hact)
  · intro id hid
    obtain rfl := of_decide_eq_true hid
    exact hw.not_unidirectional hes hl hs

/-- HEADERS and DATA. -/
theorem Written.body_in_order {c : Conn} (hw : Written c) (hr : Records c) {es : List Event}
    (hes : ∀ x ∈ es, dull x = true) {e : Event} {id : Int} {l : Life} (he : ∀ k, Starts k e = decide (id = k))
    (he' : ∀ k, StartsBody k e = true → id = k) (ha : ∀ k, StartsAny k e = true → id = k)
    (hnr : ∀ f, e ≠ .beforeCtrlSend (.synReply f)) (hns : ∀ f, e ≠ .ctrlRecv (.synStream f))
    (hact : c.active = none ∨ ∃ d, c.Writes (.data d)) (hm : c.Writable id l) :
    WritesInOrder c.isMine (c.log ++ es) e := by
  obtain ⟨hl,hs,hstate⟩ := hm
  refine ⟨?_,fun f h => absurd h (hnr f),?_,?_,?_,?_,fun f h => absurd h (hns f)⟩
  · intro k hk
    obtain rfl := of_decide_eq_true (he k ▸ hk)
    exact hw.not_fin hes hl hs
  · intro k hk hmine
    obtain rfl := he' k hk
    rw [hmine] at hstate
    obtain ⟨f,hid,hf⟩ := hr.answered id l hl hmine hstate
    exact ⟨f,hid,List.mem_append_left _ hf⟩
  · intro k hk hmine
    obtain rfl := he' k hk
    rw [hmine,if_pos rfl] at hstate
    have hopen : l.state = .opening ∨ l.state = .opened := by
      cases hst : l.state with
      | initial =>
        -- its SYN_STREAM would be the active item
        obtain ⟨f,-,item,hf,hfr⟩ := hr.initial id l hl hst
        rcases hact with hact | ⟨d,item',hd,hfr'⟩
        · rw [hact] at hf
          cases hf
        · rw [hd] at hf
          cases hf
          rw [hfr'] at hfr
          cases hfr
      | opening => exact .inl rfl
      | opened => exact .inr rfl
      | closing => exact absurd hst hstate
    obtain ⟨f,hid,hf⟩ := hr.own id l hl hmine hopen
    exact ⟨f,hid,List.mem_append_left _ hf⟩
  · intro k hk
    obtain rfl := ha k hk
    exact hw.not_reset hes hl hact
  · intro k hk
    obtain rfl := of_decide_eq_true (he k ▸ hk)
    exact hw.not_unidirectional hes hl hs

theorem Written.in_order {c c' : Conn} (hw : Written c) (hr : Records c) {e : Event} {es : List Event}
    (hm : Meets c c' e) (ha : ∀ x ∈ es, Ahead e x) : WritesInOrder c.isMine (c.log ++ es) e := by
  cases e with
  | beforeCtrlSend f =>
    have hes : ∀ x ∈ es, dull x = true := fun x hx => dull_of_ahead rfl (ha x hx)
    cases f with
    | synReply f => exact hw.reply_in_order hr hes hm.1 hm.2.1
    | headers f =>
      obtain ⟨hact,⟨l,hl⟩,-⟩ := hm
      exact hw.body_in_order hr hes (fun _ => rfl) (fun _ h => of_decide_eq_true h) (fun _ h => of_decide_eq_true h)
        nofun nofun (.inl hact) hl
    | windowUpdate f =>
      obtain ⟨hact,⟨l,hl,-⟩,-⟩ := hm
      refine ⟨fun _ h => (by cases h),fun _ h => (by cases h),fun _ h => (by cases h),fun _ h => (by cases h),?_,
        fun _ h => (by cases h),fun _ h => (by cases h)⟩
      intro id hid
      obtain rfl := of_decide_eq_true hid
      exact hw.not_reset hes hl (.inl hact)
    | _ => exact .other (fun _ => rfl) nofun
  | read q id bytes =>
    have hes : ∀ x ∈ es, dull x = true := fun x hx => dull_of_ahead rfl (ha x hx)
    obtain ⟨hact,-,d,rfl,⟨l,hl,-⟩,-⟩ := hm
    exact hw.body_in_order hr hes (fun _ => rfl) (fun _ h => of_decide_eq_true h) (fun _ h => of_decide_eq_true h)
      nofun nofun hact hl
  | ctrlRecv f =>
    cases f with
    | synStream f =>
      have hes : ∀ x ∈ es, dull x = true := fun x hx => dull_of_ahead rfl (ha x hx)
      refine ⟨fun _ h => (by cases h),fun _ h => (by cases h),fun _ h => (by cases h),fun _ h => (by cases h),
        fun _ h => (by cases h),fun _ h => (by cases h),?_⟩
      intro g hg x hx
      obtain ⟨rfl⟩ := Frame.synStream.inj (Event.ctrlRecv.inj hg)
      by_contra hs
      have hs := Bool.not_eq_false _ ▸ hs
      exact newPeerId_fresh hm.2.1 (hw.started _ x (mem_of_dull hes hx (notDull_of_starts hs)) hs)
    | _ => exact .other (fun _ => rfl) nofun
  | _ => exact .other (fun _ => rfl) nofun

theorem Written.step {c c' : Conn} (hw : Written c) (hr : Records c) (h : Step c c') : Written c' := by
  have hl := h.later
  refine ⟨?_,?_,?_,?_,?_,?_⟩
  · intro id x hx hfin
    rcases h.mem_log hx with hx | hx
    · obtain ⟨hu,hs⟩ := hw.fin id x hx hfin
      exact ⟨hl.used hu,hr.stays_shut h hu hs⟩
    · exact hx.shut hr hl hfin
  · intro f hf hu
    rcases h.mem_log hf with hf | hf
    · exact hr.stays_shut h (hr.received f hf).2 (hw.unidirectional f hf hu)
    · exact hf.shut_unidirectional hr hu
  · intro id x hx hs
    rcases h.mem_log hx with hx | hx
    · exact hl.used (hw.started id x hx hs)
    · exact hx.used_of_starts hr hl hs
  · intro f hf
    rcases h.mem_log hf with hf | hf
    · rcases hw.replying f hf with hf | hf
      · rcases h.still_writes hf with hf | ⟨hf,-⟩
        · exact .inl hf
        · exact .inr (h.log_grows.subset hf)
      · exact .inr (h.log_grows.subset hf)
    · exact .inl hf.2.2.1
  · intro a f b hcut ho
    rcases h.cut_log hcut with ⟨b',hcut'⟩ | ⟨hm,-⟩
    · have hu : c.Used f.streamId := (ho.mono (hcut' ▸ List.subset_append_left _ _)).used hr
      rcases hw.reset a f b' hcut' ho with hn | ⟨g,hid,hg⟩
      · exact .inl (hr.ids.gone h hu hn)
      · rcases h.still_writes hg with hg | ⟨-,hg⟩
        · exact .inr ⟨g,hid,hg⟩
        · exact .inl (hid ▸ hg g rfl)
    · obtain ⟨item,ha,hf⟩ := hm.1
      exact .inr ⟨f,rfl,item,hm.2.1.trans ha,hf⟩
  · have hmine : c'.isMine = c.isMine := funext hl.isMine
    rw [hmine]
    exact h.guarded hw.order (fun e es hm ha _ => hw.in_order hr hm ha)

theorem written_invariant : Invariant (fun c => Records c ∧ Written c) := by
  refine records_invariant.with ?_ ?_
  · intro P u
    have hlog : ∀ e, e ∉ (initialConn P u).log := fun e => List.not_mem_nil
    refine ⟨fun _ x hx => absurd hx (hlog x),fun _ hx => absurd hx (hlog _),fun _ x hx => absurd hx (hlog x),
      fun _ hx => absurd hx (hlog _),?_,guarded_nil⟩
    intro a f b hcut
    cases a <;> cases hcut
  · exact fun c c' h hr _ hw => hw.step hr h

/-- In every session that can come about the frames of each stream are written in
order: nothing begins after FIN, after a reset or on a unidirectional stream of the
peer, a SYN_REPLY is begun at most once and on a stream of the peer only, and the
body follows the SYN_REPLY or the SYN_STREAM. -/
theorem streams_write_in_order (P : Platform) (u : Setup) (s : Session) (h : Reachable P u s) :
    Guarded (WritesInOrder s.isMyStreamId) s.host.log := (written_invariant.reachable h).2.order

/-- A server that has answered its first request with a body. -/
def answeredRequest : Session :=
  ((sampleServer [.accept 1000,.accept 1000] [.data [1,2,3] true]).start peerPlatform).run peerPlatform
    [.memRecv (firstRequest 1 1),.submitResponse 1 [] (some 0),.send]

/-- The SYN_REPLY and the body are begun, and the FIN of the body is complete. -/
theorem response_written_in_order : answeredRequest.host.log.any (StartsBody 1) = true ∧
    answeredRequest.host.log.any (CompletesFin 1) = true ∧
    Guarded (WritesInOrder answeredRequest.isMyStreamId) answeredRequest.host.log :=
  ⟨by decide +kernel,by decide +kernel,streams_write_in_order peerPlatform _ answeredRequest (run_reachable _ _ _)⟩

end Spdylay.Protocol
