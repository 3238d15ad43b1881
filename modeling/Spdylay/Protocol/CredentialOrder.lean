import Spdylay.Protocol.QueueGrowth

/-! CREDENTIAL before use. A SYN_STREAM with a new origin queues the CREDENTIAL of the
slot its origin is put in, and goes back to its own queue to be sent after it. The
queue of the SYN_STREAMs is emptied first, so that this is not what happens. -/
namespace Spdylay.Protocol
open Library Session Machine

/-- A CREDENTIAL that is being written stays or has been sent. -/
theorem sendWrite_credential {s : Session} {item : OutboundItem} {g : Credential} (ha : s.aob.item = some item)
    (hf : item.frame = .ctrl (.credential g)) : (s.sendWrite item).1.aob.item = some item ∨
      .ctrlSend (.credential g) ∈ (s.sendWrite item).1.host.log.drop s.host.log.length := by
  unfold sendWrite
  dsimp only
  split
  · exact .inl ha
  · exact .inl ha
  · unfold sendAccepted
    dsimp only
    have hdebit : ∀ s1 : Session, s1.debit item = s1 := by
      intro s1
      unfold Session.debit
      rw [hf]
    rw [hdebit]
    split
    · refine .inr ?_
      unfold afterFrameSent
      simp [ha,hf,afterCtrlSent,activeReset,emit]
    · exact .inl ha

/-! Asking for a CREDENTIAL. -/

/-- The next allocations succeed. -/
def Allocates (n : Nat) (s : Session) : Prop := ∀ b ∈ s.host.mem.take n, b = true

instance (n : Nat) (s : Session) : Decidable (Allocates n s) := by unfold Allocates; infer_instance

theorem Allocates.succ {n : Nat} {s : Session} (h : Allocates (n+1) s) : s.mallocOk = true ∧ Allocates n s.malloc := by
  unfold Allocates mallocOk Session.malloc setMem at *
  cases hm : s.host.mem with
  | nil => simp
  | cons b m =>
    rw [hm,List.take_succ_cons] at h
    exact ⟨h b (.head _),fun x hx => h x (.tail _ hx)⟩

/-- The allocations for a CREDENTIAL: the frame, the origin, the proof, the array of
certificates, each certificate, the item, and the queue when it is full. -/
def credentialAllocs (s : Session) (answer : CredentialAnswer) : Nat :=
  answer.certs.length+5+(if s.obPq.capacity ≤ s.obPq.q.length then 1 else 0)

theorem mallocs_ok (n : Nat) {m : Nat} {s : Session} (h : Allocates (n+m) s) :
    (mallocs n s).2 = true ∧ Allocates m (mallocs n s).1 ∧ ∃ mem, (mallocs n s).1 = s.setMem mem := by
  induction n generalizing s with
  | zero =>
    rw [Nat.zero_add] at h
    exact ⟨rfl,h,s.host.mem,rfl⟩
  | succ n ih =>
    rw [Nat.succ_add] at h
    obtain ⟨hok,h⟩ := h.succ
    obtain ⟨h1,h2,mem,h3⟩ := ih h
    unfold mallocs
    rw [if_pos hok]
    exact ⟨h1,h2,mem,h3⟩

theorem pushOb_ok {s : Session} (item : OutboundItem)
    (h : Allocates (if s.obPq.capacity ≤ s.obPq.q.length then 1 else 0) s) :
    (s.pushOb item).2 = none ∧ (s.pushOb item).1.cliCertvec = s.cliCertvec ∧ item ∈ (s.pushOb item).1.obPq.q := by
  have hmem := (BinaryHeap.push_perm outboundItemCompar s.obPq.q item).mem_iff.mpr (.head _)
  unfold pushOb pqPush
  split_ifs at h ⊢ with hc hok
  · exact ⟨rfl,rfl,hmem⟩
  · exact absurd h.succ.1 hok
  · exact ⟨rfl,rfl,hmem⟩

theorem addCredential_ok {s : Session} (g : Credential)
    (h : Allocates ((if s.obPq.capacity ≤ s.obPq.q.length then 1 else 0)+1) s) :
    (s.addFrame (.ctrl (.credential g)) none).2 = none ∧
      (s.addFrame (.ctrl (.credential g)) none).1.cliCertvec = s.cliCertvec ∧
      ∃ item ∈ (s.addFrame (.ctrl (.credential g)) none).1.obPq.q, item.frame = .ctrl (.credential g) := by
  obtain ⟨hok,h⟩ := h.succ
  have hpush := pushOb_ok (s := {s.malloc with nextSeq := s.nextSeq+1}) (s.newItem (.ctrl (.credential g)) none) h
  have he : s.addFrame (.ctrl (.credential g)) none =
      (({s.malloc with nextSeq := s.nextSeq+1}.pushOb (s.newItem (.ctrl (.credential g)) none)).1.emit
        (.accepted (s.newItem (.ctrl (.credential g)) none)),none) := by
    have hitem : ∀ s1 : Session, s1.pushItem (s.newItem (.ctrl (.credential g)) none) =
        s1.pushOb (s.newItem (.ctrl (.credential g)) none) := fun _ => rfl
    unfold addFrame
    rw [if_pos hok]
    dsimp only [Session.markClosing]
    rw [hitem,hpush.1]
  rw [he]
  exact ⟨rfl,hpush.2.1,_,hpush.2.2,rfl⟩

/-- With memory for it the CREDENTIAL is queued, and its origin has the slot it names. -/
theorem queueCredential_ok {s : Session} (origin : Origin) {answer : CredentialAnswer}
    (h : Allocates (credentialAllocs s answer) s) : (s.queueCredential origin answer).2 = .error .credentialPending ∧
      (s.queueCredential origin answer).1.cliCertvec = (s.cliCertvec.put origin).1 ∧
      ∃ item ∈ (s.queueCredential origin answer).1.obPq.q, item.frame = .ctrl (.credential
        (frameCredentialInit s.version.num (s.cliCertvec.put origin).2 answer.proof answer.certs)) := by
  have hn : credentialAllocs s answer =
      answer.certs.length+2+((if s.obPq.capacity ≤ s.obPq.q.length then 1 else 0)+1)+1+1 := by
    unfold credentialAllocs
    omega
  rw [hn] at h
  obtain ⟨h1,h⟩ := h.succ
  obtain ⟨h2,h⟩ := h.succ
  -- the state in which the origin has its slot
  obtain ⟨s2,hs2⟩ : ∃ s2 : Session, s2 = {s.malloc.malloc with cliCertvec := (s.cliCertvec.put origin).1} := ⟨_,rfl⟩
  have h' : Allocates (answer.certs.length+2+((if s2.obPq.capacity ≤ s2.obPq.q.length then 1 else 0)+1)) s2 := by
    rw [hs2]
    exact h
  obtain ⟨h3,h,mem,h4⟩ := mallocs_ok _ h'
  rw [h4] at h
  have hadd := addCredential_ok (s := s2.setMem mem)
    (frameCredentialInit s.version.num (s.cliCertvec.put origin).2 answer.proof answer.certs) h
  have he : s.queueCredential origin answer = (((s2.setMem mem).addFrame (.ctrl (.credential
      (frameCredentialInit s.version.num (s.cliCertvec.put origin).2 answer.proof answer.certs))) none).1,
      .error .credentialPending) := by
    have hmalloc : s.malloc.cliCertvec.put origin = s.cliCertvec.put origin := rfl
    dsimp only at hs2
    unfold queueCredential
    rw [if_neg (by rw [h1]; exact Bool.false_ne_true)]
    dsimp only
    rw [if_neg (by rw [h2]; exact Bool.false_ne_true),hmalloc,← hs2,if_pos h3,h4]
    rw [show s.malloc.malloc.version = s.version from rfl,hadd.1]
  rw [he]
  refine ⟨rfl,hadd.2.1.trans ?_,hadd.2.2⟩
  rw [hs2]
  rfl

/-- The slot that a waiting CREDENTIAL is for. -/
def credentialSlot (item : OutboundItem) : Option Nat :=
  match item.frame with
  | .ctrl (.credential g) => some g.slot
  | _ => none

/-- What is asked of the state in which an item has been taken from its queue. No
CREDENTIAL for the slot of a SYN_STREAM that can be sent waits, and there is memory
for a CREDENTIAL, when it is made and when its bytes are. -/
def inOrder (s : Session) (item : OutboundItem) : Bool :=
  match item.frame with
  | .ctrl (.synStream f) =>
    match s.predicateSynStreamSend f, frameNvSetOrigin f.nv with
    | none, some origin =>
      if s.cliCertvec.find origin ≠ 0 then
        !s.mallocOk || s.obPq.q.all (fun x => credentialSlot x ≠ some (s.cliCertvec.find origin % 256))
      else
        match s.host.credentials with
        | [] => true
        | answer :: _ => s.cliCertvec.size = 0 || answer.certs = [] || Allocates (credentialAllocs s answer) s
    | _, _ => true
  | .ctrl (.credential g) => (framePackCredential g).length ≤ s.aob.framebufmax || s.mallocOk
  | _ => true

/-- The same, part by part. -/
structure Orderly (s : Session) (item : OutboundItem) : Prop where
  first : ∀ f origin, item.frame = .ctrl (.synStream f) → s.predicateSynStreamSend f = none → s.mallocOk = true →
    frameNvSetOrigin f.nv = some origin → s.cliCertvec.find origin ≠ 0 →
    ∀ x ∈ s.obPq.q, ∀ g, x.frame = .ctrl (.credential g) → g.slot ≠ s.cliCertvec.find origin % 256
  queued : ∀ f origin answer rest, item.frame = .ctrl (.synStream f) → s.predicateSynStreamSend f = none →
    s.cliCertvec.size ≠ 0 → frameNvSetOrigin f.nv = some origin → s.cliCertvec.find origin = 0 →
    s.host.credentials = answer :: rest → answer.certs ≠ [] → Allocates (credentialAllocs s answer) s
  packed : ∀ g, item.frame = .ctrl (.credential g) → s.aob.framebufmax < (framePackCredential g).length →
    s.mallocOk = true

theorem orderly_of_inOrder {s : Session} {item : OutboundItem} (h : inOrder s item = true) : Orderly s item := by
  unfold inOrder at h
  refine ⟨?_,?_,?_⟩
  · intro f origin hf hp hok ho hfind x hx g hg
    rw [hf] at h
    dsimp only at h
    rw [hp,ho] at h
    dsimp only at h
    rw [if_pos hfind,hok] at h
    have hall : ∀ x ∈ s.obPq.q, ¬credentialSlot x = some (s.cliCertvec.find origin % 256) := by simpa using h
    have hx' := hall x hx
    unfold credentialSlot at hx'
    rw [hg] at hx'
    exact fun hs => hx' (congrArg some hs)
  · intro f origin answer rest hf hp hsize ho hfind hcred hcerts
    rw [hf] at h
    dsimp only at h
    rw [hp,ho] at h
    dsimp only at h
    rw [if_neg (not_not.mpr hfind),hcred] at h
    simpa [hsize,hcerts] using h
  · intro g hf hlen
    rw [hf] at h
    have h' : (framePackCredential g).length ≤ s.aob.framebufmax ∨ s.mallocOk = true := by simpa using h
    exact h'.resolve_left (not_le.mpr hlen)

/-- The outcomes of asking: the slot of the origin or none, or a CREDENTIAL that waits. -/
theorem prepCredential_cases {s : Session} {item : OutboundItem} {f : SynStream} (ho : Orderly s item)
    (hf : item.frame = .ctrl (.synStream f)) (hp : s.predicateSynStreamSend f = none) :
    ((∃ slot, (s.prepCredential f).2 = .ok slot ∧ (slot ≠ 0 → ∃ origin, frameNvSetOrigin f.nv = some origin ∧
        s.cliCertvec.find origin = slot ∧ (s.prepCredential f).1 = s)) ∧
      (s.prepCredential f).1.cliCertvec = s.cliCertvec) ∨
    ((s.prepCredential f).2 = .error .credentialPending ∧ ∃ origin answer rest, s.host.credentials = answer :: rest ∧
      (s.prepCredential f).1.cliCertvec = (s.cliCertvec.put origin).1 ∧
      ∃ x ∈ (s.prepCredential f).1.obPq.q, ∃ g, x.frame = .ctrl (.credential g) ∧ g.slot = (s.cliCertvec.put origin).2 ∧
        g.proof = answer.proof) := by
  have hnone : ∀ {p : Session × Except Err Nat}, p.2 = .ok 0 → p.1.cliCertvec = s.cliCertvec →
      ((∃ slot, p.2 = .ok slot ∧ (slot ≠ 0 → ∃ origin, frameNvSetOrigin f.nv = some origin ∧
        s.cliCertvec.find origin = slot ∧ p.1 = s)) ∧ p.1.cliCertvec = s.cliCertvec) :=
    fun h1 h2 => ⟨⟨0,h1,fun h => absurd rfl h⟩,h2⟩
  unfold Session.prepCredential
  split
  · exact .inl (hnone rfl rfl)
  · rename_i hsize
    split
    · exact .inl (hnone rfl rfl)
    · rename_i origin horigin
      dsimp only
      split
      · exact .inl ⟨⟨_,rfl,fun _ => ⟨origin,horigin,rfl,rfl⟩⟩,rfl⟩
      · rename_i hfind
        split
        · exact .inl (hnone rfl rfl)
        · rename_i answer rest hcred
          split
          · exact .inl (hnone rfl rfl)
          · rename_i hcerts
            have hall := ho.queued f origin answer rest hf hp hsize horigin (not_not.mp hfind) hcred hcerts
            obtain ⟨h1,h2,x,hx,hg⟩ := queueCredential_ok (s := {s with host := {s.host with credentials := rest}})
              origin hall
            exact .inr ⟨h1,origin,answer,rest,hcred,h2,x,hx,_,hg,rfl,rfl⟩

/-! Preparing a SYN_STREAM. -/

theorem reserveNvbuf_starved {s : Session} {n : Nat} (h : s.mallocOk = false) (hn : (s.reserveNvbuf n).2.isSome = false) :
    (s.reserveNvbuf n).1 = s := by
  unfold reserveNvbuf at hn ⊢
  by_cases hc : s.nvbuflen < n
  · rw [if_pos hc,if_neg (by rw [h]; nofun)] at hn
    cases hn
  · rw [if_neg hc]

theorem reserveFramebuf_starved {s : Session} {n : Nat} (h : s.mallocOk = false)
    (hn : (s.reserveFramebuf n).2.isSome = false) : (s.reserveFramebuf n).1 = s := by
  unfold reserveFramebuf at hn ⊢
  by_cases hc : s.aob.framebufmax < n
  · rw [if_pos hc,if_neg (by rw [h]; nofun)] at hn
    cases hn
  · rw [if_neg hc]

theorem frameAllocPackNv_starved {P : Platform} {s : Session} {nv : Nv} {off len : Nat} {block : Bytes}
    (h : s.mallocOk = false) (hb : (s.frameAllocPackNv P nv off len).2 = .ok block) :
    (s.frameAllocPackNv P nv off len).1.mallocOk = false := by
  unfold Session.frameAllocPackNv at hb ⊢
  dsimp only at hb ⊢
  split at hb
  · cases hb
  · rename_i h1
    rw [if_neg h1]
    rw [reserveNvbuf_starved h (Bool.eq_false_iff.mpr h1)] at hb ⊢
    split at hb
    · cases hb
    · rename_i h2
      rw [if_neg h2]
      rw [reserveFramebuf_starved h (Bool.eq_false_iff.mpr h2)] at hb ⊢
      split at hb
      · cases hb
      · split_ifs at hb ⊢
        exact h

theorem openStream_starved {s : Session} (id : Int) (flags pri : Nat) (state : StreamState) (h : s.mallocOk = false) :
    (s.openStream id flags pri state).2 = false := by
  unfold openStream
  rw [if_neg (by rw [h]; nofun)]

/-- Without memory no SYN_STREAM is begun: the stream itself has to be allocated. -/
theorem prepSynStreamPack_starved (P : Platform) {s : Session} (item : OutboundItem) (f : SynStream)
    (h : s.mallocOk = false) (bytes : Bytes) : (prepSynStreamPack P s item f).result ≠ .ok bytes := by
  unfold prepSynStreamPack
  dsimp only
  split
  · nofun
  · split
    · nofun
    · rename_i block hb
      have h' := frameAllocPackNv_starved (s := {s with nextStreamId := s.nextStreamId+2}) h hb
      rw [if_neg (by rw [openStream_starved _ _ _ _ h']; nofun)]
      nofun

/-- The slot of a SYN_STREAM that is begun is that of its origin, or none. -/
theorem prepSynStream_slot {P : Platform} {s : Session} {item : OutboundItem} {f : SynStream} (ho : Orderly s item)
    (hf : item.frame = .ctrl (.synStream f)) (hv : s.version = .spdy3) (hc : s.credentialCallbacks = true)
    (hs : s.server = false) {bytes : Bytes} (hr : (prepSynStream P s item f).result = .ok bytes) :
    ∃ f', (prepSynStream P s item f).item.frame = .ctrl (.synStream f') ∧ (f'.slot ≠ 0 → ∃ origin,
      s.predicateSynStreamSend f = none ∧ s.mallocOk = true ∧ frameNvSetOrigin f.nv = some origin ∧
      s.cliCertvec.find origin ≠ 0 ∧ f'.slot = s.cliCertvec.find origin % 256) := by
  unfold prepSynStream at hr ⊢
  cases hp : s.predicateSynStreamSend f with
  | some e =>
    rw [hp] at hr
    cases hr
  | none =>
    rw [hp] at hr
    dsimp only at hr ⊢
    have hask : s.version = .spdy3 ∧ s.credentialCallbacks = true ∧ (!s.server) = true := ⟨hv,hc,by rw [hs]; rfl⟩
    rw [if_pos hask] at hr ⊢
    rcases prepCredential_cases ho hf hp with ⟨⟨slot,h2,hslot⟩,-⟩ | ⟨h2,-⟩
    · rw [h2] at hr ⊢
      dsimp only at hr ⊢
      obtain ⟨f',hf',hf''⟩ := (prepSynStreamPack_packed P (s.prepCredential f).1 item {f with slot := slot % 256}).frame
      refine ⟨f',hf',?_⟩
      intro hne
      have hne' : slot ≠ 0 := by
        rintro rfl
        exact hne hf''
      obtain ⟨origin,horigin,hfind,hsame⟩ := hslot hne'
      rw [hsame] at hr
      refine ⟨origin,rfl,?_,horigin,hfind ▸ hne',by rw [hf'',hfind]⟩
      cases hok : s.mallocOk with
      | true => rfl
      | false => exact absurd hr (prepSynStreamPack_starved P item _ hok bytes)
    · rw [h2] at hr
      dsimp only at hr
      split at hr <;> cases hr

/-- An origin gets a slot together with its CREDENTIAL. -/
theorem prepSynStream_vector {P : Platform} {s : Session} {item : OutboundItem} {f : SynStream} (ho : Orderly s item)
    (hf : item.frame = .ctrl (.synStream f)) (hv : (prepSynStream P s item f).ses.cliCertvec ≠ s.cliCertvec) :
    ∃ origin answer rest, s.host.credentials = answer :: rest ∧
      ∃ x ∈ (prepSynStream P s item f).ses.obPq.q, ∃ g, x.frame = .ctrl (.credential g) ∧
        g.slot = (s.cliCertvec.put origin).2 ∧ g.proof = answer.proof := by
  unfold prepSynStream at hv ⊢
  cases hp : s.predicateSynStreamSend f with
  | some e =>
    rw [hp] at hv
    exact absurd rfl hv
  | none =>
    rw [hp] at hv
    dsimp only at hv ⊢
    split at hv
    · rename_i hask
      rw [if_pos hask]
      rcases prepCredential_cases ho hf hp with ⟨⟨slot,h2,-⟩,h3⟩ | ⟨h2,origin,answer,rest,hcred,h3,x,hx,hg⟩
      · rw [h2] at hv
        exact absurd ((prepSynStreamPack_packed P _ item _).vector.trans h3) hv
      · rw [h2]
        dsimp only
        have hq := (pushObSs_same (s.prepCredential f).1 {item with pri := obPriAfterCredential}).1
        refine ⟨origin,answer,rest,hcred,x,?_,hg⟩
        split <;> exact Grows.subset hq hx
    · exact absurd (prepSynStreamPack_packed P s item f).vector hv

/-! One preparation. -/

/-- An item that is begun has been taken from a queue and prepared. -/
theorem prepareNext_begins {P : Platform} {s : Session} {item : OutboundItem} (ha : s.aob.item = none)
    (h : (s.prepareNext P).aob.item = some item) : ∃ item0 s1 bytes, s.popNextObItem = some (item0,s1) ∧
      (prepFrame P s1 item0).result = .ok bytes ∧ (prepFrame P s1 item0).item = item := by
  cases hpop : s.popNextObItem with
  | none =>
    rw [prepareNext_none P hpop,ha] at h
    cases h
  | some r =>
    obtain ⟨item0,s1⟩ := r
    obtain ⟨-,pq,pq',hs1⟩ := popNextObItem_same hpop
    have hidle : (prepFrame P s1 item0).ses.aob.item = none := by
      rw [prepFrame_active,hs1]
      exact ha
    have hdrop : ∀ e, ((prepFrame P s1 item0).ses.dropItem (prepFrame P s1 item0).item e).aob.item = none := by
      intro e
      unfold Session.dropItem
      split
      · exact hidle
      · split <;> exact hidle
      · exact hidle
    unfold Session.prepareNext at h
    rw [hpop] at h
    dsimp only at h
    split at h
    · rename_i bytes hr
      rw [activate_active] at h
      exact ⟨item0,s1,bytes,rfl,hr,Option.some.inj h⟩
    · rw [hidle] at h
      cases h
    · rw [hidle] at h
      cases h
    · rw [hdrop] at h
      cases h

/-- Items are taken in order where it matters for a CREDENTIAL. -/
def InOrder (s : Session) : Prop := ∀ item s1, s.popNextObItem = some (item,s1) → inOrder s1 item = true

instance (s : Session) : Decidable (InOrder s) :=
  match h : s.popNextObItem with
  | none => .isTrue (fun item s1 hp => by rw [h] at hp; cases hp)
  | some (item,s1) => decidable_of_iff (inOrder s1 item = true) ⟨fun hi item' s1' hp => by
      rw [h] at hp
      cases hp
      exact hi,fun hi => hi item s1 h⟩

/-- A CREDENTIAL that waits goes on waiting or is begun. -/
theorem prepareNext_credential (P : Platform) {s : Session} (ho : InOrder s) {x : OutboundItem} {g : Credential}
    (hx : x ∈ s.obPq.q) (hg : x.frame = .ctrl (.credential g)) :
    x ∈ (s.prepareNext P).obPq.q ∨ (s.prepareNext P).aob.item = some x := by
  cases hpop : s.popNextObItem with
  | none =>
    rw [prepareNext_none P hpop]
    exact .inl hx
  | some r =>
    obtain ⟨item,s1⟩ := r
    rcases (popNextObItem_same hpop).1 x hx with rfl | hx1
    · refine .inr ?_
      have hpacked := (orderly_of_inOrder (ho x s1 hpop)).packed g hg
      have hprep : prepFrame P s1 x = ⟨(s1.reserveFramebuf (framePackCredential g).length).1,x,.ok (framePackCredential g)⟩ := by
        unfold prepFrame
        rw [hg]
        dsimp only
        unfold prepFixed reserveFramebuf
        by_cases hlen : s1.aob.framebufmax < (framePackCredential g).length
        · rw [if_pos hlen,if_pos (hpacked hlen)]
        · rw [if_neg hlen]
      unfold Session.prepareNext
      rw [hpop]
      dsimp only
      rw [hprep]
      exact activate_active _ _ _
    · exact .inl ((prepareNext_same P hpop).1.subset ((prepFrame_grows P s1 item).subset hx1))

/-! Runs. -/

/-- The turns of a session, where what is prepared is prepared in a state of a kind. -/
inductive TurnIf (C : Session → Prop) (P : Platform) : Session → Session → Prop
  | prepare (s : Session) : s.aob.item = none → C s → TurnIf C P s (s.prepareNext P)
  | write (s : Session) (item : OutboundItem) : s.aob.item = some item → TurnIf C P s (s.sendWrite item).1
  | recv (s : Session) (input : Bytes) : TurnIf C P s (s.recvIter P input).1
  | submit (s : Session) (op : Op) : op ≠ .send → (∀ input, op ≠ .memRecv input) → TurnIf C P s (s.call P op).1
  | report (s : Session) (e : Err) : TurnIf C P s (s.emit (.fatal e))

theorem TurnIf.turn {C : Session → Prop} {P : Platform} {s s' : Session} (h : TurnIf C P s s') : Turn P s s' := by
  cases h with
  | prepare ha hc => exact .prepare s ha
  | write item ha => exact .write s item ha
  | recv input => exact .recv s input
  | submit op hs hr => exact .submit s op hs hr
  | report e => exact .report s e

/-- Without a condition these are all turns. -/
theorem turnIf_true {P : Platform} {s s' : Session} : TurnIf (fun _ => True) P s s' ↔ Turn P s s' := by
  refine ⟨TurnIf.turn,?_⟩
  intro h
  cases h with
  | prepare ha => exact .prepare s ha trivial
  | write item ha => exact .write s item ha
  | recv input => exact .recv s input
  | submit op hs hr => exact .submit s op hs hr
  | report e => exact .report s e

/-- Turns that leave the origin of a slot as it is. -/
abbrev Keeping (C : Session → Prop) (P : Platform) (slot : Nat) : Session → Session → Prop :=
  Relation.ReflTransGen (fun a b => TurnIf C P a b ∧ b.cliCertvec.getOrigin slot = a.cliCertvec.getOrigin slot)

/-- The next preparation puts the origin into the slot. -/
structure Places (P : Platform) (t : Session) (origin : Origin) (slot : Nat) : Prop where
  idle : t.aob.item = none
  vector : (t.prepareNext P).cliCertvec = (t.cliCertvec.put origin).1
  changed : (t.prepareNext P).cliCertvec ≠ t.cliCertvec
  slot : (t.cliCertvec.put origin).2 = slot

/-- When a SYN_STREAM with a slot is begun, to be handed to send_callback, and the
origin of the slot was put there by a preparation and has been there since, the
CREDENTIAL with the proof that was given then has been sent since. -/
def CredentialFirst (C : Session → Prop) (P : Platform) (u : Setup) (s : Session) : Prop :=
  s.version = .spdy3 → s.credentialCallbacks = true → s.server = false → s.aob.item = none → C s →
  ∀ item f, (s.prepareNext P).aob.item = some item → item.frame = .ctrl (.synStream f) → f.slot ≠ 0 →
  ∀ t origin, Relation.ReflTransGen (TurnIf C P) (u.start P) t → C t → Places P t origin f.slot →
    Keeping C P f.slot (t.prepareNext P) s →
    ∃ answer rest g, t.host.credentials = answer :: rest ∧ g.slot = f.slot ∧ g.proof = answer.proof ∧
      .ctrlSend (.credential g) ∈ s.host.log.drop t.host.log.length

/-- The CREDENTIAL is in its queue, or is being written, or has been sent. -/
structure Waits (x : OutboundItem) (g : Credential) (n : Nat) (s : Session) : Prop where
  since : n ≤ s.host.log.length
  place : x ∈ s.obPq.q ∨ s.aob.item = some x ∨ .ctrlSend (.credential g) ∈ s.host.log.drop n

theorem turn_log_grows {P : Platform} {s s' : Session} (h : Turn P s s') : s.host.log <+: s'.host.log :=
  Steps.log_grows (turn_steps h)

theorem turns_log_grows {P : Platform} {s s' : Session} (h : Turns P s s') : s.host.log <+: s'.host.log := by
  induction h with
  | refl => exact List.prefix_refl _
  | tail _ ht ih => exact ih.trans (turn_log_grows ht)

theorem TurnIf.waits {P : Platform} {s s' : Session} (h : TurnIf InOrder P s s') {x : OutboundItem} {g : Credential}
    {n : Nat} (hg : x.frame = .ctrl (.credential g)) (hw : Waits x g n s) : Waits x g n s' := by
  have hgrow := turn_log_grows h.turn
  have hsent : .ctrlSend (.credential g) ∈ s.host.log.drop n → .ctrlSend (.credential g) ∈ s'.host.log.drop n := by
    obtain ⟨es,he⟩ := hgrow
    intro hm
    rw [← he,List.drop_append]
    exact List.mem_append_left _ hm
  refine ⟨hw.since.trans hgrow.length_le,?_⟩
  cases h with
  | prepare ha hc =>
    rcases hw.place with hx | hx | hx
    · rcases prepareNext_credential P hc hx hg with h | h
      · exact .inl h
      · exact .inr (.inl h)
    · rw [ha] at hx
      cases hx
    · exact .inr (.inr (hsent hx))
  | write item ha =>
    rcases hw.place with hx | hx | hx
    · exact .inl ((sendWrite_grows s item).subset hx)
    · rw [ha] at hx
      cases hx
      rcases sendWrite_credential ha hg with h | h
      · exact .inr (.inl h)
      · exact .inr (.inr (List.drop_subset_drop_left _ hw.since h))
    · exact .inr (.inr (hsent hx))
  | recv input =>
    obtain ⟨g',hr⟩ := recvIter_reads P s input cleanGhost
    have ha : (s.recvIter P input).1.aob.item = s.aob.item := congrArg Prod.fst hr.steps.aob_eq
    exact hw.place.imp (fun h => Grows.subset ⟨hr.steps.grows.queue,hr.steps.grows.accepts⟩ h) (Or.imp (fun h => ha.trans h) hsent)
  | submit op hs hr =>
    have hst := submission_steps P s op cleanGhost hs hr
    have ha : (s.call P op).1.aob.item = s.aob.item := congrArg Prod.fst hst.aob_eq
    exact hw.place.imp (fun h => Grows.subset hst.grows h) (Or.imp (fun h => ha.trans h) hsent)
  | report e => exact hw.place.imp id (Or.imp id hsent)

theorem put_slot (v : ClientCertVector) (o o' : Origin) : (v.put o).2 = (v.put o').2 := by
  unfold ClientCertVector.put
  split <;> rfl

/-- The preparation that puts an origin into a slot queues its CREDENTIAL. -/
theorem Places.waits {P : Platform} {t : Session} {origin : Origin} {slot : Nat} (h : Places P t origin slot)
    (ho : InOrder t) : ∃ answer rest g x, t.host.credentials = answer :: rest ∧ g.slot = slot ∧ g.proof = answer.proof ∧
      x.frame = .ctrl (.credential g) ∧ Waits x g t.host.log.length (t.prepareNext P) := by
  have hgrow := turn_log_grows (.prepare (P := P) t h.idle)
  cases hpop : t.popNextObItem with
  | none => exact absurd (by rw [prepareNext_none P hpop]) h.changed
  | some r =>
    obtain ⟨item,s1⟩ := r
    have horder := orderly_of_inOrder (ho item s1 hpop)
    obtain ⟨-,pq,pq',hs1⟩ := popNextObItem_same hpop
    have hvec : s1.cliCertvec = t.cliCertvec := by rw [hs1]
    have hcreds : s1.host = t.host := by rw [hs1]
    have hchanged := h.changed
    rw [(prepareNext_same P hpop).2,← hvec] at hchanged
    by_cases hsyn : ∃ f, item.frame = .ctrl (.synStream f)
    · obtain ⟨f,hf⟩ := hsyn
      have hprep : prepFrame P s1 item = prepSynStream P s1 item f := by
        unfold prepFrame
        rw [hf]
      rw [hprep] at hchanged
      obtain ⟨o,answer,rest,hcred,x,hx,g,hg,hslot,hproof⟩ := prepSynStream_vector horder hf hchanged
      refine ⟨answer,rest,g,x,hcreds ▸ hcred,?_,hproof,hg,hgrow.length_le,.inl ?_⟩
      · rw [hslot,hvec,← h.slot]
        exact put_slot t.cliCertvec o origin
      · refine (prepareNext_same P hpop).1.subset ?_
        rw [hprep]
        exact hx
    · exact absurd (prepFrame_plain P s1 (not_exists.mp hsyn)).vector hchanged

theorem Keeping.waits {P : Platform} {slot : Nat} {s s' : Session} (h : Keeping InOrder P slot s s') {x : OutboundItem}
    {g : Credential} {n : Nat} (hg : x.frame = .ctrl (.credential g)) (hw : Waits x g n s) : Waits x g n s' := by
  induction h with
  | refl => exact hw
  | tail _ h ih => exact h.1.waits hg ih

/-- A SYN_STREAM with a slot comes after the CREDENTIAL in every run that takes the
items in order. -/
theorem credential_first (P : Platform) (u : Setup) (s : Session) : CredentialFirst InOrder P u s := by
  intro hv hc hsrv ha ho item f hact hf hslot t origin _ hot hp hkeep
  obtain ⟨answer,rest,g,x,hcred,hgs,hproof,hg,hw⟩ := hp.waits hot
  refine ⟨answer,rest,g,hcred,hgs,hproof,?_⟩
  rcases (Keeping.waits hkeep hg hw).place with hx | hx | hx
  · -- the CREDENTIAL would be passed over
    exfalso
    obtain ⟨item0,s1,bytes,hpop,hr,rfl⟩ := prepareNext_begins ha hact
    have horder := orderly_of_inOrder (ho item0 s1 hpop)
    obtain ⟨hq,pq,pq',hs1⟩ := popNextObItem_same hpop
    by_cases hsyn : ∃ f, item0.frame = .ctrl (.synStream f)
    · obtain ⟨f0,hf0⟩ := hsyn
      have hprep : prepFrame P s1 item0 = prepSynStream P s1 item0 f0 := by
        unfold prepFrame
        rw [hf0]
      rw [hprep] at hr hf
      have hset : s1.version = .spdy3 ∧ s1.credentialCallbacks = true ∧ s1.server = false := by
        rw [hs1]
        exact ⟨hv,hc,hsrv⟩
      obtain ⟨f',hf',hslot'⟩ := prepSynStream_slot horder hf0 hset.1 hset.2.1 hset.2.2 hr
      rw [hf'] at hf
      cases hf
      obtain ⟨o,hpred,hok,ho',hfind,hs⟩ := hslot' hslot
      have hx1 : x ∈ s1.obPq.q := by
        rcases hq x hx with rfl | hx
        · rw [hg] at hf0
          cases hf0
        · exact hx
      exact horder.first f0 o hf0 hpred hok ho' hfind x hx1 g hg (hgs.trans hs)
    · exact (prepFrame_plain P s1 (not_exists.mp hsyn)).frame f hf
  · rw [ha] at hx
    cases hx
  · exact hx

/-! A request to an origin without a slot. -/

def originBlock : Bytes :=
  [0,0,0,2,0,0,0,5,58,104,111,115,116,0,0,0,1,97,0,0,0,7,58,115,99,104,101,109,101,0,0,0,5,104,116,116,112,115]

/-- zlib's answers for the block of that request, once and again. -/
def originPlatform : Platform := {samplePlatform with
  deflate := fun blocks block =>
    if block ≠ originBlock then none
    else if blocks = [] then some [56,234,227,198,167,194,2,229,14,80,118,178,130,22,8,140,224,20,110,85,12,44,247,114,193,
      133,99,70,73,73,65,49,0,0,0,255,255]
    else if blocks = [originBlock] then some [34,78,21,0,0,0,255,255] else none}

/-- A client that proves itself with one certificate. -/
def credentialClient (mem : Mem) (sends : List SendAnswer) : Setup :=
  ⟨false,.spdy3,.int32,true,⟨mem,sends,[],[⟨[7],[[8]]⟩],[]⟩⟩

def originRequest : Op :=
  .submitRequest 0 [[58,115,99,104,101,109,101],[104,116,116,112,115],[58,104,111,115,116],[97]] none

def requested (mem : Mem) (sends : List SendAnswer) : Session :=
  (((credentialClient mem sends).start originPlatform).call originPlatform originRequest).1

/-- The SYN_STREAM waits to be sent after its CREDENTIAL. -/
def pending (mem : Mem) (sends : List SendAnswer) : Session := (requested mem sends).prepareNext originPlatform

theorem requested_places (mem : Mem) (sends : List SendAnswer) (h : mem = [] ∨ mem = List.replicate 10 true ++ [false])
    (hs : sends = [] ∨ sends = [.accept 100]) :
    Places originPlatform (requested mem sends) ⟨[104,116,116,112,115],[97],443⟩ 1 := by
  rcases h with rfl | rfl <;> rcases hs with rfl | rfl <;>
    exact ⟨by decide +kernel,by decide +kernel,by decide +kernel,by decide +kernel⟩

/-- The SYN_STREAM names slot 1, and nothing has been sent. -/
theorem request_before_credential :
    ¬CredentialFirst (fun _ => True) originPlatform (credentialClient [] []) (pending [] []) := by
  intro h
  have hfirst : ((pending [] []).prepareNext originPlatform).aob.item =
      some ⟨.ctrl (.synStream ⟨⟨3,1,47⟩,1,0,0,1,[([58,104,111,115,116],[97]),
        ([58,115,99,104,101,109,101],[104,116,116,112,115])]⟩),none,-1,0⟩ := by decide +kernel
  obtain ⟨answer,rest,g,-,-,-,hsent⟩ := h (by decide +kernel) (by decide +kernel) (by decide +kernel) (by decide +kernel)
    trivial _ _ hfirst rfl (by decide) (requested [] []) _ (.single (.submit _ originRequest nofun nofun)) trivial
    (requested_places [] [] (.inl rfl) (.inl rfl)) .refl
  have hlog : (pending [] []).host.log.drop (requested [] []).host.log.length =
      [.accepted ⟨.ctrl (.credential ⟨⟨3,0,12⟩,1,[7],[[8]]⟩),none,-2,1⟩] := by decide +kernel
  have hsent' := hlog ▸ hsent
  simp at hsent'

/-- There is no memory for the SYN_STREAM when its turn comes, and it is dropped. -/
def spared : Session := (pending (List.replicate 10 true ++ [false]) [.accept 100]).prepareNext originPlatform

def credentialItem : OutboundItem := ⟨.ctrl (.credential ⟨⟨3,0,12⟩,1,[7],[[8]]⟩),none,-2,1⟩

/-- The CREDENTIAL has been written and a second request submitted. -/
def provenClient : Session :=
  ((((spared.prepareNext originPlatform).sendWrite credentialItem).1).call originPlatform originRequest).1

theorem credential_before_second_request : provenClient.aob.item = none ∧ ∃ g : Credential, g.slot = 1 ∧ g.proof = [7] ∧
    .ctrlSend (.credential g) ∈ provenClient.host.log.drop
      (requested (List.replicate 10 true ++ [false]) [.accept 100]).host.log.length := by
  have hidle : provenClient.aob.item = none := by decide +kernel
  refine ⟨hidle,?_⟩
  have hfirst : (provenClient.prepareNext originPlatform).aob.item =
      some ⟨.ctrl (.synStream ⟨⟨3,1,18⟩,3,0,0,1,[([58,104,111,115,116],[97]),
        ([58,115,99,104,101,109,101],[104,116,116,112,115])]⟩),none,0,2⟩ := by decide +kernel
  have hkeep : Keeping InOrder originPlatform 1 (pending (List.replicate 10 true ++ [false]) [.accept 100]) provenClient := by
    refine .tail (.tail (.tail (.tail .refl ⟨.prepare _ ?_ ?_,?_⟩) ⟨.prepare spared ?_ ?_,?_⟩)
      ⟨.write _ credentialItem ?_,?_⟩) ⟨.submit _ originRequest nofun nofun,?_⟩
    all_goals decide +kernel
  obtain ⟨answer,rest,g,hcred,hslot,hproof,hsent⟩ := credential_first originPlatform
    (credentialClient (List.replicate 10 true ++ [false]) [.accept 100]) provenClient (by decide +kernel)
    (by decide +kernel) (by decide +kernel) hidle (by decide +kernel) _ _ hfirst rfl (by decide)
    (requested (List.replicate 10 true ++ [false]) [.accept 100]) _ (.single (.submit _ originRequest nofun nofun))
    (by decide +kernel) (requested_places _ _ (.inr rfl) (.inr rfl)) hkeep
  have hanswer : (requested (List.replicate 10 true ++ [false]) [.accept 100]).host.credentials = [⟨[7],[[8]]⟩] := by
    decide +kernel
  rw [hanswer] at hcred
  cases hcred
  exact ⟨g,hslot,hproof,hsent⟩

end Spdylay.Protocol
