import Spdylay.Machine.Assertions
import Spdylay.Protocol.Origins
import Spdylay.Protocol.QueueGrowth
import Spdylay.Transport.Preparing

/-! Every turn of a session is a number of steps of the sending machine. -/
namespace Spdylay.Transport
open Library Session

variable {P : Platform} {L : Prop}

/-- `s'` comes from `s` by steps of the sending machine. -/
def Sends (P : Platform) (L : Prop) (s' s : Session) : Prop := SendSteps P L s.sendSide s'.sendSide ∧ Feeds P s' s

theorem Sends.of_room {s' s : Session} (h : Room P s' s) : Sends P L s' s := ⟨h.steps,h.2⟩

theorem Sends.of_beside {s' s : Session} (h : Beside P s' s) : Sends P L s' s := by
  refine ⟨?_,h.2⟩
  rw [h.1]

theorem Sends.refl (s : Session) : Sends P L s s := .of_beside (.refl s)

theorem Sends.trans {s2 s1 s : Session} (h' : Sends P L s2 s1) (h : Sends P L s1 s) : Sends P L s2 s :=
  ⟨h.1.trans h'.1,h'.2.trans h.2 h.1.version⟩

theorem sendSide_notes (s : Session) {e : Event} (h : ofSending e = true) :
    (s.emit e).sendSide = s.sendSide.notes [e] := by
  have hlog : (s.host.log ++ [e]).filter ofSending = s.host.log.filter ofSending ++ [e] := by
    rw [List.filter_append,List.filter_singleton,h]
    rfl
  exact congrArg (fun w => {s.sendSide with writes := w}) hlog

theorem emit_sends {s : Session} {e : Event} (h : ofSending e = true)
    (hstep : SendStep P L s.sendSide (s.sendSide.notes [e])) : Sends P L (s.emit e) s := by
  refine ⟨sendSide_notes s h ▸ .single hstep,feeds_emit P s e ?_⟩
  rintro x rfl
  cases h

/-! Completed frames. -/

/-- A written item is freed. -/
theorem activeReset_sends {s : Session} {item : OutboundItem} {cause : Finish} (h : s.aob.item = some item)
    (hend : s.sendSide.AtEnd) : Sends P L (s.activeReset cause) s := by
  have hside : (s.activeReset cause).sendSide = s.sendSide.unload := by
    unfold activeReset
    rw [h]
    exact congrArg SendSide.unload (sendSide_emit s (.finished item.seq cause) rfl)
  refine ⟨hside ▸ .single (.leave _ item h hend),?_⟩
  unfold activeReset
  rw [h]
  exact feeds_emit P s (.finished item.seq cause) nofun

/-- It is deferred or put back into its queue. -/
theorem activeTake_sends {s : Session} {item : OutboundItem} (h : s.aob.item = some item) (hend : s.sendSide.AtEnd) :
    Sends P L s.activeTake s := ⟨.single (.leave _ item h hend),.same rfl⟩

theorem Room.atEnd {s' s : Session} (h : Room P s' s) (hend : s.sendSide.AtEnd) : s'.sendSide.AtEnd := by
  obtain ⟨⟨n,-,hs⟩,-⟩ := h
  rw [hs]
  exact hend

theorem continueData_sends {s : Session} {item : OutboundItem} (d : DataFrame) (st : Stream)
    (h : s.aob.item = some item) (hend : s.sendSide.AtEnd) : Sends P L (s.continueData item d st).1 s := by
  unfold continueData
  dsimp only
  split
  · have hd : Room P _ s := .of_beside (deferData_changes P s st item true).beside
    split
    · exact (activeTake_sends (hd.active.trans h) (hd.atEnd hend)).trans (.of_room hd)
    · exact .of_room hd
  · have hp := packData_spec (P := P) s item.seq d (s.nextDataRead st)
    generalize s.packData item.seq d (s.nextDataRead st) = p at hp
    rcases hp with ⟨e,he,hr⟩ | ⟨s1,data,fin,hr,hlen,hok,hid,hs⟩
    · rw [he]
      split
      · rename_i heq
        cases heq
      · have hd := Room.trans (.of_beside (deferData_changes P p.1 st {item with frame := .data p.2.1} false).beside) hr
        split
        · exact (activeTake_sends (hd.active.trans h) (hd.atEnd hend)).trans (.of_room hd)
        · exact .of_room hd
      · have ha := Room.trans (.of_beside (addRstStream_changes P p.1 d.streamId internalError).beside) hr
        exact (activeReset_sends (ha.active.trans h) (ha.atEnd hend)).trans (.of_room ha)
      · exact (activeReset_sends (hr.active.trans h) (hr.atEnd hend)).trans (.of_room hr)
    · rw [hok]
      refine Sends.trans ⟨?_,?_⟩ (.of_room hr)
      · have hstep := SendStep.continue (P := P) (L := L) s1.sendSide item {item with frame := .data p.2.1} p.2.1 data _ fin
          (hr.active.trans h) (hr.atEnd hend) rfl rfl (hlen.trans (nextDataRead_le s st)) rfl
        rw [hid] at hstep
        have hw : ((s1.emit (.read item.seq d.streamId data)).emit (.prepared item.seq
            (dataHead d.streamId data.length fin ++ data))).sendSide = s1.sendSide.notes [.read item.seq d.streamId data,
              .prepared item.seq (dataHead d.streamId data.length fin ++ data)] := by
          rw [sendSide_notes _ rfl,sendSide_notes _ rfl]
          unfold SendSide.notes
          rw [List.append_assoc]
          rfl
        rw [hs]
        refine .single ?_
        convert hstep using 1
        exact congrArg (fun w => {w with aob := {s1.aob with
          item := some {item with frame := .data p.2.1}
          framebuf := dataHead d.streamId data.length fin ++ data
          framebufoff := 0}}) hw
      · rw [hs]
        exact (feeds_emit P _ (.prepared item.seq _) nofun).trans (feeds_emit P s1 (.read item.seq d.streamId data) nofun) rfl

theorem afterDataSent_sends {s : Session} {item : OutboundItem} {d : DataFrame} (h : s.aob.item = some item)
    (hf : item.frame = .data d) (hend : s.sendSide.AtEnd) : Sends P L (s.afterDataSent item d).1 s := by
  unfold afterDataSent
  dsimp only
  generalize he : Event.dataSend (if d.eof then d.flags else 0) d.streamId (s.aob.framebuf.length-headLen) = e
  have hnote : Sends P L (s.emit e) s := by
    subst he
    exact emit_sends rfl (.completeData _ item d h hf hend)
  have hfin : Beside P ((s.emit e).afterDataFin d) (s.emit e) := (afterDataFin_changes P _ d).beside
  have hitem : ((s.emit e).afterDataFin d).aob.item = some item := (Room.of_beside hfin).active.trans h
  have hend1 : ((s.emit e).afterDataFin d).sendSide.AtEnd := (Room.of_beside hfin).atEnd hend
  have h1 : Sends P L ((s.emit e).afterDataFin d) s := Sends.trans (.of_beside hfin) hnote
  generalize (s.emit e).afterDataFin d = s1 at hitem hend1 h1
  split
  · exact (activeReset_sends hitem hend1).trans h1
  · split
    · split
      · exact h1
      · exact (continueData_sends d _ hitem hend1).trans h1
    · have hp : Room P (s1.pushOb item).1 s1 := .of_beside (pushOb_changes P s1 item).beside
      have h2 := Sends.trans (.of_room hp) h1
      split
      · exact (activeTake_sends (hp.active.trans hitem) (hp.atEnd hend1)).trans h2
      · exact (activeReset_sends (hp.active.trans hitem) (hp.atEnd hend1)).trans h2

theorem afterFrameSent_sends {s : Session} {item : OutboundItem} (h : s.aob.item = some item)
    (hend : s.sendSide.AtEnd) : Sends P L s.afterFrameSent.1 s := by
  unfold afterFrameSent
  rw [h]
  dsimp only
  split
  · rename_i f hf
    have hnote : Sends P L (s.emit (.ctrlSend f)) s := emit_sends rfl (.complete _ item f h hf hend)
    have hafter : Room P ((s.emit (.ctrlSend f)).afterCtrlSent item f).1 (s.emit (.ctrlSend f)) :=
      .of_beside (afterCtrlSent_changes P _ item f).beside
    have h1 := Sends.trans (.of_room hafter) hnote
    split
    · exact (activeReset_sends (hafter.active.trans h) (hafter.atEnd hend)).trans h1
    · exact h1
  · rename_i d hf
    exact afterDataSent_sends h hf hend

/-! Writing. -/

theorem sendWrite_sends {s : Session} {item : OutboundItem} (h : s.aob.item = some item) :
    Sends P L (s.sendWrite item).1 s := by
  unfold sendWrite
  dsimp only
  split
  · exact .of_beside (.same rfl rfl)
  · exact .of_beside (.same rfl rfl)
  · rename_i n _
    unfold sendAccepted
    dsimp only
    generalize hm : min n (s.aob.framebuf.length-s.aob.framebufoff) = m
    generalize hs1 : Session.debit _ item = s1
    have hle : m ≤ s.aob.framebuf.length-s.aob.framebufoff := hm ▸ min_le_right _ _
    have hside : s1.sendSide =
        (s.sendSide.advance m).notes [.sent ((s.aob.framebuf.drop s.aob.framebufoff).take m)] := by
      rw [← hs1,(debit_changes P _ item).beside.1]
      exact congrArg (fun w => w.advance m) (sendSide_notes s (e := .sent _) rfl)
    have hfeeds : Feeds P s1 s := by
      rw [← hs1]
      exact (debit_changes P _ item).beside.2.trans (feeds_emit P s (.sent _) nofun) rfl
    have h1 : Sends P L s1 s := ⟨hside ▸ .single (.write _ item m h hle),hfeeds⟩
    have hitem : s1.aob.item = some item := (congrArg (fun w => w.aob.item) hside).trans h
    split
    · rename_i hend
      have h2 := (afterFrameSent_sends hitem hend).trans h1
      split <;> exact h2
    · exact h1

/-! Preparing. -/

theorem Squeezed.active {block : Bytes} {s' s : Session} (h : Squeezed P block s' s) : s'.aob.item = s.aob.item := by
  obtain ⟨⟨s1,hr,hs⟩,-⟩ := h
  exact (congrArg (fun w => w.aob.item) hs).trans hr.active

theorem activate_ctrl (s : Session) {item : OutboundItem} {f : Frame} (hf : item.frame = .ctrl f) (bytes : Bytes) :
    (s.activate item bytes).sendSide =
      (s.sendSide.load item bytes).notes [.prepared item.seq bytes,.beforeCtrlSend f] := by
  unfold activate
  rw [hf]
  dsimp only
  rw [sendSide_notes _ rfl]
  have h := sendSide_notes s (e := .prepared item.seq bytes) rfl
  refine (congrArg (fun w => (w.load item bytes).notes [.beforeCtrlSend f]) h).trans ?_
  unfold SendSide.notes SendSide.load
  rw [List.append_assoc]
  rfl

theorem activate_data (s : Session) {item : OutboundItem} {d : DataFrame} (hf : item.frame = .data d) (bytes : Bytes) :
    (s.activate item bytes).sendSide = (s.sendSide.load item bytes).notes [.prepared item.seq bytes] := by
  unfold activate
  rw [hf]
  exact congrArg (fun w => w.load item bytes) (sendSide_notes s (e := .prepared item.seq bytes) rfl)

theorem activate_feeds (s : Session) (item : OutboundItem) (bytes : Bytes) : Feeds P (s.activate item bytes) s := by
  have hp := feeds_emit P s (.prepared item.seq bytes) nofun
  unfold activate
  dsimp only
  split
  · exact (feeds_emit P _ (.beforeCtrlSend _) nofun).trans hp rfl
  · exact hp

/-- The items that can be taken from a queue are well formed, as far as their
preparation does not change them. -/
def Stocked (P : Platform) (s : Session) : Prop :=
  ∀ item s1, s.popNextObItem = some (item,s1) → ∀ f, item.frame = .ctrl f → (packedPlain f).isSome →
    Formed P s.version (.ctrl f)

/-- Blocks are lost in the preparation of an item only if `L` says so. -/
def MayLose (P : Platform) (s : Session) (item : OutboundItem) (r : Except Err Bytes) (L : Prop) : Prop :=
  ∀ f block e, r = .error e → item.frame = .ctrl f → packs s f → blockOf P s f = some block →
    Loss P s.hdDeflater f block e → L

theorem prepared_sends {s : Session} {item : OutboundItem} {p : Prep} (h : Outcome P s item p)
    (hn : s.aob.item = none) (hf : ∀ f, item.frame = .ctrl f → (packedPlain f).isSome → Formed P s.version (.ctrl f))
    (hl : MayLose P s item p.result L) :
    (∀ bytes, p.result = .ok bytes → Sends P L (p.ses.activate p.item bytes) s) ∧
      ∀ e, p.result = .error e → Sends P L p.ses s := by
  cases h with
  | refused e he hr => exact ⟨fun bytes hb => (nomatch he.symm.trans hb),fun e _ => .of_room hr⟩
  | lost f block e he hi hp hb hloss hs =>
    refine ⟨fun bytes hb => (nomatch he.symm.trans hb),fun e _ => ?_⟩
    have hL := hl f block _ he hi hp hb hloss
    obtain ⟨⟨s1,hr,hside⟩,hfeeds⟩ := hs
    rw [← hr.hdDeflater] at hloss
    exact ⟨hside ▸ hr.steps.tail (.lose _ f block _ hL hloss),hfeeds⟩
  | plain f bytes hok hitem hi hb hr =>
    refine ⟨?_,fun e he => (nomatch hok.symm.trans he)⟩
    intro bytes' hok'
    cases hok.symm.trans hok'
    rw [hitem]
    refine ⟨?_,(activate_feeds _ _ _).trans hr.2 hr.version⟩
    have hform := hf f hi (hb ▸ rfl)
    rw [← hr.version] at hform
    rw [activate_ctrl _ hi]
    exact hr.steps.tail (.begin _ item f bytes (hr.active.trans hn) hi hform hb)
  | headers f f' block bytes hok hi hi' hb hc hs =>
    refine ⟨?_,fun e he => (nomatch hok.symm.trans he)⟩
    intro bytes' hok'
    cases hok.symm.trans hok'
    refine ⟨?_,(activate_feeds _ _ _).trans hs.2 hs.version⟩
    obtain ⟨⟨s1,hr,hside⟩,-⟩ := hs
    rw [← hr.hdDeflater] at hc
    rw [activate_ctrl _ hi',hside]
    exact hr.steps.tail (.beginHeaders _ p.item f' block bytes (hr.active.trans hn) hi' hc)
  | data d data bytes fin s1 hok hi hlen hbytes hr hfeeds hside =>
    refine ⟨?_,fun e he => (nomatch hok.symm.trans he)⟩
    intro bytes' hok'
    cases hok.symm.trans hok'
    have hv : p.ses.version = s.version := (congrArg SendSide.version hside).trans hr.version
    refine ⟨?_,(activate_feeds _ _ _).trans hfeeds hv⟩
    have hstep := SendStep.beginData (P := P) (L := L) s1.sendSide p.item d data bytes fin (hr.active.trans hn) hi hlen hbytes
    rw [activate_data _ hi,hside]
    convert hr.steps.tail hstep using 1
    unfold SendSide.notes SendSide.load
    rw [List.append_assoc]
    rfl

theorem prepareNext_sends {s : Session} (hn : s.aob.item = none) (hs : Stocked P s)
    (hl : ∀ item s1, s.popNextObItem = some (item,s1) → MayLose P s1 item (prepFrame P s1 item).result L) :
    Sends P L (s.prepareNext P) s := by
  unfold prepareNext
  split
  · exact .refl s
  · rename_i item s1 hpop
    have hp : Beside P s1 s := by
      obtain ⟨-,pq,pq',rfl⟩ := Protocol.popNextObItem_same hpop
      exact .same rfl rfl
    obtain ⟨hok,herr⟩ := prepared_sends (prepFrame_outcome (P := P) s1 item) ((Room.of_beside hp).active.trans hn)
      (fun f hi hf => hp.version ▸ hs item s1 hpop f hi hf) (hl item s1 hpop)
    dsimp only
    split
    · rename_i bytes hr
      exact (hok bytes hr).trans (.of_beside hp)
    · rename_i hr
      exact (herr _ hr).trans (.of_beside hp)
    · rename_i hr
      exact (herr _ hr).trans (.of_beside hp)
    · rename_i e _ _ hr
      exact (Sends.trans (.of_beside (dropItem_changes P _ _ _).beside) (herr e hr)).trans (.of_beside hp)

theorem turn_sends {s s' : Session} (h : Turn P s s') (hs : Stocked P s) : Sends P True s' s := by
  cases h with
  | prepare hn => exact prepareNext_sends hn hs (fun _ _ _ _ _ _ _ _ _ _ _ => trivial)
  | write item hi => exact sendWrite_sends hi
  | recv input => exact .of_beside (beside_recvIter P s input)
  | submit op hsend hrecv => exact .of_beside (beside_submission P s op hsend hrecv)
  | report e => exact .of_beside (beside_emit P s _ rfl)

/-! Runs. -/

/-- Every frame that was ever queued is well formed. -/
def Supplied (P : Platform) (s : Session) : Prop := ∀ x, .accepted x ∈ s.host.log → Formed P s.version x.frame

/-- Preparation leaves a frame without a name/value block as it was queued. -/
theorem sameFrame_plain {x : OutFrame} {f : Frame} (h : Protocol.SameFrame x (.ctrl f)) (hf : (packedPlain f).isSome) :
    x = .ctrl f := by
  cases x with
  | data d => cases h
  | ctrl g =>
    cases g with
    | synStream g =>
      cases f with
      | synStream => cases hf
      | _ => cases h
    | synReply g =>
      cases f with
      | synReply => cases hf
      | _ => cases h
    | headers g =>
      cases f with
      | headers => cases hf
      | _ => cases h
    | _ => exact Eq.symm h

theorem stocked_of_reachable {u : Setup} {s : Session} (h : Reachable P u s) (hs : Supplied P s) : Stocked P s := by
  intro item s1 hpop f hi hf
  have ho := Protocol.origins_invariant.reachable h
  have hin : (Protocol.conn s none).Holds item := by
    unfold popNextObItem at hpop
    split at hpop
    · cases hpop
    · rename_i syn _ htop
      split at hpop
      · cases hpop
      · cases hpop
        exact .queuedSyn (BinaryHeap.top_mem htop)
    · rename_i htop _
      cases hpop
      exact .queued (BinaryHeap.top_mem htop)
    · rename_i htop
      cases hpop
      exact .queuedSyn (BinaryHeap.top_mem htop)
  obtain ⟨x,hx,hsame⟩ := ho.items item hin
  rw [hi] at hsame
  have hform := hs x hx
  rw [sameFrame_plain hsame hf] at hform
  exact hform

theorem reachable_sends {u : Setup} {s : Session} (h : Reachable P u s) :
    SendSteps P True (u.start P).sendSide s.sendSide ∧ Supplied P s := by
  induction h with
  | refl =>
    refine ⟨.refl,?_⟩
    intro x hx
    rw [Machine.log_start P u] at hx
    cases hx
  | tail h ht ih =>
    obtain ⟨hsteps,hsup⟩ := ih
    have hsend := turn_sends ht (stocked_of_reachable h hsup)
    refine ⟨hsteps.trans hsend.1,?_⟩
    intro x hx
    have hv : Session.version _ = Session.version _ := hsend.1.version
    rw [hv]
    rcases hsend.2 x hx with hx | hx
    · exact hsup x hx
    · exact hx

end Spdylay.Transport
