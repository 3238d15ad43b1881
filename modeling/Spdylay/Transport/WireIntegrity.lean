import Spdylay.Transport.Framing

/-! The bytes on the wire. There is one frame buffer for new frames and for the next
chunks of a DATA item. Whatever pieces the callback takes, they add up to the frames in
the order of their preparation, and the payloads of DATA are what was read for them. -/
namespace Spdylay.Transport
open Library Session

def frameBytes (xs : List WireFrame) : Bytes := xs.flatMap WireFrame.bytes

/-- The payloads of the DATA frames of an item. -/
def payloads (seq : Nat) (log : List Event) : List Bytes :=
  ((preparedFrames log).filter (fun x => x.seq = seq ∧ x.ctrl = none)).map (fun x => x.bytes.drop headLen)

/-- What read_callback has returned for an item. -/
def readings (seq : Nat) (log : List Event) : List Bytes :=
  log.flatMap (fun | .read seq' _ data => if seq' = seq then [data] else [] | _ => [])

/-- A frame is begun when all those before it have been sent. -/
def Begins (pre : List Event) (e : Event) : Prop :=
  ∀ seq bytes, e = .prepared seq bytes → sentBytes pre = frameBytes (preparedFrames pre)

/-- The frames before the one in the buffer, and the bytes sent. -/
structure Intact (w : SendSide) : Prop where
  idle : w.aob.item = none → w.aob.framebuf = [] ∧ w.aob.framebufoff = 0 ∧
    sentBytes w.writes = frameBytes (preparedFrames w.writes)
  active : ∀ item, w.aob.item = some item → ∃ done x, preparedFrames w.writes = done ++ [x] ∧ x.seq = item.seq ∧
    x.bytes = w.aob.framebuf ∧ w.aob.framebufoff ≤ w.aob.framebuf.length ∧
    sentBytes w.writes = frameBytes done ++ w.aob.framebuf.take w.aob.framebufoff
  begins : Guarded Begins w.writes
  data : ∀ seq, payloads seq w.writes = readings seq w.writes

theorem frameBytes_append (xs ys : List WireFrame) : frameBytes (xs ++ ys) = frameBytes xs ++ frameBytes ys :=
  List.flatMap_append

theorem readings_append (seq : Nat) (log log' : List Event) :
    readings seq (log ++ log') = readings seq log ++ readings seq log' :=
  List.flatMap_append

theorem payloads_append (seq : Nat) {log log' : List Event} (h : ∀ f, log'.head? ≠ some (.beforeCtrlSend f)) :
    payloads seq (log ++ log') = payloads seq log ++ payloads seq log' := by
  unfold payloads
  rw [preparedFrames_append h,List.filter_append,List.map_append]

/-- Events between the frames. -/
theorem Guarded.quiet {log : List Event} (h : Guarded Begins log) {e : Event} (he : ∀ seq bytes, e ≠ .prepared seq bytes) :
    Guarded Begins (log ++ [e]) :=
  guarded_concat.mpr ⟨h,fun seq bytes heq => absurd heq (he seq bytes)⟩

/-- The frame in the buffer has been sent. -/
theorem Intact.atEnd {w : SendSide} (h : Intact w) {item : OutboundItem} (hi : w.aob.item = some item) (hend : w.AtEnd) :
    sentBytes w.writes = frameBytes (preparedFrames w.writes) := by
  obtain ⟨done,x,hp,-,hx,-,hs⟩ := h.active item hi
  rw [hs,hp,frameBytes_append,hend,List.take_length,← hx]
  exact congrArg _ (List.append_nil _).symm

/-- A control frame is loaded into the empty buffer. -/
theorem Intact.begin {w : SendSide} (h : Intact w) (hn : w.aob.item = none) (item : OutboundItem) (f : Frame)
    (bytes : Bytes) : Intact ((w.load item bytes).notes [.prepared item.seq bytes,.beforeCtrlSend f]) := by
  obtain ⟨hbuf,hoff,hsent⟩ := h.idle hn
  have hprep : preparedFrames (w.writes ++ [.prepared item.seq bytes,.beforeCtrlSend f]) =
      preparedFrames w.writes ++ [⟨item.seq,bytes,some f⟩] := preparedFrames_append nofun
  have hsame : sentBytes (w.writes ++ [.prepared item.seq bytes,.beforeCtrlSend f]) = sentBytes w.writes :=
    (sentBytes_append _ _).trans (List.append_nil _)
  refine ⟨nofun,?_,?_,?_⟩
  · intro item' hi'
    cases hi'
    refine ⟨_,_,hprep,rfl,rfl,?_,?_⟩
    · change w.aob.framebufoff ≤ _
      omega
    · change sentBytes (w.writes ++ _) = _ ++ bytes.take w.aob.framebufoff
      rw [hsame,hsent,hoff]
      exact (List.append_nil _).symm
  · change Guarded Begins (w.writes ++ ([.prepared item.seq bytes] ++ [.beforeCtrlSend f]))
    rw [← List.append_assoc]
    exact Guarded.quiet (guarded_concat.mpr ⟨h.begins,fun _ _ _ => hsent⟩) nofun
  · intro seq
    change payloads seq (w.writes ++ _) = readings seq (w.writes ++ _)
    rw [payloads_append seq (by nofun),readings_append,h.data seq]
    refine congrArg _ ?_
    have hframe : preparedFrames [.prepared item.seq bytes,.beforeCtrlSend f] = [⟨item.seq,bytes,some f⟩] := rfl
    unfold payloads
    rw [hframe,List.filter_singleton]
    simp only [reduceCtorEq,and_false,decide_false]
    rfl

/-- A chunk is loaded into the buffer when everything before it has been sent. -/
theorem Intact.chunk {w w' : SendSide} (h : Intact w) (hsent : sentBytes w.writes = frameBytes (preparedFrames w.writes))
    (item : OutboundItem) {id : Int} {data bytes : Bytes}
    (hw : w'.writes = w.writes ++ [.read item.seq id data,.prepared item.seq bytes]) (hi : w'.aob.item = some item)
    (hb : w'.aob.framebuf = bytes) (ho : w'.aob.framebufoff = 0) (hd : bytes.drop headLen = data) : Intact w' := by
  have hframe : preparedFrames [.read item.seq id data,.prepared item.seq bytes] = [⟨item.seq,bytes,none⟩] := rfl
  have hprep : preparedFrames w'.writes = preparedFrames w.writes ++ [⟨item.seq,bytes,none⟩] := by
    rw [hw,preparedFrames_append (by nofun),hframe]
  have hsame : sentBytes w'.writes = sentBytes w.writes := by
    rw [hw,sentBytes_append]
    exact List.append_nil _
  refine ⟨?_,?_,?_,?_⟩
  · intro hn
    cases hn.symm.trans hi
  · intro item' hi'
    cases hi.symm.trans hi'
    refine ⟨_,_,hprep,rfl,hb.symm,?_,?_⟩
    · rw [ho]
      exact Nat.zero_le _
    · rw [hsame,hsent,ho]
      exact (List.append_nil _).symm
  · have hread : Guarded Begins (w.writes ++ [.read item.seq id data]) := Guarded.quiet h.begins nofun
    rw [hw,← List.singleton_append,← List.append_assoc]
    refine guarded_concat.mpr ⟨hread,fun _ _ _ => ?_⟩
    rw [sentBytes_append,preparedFrames_append (by nofun),frameBytes_append]
    exact congrArg (· ++ []) hsent
  · intro seq
    rw [hw,payloads_append seq (by nofun),readings_append,h.data seq]
    refine congrArg _ ?_
    unfold payloads
    rw [hframe,List.filter_singleton]
    by_cases hseq : item.seq = seq
    · simp [hseq,readings,hd]
    · simp [hseq,readings]

/-- Events that are neither reads nor frames, with the buffer as it is. -/
theorem Intact.note {w : SendSide} (h : Intact w) {e : Event} (hp : ∀ seq bytes, e ≠ .prepared seq bytes)
    (hr : ∀ seq id data, e ≠ .read seq id data) (hs : ∀ bytes, e ≠ .sent bytes) (hb : ∀ f, e ≠ .beforeCtrlSend f) :
    Intact (w.notes [e]) := by
  have hhead : ∀ f, [e].head? ≠ some (.beforeCtrlSend f) := fun f heq => hb f (Option.some.inj heq)
  have hprep : preparedFrames (w.writes ++ [e]) = preparedFrames w.writes := by
    rw [preparedFrames_append hhead]
    cases e with
    | prepared seq bytes => exact absurd rfl (hp seq bytes)
    | _ => exact List.append_nil _
  have hsent : sentBytes (w.writes ++ [e]) = sentBytes w.writes := by
    rw [sentBytes_append]
    cases e with
    | sent bytes => exact absurd rfl (hs bytes)
    | _ => exact List.append_nil _
  refine ⟨?_,?_,Guarded.quiet h.begins hp,?_⟩
  · intro hn
    change _ ∧ _ ∧ sentBytes (w.writes ++ [e]) = frameBytes (preparedFrames (w.writes ++ [e]))
    rw [hprep,hsent]
    exact h.idle hn
  · intro item hi
    change ∃ done x, preparedFrames (w.writes ++ [e]) = _ ∧ _ ∧ _ ∧ _ ∧ sentBytes (w.writes ++ [e]) = _
    rw [hprep,hsent]
    exact h.active item hi
  · intro seq
    have hpay : payloads seq (w.writes ++ [e]) = payloads seq w.writes := by
      unfold payloads
      rw [hprep]
    change payloads seq (w.writes ++ [e]) = readings seq (w.writes ++ [e])
    rw [hpay,readings_append,h.data seq]
    cases e with
    | read seq' id data => exact absurd rfl (hr seq' id data)
    | _ => exact (List.append_nil _).symm

theorem Intact.write {w : SendSide} (h : Intact w) {item : OutboundItem} (hi : w.aob.item = some item) {n : Nat}
    (hn : n ≤ w.aob.framebuf.length-w.aob.framebufoff) :
    Intact ((w.advance n).notes [.sent ((w.aob.framebuf.drop w.aob.framebufoff).take n)]) := by
  obtain ⟨done,x,hp,hseq,hx,hle,hs⟩ := h.active item hi
  generalize he : Event.sent ((w.aob.framebuf.drop w.aob.framebufoff).take n) = e
  have hprep : preparedFrames (w.writes ++ [e]) = preparedFrames w.writes := by
    subst he
    rw [preparedFrames_append (by nofun)]
    exact List.append_nil _
  refine ⟨?_,?_,?_,?_⟩
  · intro hn
    cases hn.symm.trans hi
  · intro item' hi'
    cases hi.symm.trans hi'
    refine ⟨done,x,hprep.trans hp,hseq,hx,?_,?_⟩
    · change w.aob.framebufoff+n ≤ w.aob.framebuf.length
      omega
    · subst he
      change sentBytes (w.writes ++ _) = frameBytes done ++ w.aob.framebuf.take (w.aob.framebufoff+n)
      rw [sentBytes_append,hs,List.take_add,List.append_assoc]
      exact congrArg _ (congrArg _ (List.append_nil _))
  · subst he
    exact Guarded.quiet h.begins nofun
  · intro seq
    have hpay : payloads seq (w.writes ++ [e]) = payloads seq w.writes := by
      unfold payloads
      rw [hprep]
    change payloads seq (w.writes ++ [e]) = readings seq (w.writes ++ [e])
    rw [hpay,readings_append,h.data seq]
    subst he
    exact (List.append_nil _).symm

theorem dataHead_drop (id : Int) (n : Nat) (fin : Bool) (data : Bytes) : (dataHead id n fin ++ data).drop headLen = data :=
  rfl

theorem SendStep.intact {P : Platform} {L : Prop} {w w' : SendSide} (h : SendStep P L w w') (hw : Intact w) :
    Intact w' := by
  cases h with
  | reserve n hn => exact ⟨hw.idle,hw.active,hw.begins,hw.data⟩
  | lose f block e hL hl => exact ⟨hw.idle,hw.active,hw.begins,hw.data⟩
  | begin item f bytes hn hi hf hb => exact hw.begin hn item f bytes
  | beginHeaders item f block bytes hn hi hc =>
    exact Intact.begin (w := w.compress block) ⟨hw.idle,hw.active,hw.begins,hw.data⟩ hn item f bytes
  | beginData item d data bytes fin hn hi hlen hb =>
    obtain ⟨-,hoff,hsent⟩ := hw.idle hn
    subst hb
    exact hw.chunk hsent item rfl rfl rfl hoff (dataHead_drop _ _ _ _)
  | write item n hi hn => exact hw.write hi hn
  | complete item f hi hf hend => exact hw.note nofun nofun nofun nofun
  | completeData item d hi hf hend => exact hw.note nofun nofun nofun nofun
  | leave item hi hend => exact ⟨fun _ => ⟨rfl,rfl,hw.atEnd hi hend⟩,nofun,hw.begins,hw.data⟩
  | «continue» item item' d data bytes fin hi hend hi' hseq hlen hb =>
    subst hb
    exact hw.chunk (hw.atEnd hi hend) item' (by rw [hseq]; rfl) rfl rfl rfl (dataHead_drop _ _ _ _)

theorem SendSteps.intact {P : Platform} {L : Prop} {w w' : SendSide} (h : SendSteps P L w w') (hw : Intact w) :
    Intact w' := by
  induction h with
  | refl => exact hw
  | tail _ hstep ih => exact hstep.intact ih

theorem reachable_intact {P : Platform} {u : Setup} {s : Session} (h : Reachable P u s) : Intact s.sendSide := by
  refine (reachable_sends h).1.intact ?_
  have hw := writes_start P u
  have haob : (u.start P).sendSide.aob = ⟨none,[],initialFramebufLength,0⟩ := by
    unfold Setup.start
    split <;> rfl
  refine ⟨?_,?_,?_,?_⟩
  · intro _
    rw [hw,haob]
    exact ⟨rfl,rfl,rfl⟩
  · intro item hi
    rw [haob] at hi
    cases hi
  · rw [hw]
    exact guarded_nil
  · intro seq
    rw [hw]
    rfl

/-! Something is left to send. -/

/-- The frame in the buffer has not been sent completely. -/
def Proper (s : Session) : Prop := ∀ item, s.aob.item = some item → s.aob.framebufoff < s.aob.framebuf.length

theorem Proper.of_aob {s s' : Session} (hs : Proper s) (h : s'.aob = s.aob) : Proper s' := by
  unfold Proper
  rw [h]
  exact hs

theorem Proper.of_beside {P : Platform} {s s' : Session} (hs : Proper s) (h : Beside P s' s) : Proper s' :=
  hs.of_aob (congrArg SendSide.aob h.1)

theorem activeReset_proper (s : Session) (cause : Finish) : Proper (s.activeReset cause) := by
  intro item hi
  unfold activeReset at hi
  dsimp only at hi
  cases hi

theorem activeTake_proper (s : Session) : Proper s.activeTake := nofun

/-- After an error nothing is promised. -/
def ProperUnless (r : Session × Option Err) : Prop := r.2 = none → Proper r.1

theorem continueData_proper (s : Session) (item : OutboundItem) (d : DataFrame) (st : Stream) :
    ProperUnless (s.continueData item d st) := by
  unfold continueData
  dsimp only
  split
  · split
    · exact fun _ => activeTake_proper _
    · exact nofun
  · have hp := packData_spec (P := samplePlatform) s item.seq d (s.nextDataRead st)
    generalize s.packData item.seq d (s.nextDataRead st) = p at hp
    rcases hp with ⟨e,he,-⟩ | ⟨s1,data,fin,-,-,hok,-⟩
    · rw [he]
      split
      · rename_i heq
        cases heq
      · split
        · exact fun _ => activeTake_proper _
        · exact nofun
      · exact fun _ => activeReset_proper _ _
      · exact nofun
    · rw [hok]
      intro _ item' hi'
      exact Nat.succ_pos _

theorem afterDataSent_proper (s : Session) (item : OutboundItem) (d : DataFrame) : ProperUnless (s.afterDataSent item d) := by
  unfold afterDataSent
  dsimp only
  generalize (s.emit _).afterDataFin d = s1
  split
  · exact fun _ => activeReset_proper _ _
  · split
    · split
      · exact nofun
      · exact continueData_proper _ _ _ _
    · split
      · exact fun _ => activeTake_proper _
      · exact nofun

theorem afterFrameSent_proper {s : Session} {item : OutboundItem} (h : s.aob.item = some item) :
    ProperUnless s.afterFrameSent := by
  unfold afterFrameSent
  rw [h]
  dsimp only
  split
  · split
    · exact fun _ => activeReset_proper _ _
    · exact nofun
  · exact afterDataSent_proper s item _

theorem isFatal_assertFatal (e : Err) : isFatal (assertFatal e) = true := by
  unfold assertFatal
  split
  · assumption
  · rfl

/-- How a pass of the loop ends: with a fatal error, or with something left to send. -/
def PassOk (r : Session × Option (Option Err)) : Prop :=
  (∃ e, r.2 = some (some e) ∧ isFatal e = true) ∨ ((∀ e, r.2 ≠ some (some e)) ∧ Proper r.1)

theorem sendWrite_passOk {s : Session} {item : OutboundItem} (h : s.aob.item = some item) (hs : Proper s) :
    PassOk (s.sendWrite item) := by
  unfold sendWrite
  dsimp only
  split
  · exact .inr ⟨nofun,hs.of_aob rfl⟩
  · exact .inl ⟨_,rfl,rfl⟩
  · rename_i n _
    unfold sendAccepted
    dsimp only
    have hdebit : ∀ s : Session, (s.debit item).aob = s.aob := fun s =>
      congrArg SendSide.aob (debit_changes samplePlatform s item).beside.1
    generalize hm : min n (s.aob.framebuf.length-s.aob.framebufoff) = m
    generalize hs1 : Session.debit _ item = s1
    have haob : s1.aob = {s.aob with framebufoff := s.aob.framebufoff+m} := by
      rw [← hs1,hdebit]
      rfl
    have hitem : s1.aob.item = some item := (congrArg ActiveOutboundItem.item haob).trans h
    split
    · have hafter := afterFrameSent_proper hitem
      split
      · rename_i hn
        exact .inr ⟨nofun,hafter hn⟩
      · exact .inl ⟨_,rfl,isFatal_assertFatal _⟩
    · rename_i hne
      refine .inr ⟨nofun,?_⟩
      intro item' _
      have hlt := hs item h
      rw [haob] at hne ⊢
      dsimp only at hne ⊢
      omega

/-- The bytes of a prepared frame. -/
theorem Outcome.bytes_pos {P : Platform} {s : Session} {item : OutboundItem} {p : Prep} (h : Outcome P s item p)
    {bytes : Bytes} (hok : p.result = .ok bytes) : 0 < bytes.length := by
  cases h with
  | refused e he hr => cases he.symm.trans hok
  | lost f block e he hi hp hb hl hs => cases he.symm.trans hok
  | plain f bytes' hok' hitem hi hb hr =>
    cases hok'.symm.trans hok
    cases f with
    | settings f =>
      change (framePackSettings f).toOption = some bytes at hb
      unfold framePackSettings at hb
      split at hb
      · cases hb
        exact Nat.succ_pos _
      · cases hb
    | goaway f =>
      change (framePackGoaway f).toOption = some bytes at hb
      unfold framePackGoaway at hb
      split at hb
      · cases hb
        exact Nat.succ_pos _
      · split at hb
        · cases hb
          exact Nat.succ_pos _
        · cases hb
    | synStream f => cases hb
    | synReply f => cases hb
    | headers f => cases hb
    | _ =>
      cases hb
      exact Nat.succ_pos _
  | headers f f' block bytes' hok' hi hi' hb hc hs =>
    cases hok'.symm.trans hok
    exact Nat.lt_of_lt_of_le (by decide) (selfDelimiting_compressed hc).1.1
  | data d data bytes' fin s1 hok' hi hlen hbytes hr hf hside =>
    cases hok'.symm.trans hok
    rw [hbytes]
    exact Nat.succ_pos _

theorem Outcome.active {P : Platform} {s : Session} {item : OutboundItem} {p : Prep} (h : Outcome P s item p) :
    p.ses.aob.item = s.aob.item ∧ p.ses.aob.framebufoff = s.aob.framebufoff := by
  have hroom : ∀ {s' s : Session}, Room P s' s → s'.aob.item = s.aob.item ∧ s'.aob.framebufoff = s.aob.framebufoff := by
    rintro s' s ⟨⟨n,-,hs⟩,-⟩
    exact ⟨congrArg (fun w => w.aob.item) hs,congrArg (fun w => w.aob.framebufoff) hs⟩
  have hsq : ∀ {block : Bytes} {s' s : Session}, Squeezed P block s' s →
      s'.aob.item = s.aob.item ∧ s'.aob.framebufoff = s.aob.framebufoff := by
    rintro block s' s ⟨⟨s1,hr,hs⟩,-⟩
    exact ⟨(congrArg (fun w => w.aob.item) hs).trans (hroom hr).1,
      (congrArg (fun w => w.aob.framebufoff) hs).trans (hroom hr).2⟩
  cases h with
  | refused e he hr => exact hroom hr
  | lost f block e he hi hp hb hl hs => exact hsq hs
  | plain f bytes hok hitem hi hb hr => exact hroom hr
  | headers f f' block bytes hok hi hi' hb hc hs => exact hsq hs
  | data d data bytes fin s1 hok hi hlen hbytes hr hf hside =>
    exact ⟨(congrArg (fun w => w.aob.item) hside).trans (hroom hr).1,
      (congrArg (fun w => w.aob.framebufoff) hside).trans (hroom hr).2⟩

theorem sendIter_passOk (P : Platform) {s : Session} (hs : Proper s) (ho : s.aob.item = none → s.aob.framebufoff = 0) :
    PassOk (sendIter P s) := by
  unfold sendIter
  cases hi : s.aob.item with
  | some item => exact sendWrite_passOk hi hs
  | none =>
    dsimp only
    split
    · exact .inr ⟨nofun,hs⟩
    · rename_i item s1 hpop
      obtain ⟨-,pq,pq',rfl⟩ := Protocol.popNextObItem_same hpop
      have hout := prepFrame_outcome (P := P) {s with obPq := pq, obSsPq := pq'} item
      generalize prepFrame P {s with obPq := pq, obSsPq := pq'} item = p at hout
      obtain ⟨hnone,hoff⟩ := hout.active
      have hidle : Proper p.ses := by
        intro item' hi'
        cases hi'.symm.trans (hnone.trans hi)
      split
      · rename_i bytes hok
        refine sendWrite_passOk (activate_active _ _ _) ?_
        have haob : (p.ses.activate p.item bytes).aob = {p.ses.aob with item := some p.item, framebuf := bytes} := by
          unfold activate
          dsimp only
          split <;> rfl
        intro item' _
        rw [haob]
        change p.ses.aob.framebufoff < bytes.length
        rw [hoff]
        change s.aob.framebufoff < bytes.length
        rw [ho hi]
        exact hout.bytes_pos hok
      · exact .inr ⟨nofun,hidle⟩
      · exact .inr ⟨nofun,hidle⟩
      · rename_i e _ _ _
        have hdrop := hidle.of_beside (dropItem_changes P p.ses p.item e).beside
        split
        · rename_i hf
          exact .inl ⟨e,rfl,hf⟩
        · exact .inr ⟨nofun,hdrop⟩

/-! Runs. -/

theorem sendLoop_proper {P : Platform} {u : Setup} {s : Session} (h : Reachable P u s) (hs : Proper s) (fuel : Nat) :
    (∃ e, (sendLoop P fuel s).2 = some e ∧ isFatal e = true) ∨ Proper (sendLoop P fuel s).1 := by
  induction fuel generalizing s with
  | zero => exact .inr hs
  | succ fuel ih =>
    have hpass := sendIter_passOk P hs (fun hn => ((reachable_intact h).idle hn).2.1)
    have hturns := sendIter_turns P s
    unfold sendLoop
    split
    · rename_i s' r heq
      rw [heq] at hpass
      rcases hpass with ⟨e,he,hf⟩ | ⟨-,hp⟩
      · cases he
        exact .inl ⟨e,rfl,hf⟩
      · exact .inr hp
    · rename_i s' heq
      rw [heq] at hpass hturns
      rcases hpass with ⟨e,he,-⟩ | ⟨-,hp⟩
      · cases he
      · exact ih (h.trans hturns) hp

theorem recvLoop_beside (P : Platform) (fuel : Nat) (s : Session) (input : Bytes) :
    Beside P (s.recvLoop P fuel input).1 s :=
  recvLoop_related (R := fun s s' => Beside P s' s) Beside.refl (fun _ _ _ h h' => h'.trans h) (beside_recvIter P)
    fuel s input

theorem step_proper {P : Platform} {u : Setup} {s : Session} (h : Reachable P u s) (hs : Proper s) (op : Op)
    (hn : ∀ e, Event.fatal e ∉ (s.step P op).host.log) : Proper (s.step P op) := by
  have hcall := Machine.step_eq_call hn
  by_cases hsend : op = .send
  · subst hsend
    rcases sendLoop_proper h hs s.sendFuel with ⟨e,he,hf⟩ | hp
    · exfalso
      refine hn e ?_
      change (s.call P .send).2 = some e at he
      unfold step
      dsimp only
      rw [he]
      dsimp only
      rw [if_pos hf]
      exact List.mem_append_right _ (List.mem_singleton_self _)
    · rw [hcall]
      exact hp
  · rw [hcall]
    by_cases hr : ∃ input, op = .memRecv input
    · obtain ⟨input,rfl⟩ := hr
      exact hs.of_beside (recvLoop_beside P _ s input)
    · exact hs.of_beside (beside_submission P s op hsend (not_exists.mp hr))

theorem run_proper (P : Platform) (u : Setup) (ops : List Op)
    (h : ∀ e, Event.fatal e ∉ ((u.start P).run P ops).host.log) : Proper ((u.start P).run P ops) := by
  induction ops using List.reverseRecOn with
  | nil =>
    intro item hi
    have hnone : (u.start P).aob.item = none := by
      unfold Setup.start
      split <;> rfl
    cases hnone.symm.trans hi
  | append_singleton ops op ih =>
    rw [Machine.run_append_singleton] at h ⊢
    have hgrow := Protocol.turns_log_grows (step_turns P ((u.start P).run P ops) op)
    exact step_proper (run_reachable P u ops) (ih (fun e he => h e (hgrow.subset he))) op h

/-- What has been accepted are the prepared frames one after the other, up to a proper
part of the frame in the buffer; each was begun when those before it had been sent; and
the payloads of each DATA item are what was read for it. -/
structure OnWire (s : Session) : Prop where
  idle : s.aob.item = none → sentBytes s.sendSide.writes = frameBytes (preparedFrames s.sendSide.writes)
  active : ∀ item, s.aob.item = some item → ∃ done x, preparedFrames s.sendSide.writes = done ++ [x] ∧
    x.seq = item.seq ∧ x.bytes = s.aob.framebuf ∧ s.aob.framebufoff < s.aob.framebuf.length ∧
    sentBytes s.sendSide.writes = frameBytes done ++ s.aob.framebuf.take s.aob.framebufoff
  begins : Guarded Begins s.sendSide.writes
  data : ∀ seq, payloads seq s.sendSide.writes = readings seq s.sendSide.writes

/-- The bytes on the wire in every run without a fatal error. -/
theorem wire_integrity (P : Platform) (u : Setup) (ops : List Op)
    (h : ∀ e, Event.fatal e ∉ ((u.start P).run P ops).host.log) : OnWire ((u.start P).run P ops) := by
  have hw := reachable_intact (run_reachable P u ops)
  refine ⟨fun hn => (hw.idle hn).2.2,?_,hw.begins,hw.data⟩
  intro item hi
  obtain ⟨done,x,hp,hseq,hx,-,hs⟩ := hw.active item hi
  exact ⟨done,x,hp,hseq,hx,run_proper P u ops h item hi,hs⟩

def uploadAnswers : Setup :=
  sampleClient .int32 [.accept 1000,.accept 5,.accept 1000,.wouldblock,.accept 9] [.data [1,2,3] false,.data [4,5,6] true]

/-- A request whose body is read in two parts; the first DATA frame went out in two pieces, and a byte of the
payload of the second is on the wire. -/
def partialUpload : Session :=
  ((uploadAnswers.start peerPlatform).run peerPlatform [.submitRequest 0 [] (some 5),.send,.send])

def nonfatal : Event → Bool
  | .fatal _ => false
  | _ => true

theorem partial_upload_on_wire :
    (sentBytes partialUpload.sendSide.writes).drop 34 = [0,0,0,1,0,0,0,3,1,2,3] ++ [0,0,0,1,1,0,0,3,4] ∧
      OnWire partialUpload := by
  refine ⟨by decide +kernel,wire_integrity peerPlatform uploadAnswers [.submitRequest 0 [] (some 5),.send,.send] ?_⟩
  have hnone : partialUpload.host.log.all nonfatal = true := by decide +kernel
  intro e he
  exact absurd (List.all_eq_true.mp hnone _ he) Bool.false_ne_true

end Spdylay.Transport
