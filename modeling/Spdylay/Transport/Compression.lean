import Spdylay.Transport.Framing

/-! The compressor and the wire. The peer inflates the blocks of the frames it receives
one after the other, so that each block which goes through the compressor has to be
sent. Frames are refused before their list is compressed, but a frame that turns out
to be too large afterwards is dropped all the same. -/
namespace Spdylay.Transport
open Library Session

variable {P : Platform}

/-- What the compressor makes of a sequence of blocks, after some others. -/
def deflatedAfter (P : Platform) : List Bytes → List Bytes → List (Option Bytes)
  | _, [] => []
  | before, block :: blocks => P.deflate before block :: deflatedAfter P (before ++ [block]) blocks

def deflated (P : Platform) (blocks : List Bytes) : List (Option Bytes) := deflatedAfter P [] blocks

/-- The compressed blocks in the SYN_STREAM, SYN_REPLY and HEADERS frames that have been
prepared for send_callback. -/
def sentBlocks (log : List Event) : List Bytes :=
  (preparedFrames log).filterMap (fun x => (x.ctrl.bind blockOffset).map (fun nvOffset => x.bytes.drop nvOffset))

/-- The blocks given to the compressor are those sent. -/
def InStep (P : Platform) (w : SendSide) : Prop := deflated P w.hdDeflater = (sentBlocks w.writes).map some

theorem deflatedAfter_snoc (before blocks : List Bytes) (block : Bytes) :
    deflatedAfter P before (blocks ++ [block]) = deflatedAfter P before blocks ++ [P.deflate (before ++ blocks) block] := by
  induction blocks generalizing before with
  | nil =>
    rw [List.append_nil]
    rfl
  | cons b blocks ih =>
    change _ :: deflatedAfter P (before ++ [b]) (blocks ++ [block]) = _
    rw [ih,List.append_assoc]
    rfl

theorem sentBlocks_append {log log' : List Event} (h : ∀ f, log'.head? ≠ some (.beforeCtrlSend f)) :
    sentBlocks (log ++ log') = sentBlocks log ++ sentBlocks log' := by
  unfold sentBlocks
  rw [preparedFrames_append h,List.filterMap_append]

/-- The block is at the end of its frame. -/
theorem Compressed.drop {blocks : List Bytes} {f : Frame} {block bytes : Bytes} (h : Compressed P blocks f block bytes) :
    ∃ nvOffset out, blockOffset f = some nvOffset ∧ P.deflate blocks block = some out ∧ bytes.drop nvOffset = out := by
  obtain ⟨nvOffset,out,ho,hd,-,hb⟩ := h
  refine ⟨nvOffset,out,ho,hd,?_⟩
  have hheaders : ∀ type (f : StreamHeaders), 12 ≤ nvOffset →
      (framePackStreamHeaders type nvOffset f out).drop nvOffset = out := by
    intro type f hge
    unfold framePackStreamHeaders
    refine List.drop_left' ?_
    rw [List.length_append,List.length_append,List.length_replicate]
    change 8+4+(nvOffset-12) = nvOffset
    omega
  cases f with
  | synStream f =>
    cases ho
    cases hb
    rfl
  | synReply f =>
    cases hb
    exact hheaders _ f (@frameNvOffset_ge .synReply _ _ ho)
  | headers f =>
    cases hb
    exact hheaders _ f (@frameNvOffset_ge .headers _ _ ho)
  | _ => cases hb

theorem blockOffset_plain {f : Frame} {bytes : Bytes} (h : packedPlain f = some bytes) : blockOffset f = none := by
  cases f <;> first | rfl | cases h

theorem SendStep.inStep {w w' : SendSide} (h : SendStep P False w w') (hw : InStep P w) : InStep P w' := by
  have hquiet : ∀ {w' : SendSide} {es : List Event}, w'.hdDeflater = w.hdDeflater → w'.writes = w.writes ++ es →
      (∀ f, es.head? ≠ some (.beforeCtrlSend f)) → sentBlocks es = [] → InStep P w' := by
    intro w' es hd hes hhead hnone
    unfold InStep
    rw [hd,hes,sentBlocks_append hhead,hnone,List.append_nil]
    exact hw
  cases h with
  | reserve n hn => exact hw
  | lose f block e hL hl => cases hL
  | leave item hi hend => exact hw
  | begin item f bytes hn hi hf hb =>
    refine hquiet rfl rfl nofun ?_
    change List.filterMap _ [_] = []
    simp only [List.filterMap_cons,Option.bind_some,blockOffset_plain hb,Option.map_none,List.filterMap_nil]
  | beginHeaders item f block bytes hn hi hc =>
    obtain ⟨nvOffset,out,ho,hd,hdrop⟩ := hc.drop
    have hsent : sentBlocks [.prepared item.seq bytes,.beforeCtrlSend f] = [out] := by
      change List.filterMap _ [_] = _
      simp only [List.filterMap_cons,Option.bind_some,ho,Option.map_some,hdrop,List.filterMap_nil]
    have hadd := deflatedAfter_snoc (P := P) [] w.hdDeflater block
    rw [List.nil_append,hd] at hadd
    change deflated P (w.hdDeflater ++ [block]) = (sentBlocks (w.writes ++ _)).map some
    rw [sentBlocks_append (by nofun),hsent,List.map_append,← hw]
    exact hadd
  | beginData item d data bytes fin hn hi hlen hb => exact hquiet rfl rfl nofun rfl
  | «continue» item item' d data bytes fin hi hend hi' hseq hlen hb => exact hquiet rfl rfl nofun rfl
  | write item n hi hn => exact hquiet rfl rfl nofun rfl
  | complete item f hi hf hend => exact hquiet rfl rfl nofun rfl
  | completeData item d hi hf hend => exact hquiet rfl rfl nofun rfl

theorem SendSteps.inStep {w w' : SendSide} (h : SendSteps P False w w') (hw : InStep P w) : InStep P w' := by
  induction h with
  | refl => exact hw
  | tail _ hstep ih => exact hstep.inStep ih

/-! Runs. -/

end Spdylay.Transport
