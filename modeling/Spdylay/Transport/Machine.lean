import Spdylay.Transport.SendSide

/-! Sending as a machine. There is one frame buffer: the preparation of an item or the
next chunk of a DATA item fills it, and it is written from an offset on. -/
namespace Spdylay.SendSide
variable (w : SendSide)

def notes (es : List Event) : SendSide := {w with writes := w.writes ++ es}

def compress (block : Bytes) : SendSide := {w with hdDeflater := w.hdDeflater ++ [block]}

def reserve (n : Nat) : SendSide := {w with aob := {w.aob with framebufmax := n}}

def load (item : OutboundItem) (bytes : Bytes) : SendSide :=
  {w with aob := {w.aob with item := some item, framebuf := bytes}}

def advance (n : Nat) : SendSide := {w with aob := {w.aob with framebufoff := w.aob.framebufoff+n}}

def unload : SendSide := {w with aob := {w.aob with item := none, framebuf := [], framebufoff := 0}}

/-- The frame is written. -/
def AtEnd : Prop := w.aob.framebufoff = w.aob.framebuf.length

end Spdylay.SendSide

namespace Spdylay.Transport
open Library Session

/-- The bytes of a control frame without a name/value block. -/
def packedPlain : Frame → Option Bytes
  | .rstStream f => some (framePackRstStream f)
  | .settings f => (framePackSettings f).toOption
  | .ping f => some (framePackPing f)
  | .goaway f => (framePackGoaway f).toOption
  | .windowUpdate f => some (framePackWindowUpdate f)
  | .credential f => some (framePackCredential f)
  | _ => none

/-- Where the name/value block of a frame begins, the header included. -/
def blockOffset : Frame → Option Nat
  | .synStream _ => some synStreamNvOffset
  | .synReply f => frameNvOffset .synReply f.hd.version
  | .headers f => frameNvOffset .headers f.hd.version
  | _ => none

/-- The bytes of a frame with its compressed block. -/
def packedHeaders (f : Frame) (nvOffset : Nat) (out : Bytes) : Option Bytes :=
  match f with
  | .synStream f => some (framePackSynStream f out)
  | .synReply f => some (framePackStreamHeaders .synReply nvOffset f out)
  | .headers f => some (framePackStreamHeaders .headers nvOffset f out)
  | _ => none

/-- The compressed block fits the length field. -/
def Fits (nvOffset : Nat) (out : Bytes) : Prop := nvOffset+out.length-headLen ≤ lengthMask

/-- `bytes` is the frame with the block compressed after `blocks`. -/
def Compressed (P : Platform) (blocks : List Bytes) (f : Frame) (block bytes : Bytes) : Prop :=
  ∃ nvOffset out, blockOffset f = some nvOffset ∧ P.deflate blocks block = some out ∧ Fits nvOffset out ∧
    packedHeaders f nvOffset out = some bytes

/-- Why a block that has been compressed does not become a frame. -/
inductive Loss (P : Platform) (blocks : List Bytes) (f : Frame) (block : Bytes) : Err → Prop
  | zlib : P.deflate blocks block = none → Loss P blocks f block .zlib
  | tooLarge (nvOffset : Nat) (out : Bytes) : blockOffset f = some nvOffset → P.deflate blocks block = some out →
      ¬ Fits nvOffset out → Loss P blocks f block .frameTooLarge
  | nomem : Loss P blocks f block .nomem

/-- Steps of the sending side. `L` tells whether a block may be lost. -/
inductive SendStep (P : Platform) (L : Prop) : SendSide → SendSide → Prop
  | reserve (w : SendSide) (n : Nat) : w.aob.framebufmax ≤ n → SendStep P L w (w.reserve n)
  /-- A block is compressed, and its frame is not sent. -/
  | lose (w : SendSide) (f : Frame) (block : Bytes) (e : Err) : L → Loss P w.hdDeflater f block e →
      SendStep P L w (w.compress block)
  | begin (w : SendSide) (item : OutboundItem) (f : Frame) (bytes : Bytes) : w.aob.item = none →
      item.frame = .ctrl f → Formed P w.version (.ctrl f) → packedPlain f = some bytes →
      SendStep P L w ((w.load item bytes).notes [.prepared item.seq bytes,.beforeCtrlSend f])
  | beginHeaders (w : SendSide) (item : OutboundItem) (f : Frame) (block bytes : Bytes) : w.aob.item = none →
      item.frame = .ctrl f → Compressed P w.hdDeflater f block bytes →
      SendStep P L w (((w.compress block).load item bytes).notes [.prepared item.seq bytes,.beforeCtrlSend f])
  | beginData (w : SendSide) (item : OutboundItem) (d : DataFrame) (data bytes : Bytes) (fin : Bool) :
      w.aob.item = none → item.frame = .data d → data.length ≤ dataPayloadLength →
      bytes = dataHead d.streamId data.length fin ++ data →
      SendStep P L w ((w.load item bytes).notes [.read item.seq d.streamId data,.prepared item.seq bytes])
  | write (w : SendSide) (item : OutboundItem) (n : Nat) : w.aob.item = some item →
      n ≤ w.aob.framebuf.length-w.aob.framebufoff →
      SendStep P L w ((w.advance n).notes [.sent ((w.aob.framebuf.drop w.aob.framebufoff).take n)])
  | complete (w : SendSide) (item : OutboundItem) (f : Frame) : w.aob.item = some item → item.frame = .ctrl f →
      w.AtEnd → SendStep P L w (w.notes [.ctrlSend f])
  | completeData (w : SendSide) (item : OutboundItem) (d : DataFrame) : w.aob.item = some item →
      item.frame = .data d → w.AtEnd →
      SendStep P L w (w.notes [.dataSend (if d.eof then d.flags else 0) d.streamId (w.aob.framebuf.length-headLen)])
  /-- The item is freed, deferred or put back into its queue. -/
  | leave (w : SendSide) (item : OutboundItem) : w.aob.item = some item → w.AtEnd → SendStep P L w w.unload
  /-- The next chunk of a DATA item follows the last one. -/
  | continue (w : SendSide) (item item' : OutboundItem) (d : DataFrame) (data bytes : Bytes) (fin : Bool) :
      w.aob.item = some item → w.AtEnd → item'.frame = .data d → item'.seq = item.seq →
      data.length ≤ dataPayloadLength → bytes = dataHead d.streamId data.length fin ++ data →
      SendStep P L w ((w.unload.load item' bytes).notes [.read item.seq d.streamId data,.prepared item.seq bytes])

abbrev SendSteps (P : Platform) (L : Prop) : SendSide → SendSide → Prop := Relation.ReflTransGen (SendStep P L)

variable {P : Platform} {L : Prop}

theorem SendStep.version {w w' : SendSide} (h : SendStep P L w w') : w'.version = w.version := by
  cases h <;> rfl

theorem SendSteps.version {w w' : SendSide} (h : SendSteps P L w w') : w'.version = w.version := by
  induction h with
  | refl => rfl
  | tail _ h ih => exact h.version.trans ih

/-! Room. -/

/-- Only the frame buffer may have grown. -/
def Room (P : Platform) (s' s : Session) : Prop :=
  (∃ n, s.aob.framebufmax ≤ n ∧ s'.sendSide = s.sendSide.reserve n) ∧ Feeds P s' s

theorem Room.of_beside {s' s : Session} (h : Beside P s' s) : Room P s' s := ⟨⟨_,le_rfl,h.1⟩,h.2⟩

theorem Room.refl (s : Session) : Room P s s := .of_beside (.refl s)

theorem Room.version {s' s : Session} (h : Room P s' s) : s'.version = s.version := by
  obtain ⟨⟨n,-,hs⟩,-⟩ := h
  exact congrArg SendSide.version hs

theorem Room.trans {s2 s1 s : Session} (h' : Room P s2 s1) (h : Room P s1 s) : Room P s2 s := by
  obtain ⟨⟨m,hm,hs'⟩,hf'⟩ := h'
  have hv := h.version
  obtain ⟨⟨n,hn,hs⟩,hf⟩ := h
  have hmax : s1.aob.framebufmax = n := congrArg (fun w => w.aob.framebufmax) hs
  refine ⟨⟨m,hn.trans (hmax ▸ hm),?_⟩,hf'.trans hf hv⟩
  rw [hs',hs]
  rfl

theorem Room.steps {s' s : Session} (h : Room P s' s) : SendSteps P L s.sendSide s'.sendSide := by
  obtain ⟨⟨n,hn,hs⟩,-⟩ := h
  rw [hs]
  exact .single (.reserve _ n hn)

theorem reserveFramebuf_room (s : Session) (n : Nat) : Room P (s.reserveFramebuf n).1 s := by
  have hle : s.aob.framebufmax ≤ reserved s.aob.framebufmax n := by
    unfold reserved
    split
    · omega
    · exact le_rfl
  unfold reserveFramebuf
  split
  · split
    · exact ⟨⟨_,hle,rfl⟩,.same rfl⟩
    · exact .of_beside (.same rfl rfl)
  · exact .refl _

theorem reserveNvbuf_beside (s : Session) (n : Nat) : Beside P (s.reserveNvbuf n).1 s := by
  unfold reserveNvbuf
  split_ifs <;> exact .same rfl rfl

end Spdylay.Transport
