import Mathlib

/-! Frames on a stream: a head of a fixed length, which says how long the body is. What
a stream has been cut into is determined by the stream. -/
namespace Spdylay.Library.Framing

structure Frame {ι : Type} (headLen : Nat) (bodyLen : List ι → Nat) where
  head : List ι
  body : List ι
  head_length : head.length = headLen
  body_length : body.length = bodyLen head

variable {ι : Type} {headLen : Nat} {bodyLen : List ι → Nat}

def Frame.bytes (f : Frame headLen bodyLen) : List ι := f.head ++ f.body

/-- The head is not whole, or the body is not. -/
def Unfinished (headLen : Nat) (bodyLen : List ι → Nat) (part : List ι) : Prop :=
  part.length < headLen ∨ part.length < headLen+bodyLen (part.take headLen)

theorem unfinished_nil (h : 0 < headLen) : Unfinished headLen bodyLen [] := .inl h

/-- The first frame of a stream is read off its head. -/
theorem bytes_append_inj {f g : Frame headLen bodyLen} {rest rest' : List ι} (h : f.bytes ++ rest = g.bytes ++ rest') :
    f = g ∧ rest = rest' := by
  obtain ⟨head,body,hh,hb⟩ := f
  obtain ⟨head',body',hh',hb'⟩ := g
  rw [Frame.bytes,Frame.bytes,List.append_assoc,List.append_assoc] at h
  dsimp only at h
  obtain ⟨rfl,hbody⟩ := List.append_inj h (hh.trans hh'.symm)
  obtain ⟨rfl,hrest⟩ := List.append_inj hbody (hb.trans hb'.symm)
  exact ⟨rfl,hrest⟩

theorem Unfinished.ne_bytes_append {part : List ι} (hp : Unfinished headLen bodyLen part) (f : Frame headLen bodyLen)
    (rest : List ι) : part ≠ f.bytes ++ rest := by
  rintro rfl
  have hhead : (f.bytes ++ rest).take headLen = f.head := by
    rw [Frame.bytes,List.append_assoc,List.take_left' f.head_length]
  rw [Unfinished,hhead,← f.body_length,Frame.bytes,List.length_append,List.length_append,f.head_length] at hp
  omega

/-- A stream is made of its frames in one way only. -/
theorem frames_unique {frames frames' : List (Frame headLen bodyLen)} {part part' : List ι}
    (hp : Unfinished headLen bodyLen part) (hp' : Unfinished headLen bodyLen part')
    (h : frames.flatMap Frame.bytes ++ part = frames'.flatMap Frame.bytes ++ part') : frames = frames' ∧ part = part' := by
  induction frames generalizing frames' with
  | nil =>
    cases frames' with
    | nil => exact ⟨rfl,h⟩
    | cons g gs =>
      rw [List.flatMap_nil,List.nil_append,List.flatMap_cons,List.append_assoc] at h
      exact absurd h (hp.ne_bytes_append g _)
  | cons f fs ih =>
    cases frames' with
    | nil =>
      rw [List.flatMap_nil,List.nil_append,List.flatMap_cons,List.append_assoc] at h
      exact absurd h.symm (hp'.ne_bytes_append f _)
    | cons g gs =>
      rw [List.flatMap_cons,List.flatMap_cons,List.append_assoc,List.append_assoc] at h
      obtain ⟨rfl,hrest⟩ := bytes_append_inj h
      obtain ⟨rfl,rfl⟩ := ih hrest
      exact ⟨rfl,rfl⟩

/-- A stream of whole frames and a part of the next: whatever it begins with is made of its first
frames. -/
theorem frames_prefix {frames frames' : List (Frame headLen bodyLen)} {part part' : List ι}
    (hp' : Unfinished headLen bodyLen part')
    (h : frames.flatMap Frame.bytes ++ part <+: frames'.flatMap Frame.bytes ++ part') : frames <+: frames' := by
  induction frames generalizing frames' with
  | nil => exact List.nil_prefix
  | cons f fs ih =>
    obtain ⟨rest,h⟩ := h
    rw [List.flatMap_cons,List.append_assoc,List.append_assoc] at h
    cases frames' with
    | nil => exact absurd h.symm (hp'.ne_bytes_append f _)
    | cons g gs =>
      rw [List.flatMap_cons,List.append_assoc] at h
      obtain ⟨rfl,hrest⟩ := bytes_append_inj h
      refine (List.prefix_cons_inj f).mpr (ih ⟨rest,?_⟩)
      rw [← hrest,List.append_assoc]

/-- A part of a frame, in front of a stream of whole frames, is a part of the first. -/
theorem Unfinished.part_of_next {part : List ι} (hp : Unfinished headLen bodyLen part)
    {frames : List (Frame headLen bodyLen)} (h : part <+: frames.flatMap Frame.bytes) :
    part = [] ∨ ∃ g gs, frames = g :: gs ∧ part <+: g.bytes := by
  cases frames with
  | nil => exact .inl (List.prefix_nil.mp h)
  | cons g gs =>
    rw [List.flatMap_cons] at h
    rcases List.prefix_or_prefix_of_prefix h (List.prefix_append g.bytes _) with hpart | ⟨rest,hrest⟩
    · exact .inr ⟨g,gs,rfl,hpart⟩
    · exact absurd hrest.symm (hp.ne_bytes_append g rest)

end Spdylay.Library.Framing
