import Spdylay.Wire.HeaderInflater

/-! The loop around inflate delivers what the stream transducer answers, whatever the
room in the chunks of the output buffer. -/
namespace Spdylay
open Library

variable {z : Zlib} {version : Version}

/-- What one call of inflate has done with a part of its input. -/
inductive InflateCall.Spec (z : Zlib) (version : Version) (room : Nat) (hist held input : Bytes) : InflateCall → Prop
  | ok (used rest out delivered pending : Bytes) : input = used ++ rest →
      Transducer.run (z.push version) hist used = some out → held ++ out = delivered ++ pending →
      (delivered.length = room ∨ (delivered.length < room ∧ rest = [] ∧ pending = [])) →
      Spec z version room hist held input ⟨.ok,rest,hist ++ used,delivered,pending⟩
  | needDict (used rest out : Bytes) (b : UInt8) : input = used ++ b :: rest →
      Transducer.run (z.push version) hist used = some out → z.inflate (hist ++ used) b = .needDict →
      Spec z version room hist held input ⟨.needDict,rest,hist ++ used ++ [b],[],held ++ out⟩
  | memError (used rest out : Bytes) (b : UInt8) : input = used ++ b :: rest →
      Transducer.run (z.push version) hist used = some out → z.inflate (hist ++ used) b = .memError →
      Spec z version room hist held input ⟨.memError,rest,hist ++ used ++ [b],[],[]⟩
  | fail (used rest out : Bytes) (b : UInt8) : input = used ++ b :: rest →
      Transducer.run (z.push version) hist used = some out → z.inflate (hist ++ used) b = .fail →
      Spec z version room hist held input ⟨.fail,rest,hist ++ used ++ [b],[],[]⟩

theorem InflateCall.Spec.cons {room : Nat} {hist held input o : Bytes} {b : UInt8} {c : InflateCall}
    (hb : z.inflate hist b = .output o) (h : Spec z version room (hist ++ [b]) (held ++ o) input c) :
    Spec z version room hist held (b :: input) c := by
  have hpush : z.push version hist b = some o := by
    rw [Zlib.push,hb]
  have hrun : ∀ {used out : Bytes}, Transducer.run (z.push version) (hist ++ [b]) used = some out →
      Transducer.run (z.push version) hist (b :: used) = some (o ++ out) := by
    intro used out hr
    rw [Transducer.run,hpush]
    dsimp only
    rw [hr]
    rfl
  have hhist : ∀ used : Bytes, hist ++ [b] ++ used = hist ++ b :: used := fun used => List.append_assoc _ _ _
  cases h with
  | ok used rest out delivered pending hin hr hout hroom =>
    rw [hhist]
    exact .ok _ _ _ _ _ (by rw [hin,List.cons_append]) (hrun hr) (by rw [← hout,List.append_assoc]) hroom
  | needDict used rest out x hin hr hx =>
    rw [hhist,List.append_assoc held] at *
    exact .needDict _ _ _ _ (by rw [hin,List.cons_append]) (hrun hr) hx
  | memError used rest out x hin hr hx =>
    rw [hhist] at *
    exact .memError _ _ _ _ (by rw [hin,List.cons_append]) (hrun hr) hx
  | fail used rest out x hin hr hx =>
    rw [hhist] at *
    exact .fail _ _ _ _ (by rw [hin,List.cons_append]) (hrun hr) hx

theorem inflateCall_spec (z : Zlib) (version : Version) (room : Nat) (hist held input : Bytes) :
    InflateCall.Spec z version room hist held input (inflateCall z room hist held input) := by
  -- a call that reads nothing
  have hnone : ∀ (hist held input delivered pending : Bytes), held = delivered ++ pending →
      (delivered.length = room ∨ (delivered.length < room ∧ input = [] ∧ pending = [])) →
      InflateCall.Spec z version room hist held input ⟨.ok,input,hist,delivered,pending⟩ := by
    intro hist held input delivered pending hd hroom
    have hspec : InflateCall.Spec z version room hist held input ⟨.ok,input,hist ++ [],delivered,pending⟩ :=
      .ok [] input [] delivered pending rfl rfl (by rw [List.append_nil,hd]) hroom
    simpa only [List.append_nil] using hspec
  induction input generalizing hist held with
  | nil =>
    rw [inflateCall]
    split
    · rename_i hle
      exact hnone _ _ _ _ _ (List.take_append_drop room held).symm (.inl (List.length_take_of_le hle))
    · rename_i hlt
      exact hnone _ _ _ _ _ (List.append_nil held).symm (.inr ⟨not_le.mp hlt,rfl,rfl⟩)
  | cons b rest ih =>
    rw [inflateCall]
    split
    · rename_i hle
      exact hnone _ _ _ _ _ (List.take_append_drop room held).symm (.inl (List.length_take_of_le hle))
    · cases hb : z.inflate hist b with
      | output o => exact (ih _ _).cons hb
      | needDict =>
        have hspec : InflateCall.Spec z version room hist held (b :: rest)
            ⟨.needDict,rest,hist ++ [] ++ [b],[],held ++ []⟩ :=
          .needDict [] rest [] b rfl rfl (by rwa [List.append_nil])
        simpa only [List.append_nil] using hspec
      | memError =>
        have hspec : InflateCall.Spec z version room hist held (b :: rest)
            ⟨.memError,rest,hist ++ [] ++ [b],[],[]⟩ :=
          .memError [] rest [] b rfl rfl (by rwa [List.append_nil])
        simpa only [List.append_nil] using hspec
      | fail =>
        have hspec : InflateCall.Spec z version room hist held (b :: rest) ⟨.fail,rest,hist ++ [] ++ [b],[],[]⟩ :=
          .fail [] rest [] b rfl rfl (by rwa [List.append_nil])
        simpa only [List.append_nil] using hspec

/-! The loop. -/

theorem inflateRoom_spec {m m' : Mem} {b b' : Buffer} (hcap : 0 < b.capacity)
    (h : inflateRoom m b = (m',.ok b')) : b'.capacity = b.capacity ∧ b'.bytes = b.bytes ∧ 0 < bufferAvail b' := by
  rw [inflateRoom] at h
  split at h
  · rw [bufferAlloc] at h
    split_ifs at h <;> cases h
    · exact ⟨rfl,rfl,hcap⟩
    · exact ⟨rfl,rfl,hcap⟩
  · rename_i havail
    cases h
    exact ⟨rfl,rfl,Nat.pos_of_ne_zero havail⟩

/-- What the loop has done with the output held back and a further input. When it ends
without an error it has taken all of it; output is missing only if memory ran out. -/
structure InflateResult.Delivers (z : Zlib) (version : Version) (buf : Buffer) (hist held input : Bytes)
    (r : InflateResult) : Prop where
  capacity : r.buf.capacity = buf.capacity
  taken : r.error = none → r.inflater = ⟨hist ++ input,false⟩
  whole : r.error = none → Transducer.run (z.push version) hist input = none ∨
    ∃ out, Transducer.run (z.push version) hist input = some out ∧ r.buf.bytes = buf.bytes ++ (held ++ out)
  failed : r.error = some .zlib → Transducer.run (z.push version) hist input = none

theorem InflateResult.Delivers.refused {buf : Buffer} {hist held input : Bytes} {r : InflateResult}
    (hcap : r.buf.capacity = buf.capacity) (he : r.error ≠ none)
    (h : r.error = some .zlib → Transducer.run (z.push version) hist input = none) :
    Delivers z version buf hist held input r :=
  ⟨hcap,fun hn => absurd hn he,fun hn => absurd hn he,h⟩

/-- The loop after a part of the input that came through. -/
theorem InflateResult.Delivers.later {buf buf' : Buffer} {hist held input used rest out delivered pending : Bytes}
    {r : InflateResult} (hin : input = used ++ rest) (hrun : Transducer.run (z.push version) hist used = some out)
    (hout : held ++ out = delivered ++ pending) (hcap : buf'.capacity = buf.capacity)
    (hbytes : buf'.bytes = buf.bytes ++ delivered) (h : Delivers z version buf' (hist ++ used) pending rest r) :
    Delivers z version buf hist held input r := by
  have hall : Transducer.run (z.push version) hist input =
      (Transducer.run (z.push version) (hist ++ used) rest).map (out ++ ·) := by
    rw [hin,Transducer.run_append_of_some _ hrun]
  refine ⟨h.capacity.trans hcap,?_,?_,?_⟩
  · intro he
    rw [h.taken he,hin,List.append_assoc]
  · intro he
    rcases h.whole he with hnone | ⟨out',hrun',hbytes'⟩
    · exact .inl (by rw [hall,hnone,Option.map_none])
    · refine .inr ⟨out ++ out',?_,?_⟩
      · rw [hall,hrun',Option.map_some]
      · rw [hbytes',hbytes,← List.append_assoc held,hout,List.append_assoc,List.append_assoc]
  · intro he
    rw [hall,h.failed he,Option.map_none]

/-- Each call delivers a byte or consumes one, or is the last. -/
theorem inflateHdLoop_delivers (z : Zlib) (version : Version) (fuel : Nat) (m : Mem) (buf : Buffer)
    (hist held input : Bytes) (hb : buf.Ok) (hcap : 0 < buf.capacity)
    (hfuel : input.length+held.length+(Transducer.outputs (z.push version) hist input).length < fuel) :
    InflateResult.Delivers z version buf hist held input (inflateHdLoop z version fuel m buf hist held input) := by
  induction fuel generalizing m buf hist held input with
  | zero => exact absurd hfuel (Nat.not_lt_zero _)
  | succ fuel ih =>
    rw [inflateHdLoop]
    cases hroom : inflateRoom m buf with
    | mk m1 r =>
      cases r with
      | error e =>
        cases inflateRoom_error hroom
        exact .refused rfl (by rintro ⟨⟩) (by rintro ⟨⟩)
      | ok buf1 =>
        obtain ⟨hcap1,hbytes1,havail⟩ := inflateRoom_spec hcap hroom
        have hb1 := inflateRoom_ok hb hroom
        have hle := inflateCall_out_le z (bufferAvail buf1) hist held input
        have hspec := inflateCall_spec z version (bufferAvail buf1) hist held input
        dsimp only
        generalize inflateCall z (bufferAvail buf1) hist held input = c at hle hspec ⊢
        cases hspec with
        | ok used rest out delivered pending hin hrun hout hlen =>
          dsimp only at hle ⊢
          rw [bufferAdvance_fits hb1 hle]
          dsimp only
          have hlength := congrArg List.length hout
          rw [List.length_append,List.length_append] at hlength
          split
          · rename_i hlast
            have hend : rest = [] ∧ pending = [] := by
              rcases hlen with hlen | hlen
              · exact absurd hlen hlast.2.ne
              · exact hlen.2
            rw [hend.1,List.append_nil] at hin
            rw [← hin] at hrun
            refine ⟨hcap1,fun _ => by rw [hin],fun _ => .inr ⟨out,hrun,?_⟩,by rintro ⟨⟩⟩
            dsimp only
            rw [hbytes1,hout,hend.2,List.append_nil]
          · rename_i hmore
            have hfull : delivered.length = bufferAvail buf1 := by
              rcases hlen with hlen | hlen
              · exact hlen
              · exact absurd ⟨hlen.2.1,hlen.1⟩ hmore
            have hwork : rest.length+pending.length+
                (Transducer.outputs (z.push version) (hist ++ used) rest).length < fuel := by
              rw [hin,Transducer.outputs_append_of_some _ hrun,List.length_append,List.length_append] at hfuel
              omega
            have hadv : Buffer.Ok ⟨buf1.capacity,buf1.chunks,buf1.current,buf1.lastOffset+delivered.length,
                buf1.bytes ++ delivered⟩ := by
              rw [bufferAvail] at hle
              rw [Buffer.Ok] at hb1 ⊢
              dsimp only
              omega
            have hnext := ih m1 _ (hist ++ used) pending rest hadv (hcap1.symm ▸ hcap) hwork
            refine .later hin hrun hout ?_ ?_ hnext
            · exact hcap1
            · exact congrArg (· ++ delivered) hbytes1
        | needDict used rest out b hin hrun hx =>
          have hpush : z.push version (hist ++ used) b =
              if z.inflateSetDictionary version (hist ++ used ++ [b]) then some [] else none := by
            rw [Zlib.push,hx]
          dsimp only
          split
          · rename_i hset
            rw [if_pos hset] at hpush
            have hrun1 : Transducer.run (z.push version) hist (used ++ [b]) = some out := by
              rw [Transducer.run_append_of_some _ hrun,Transducer.run,hpush]
              simp
            have hin1 : input = (used ++ [b]) ++ rest := by
              rw [hin,List.append_assoc,List.singleton_append]
            have hwork : rest.length+(held ++ out).length+
                (Transducer.outputs (z.push version) (hist ++ (used ++ [b])) rest).length < fuel := by
              rw [hin1,Transducer.outputs_append_of_some _ hrun1] at hfuel
              simp only [List.length_append,List.length_singleton] at hfuel ⊢
              omega
            rw [List.append_assoc]
            exact .later hin1 hrun1 (List.nil_append _).symm hcap1 (by rw [hbytes1,List.append_nil])
              (ih _ _ _ _ _ hb1 (hcap1.symm ▸ hcap) hwork)
          · rename_i hset
            rw [if_neg hset] at hpush
            refine .refused hcap1 (by rintro ⟨⟩) ?_
            intro _
            rw [hin]
            exact Transducer.run_append_none _ (.inr (Transducer.run_cons_none _ hpush rest))
        | memError used rest out b hin hrun hx =>
          have hnone : Transducer.run (z.push version) hist input = none := by
            rw [hin]
            exact Transducer.run_append_none _ (.inr (Transducer.run_cons_none _ (by rw [Zlib.push,hx]) rest))
          refine ⟨hcap1,?_,fun _ => .inl hnone,fun _ => hnone⟩
          intro he
          dsimp only at he ⊢
          rw [afterMemError] at he ⊢
          split at he
          · rename_i hrest
            rw [hin,hrest,List.append_assoc]
          · cases he
        | fail used rest out b hin hrun hx =>
          refine .refused hcap1 (by rintro ⟨⟩) ?_
          intro _
          rw [hin]
          exact Transducer.run_append_none _ (.inr (Transducer.run_cons_none _ (by rw [Zlib.push,hx]) rest))

/-- One call of the library: unless memory is missing it does what the stream does. -/
theorem inflateHd_delivers (z : Zlib) (version : Version) (m : Mem) {inflater : Inflater} {buf : Buffer} (input : Bytes)
    (hb : buf.Ok) (hcap : 0 < buf.capacity) (halive : inflater.dead = false) :
    InflateResult.Delivers z version buf inflater.hist [] input (inflateHd z version m inflater buf input) := by
  rw [inflateHd,if_neg (by rw [halive]; exact Bool.false_ne_true)]
  by_cases hstarved : z.starved inflater.hist = true
  · -- nothing can be taken any more
    rw [if_pos hstarved]
    cases hroom : inflateRoom m buf with
    | mk m1 r =>
      cases r with
      | error e =>
        cases inflateRoom_error hroom
        exact .refused rfl (by rintro ⟨⟩) (by rintro ⟨⟩)
      | ok buf1 =>
        obtain ⟨hcap1,hbytes1,-⟩ := inflateRoom_spec hcap hroom
        dsimp only
        rw [afterMemError]
        by_cases hinput : input = []
        · rw [hinput,if_pos rfl]
          refine ⟨hcap1,fun _ => ?_,fun _ => .inr ⟨[],rfl,?_⟩,by rintro ⟨⟩⟩
          · rw [List.append_nil]
          · rw [List.append_nil,List.append_nil,hbytes1]
        · rw [if_neg hinput]
          exact .refused hcap1 (by rintro ⟨⟩) (by rintro ⟨⟩)
  · rw [if_neg hstarved]
    apply inflateHdLoop_delivers z version _ m buf _ _ _ hb hcap
    rw [inflateFuel,List.length_nil]
    omega

end Spdylay
