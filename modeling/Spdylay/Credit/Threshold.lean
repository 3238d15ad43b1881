import Spdylay.Credit.Ledger

/-! Automatic window updates. A stream that can be read holds back less than half of the
initial window, as long as the initial window is not lowered under what a stream holds
back: the threshold is tested when bytes arrive and at no other time. -/
namespace Spdylay
open Library Machine Session

/-- A receive window at which a new update is not due. -/
def Paced (init : Nat) (r : Int) : Prop := (0 ≤ r ∧ r ≤ int32Max) ∧ (r = 0 ∨ 2*r < init)

/-- Every stream that can be read is paced, whatever its state. A stream that is closing
may become open again, when the SYN_REPLY that was being written is complete. -/
structure AllPaced (s : Session) : Prop where
  auto : s.noAutoWindowUpdate = false
  streams : ∀ id st, s.getStream id = some st → st.shutRd = false →
    Paced (s.localSettings settingsInitialWindowSize) st.recvWindowSize

/-- Automatic updates stay on, and the initial window is lowered only to a value that no
stream is due for. -/
def Timely (s : Session) : Op → Prop
  | .submitSettings _ iv => settingsUnique iv = true → ∀ e ∈ iv, e.settingsId = settingsInitialWindowSize →
      ∀ id st, s.getStream id = some st → st.shutRd = false →
        st.recvWindowSize = 0 ∨ 2*st.recvWindowSize < e.value
  | .setNoAutoWindowUpdate on => on = false
  | _ => True

theorem paced_zero (init : Nat) : Paced init 0 := ⟨⟨le_rfl,by decide⟩,.inl rfl⟩

theorem tally_paced {w : CreditSide} (hauto : w.noAutoWindowUpdate = false) {r : Int} {n : Nat}
    (hr : 0 ≤ r ∧ r ≤ int32Max) : Paced (w.localSettings settingsInitialWindowSize) (w.tally r n).1 := by
  have hmax : int32Max = 2147483647 := rfl
  rw [CreditSide.tally,hauto]
  have hsize : 0 ≤ (if int32Max-n < r then int32Max else r+n) ∧ (if int32Max-n < r then int32Max else r+n) ≤ int32Max := by
    split <;> omega
  generalize (if int32Max-n < r then int32Max else r+n) = size at hsize
  by_cases h : (w.localSettings settingsInitialWindowSize : Int) ≤ size*2 % 18446744073709551616
  · rw [if_pos ⟨rfl,h⟩]
    exact paced_zero _
  · rw [if_neg (fun h' => h h'.2)]
    exact ⟨hsize,.inr (by omega)⟩

/-- A setting after a list of entries has been stored. -/
theorem stored_setting (iv : List SettingsEntry) (f : Nat → Nat) (k : Nat) :
    iv.foldl (fun f e => Function.update f e.settingsId e.value) f k = f k ∨
      ∃ e ∈ iv, e.settingsId = k ∧ iv.foldl (fun f e => Function.update f e.settingsId e.value) f k = e.value := by
  induction iv generalizing f with
  | nil => exact .inl rfl
  | cons e iv ih =>
    rw [List.foldl_cons]
    rcases ih (Function.update f e.settingsId e.value) with h | ⟨e',he',hk,h⟩
    · by_cases hk : e.settingsId = k
      · refine .inr ⟨e,List.mem_cons_self,hk,?_⟩
        rw [h,← hk,Function.update_self]
      · left
        rw [h,Function.update_of_ne (Ne.symm hk)]
    · exact .inr ⟨e',List.mem_cons_of_mem _ he',hk,h⟩

/-- One turn. -/
theorem AllPaced.move {P : Platform} (hq : StableSort.Sorts P.qsort) {s s' : Session} (h : AllPaced s)
    (hm : CreditMove P Timely s s') : AllPaced s' := by
  have hlow : ∀ {r delta : Int}, Paced (s.localSettings settingsInitialWindowSize) r → 0 < delta →
      Paced (s.localSettings settingsInitialWindowSize) (r-min delta r) := by
    rintro r delta ⟨hr,hp⟩ hd
    refine ⟨?_,?_⟩
    · omega
    · omega
  have hauto := h.auto
  -- the settings stay, and the windows of the streams that stay are paced
  have hcredits : ∀ {g : Int → Int → Int} {es : List Event}, Credits g es s s' →
      (∀ id st, s.getStream id = some st → st.shutRd = false →
        Paced (s.localSettings settingsInitialWindowSize) (g id st.recvWindowSize)) → AllPaced s' := by
    intro g es hc hg
    have hlocal : s'.localSettings = s.localSettings := congrArg CreditSide.localSettings hc.side
    refine ⟨(congrArg CreditSide.noAutoWindowUpdate hc.side).trans hauto,?_⟩
    intro id st' hst' hrd
    obtain ⟨st,hst,hr,hs⟩ := hc.streams id st' hst'
    rw [hr,hlocal]
    exact hg id st hst (hs hrd)
  cases hm with
  | receive hr =>
    cases hr with
    | opens ho =>
      refine ⟨(congrArg CreditSide.noAutoWindowUpdate ho.side).trans hauto,?_⟩
      intro id st' hst' hrd
      rw [show s'.localSettings = s.localSettings from congrArg CreditSide.localSettings ho.side]
      rcases ho.streams id st' hst' with ⟨st,hst,hr,hs⟩ | ⟨-,hr⟩
      · rw [hr]
        exact h.streams id st hst (hs hrd)
      · rw [hr]
        exact paced_zero _
    | uncounted flags k data _ hc => exact hcredits hc h.streams
    | counted flags k data x r _ hx ht hc =>
      refine hcredits hc ?_
      intro id st hst hrd
      split
      · rename_i hk
        subst hk
        cases hx.symm.trans hst
        have hp := tally_paced (w := s.creditSide) hauto (n := data.length) (h.streams k x hx hrd).1
        rw [ht] at hp
        exact hp
      · exact h.streams id st hst hrd
    | givenBack flags k data x delta item _ _ _ _ hc =>
      refine hcredits hc ?_
      intro id st hst hrd
      split
      · exact paced_zero _
      · exact h.streams id st hst hrd
  | giveBack k delta item hpos _ _ _ hc =>
    refine hcredits hc ?_
    intro id st hst hrd
    split
    · exact hlow (h.streams id st hst hrd) hpos
    · exact h.streams id st hst hrd
  | settings flags iv s1 hok hu hc heq =>
    subst heq
    have hlocal : s1.localSettings = s.localSettings := congrArg CreditSide.localSettings hc.side
    refine ⟨(congrArg CreditSide.noAutoWindowUpdate hc.side).trans hauto,?_⟩
    intro id st' hst' hrd
    obtain ⟨st,hst,hr,hs⟩ := hc.streams id st' hst'
    have hpaced := h.streams id st hst (hs hrd)
    rw [hr]
    refine ⟨hpaced.1,?_⟩
    have hstored : (s1.updateLocalSettings (frameIvSort P iv)).localSettings settingsInitialWindowSize =
        (frameIvSort P iv).foldl (fun f e => Function.update f e.settingsId e.value) s.localSettings
          settingsInitialWindowSize := by
      rw [← hlocal]
      rfl
    rw [hstored]
    rcases stored_setting (frameIvSort P iv) s.localSettings settingsInitialWindowSize with hk | ⟨e,he,hid,hk⟩
    · rw [hk]
      exact hpaced.2
    · rw [hk]
      exact hok hu e ((frameIvSort_perm hq iv).mem_iff.mp he) hid id st hst (hs hrd)
  | autoUpdate on hok heq =>
    subst heq
    exact ⟨hok,h.streams⟩

/-- Automatic updates never leave the peer blocked. In every run in which no allocation
fails, updates stay on and the initial window is not lowered under what a stream holds
back, what a readable stream holds back is nothing or less than half of the initial
window, so that part of the window is left to the peer. -/
theorem readable_streams_paced (P : Platform) (hq : StableSort.Sorts P.qsort) (u : Setup)
    (hmem : ∀ ok ∈ u.host.mem, ok = true) {s : Session}
    (hrun : Relation.ReflTransGen (TurnWith P Timely) (u.start P) s) (id : Int) (st : Stream)
    (hst : s.getStream id = some st) (hrd : st.shutRd = false) :
    (st.recvWindowSize = 0 ∨ 2*st.recvWindowSize < s.localSettings settingsInitialWindowSize) ∧
      (0 < s.localSettings settingsInitialWindowSize →
        st.recvWindowSize < s.localSettings settingsInitialWindowSize) := by
  have hall : Reachable P u s ∧ Sound s ∧ AllPaced s := by
    clear hst
    induction hrun with
    | refl =>
      have hr : Reachable P u (u.start P) := .refl
      refine ⟨hr,⟨?_,(reachable_quiet hr).1,reachable_blockless hr⟩,?_⟩
      · rw [Ample,Setup.start]
        split <;> exact hmem
      · rw [Setup.start]
        split <;> exact ⟨rfl,fun _ _ h => Option.noConfusion rfl (heq_of_eq h)⟩
    | tail _ ht ih =>
      obtain ⟨hr,hs,hp⟩ := ih
      obtain ⟨hr',hs'⟩ := ht.sound hr hs
      exact ⟨hr',hs',hp.move hq (ht.credit hs.ample hs.frame hs.blockless)⟩
  obtain ⟨hbound,hpaced⟩ := hall.2.2.streams id st hst hrd
  exact ⟨hpaced,by omega⟩

/-- The upload, with the initial window lowered to a hundred bytes. -/
def loweredUpload : Session := (uploadRead.call peerPlatform (.submitSettings 0 [⟨settingsInitialWindowSize,0,100⟩])).1

theorem lowered_upload_paced : ∃ st, loweredUpload.getStream 1 = some st ∧ st.shutRd = false ∧
    loweredUpload.localSettings settingsInitialWindowSize = 100 ∧
    (st.recvWindowSize = 0 ∨ 2*st.recvWindowSize < loweredUpload.localSettings settingsInitialWindowSize) ∧
    (0 < loweredUpload.localSettings settingsInitialWindowSize →
      st.recvWindowSize < loweredUpload.localSettings settingsInitialWindowSize) := by
  have hin : (loweredUpload.getStream 1).isSome = true := by decide +kernel
  obtain ⟨st,hst⟩ := Option.isSome_iff_exists.mp hin
  have hrd : st.shutRd = false := forall_stream (p := fun st => st.shutRd = false) (by decide +kernel) st hst
  have htimely : Timely uploadRead (.submitSettings 0 [⟨settingsInitialWindowSize,0,100⟩]) := by
    intro _ e he _ id st hst _
    cases List.mem_singleton.mp he
    have hall : ∀ st ∈ uploadRead.streams.entries, 2*st.recvWindowSize < 100 := by decide +kernel
    exact .inr (hall st (OrderedTable.find_eq_some.mp hst).1)
  have hrun : Relation.ReflTransGen (TurnWith peerPlatform Timely) ((sampleServer [] []).start peerPlatform) loweredUpload :=
    .tail (.tail (.single (.recv _ (firstRequest 0 1))) (.recv _ _)) (.submit _ _ nofun nofun htimely)
  exact ⟨st,hst,hrd,by decide +kernel,readable_streams_paced peerPlatform StableSort.insertionSort_stably.toSorts
    (sampleServer [] []) nofun hrun 1 st hst hrd⟩

/-- The same with two bytes: the peer has used more than its window, and no update is
queued for it. -/
def starvedUpload : Session := ((sampleServer [] []).start peerPlatform).run peerPlatform
  [.memRecv (firstRequest 0 1),.memRecv [0,0,0,1,0,0,0,3,7,8,9],.submitSettings 0 [⟨settingsInitialWindowSize,0,2⟩]]

theorem starved_upload_blocked : ∃ st, starvedUpload.getStream 1 = some st ∧ starvedUpload.version = .spdy3 ∧
    starvedUpload.noAutoWindowUpdate = false ∧ st.shutRd = false ∧ st.state ≠ .closing ∧
    ¬(st.recvWindowSize = 0 ∨ 2*st.recvWindowSize < starvedUpload.localSettings settingsInitialWindowSize) ∧
    ¬(st.recvWindowSize < starvedUpload.localSettings settingsInitialWindowSize) ∧
    ∀ x ∈ starvedUpload.obPq.q, x.frame.isWindowUpdate = false := by
  have hin : (starvedUpload.getStream 1).isSome = true := by decide +kernel
  obtain ⟨st,hst⟩ := Option.isSome_iff_exists.mp hin
  have hall : st.recvWindowSize = 3 ∧ st.shutRd = false ∧ st.state ≠ .closing :=
    forall_stream (p := fun st => st.recvWindowSize = 3 ∧ st.shutRd = false ∧ st.state ≠ .closing) (by decide +kernel)
      st hst
  have hinit : starvedUpload.localSettings settingsInitialWindowSize = 2 := by decide +kernel
  refine ⟨st,hst,by decide +kernel,by decide +kernel,hall.2.1,hall.2.2,?_,?_,by decide +kernel⟩
  · rw [hall.1,hinit]
    decide
  · rw [hall.1,hinit]
    decide

end Spdylay
