import Spdylay.Machine.WindowArithmetic

/-! A received SETTINGS frame as a whole: the values it leaves, the windows it moves,
and that the order of its entries does not count. -/
namespace Spdylay
open Library

/-- The next allocations succeed. -/
def Granted (n : Nat) (m : Mem) : Prop := ∀ b ∈ m.take n, b = true

theorem granted_zero (m : Mem) : Granted 0 m := by
  intro b hb
  cases hb

theorem granted_one {m : Mem} : Granted 1 m ↔ m.headD true = true := by
  cases m with
  | nil => exact ⟨fun _ => rfl,fun _ => nofun⟩
  | cons b m => exact ⟨fun h => h b (.head _),fun h _ hb => (List.mem_singleton.mp hb).trans h⟩

theorem granted_add {k j : Nat} {m : Mem} : Granted (k+j) m ↔ Granted k m ∧ Granted j (m.drop k) := by
  have hsplit : m.take (k+j) = m.take k ++ (m.drop k).take j := List.take_add
  rw [Granted,hsplit]
  exact List.forall_mem_append

namespace Session

/-- The fields that a change of the windows neither reads nor writes, and the memory. -/
def setAside (s : Session) (remote : Nat → Nat) (certvec : ClientCertVector) (m : Mem) : Session :=
  {s.setMem m with remoteSettings := remote, cliCertvec := certvec}

theorem setAside_self (s : Session) : s.setAside s.remoteSettings s.cliCertvec s.host.mem = s := rfl

/-- A change that succeeded, with so many allocations, does the same whatever the other
settings and certificates are, wherever that many allocations are granted. -/
def Succeeds (f : Session → Session × Option Err) (s s' : Session) (k : Nat) : Prop :=
  Granted k s.host.mem ∧ ∀ remote certvec m, Granted k m →
    f (s.setAside remote certvec m) = (s'.setAside remote certvec (m.drop k),none)

theorem pushOb_succeeds {s : Session} {item : OutboundItem} (h : (s.pushOb item).2 = none) :
    ∃ k, Succeeds (pushOb · item) s (s.pushOb item).1 k := by
  by_cases hfull : s.obPq.capacity ≤ s.obPq.q.length
  · have hmem : s.host.mem.headD true = true := by
      rw [pushOb,pqPush,if_pos hfull] at h
      by_contra hm
      rw [if_neg hm] at h
      cases h
    refine ⟨1,granted_one.mpr hmem,?_⟩
    intro remote certvec m hm
    simp only [pushOb,pqPush,setAside,setMem,hfull,hmem,granted_one.mp hm,if_true,List.drop_one]
  · refine ⟨0,granted_zero _,?_⟩
    intro remote certvec m _
    simp only [pushOb,pqPush,setAside,setMem,hfull,if_false,List.drop_zero]

theorem releaseDeferred_succeeds {s : Session} {id : Int} (h : (s.releaseDeferred id).2 = none) :
    ∃ k, Succeeds (releaseDeferred · id) s (s.releaseDeferred id).1 k := by
  have hget : ∀ remote certvec m, (s.setAside remote certvec m).getStream id = s.getStream id := fun _ _ _ => rfl
  -- nothing to release
  have hidle : (∀ remote certvec m, (s.setAside remote certvec m).releaseDeferred id = (s.setAside remote certvec m,none)) →
      (s.releaseDeferred id).1 = s → ∃ k, Succeeds (releaseDeferred · id) s (s.releaseDeferred id).1 k := by
    intro hx hs
    rw [hs]
    exact ⟨0,granted_zero _,fun remote certvec m _ => hx remote certvec m⟩
  cases hst : s.getStream id with
  | none =>
    apply hidle
    · intro remote certvec m
      rw [releaseDeferred,hget,hst]
    · rw [releaseDeferred,hst]
  | some st =>
    cases hd : st.deferredData with
    | none =>
      apply hidle
      · intro remote certvec m
        simp only [releaseDeferred,hget,hst,hd]
      · simp only [releaseDeferred,hst,hd]
    | some item =>
      by_cases hw : 0 < st.windowSize ∧ st.deferredFlowControl = true
      · cases hp : (s.pushOb item).2 with
        | some e =>
          simp only [releaseDeferred,hst,hd,if_pos hw,hp] at h
          cases h
        | none =>
          obtain ⟨k,hg,hk⟩ := pushOb_succeeds hp
          refine ⟨k,hg,?_⟩
          intro remote certvec m hm
          have hx : (s.setAside remote certvec m).pushOb item = _ := hk remote certvec m hm
          simp only [releaseDeferred,hget,hst,hd,if_pos hw,hp]
          rw [hx]
          rfl
      · apply hidle
        · intro remote certvec m
          simp only [releaseDeferred,hget,hst,hd,if_neg hw]
        · simp only [releaseDeferred,hst,hd,if_neg hw]

/-- The loop over the streams. -/
theorem updateInitialWindowSizeLoop_succeeds {new old : Int} {ids : List Int} {s : Session}
    (h : (updateInitialWindowSizeLoop new old ids s).2 = none) :
    ∃ k, Succeeds (updateInitialWindowSizeLoop new old ids) s (updateInitialWindowSizeLoop new old ids s).1 k := by
  induction ids generalizing s with
  | nil => exact ⟨0,granted_zero _,fun _ _ _ _ => rfl⟩
  | cons id ids ih =>
    rw [updateInitialWindowSizeLoop] at h ⊢
    generalize hs1 : s.modifyStream id (streamUpdateInitialWindowSize s.windowArith new old) = s1 at h ⊢
    cases hr : (s1.releaseDeferred id).2 with
    | some e =>
      simp only [hr] at h
      cases h
    | none =>
      simp only [hr] at h ⊢
      obtain ⟨k,hk,hrel⟩ := releaseDeferred_succeeds hr
      obtain ⟨j,hj,hrest⟩ := ih h
      have hmem : s1.host.mem = s.host.mem := by rw [← hs1]; rfl
      have hdrop : (s1.releaseDeferred id).1.host.mem = s.host.mem.drop k := by
        have hx := congrArg (fun r => r.1.host.mem) (hrel s1.remoteSettings s1.cliCertvec s1.host.mem hk)
        rw [setAside_self,hmem] at hx
        exact hx
      refine ⟨k+j,?_,?_⟩
      · rw [hmem] at hk
        rw [hdrop] at hj
        exact granted_add.mpr ⟨hk,hj⟩
      · intro remote certvec m hm
        obtain ⟨hm1,hm2⟩ := granted_add.mp hm
        have hstart : (s.setAside remote certvec m).modifyStream id
            (streamUpdateInitialWindowSize (s.setAside remote certvec m).windowArith new old) = s1.setAside remote certvec m := by
          rw [← hs1]
          rfl
        have h1 : (s1.setAside remote certvec m).releaseDeferred id = _ := hrel remote certvec m hm1
        have h2 := hrest remote certvec (m.drop k) hm2
        rw [updateInitialWindowSizeLoop,hstart]
        simp only [h1]
        rw [h2,List.drop_drop]

/-- Only streams, the queue and the memory change. -/
def WindowFrameOnly (s s' : Session) : Prop :=
  ∃ streams obPq m, s' = {s.setMem m with streams := streams, obPq := obPq}

theorem WindowFrameOnly.trans {s1 s2 s3 : Session} (h : WindowFrameOnly s1 s2) (h' : WindowFrameOnly s2 s3) :
    WindowFrameOnly s1 s3 := by
  obtain ⟨_,_,_,rfl⟩ := h
  obtain ⟨streams,obPq,m,rfl⟩ := h'
  exact ⟨streams,obPq,m,rfl⟩

theorem releaseDeferred_frame (s : Session) (id : Int) : WindowFrameOnly s (s.releaseDeferred id).1 := by
  have hsame : WindowFrameOnly s s := ⟨s.streams,s.obPq,s.host.mem,rfl⟩
  rw [releaseDeferred]
  split
  · exact hsame
  · split
    · exact hsame
    · rename_i item _
      split
      · rw [pushOb]
        cases pqPush s.host.mem s.obPq item with
        | mk m r =>
          cases r with
          | none => exact ⟨s.streams,s.obPq,m,rfl⟩
          | some pq => exact ⟨_,pq,m,rfl⟩
      · exact hsame

theorem updateInitialWindowSizeLoop_frame (new old : Int) (ids : List Int) (s : Session) :
    WindowFrameOnly s (updateInitialWindowSizeLoop new old ids s).1 := by
  induction ids generalizing s with
  | nil => exact ⟨s.streams,s.obPq,s.host.mem,rfl⟩
  | cons id ids ih =>
    rw [updateInitialWindowSizeLoop]
    generalize hs1 : s.modifyStream id (streamUpdateInitialWindowSize s.windowArith new old) = s1
    have hstart : WindowFrameOnly s s1 := by
      rw [← hs1]
      exact ⟨_,s.obPq,s.host.mem,rfl⟩
    have hrel := hstart.trans (releaseDeferred_frame s1 id)
    split
    · exact hrel.trans (ih _)
    · exact hrel

/-! One entry: what it does, and the value that is stored. -/

def store (s : Session) (id v : Nat) : Session := {s with remoteSettings := Function.update s.remoteSettings id v}

def storedValue (s : Session) (e : SettingsEntry) : Nat :=
  if e.settingsId = settingsClientCertificateVectorSize ∧ !s.server then min e.value maxClientCertVectorLength else e.value

def entryEffect (s : Session) (e : SettingsEntry) : Session × Option Err :=
  if e.settingsId = settingsInitialWindowSize ∧ s.flowControl then
    if e.value < 2147483648 then s.updateInitialWindowSize e.value else (s,none)
  else if e.settingsId = settingsClientCertificateVectorSize ∧ !s.server then
    match s.cliCertvec.resize s.host.mem (s.storedValue e) with
    | (m, .ok v) => ({s.setMem m with cliCertvec := v},none)
    | (m, .error err) => (s.setMem m,some err)
  else (s,none)

theorem applySettingsEntry_eq (s : Session) (e : SettingsEntry) : s.applySettingsEntry e =
    match (s.entryEffect e).2 with
    | none => ((s.entryEffect e).1.store e.settingsId (s.storedValue e),{e with value := s.storedValue e},none)
    | some err => ((s.entryEffect e).1,{e with value := s.storedValue e},some err) := by
  rw [applySettingsEntry,entryEffect]
  by_cases hw : e.settingsId = settingsInitialWindowSize ∧ s.flowControl = true
  · have hv : s.storedValue e = e.value := by
      rw [storedValue,if_neg]
      rintro ⟨hc,-⟩
      rw [hw.1] at hc
      cases hc
    rw [if_pos hw,if_pos hw,hv]
    split
    · cases hr : (s.updateInitialWindowSize e.value).2 with
      | none =>
        simp only [hr]
        rfl
      | some err => simp only [hr]
    · rfl
  · rw [if_neg hw,if_neg hw]
    by_cases hc : e.settingsId = settingsClientCertificateVectorSize ∧ (!s.server) = true
    · have hv : s.storedValue e = min e.value maxClientCertVectorLength := if_pos hc
      rw [if_pos hc,if_pos hc,hv]
      dsimp only
      cases s.cliCertvec.resize s.host.mem (min e.value maxClientCertVectorLength) with
      | mk m r => cases r <;> rfl
    · have hv : s.storedValue e = e.value := if_neg hc
      rw [if_neg hc,if_neg hc,hv]
      rfl

/-! Entries of different ids in either order. -/

theorem granted_of_add_left {k j : Nat} {m : Mem} (h : Granted (j+k) m) : Granted k m := by
  rw [Nat.add_comm] at h
  exact (granted_add.mp h).1

theorem updateInitialWindowSize_succeeds {s : Session} {v : Int} (h : (s.updateInitialWindowSize v).2 = none) :
    ∃ k, Granted k s.host.mem ∧ ∀ remote certvec m, remote settingsInitialWindowSize = s.remoteSettings settingsInitialWindowSize →
      Granted k m → (s.setAside remote certvec m).updateInitialWindowSize v =
        ((s.updateInitialWindowSize v).1.setAside remote certvec (m.drop k),none) := by
  obtain ⟨k,hg,hk⟩ := updateInitialWindowSizeLoop_succeeds h
  refine ⟨k,hg,?_⟩
  intro remote certvec m hr hm
  rw [updateInitialWindowSize,show (s.setAside remote certvec m).remoteSettings = remote from rfl,hr]
  exact hk remote certvec m hm

theorem resize_granted {v v' : ClientCertVector} {m m' : Mem} {n : Nat} (h : v.resize m n = (m',.ok v')) :
    ∃ j, Granted j m ∧ m' = m.drop j ∧ ∀ m2, Granted j m2 → v.resize m2 n = (m2.drop j,.ok v') := by
  rw [ClientCertVector.resize] at h
  by_cases hc : v.capacity < n
  · rw [if_pos hc] at h
    by_cases hm : m.headD true = true
    · rw [if_pos hm] at h
      cases h
      refine ⟨1,granted_one.mpr hm,List.drop_one.symm,?_⟩
      intro m2 h2
      rw [ClientCertVector.resize,if_pos hc,if_pos (granted_one.mp h2),List.drop_one]
    · rw [if_neg hm] at h
      cases h
  · rw [if_neg hc] at h
    cases h
    refine ⟨0,granted_zero _,rfl,?_⟩
    intro m2 _
    rw [ClientCertVector.resize,if_neg hc]
    rfl

/-- The entry changes the windows. -/
def MovesWindows (s : Session) (e : SettingsEntry) : Prop :=
  e.settingsId = settingsInitialWindowSize ∧ s.flowControl = true ∧ e.value < 2147483648

/-- The entry changes the certificate vector. -/
def ResizesCerts (s : Session) (e : SettingsEntry) : Prop :=
  e.settingsId = settingsClientCertificateVectorSize ∧ s.server = false

variable {s s1 s2 : Session} {e e1 e2 : SettingsEntry}

theorem entryEffect_window (h : s.MovesWindows e) : s.entryEffect e = s.updateInitialWindowSize e.value := by
  rw [entryEffect,if_pos ⟨h.1,h.2.1⟩,if_pos h.2.2]

theorem entryEffect_certs (h : s.ResizesCerts e) : s.entryEffect e =
    match s.cliCertvec.resize s.host.mem (s.storedValue e) with
    | (m, .ok v) => ({s.setMem m with cliCertvec := v},none)
    | (m, .error err) => (s.setMem m,some err) := by
  rw [entryEffect,if_neg,if_pos]
  · exact ⟨h.1,by rw [h.2]; rfl⟩
  · rintro ⟨hi,-⟩
    rw [h.1] at hi
    cases hi

theorem entryEffect_other (hw : ¬s.MovesWindows e) (hc : ¬s.ResizesCerts e) : s.entryEffect e = (s,none) := by
  rw [entryEffect]
  split
  · rename_i hi
    exact if_neg (fun hv => hw ⟨hi.1,hi.2,hv⟩)
  · exact if_neg (fun hi => hc ⟨hi.1,by simpa using hi.2⟩)

/-- The kind of an entry stays, and nothing is stored yet. -/
theorem entryEffect_frame (s : Session) (e : SettingsEntry) :
    (s.entryEffect e).1.flowControl = s.flowControl ∧ (s.entryEffect e).1.server = s.server ∧
      (s.entryEffect e).1.remoteSettings = s.remoteSettings := by
  by_cases hw : s.MovesWindows e
  · rw [entryEffect_window hw]
    obtain ⟨_,_,_,h⟩ := updateInitialWindowSizeLoop_frame e.value
      (toInt32 (s.remoteSettings settingsInitialWindowSize)) (s.streams.entries.map Stream.streamId) s
    rw [updateInitialWindowSize,h]
    exact ⟨rfl,rfl,rfl⟩
  · by_cases hc : s.ResizesCerts e
    · rw [entryEffect_certs hc]
      cases s.cliCertvec.resize s.host.mem (s.storedValue e) with
      | mk m r => cases r <;> exact ⟨rfl,rfl,rfl⟩
    · rw [entryEffect_other hw hc]
      exact ⟨rfl,rfl,rfl⟩

theorem MovesWindows.congr (h : s1.flowControl = s.flowControl) : s1.MovesWindows e ↔ s.MovesWindows e := by
  rw [MovesWindows,MovesWindows,h]

theorem ResizesCerts.congr (h : s1.server = s.server) : s1.ResizesCerts e ↔ s.ResizesCerts e := by
  rw [ResizesCerts,ResizesCerts,h]

theorem certs_of_ok (hc : s.ResizesCerts e) (h : s.entryEffect e = (s1,none)) : ∃ m v,
    s.cliCertvec.resize s.host.mem (s.storedValue e) = (m,.ok v) ∧ s1 = {s.setMem m with cliCertvec := v} := by
  rw [entryEffect_certs hc] at h
  cases hr : s.cliCertvec.resize s.host.mem (s.storedValue e) with
  | mk m r =>
    rw [hr] at h
    cases r with
    | error err => cases h
    | ok v =>
      cases h
      exact ⟨m,v,rfl,rfl⟩

theorem storedValue_congr (s1 s : Session) (h : s1.server = s.server) : s1.storedValue e = s.storedValue e := by
  rw [storedValue,storedValue,h]

/-- The windows first, then the certificates: the other order does the same. -/
theorem windows_certs_comm (hw : s.MovesWindows e1) (hc : s.ResizesCerts e2) (h1 : s.entryEffect e1 = (s1,none))
    (h2 : s1.entryEffect e2 = (s2,none)) : ∃ s1', s.entryEffect e2 = (s1',none) ∧ s1'.entryEffect e1 = (s2,none) := by
  obtain ⟨hflow,hserver,-⟩ := entryEffect_frame s e1
  rw [h1] at hflow hserver
  obtain ⟨m',v,hr,rfl⟩ := certs_of_ok ((ResizesCerts.congr hserver).mpr hc) h2
  rw [entryEffect_window hw] at h1
  obtain ⟨k,hg,hk⟩ := updateInitialWindowSize_succeeds (congrArg Prod.snd h1)
  rw [h1] at hk
  dsimp only at hk
  have hself : s1.setAside s.remoteSettings s.cliCertvec (s.host.mem.drop k) = s1 :=
    congrArg Prod.fst ((hk s.remoteSettings s.cliCertvec s.host.mem rfl hg).symm.trans h1)
  have hcert : s1.cliCertvec = s.cliCertvec := by
    rw [← hself]
    rfl
  have hmem : s1.host.mem = s.host.mem.drop k := by
    rw [← hself]
    rfl
  rw [hcert,hmem,storedValue_congr s1 s hserver] at hr
  obtain ⟨j,hj,rfl,hresize⟩ := resize_granted hr
  have hall : Granted (k+j) s.host.mem := granted_add.mpr ⟨hg,hj⟩
  refine ⟨s.setAside s.remoteSettings v (s.host.mem.drop j),?_,?_⟩
  · rw [entryEffect_certs hc,hresize s.host.mem (granted_of_add_left hall)]
    rfl
  · have hrest : Granted k (s.host.mem.drop j) := by
      rw [Nat.add_comm] at hall
      exact (granted_add.mp hall).2
    rw [entryEffect_window (e := e1) (s := s.setAside s.remoteSettings v (s.host.mem.drop j)) hw,hk _ v _ rfl hrest,
      List.drop_drop,Nat.add_comm j k,← List.drop_drop]
    have hresized := congrArg (fun x : Session => ({x.setMem ((s.host.mem.drop k).drop j) with cliCertvec := v},(none : Option Err))) hself
    exact hresized

theorem certs_windows_comm (hc : s.ResizesCerts e1) (hw : s.MovesWindows e2) (h1 : s.entryEffect e1 = (s1,none))
    (h2 : s1.entryEffect e2 = (s2,none)) : ∃ s1', s.entryEffect e2 = (s1',none) ∧ s1'.entryEffect e1 = (s2,none) := by
  obtain ⟨m',v,hr,rfl⟩ := certs_of_ok hc h1
  obtain ⟨j,hj,rfl,hresize⟩ := resize_granted hr
  rw [entryEffect_window (s := {s.setMem (s.host.mem.drop j) with cliCertvec := v}) hw] at h2
  obtain ⟨k,hg,hk⟩ := updateInitialWindowSize_succeeds (congrArg Prod.snd h2)
  rw [h2] at hk
  dsimp only at hk
  have hself : s2.setAside s.remoteSettings v ((s.host.mem.drop j).drop k) = s2 :=
    congrArg Prod.fst ((hk s.remoteSettings v (s.host.mem.drop j) rfl hg).symm.trans h2)
  have hall : Granted (j+k) s.host.mem := granted_add.mpr ⟨hj,hg⟩
  have hfirst := hk s.remoteSettings s.cliCertvec s.host.mem rfl (granted_of_add_left hall)
  refine ⟨s2.setAside s.remoteSettings s.cliCertvec (s.host.mem.drop k),?_,?_⟩
  · rw [entryEffect_window hw]
    exact hfirst
  · have hserver : s2.server = s.server := by
      have hf := (entryEffect_frame {s.setMem (s.host.mem.drop j) with cliCertvec := v} e2).2.1
      rw [entryEffect_window (s := {s.setMem (s.host.mem.drop j) with cliCertvec := v}) hw,h2] at hf
      exact hf
    have hc' : (s2.setAside s.remoteSettings s.cliCertvec (s.host.mem.drop k)).ResizesCerts e1 := ⟨hc.1,hserver.trans hc.2⟩
    have hrest : Granted j (s.host.mem.drop k) := by
      rw [Nat.add_comm] at hall
      exact (granted_add.mp hall).2
    have hval : (s2.setAside s.remoteSettings s.cliCertvec (s.host.mem.drop k)).storedValue e1 = s.storedValue e1 :=
      storedValue_congr _ _ hserver
    rw [entryEffect_certs hc',hval]
    have hx := hresize _ hrest
    rw [show (s2.setAside s.remoteSettings s.cliCertvec (s.host.mem.drop k)).cliCertvec.resize
      (s2.setAside s.remoteSettings s.cliCertvec (s.host.mem.drop k)).host.mem (s.storedValue e1) = _ from hx,
      List.drop_drop,Nat.add_comm k j,← List.drop_drop]
    exact congrArg (·,none) hself

theorem entryEffect_comm (hne : e1.settingsId ≠ e2.settingsId) (h1 : s.entryEffect e1 = (s1,none))
    (h2 : s1.entryEffect e2 = (s2,none)) : ∃ s1', s.entryEffect e2 = (s1',none) ∧ s1'.entryEffect e1 = (s2,none) := by
  obtain ⟨hflow,hserver,-⟩ := entryEffect_frame s e1
  rw [h1] at hflow hserver
  by_cases hw1 : s.MovesWindows e1
  · by_cases hc2 : s.ResizesCerts e2
    · exact windows_certs_comm hw1 hc2 h1 h2
    · have hw2 : ¬s.MovesWindows e2 := fun h => hne (hw1.1.trans h.1.symm)
      rw [entryEffect_other (mt (MovesWindows.congr hflow).mp hw2) (mt (ResizesCerts.congr hserver).mp hc2)] at h2
      cases h2
      exact ⟨s,entryEffect_other hw2 hc2,h1⟩
  · by_cases hc1 : s.ResizesCerts e1
    · by_cases hw2 : s.MovesWindows e2
      · exact certs_windows_comm hc1 hw2 h1 h2
      · have hc2 : ¬s.ResizesCerts e2 := fun h => hne (hc1.1.trans h.1.symm)
        rw [entryEffect_other (mt (MovesWindows.congr hflow).mp hw2) (mt (ResizesCerts.congr hserver).mp hc2)] at h2
        cases h2
        exact ⟨s,entryEffect_other hw2 hc2,h1⟩
    · rw [entryEffect_other hw1 hc1] at h1
      cases h1
      obtain ⟨hflow2,hserver2,-⟩ := entryEffect_frame s e2
      rw [h2] at hflow2 hserver2
      exact ⟨s2,h2,entryEffect_other (mt (MovesWindows.congr hflow2).mp hw1) (mt (ResizesCerts.congr hserver2).mp hc1)⟩

/-- What an entry does goes past a stored value of another id. -/
theorem entryEffect_store {id v : Nat} (hne : id ≠ e.settingsId) (h : s.entryEffect e = (s1,none)) :
    (s.store id v).entryEffect e = (s1.store id v,none) := by
  by_cases hw : s.MovesWindows e
  · rw [entryEffect_window hw] at h
    obtain ⟨k,hg,hk⟩ := updateInitialWindowSize_succeeds (congrArg Prod.snd h)
    rw [h] at hk
    dsimp only at hk
    have hself : s1.setAside s.remoteSettings s.cliCertvec (s.host.mem.drop k) = s1 :=
      congrArg Prod.fst ((hk s.remoteSettings s.cliCertvec s.host.mem rfl hg).symm.trans h)
    have hold : Function.update s.remoteSettings id v settingsInitialWindowSize = s.remoteSettings settingsInitialWindowSize := by
      apply Function.update_of_ne
      rw [← hw.1]
      exact hne.symm
    have hx := hk (Function.update s.remoteSettings id v) s.cliCertvec s.host.mem hold hg
    rw [entryEffect_window (s := s.store id v) hw,show s.store id v = s.setAside _ s.cliCertvec s.host.mem from rfl,hx]
    have hstored := congrArg (fun x : Session => (x.store id v,(none : Option Err))) hself
    exact hstored
  · by_cases hc : s.ResizesCerts e
    · obtain ⟨m,cv,hr,rfl⟩ := certs_of_ok hc h
      rw [entryEffect_certs (s := s.store id v) hc]
      rw [show (s.store id v).cliCertvec.resize (s.store id v).host.mem ((s.store id v).storedValue e) = _ from hr]
      rfl
    · rw [entryEffect_other hw hc] at h
      cases h
      exact entryEffect_other (s := s.store id v) hw hc

/-! Lists of entries. -/

/-- An entry that is applied without an error. -/
def Applies (s : Session) (e : SettingsEntry) (s' : Session) : Prop :=
  ∃ t, s.entryEffect e = (t,none) ∧ s' = t.store e.settingsId (s.storedValue e)

theorem applies_iff : s.Applies e s1 ↔ s.applySettingsEntry e = (s1,{e with value := s.storedValue e},none) := by
  rw [applySettingsEntry_eq]
  constructor
  · rintro ⟨t,ht,rfl⟩
    rw [ht]
  · intro h
    cases he : (s.entryEffect e).2 with
    | some err =>
      rw [he] at h
      cases h
    | none =>
      rw [he] at h
      refine ⟨(s.entryEffect e).1,Prod.ext rfl he,?_⟩
      exact (congrArg Prod.fst h).symm

theorem store_store_self (s : Session) (id v : Nat) : (s.store id v).store id (s.remoteSettings id) = s := by
  rw [store,store]
  dsimp only
  rw [Function.update_idem,Function.update_eq_self]

theorem Applies.comm (hne : e1.settingsId ≠ e2.settingsId) (h1 : s.Applies e1 s1) (h2 : s1.Applies e2 s2) :
    ∃ s1', s.Applies e2 s1' ∧ s1'.Applies e1 s2 := by
  obtain ⟨t,ht,rfl⟩ := h1
  obtain ⟨u',hu',rfl⟩ := h2
  obtain ⟨-,hserver,-⟩ := entryEffect_frame s e1
  rw [ht] at hserver
  -- the second entry without the value of the first
  have hu := entryEffect_store (v := t.remoteSettings e1.settingsId) hne hu'
  rw [store_store_self] at hu
  generalize u'.store e1.settingsId (t.remoteSettings e1.settingsId) = u at hu
  rw [entryEffect_store hne hu] at hu'
  cases hu'
  obtain ⟨t',ht',hu2⟩ := entryEffect_comm hne ht hu
  obtain ⟨-,hserver',-⟩ := entryEffect_frame s e2
  rw [ht'] at hserver'
  refine ⟨_,⟨t',ht',rfl⟩,_,entryEffect_store (Ne.symm hne) hu2,?_⟩
  rw [storedValue_congr (t'.store e2.settingsId (s.storedValue e2)) s hserver',
    storedValue_congr (t.store e1.settingsId (s.storedValue e1)) s hserver]
  rw [store,store,store,store]
  dsimp only
  rw [Function.update_comm hne]

/-- One entry after the other. -/
inductive AppliesAll : Session → List SettingsEntry → Session → Prop
  | nil (s : Session) : AppliesAll s [] s
  | cons {s s' s'' : Session} {e : SettingsEntry} {es : List SettingsEntry} : s.Applies e s' → AppliesAll s' es s'' →
      AppliesAll s (e :: es) s''

theorem AppliesAll.perm {es es' : List SettingsEntry} (hp : es.Perm es') (hd : (es.map SettingsEntry.settingsId).Nodup)
    (h : AppliesAll s es s1) : AppliesAll s es' s1 := by
  induction hp generalizing s with
  | nil => exact h
  | cons e _ ih =>
    rw [List.map_cons,List.nodup_cons] at hd
    cases h with
    | cons he hes => exact .cons he (ih hd.2 hes)
  | swap e2 e1 l =>
    rw [List.map_cons,List.map_cons,List.nodup_cons,List.mem_cons,not_or] at hd
    cases h with
    | cons h1 hrest =>
      cases hrest with
      | cons h2 hl =>
        obtain ⟨s1',ha,hb⟩ := h1.comm hd.1.1 h2
        exact .cons ha (.cons hb hl)
  | trans hp1 _ ih1 ih2 => exact ih2 ((hp1.map _).nodup_iff.mp hd) (ih1 hd h)

/-- The entries that count: the first one of each known id. -/
def effective : List Nat → List SettingsEntry → List SettingsEntry
  | _, [] => []
  | check, e :: rest =>
    if settingsMax < e.settingsId ∨ e.settingsId = 0 ∨ e.settingsId ∈ check then effective check rest
    else e :: effective (e.settingsId :: check) rest

theorem settingsLoop_ok {iv : List SettingsEntry} {check : List Nat} (done : List SettingsEntry)
    (h : (settingsLoop iv check done s).2.2 = none) :
    AppliesAll s (effective check iv) (settingsLoop iv check done s).1 := by
  induction iv generalizing check done s with
  | nil => exact .nil s
  | cons e rest ih =>
    rw [settingsLoop] at h ⊢
    rw [effective]
    split
    · rename_i hskip
      rw [if_pos hskip] at h
      exact ih _ h
    · rename_i hskip
      rw [if_neg hskip] at h
      dsimp only at h ⊢
      cases he : (s.applySettingsEntry e).2.2 with
      | some err =>
        rw [he] at h
        cases h
      | none =>
        rw [he] at h
        refine .cons (applies_iff.mpr ?_) (ih _ h)
        have heq := applySettingsEntry_eq s e
        cases hr : (s.entryEffect e).2 with
        | some err =>
          rw [heq,hr] at he
          cases he
        | none =>
          rw [hr] at heq
          rw [heq]

theorem settingsLoop_of_applies {iv : List SettingsEntry} {check : List Nat} (done : List SettingsEntry)
    (h : AppliesAll s (effective check iv) s1) :
    (settingsLoop iv check done s).1 = s1 ∧ (settingsLoop iv check done s).2.2 = none := by
  induction iv generalizing check done s with
  | nil =>
    cases h
    exact ⟨rfl,rfl⟩
  | cons e rest ih =>
    rw [effective] at h
    rw [settingsLoop]
    split
    · rename_i hskip
      rw [if_pos hskip] at h
      exact ih _ h
    · rename_i hskip
      rw [if_neg hskip] at h
      cases h with
      | cons he hes =>
        rw [applies_iff.mp he]
        exact ih _ hes

/-! Which entries count. -/

def isKnown (e : SettingsEntry) : Bool := 0 < e.settingsId ∧ e.settingsId ≤ settingsMax

theorem effective_mem {iv : List SettingsEntry} {check : List Nat} (h : e ∈ effective check iv) :
    isKnown e = true ∧ e.settingsId ∉ check ∧ e ∈ iv := by
  induction iv generalizing check with
  | nil => cases h
  | cons x rest ih =>
    rw [effective] at h
    split at h
    · obtain ⟨h1,h2,h3⟩ := ih h
      exact ⟨h1,h2,.tail _ h3⟩
    · rename_i hskip
      rw [not_or,not_or] at hskip
      rcases List.mem_cons.mp h with rfl | h
      · refine ⟨?_,hskip.2.2,.head _⟩
        simp only [isKnown,decide_eq_true_eq]
        omega
      · obtain ⟨h1,h2,h3⟩ := ih h
        exact ⟨h1,fun hx => h2 (.tail _ hx),.tail _ h3⟩

theorem effective_nodup (check : List Nat) (iv : List SettingsEntry) :
    ((effective check iv).map SettingsEntry.settingsId).Nodup := by
  induction iv generalizing check with
  | nil => exact List.nodup_nil
  | cons x rest ih =>
    rw [effective]
    split
    · exact ih check
    · rw [List.map_cons,List.nodup_cons]
      refine ⟨?_,ih _⟩
      intro hx
      obtain ⟨e,he,hid⟩ := List.mem_map.mp hx
      obtain ⟨-,hc,-⟩ := effective_mem he
      exact hc (hid ▸ .head _)

theorem effective_of_nodup {iv : List SettingsEntry} {check : List Nat} (hd : (iv.map SettingsEntry.settingsId).Nodup)
    (hc : ∀ e ∈ iv, e.settingsId ∉ check) : effective check iv = iv.filter isKnown := by
  induction iv generalizing check with
  | nil => rfl
  | cons x rest ih =>
    rw [List.map_cons,List.nodup_cons] at hd
    obtain ⟨hx,hrest⟩ := List.forall_mem_cons.mp hc
    rw [effective]
    by_cases hk : isKnown x = true
    · have hin : 0 < x.settingsId ∧ x.settingsId ≤ settingsMax := by simpa [isKnown] using hk
      have hskip : ¬(settingsMax < x.settingsId ∨ x.settingsId = 0 ∨ x.settingsId ∈ check) := by
        rintro (h | h | h)
        · omega
        · omega
        · exact hx h
      rw [if_neg hskip,List.filter_cons_of_pos hk,ih hd.2]
      intro e he hmem
      rcases List.mem_cons.mp hmem with heq | hmem
      · exact hd.1 (List.mem_map.mpr ⟨e,he,heq⟩)
      · exact hrest e he hmem
    · have hout : ¬(0 < x.settingsId ∧ x.settingsId ≤ settingsMax) := by simpa [isKnown] using hk
      rw [if_pos (by omega),List.filter_cons_of_neg hk,ih hd.2 hrest]

theorem effective_effective (iv : List SettingsEntry) : effective [] (effective [] iv) = effective [] iv := by
  rw [effective_of_nodup (effective_nodup [] iv) (fun _ _ => List.not_mem_nil)]
  apply List.filter_eq_self.mpr
  intro e he
  exact (effective_mem he).1

/-- The first entry of an id. -/
def firstOf (id : Nat) (iv : List SettingsEntry) : Option SettingsEntry := iv.find? (fun e => e.settingsId = id)

theorem firstOf_effective {iv : List SettingsEntry} {check : List Nat} {id : Nat} (h0 : 0 < id) (hmax : id ≤ settingsMax)
    (hc : id ∉ check) : firstOf id (effective check iv) = firstOf id iv := by
  induction iv generalizing check with
  | nil => rfl
  | cons x rest ih =>
    rw [effective]
    by_cases hx : x.settingsId = id
    · have hskip : ¬(settingsMax < x.settingsId ∨ x.settingsId = 0 ∨ x.settingsId ∈ check) := by
        rw [hx]
        rintro (h | h | h)
        · omega
        · omega
        · exact hc h
      rw [if_neg hskip]
      simp [firstOf,hx]
    · have htail : firstOf id (x :: rest) = firstOf id rest := by simp [firstOf,hx]
      rw [htail]
      split
      · exact ih hc
      · have hkeep : firstOf id (x :: effective (x.settingsId :: check) rest) =
            firstOf id (effective (x.settingsId :: check) rest) := by simp [firstOf,hx]
        rw [hkeep]
        apply ih
        intro hmem
        rcases List.mem_cons.mp hmem with heq | hmem
        · exact hx heq.symm
        · exact hc hmem

theorem firstOf_unknown {iv : List SettingsEntry} {id : Nat} (h : id = 0 ∨ settingsMax < id) :
    firstOf id (effective [] iv) = none := by
  apply List.find?_eq_none.mpr
  intro e he hid
  have hk := (effective_mem he).1
  simp only [isKnown,decide_eq_true_eq] at hk hid
  omega

/-- The values that are left. -/
theorem AppliesAll.remote {es : List SettingsEntry} (hd : (es.map SettingsEntry.settingsId).Nodup) (h : AppliesAll s es s1)
    (id : Nat) : s1.remoteSettings id = ((firstOf id es).map s.storedValue).getD (s.remoteSettings id) := by
  induction h with
  | nil s => rfl
  | @cons s s' s'' e es he hes ih =>
    rw [List.map_cons,List.nodup_cons] at hd
    obtain ⟨t,ht,rfl⟩ := he
    obtain ⟨-,hserver,hremote⟩ := entryEffect_frame s e
    rw [ht] at hserver hremote
    rw [ih hd.2]
    have hstored : (t.store e.settingsId (s.storedValue e)).storedValue = s.storedValue := by
      funext x
      exact storedValue_congr (t.store e.settingsId (s.storedValue e)) s hserver
    rw [hstored,store]
    dsimp only
    rw [hremote]
    by_cases hid : e.settingsId = id
    · subst hid
      have hnone : firstOf e.settingsId es = none := by
        apply List.find?_eq_none.mpr
        intro x hx hxe
        exact hd.1 (List.mem_map.mpr ⟨x,hx,by simpa using hxe⟩)
      have hfirst : firstOf e.settingsId (e :: es) = some e := by simp [firstOf]
      rw [hnone,hfirst]
      exact Function.update_self _ _ _
    · have htail : firstOf id (e :: es) = firstOf id es := by simp [firstOf,hid]
      rw [htail,Function.update_of_ne (Ne.symm hid)]

/-! The frame as a whole. -/

/-- The state without the record of the calls. -/
def unlogged (s : Session) : Session := {s with host := {s.host with log := []}}

theorem onSettingsReceived_ok {f : Settings} (hv : s.checkVersion f.hd.version = true) :
    (s.onSettingsReceived f).2 = none ↔ ∃ s', AppliesAll s (effective [] f.iv) s' := by
  rw [onSettingsReceived,hv]
  constructor
  · intro h
    refine ⟨_,settingsLoop_ok [] ?_⟩
    cases hr : (settingsLoop f.iv [] [] s).2.2 with
    | none => rfl
    | some e =>
      simp only [hr] at h
      cases h
  · rintro ⟨s',h⟩
    obtain ⟨-,hr⟩ := settingsLoop_of_applies [] h
    simp only [hr]
    rfl

theorem onSettingsReceived_eq {f : Settings} (hv : s.checkVersion f.hd.version = true)
    (h : AppliesAll s (effective [] f.iv) s1) : ∃ e, (s.onSettingsReceived f).1 = s1.emit e := by
  obtain ⟨h1,h2⟩ := settingsLoop_of_applies [] h
  rw [onSettingsReceived,hv]
  simp only [h2]
  rw [h1]
  exact ⟨_,rfl⟩

/-- What a SETTINGS frame should leave. -/
structure SettingsApplied (s : Session) (f : Settings) (s' : Session) : Prop where
  first : ∀ id, 0 < id → id ≤ settingsMax → ∀ e, firstOf id f.iv = some e → s'.remoteSettings id =
    if id = settingsClientCertificateVectorSize ∧ s.server = false then min e.value 255 else e.value
  other : ∀ id, id = 0 ∨ settingsMax < id ∨ firstOf id f.iv = none → s'.remoteSettings id = s.remoteSettings id
  windows : s.flowControl = true → ∀ id st, s.getStream id = some st → ∃ st', s'.getStream id = some st' ∧
    ∀ v : Nat, v = ((firstOf settingsInitialWindowSize f.iv).map SettingsEntry.value).getD s.initialSendWindow →
      st'.windowSize % 4294967296 = (st.windowSize+(v-s.initialSendWindow)) % 4294967296
  ignored : (s.onSettingsReceived {f with iv := effective [] f.iv}).2 = none ∧
    (s.onSettingsReceived {f with iv := effective [] f.iv}).1.unlogged = s'.unlogged
  order : (f.iv.map SettingsEntry.settingsId).Nodup → ∀ iv', f.iv.Perm iv' →
    (s.onSettingsReceived {f with iv := iv'}).2 = none ∧ (s.onSettingsReceived {f with iv := iv'}).1.unlogged = s'.unlogged

theorem same_state {f : Settings} {iv' : List SettingsEntry} (hv : s.checkVersion f.hd.version = true)
    (h : AppliesAll s (effective [] f.iv) s1) (h' : AppliesAll s (effective [] iv') s1) :
    (s.onSettingsReceived {f with iv := iv'}).2 = none ∧
      (s.onSettingsReceived {f with iv := iv'}).1.unlogged = (s.onSettingsReceived f).1.unlogged := by
  refine ⟨(onSettingsReceived_ok (f := {f with iv := iv'}) hv).mpr ⟨s1,h'⟩,?_⟩
  obtain ⟨e,he⟩ := onSettingsReceived_eq hv h
  obtain ⟨e',he'⟩ := onSettingsReceived_eq (f := {f with iv := iv'}) hv h'
  rw [he,he']
  rfl

theorem newWindow_mod {v : Nat} (hv : v < 2147483648) (w : Int) :
    Machine.newWindow s v w % 4294967296 = (w+(v-s.initialSendWindow)) % 4294967296 := by
  have he : Machine.newWindow s v w = s.windowArith.store (v-s.windowArith.store (toInt32 s.initialSendWindow-w)) :=
    if_pos hv
  rw [he]
  cases s.windowArith with
  | int32 =>
    simp only [WindowArith.store,toInt32]
    omega
  | unbounded =>
    simp only [WindowArith.store,toInt32]
    omega

/-- The window of every stream after the entries that count. -/
theorem settings_windows {f : Settings} (hf : s.flowControl = true)
    (hw : ∀ e ∈ f.iv, e.settingsId = settingsInitialWindowSize → e.value < 2147483648)
    (h : AppliesAll s (effective [] f.iv) s1) {id : Int} {st : Stream} (hst : s.getStream id = some st) :
    ∃ st', s1.getStream id = some st' ∧
      ∀ v : Nat, v = ((firstOf settingsInitialWindowSize f.iv).map SettingsEntry.value).getD s.initialSendWindow →
        st'.windowSize % 4294967296 = (st.windowSize+(v-s.initialSendWindow)) % 4294967296 := by
  obtain ⟨hl1,hl2⟩ := settingsLoop_of_applies [] h
  obtain ⟨hkeep,hmove⟩ := Machine.settingsLoop_windows f.iv [] [] s hf hl2
  rw [hl1] at hkeep hmove
  have hget : ∀ g : Int → Int, (s1.getStream id).map Stream.windowSize = (s.getStream id).map (fun st => g st.windowSize) →
      ∃ st', s1.getStream id = some st' ∧ st'.windowSize = g st.windowSize := by
    intro g hg
    rw [hst,Option.map_some] at hg
    obtain ⟨st',hst',hgw⟩ := Option.map_eq_some_iff.mp hg
    exact ⟨st',hst',hgw⟩
  cases hfirst : firstOf settingsInitialWindowSize f.iv with
  | none =>
    have hnone : settingsWindow f.iv = none := congrArg (Option.map SettingsEntry.value) hfirst
    obtain ⟨st',hst',hw'⟩ := hget (fun w => w) ((hkeep (.inr hnone)).windows id)
    refine ⟨st',hst',?_⟩
    rintro v rfl
    rw [hw',Option.map_none,Option.getD_none]
    congr 1
    omega
  | some e =>
    have hsome : settingsWindow f.iv = some e.value := congrArg (Option.map SettingsEntry.value) hfirst
    obtain ⟨st',hst',hw'⟩ := hget (Machine.newWindow s e.value) ((hmove e.value List.not_mem_nil hsome).windows id)
    refine ⟨st',hst',?_⟩
    rintro v rfl
    have hid : e.settingsId = settingsInitialWindowSize := by simpa using List.find?_some hfirst
    rw [hw',Option.map_some,Option.getD_some]
    exact newWindow_mod (hw e (List.mem_of_find?_eq_some hfirst) hid) st.windowSize

theorem settings_applied (s : Session) (f : Settings) (hv : s.checkVersion f.hd.version = true)
    (hw : ∀ e ∈ f.iv, e.settingsId = settingsInitialWindowSize → e.value < 2147483648)
    (h : (s.onSettingsReceived f).2 = none) : s.SettingsApplied f (s.onSettingsReceived f).1 := by
  obtain ⟨s1,h1⟩ := (onSettingsReceived_ok hv).mp h
  obtain ⟨ev,hs1⟩ := onSettingsReceived_eq hv h1
  have hremote : ∀ id, (s.onSettingsReceived f).1.remoteSettings id =
      ((firstOf id (effective [] f.iv)).map s.storedValue).getD (s.remoteSettings id) := by
    intro id
    rw [hs1]
    exact h1.remote (effective_nodup [] f.iv) id
  constructor
  · intro id h0 hmax e he
    rw [hremote,firstOf_effective h0 hmax List.not_mem_nil,he]
    have hid : e.settingsId = id := by simpa using List.find?_some he
    rw [Option.map_some,Option.getD_some,storedValue,hid]
    simp only [Bool.not_eq_true',maxClientCertVectorLength]
  · intro id hid
    rw [hremote]
    by_cases hk : 0 < id ∧ id ≤ settingsMax
    · rw [firstOf_effective hk.1 hk.2 List.not_mem_nil,hid.resolve_left (by omega) |>.resolve_left (by omega)]
      rfl
    · rw [firstOf_unknown (by omega)]
      rfl
  · intro hf id st hst
    rw [hs1]
    exact settings_windows hf hw h1 hst
  · apply same_state hv h1
    rwa [effective_effective]
  · intro hd iv' hp
    apply same_state hv h1
    have hd' := (hp.map SettingsEntry.settingsId).nodup_iff.mp hd
    rw [effective_of_nodup hd (fun _ _ => List.not_mem_nil)] at h1
    rw [effective_of_nodup hd' (fun _ _ => List.not_mem_nil)]
    apply h1.perm (hp.filter _)
    exact hd.sublist (List.filter_sublist.map _)

/-- A repeated id, the certificate vector, an unknown id and the initial window. -/
def repeatedSettings : Settings := ⟨⟨3,4,0⟩,[⟨4,0,9⟩,⟨4,0,5⟩,⟨8,0,512⟩,⟨999,0,0⟩,⟨7,0,4096⟩]⟩

/-- A server with an open stream, whose send window changes. -/
theorem repeated_settings_applied :
    let s := ((sampleServer [] []).start peerPlatform).run peerPlatform [.memRecv (firstRequest 0 1)]
    (s.getStream 1).map Stream.windowSize = some 1048576 ∧
    ((s.onSettingsReceived repeatedSettings).1.getStream 1).map Stream.windowSize = some 4096 ∧
    s.SettingsApplied repeatedSettings (s.onSettingsReceived repeatedSettings).1 :=
  ⟨by decide +kernel,by decide +kernel,
    settings_applied _ repeatedSettings (by decide +kernel) (by decide) (by decide +kernel)⟩

end Session
end Spdylay
