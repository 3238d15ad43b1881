import Spdylay.Machine.Receiving
import Spdylay.Machine.Sending

/-! Every run of a session is a run of the machine, so that what the moves keep
holds after every sequence of calls. -/
namespace Spdylay.Machine
open Session

inductive Move (c c' : Core) : Prop
  | act : Act c c' → Move c c'
  | inb : Inb c c' → Move c c'
  | rd : Rd c c' → Move c c'
  | outb : Outb c c' → Move c c'
  | report (e : Err) : c' = c.note (.fatal e) → Move c c'

abbrev SysSteps : Core → Core → Prop := Relation.ReflTransGen Move

theorem ReadSteps.sysSteps {c c' : Core} (h : ReadSteps c c') : SysSteps c c' :=
  Relation.ReflTransGen.mono (fun _ _ hm => hm.elim .act (Or.elim · .inb .rd)) _ _ h

theorem OutSteps.sysSteps {c c' : Core} (h : OutSteps c c') : SysSteps c c' :=
  Relation.ReflTransGen.mono (fun _ _ hm => hm.elim .act .outb) _ _ h

/-- A fatal result has been returned to the caller. -/
def Failed (log : List Event) : Prop := ∃ e, Event.fatal e ∈ log

/-- The calls that neither send nor receive. -/
theorem submission_steps (P : Platform) (s : Session) (op : Op) (g : Ghost) (hs : op ≠ .send)
    (hr : ∀ input, op ≠ .memRecv input) : Steps (core s g) (core (s.call P op).1 g) := by
  cases op with
  | submitSynStream flags assocStreamId pri nv => exact submitSynStreamShared_steps P s _ _ _ _ _ g
  | submitServerPush assocStreamId nv dataPrd => exact submitSynStreamShared_steps P s _ _ _ _ _ g
  | submitRequest pri nv dataPrd => exact submitSynStreamShared_steps P s _ _ _ _ _ g
  | submitSynReply flags streamId nv => exact submitHeaderBlock_steps nv 2 s _ none g
  | submitHeaders flags streamId nv => exact submitHeaderBlock_steps nv 2 s _ none g
  | submitResponse streamId nv dataPrd =>
    exact submitHeaderBlock_steps nv (if dataPrd.isSome then 3 else 2) s _ dataPrd g
  | submitData streamId flags dataPrd => exact submitData_steps s streamId flags dataPrd g
  | submitPing => exact addCtrl_steps s.getNextUniqueId.1 _ g
  | submitRstStream streamId statusCode => exact addCtrl_steps s _ g
  | submitGoaway statusCode => exact addCtrl_steps s _ g
  | submitSettings flags iv => exact submitSettings_steps P s flags iv g
  | submitWindowUpdate streamId delta => exact submitWindowUpdate_steps s streamId delta g
  | resumeData streamId => exact resumeData_steps s streamId g
  | setNoAutoWindowUpdate on => exact .refl
  | setMaxRecvCtrlFrameBuffer n =>
    simp only [call,setMaxRecvCtrlFrameBuffer]
    split <;> exact .refl
  | setInitialClientCertOrigin scheme host port =>
    simp only [call,setInitialClientCertOrigin]
    split_ifs <;> exact .refl
  | send => exact absurd rfl hs
  | memRecv input => exact absurd rfl (hr input)

/-- What a call does to the books, with the reasons for new marks. -/
structure Calls (s : Session) (g : Ghost) (s' : Session) (g' : Ghost) : Prop where
  steps : SysSteps (core s g) (core s' g')
  hand : g'.hand = none
  stuck : g'.stuck = true → g.stuck = true ∨ Failed s'.host.log
  oversize : g'.oversize = true → g.oversize = true ∨ Failed s'.host.log ∨ Oversize s'.host.log

theorem step_calls (P : Platform) (s : Session) (op : Op) (g : Ghost) (hg : g.hand = none) :
    ∃ g', Calls s g (s.step P op) g' := by
  -- the call itself
  have hcall : ∃ g', SysSteps (core s g) (core (s.call P op).1 g') ∧ g'.hand = none ∧
      (g'.stuck = true → g.stuck = true ∨ Fatal (s.call P op).2) ∧
      (g'.oversize = true → g.oversize = true ∨ Fatal (s.call P op).2 ∨ Oversize (s.call P op).1.host.log) := by
    by_cases hs : op = .send
    · subst hs
      exact ⟨g,(sendLoop_steps P s.sendFuel s hg).sysSteps,hg,.inl,.inl⟩
    · by_cases hr : ∃ input, op = .memRecv input
      · obtain ⟨input,rfl⟩ := hr
        obtain ⟨g',h⟩ := recvLoop_reads P (recvFuel input) s input g
        exact ⟨g',h.steps.sysSteps,h.hand.trans hg,h.stuck,h.oversize⟩
      · exact ⟨g,(submission_steps P s op g hs (not_exists.mp hr)).outSteps.sysSteps,hg,.inl,.inl⟩
  obtain ⟨g',hst,hh,hk,ho⟩ := hcall
  unfold step
  dsimp only
  split
  · rename_i e he
    rw [he] at hk ho
    split
    · rename_i hf
      have hlog : Failed ((s.call P op).1.emit (.fatal e)).host.log :=
        ⟨e,List.mem_append_right _ (List.mem_singleton.mpr rfl)⟩
      exact ⟨g',hst.tail (.report e rfl),hh,fun _ => .inr hlog,fun _ => .inr (.inl hlog)⟩
    · rename_i hf
      have hn : ¬Fatal (some e) := by
        rintro ⟨e',he',hf'⟩
        cases he'
        exact hf hf'
      refine ⟨g',hst,hh,fun h => .inl ((hk h).resolve_right hn),fun h => ?_⟩
      rcases ho h with h | h | h
      · exact .inl h
      · exact absurd h hn
      · exact .inr (.inr h)
  · rename_i he
    have hn : ¬Fatal (s.call P op).2 := by
      rintro ⟨e',he',-⟩
      rw [he] at he'
      cases he'
    refine ⟨g',hst,hh,fun h => .inl ((hk h).resolve_right hn),fun h => ?_⟩
    rcases ho h with h | h | h
    · exact .inl h
    · exact absurd h hn
    · exact .inr (.inr h)

/-- A step without a report is the call itself. -/
theorem step_eq_call {P : Platform} {s : Session} {op : Op} (h : ∀ e, Event.fatal e ∉ (s.step P op).host.log) :
    s.step P op = (s.call P op).1 := by
  unfold step at h ⊢
  dsimp only at h ⊢
  split at h
  · rename_i e he
    split at h
    · exact absurd (List.mem_append_right _ (List.mem_singleton.mpr rfl)) (h e)
    · rename_i hf
      rw [if_neg hf]
  · rfl

theorem run_append_singleton (P : Platform) (s : Session) (ops : List Op) (op : Op) :
    s.run P (ops ++ [op]) = (s.run P ops).step P op := by simp [run]

theorem SysSteps.log_prefix {c c' : Core} (h : SysSteps c c') : c.log <+: c'.log := by
  induction h with
  | refl => exact List.prefix_refl _
  | tail _ hm ih =>
    cases hm with
    | act hm => exact ih.trans hm.log_prefix
    | inb hm => exact ih.trans hm.log_prefix
    | rd hm => exact ih.trans hm.log_prefix
    | outb hm => exact ih.trans hm.log_prefix
    | report e he =>
      rw [he]
      exact ih.trans (List.prefix_append _ _)

def cleanGhost : Ghost := ⟨none,false,false⟩

/-- Runs of calls are runs of the machine. -/
theorem run_calls (P : Platform) (s : Session) (ops : List Op) :
    ∃ g, Calls s cleanGhost (s.run P ops) g := by
  induction ops using List.reverseRecOn with
  | nil => exact ⟨cleanGhost,.refl,rfl,.inl,.inl⟩
  | append_singleton ops op ih =>
    obtain ⟨g,h⟩ := ih
    obtain ⟨g',h'⟩ := step_calls P (s.run P ops) op g h.hand
    rw [run_append_singleton]
    have hp := h'.steps.log_prefix
    have hfail : Failed (s.run P ops).host.log → Failed ((s.run P ops).step P op).host.log :=
      fun ⟨e,he⟩ => ⟨e,hp.subset he⟩
    refine ⟨g',h.steps.trans h'.steps,h'.hand,?_,?_⟩
    · intro hs
      rcases h'.stuck hs with hs | hs
      · exact (h.stuck hs).imp_right hfail
      · exact .inr hs
    · intro hs
      rcases h'.oversize hs with hs | hs
      · rcases h.oversize hs with hs | hs | hs
        · exact .inl hs
        · exact .inr (.inl (hfail hs))
        · exact .inr (.inr (hs.mono hp))
      · exact .inr hs

/-- The books of a new session. -/
def initialCore (P : Platform) (u : Setup) : Core where
  server := u.server
  flowControl := u.version = .spdy3
  arith := u.arith
  nextStreamId := if u.server then 2 else 1
  lastRecvStreamId := 0
  nextSeq := 0
  streams := .empty
  numOutgoing := 0
  numIncoming := 0
  remoteSettings := initialSettings
  obPq := 0
  obSsPq := 0
  active := none
  framebuf := []
  framebufoff := 0
  iframe := (u.start P).iframe
  inflater := ⟨[],false⟩
  log := []
  ghost := cleanGhost

theorem core_start (P : Platform) (u : Setup) : core (u.start P) cleanGhost = initialCore P u := by
  unfold initialCore Setup.start
  cases u.server <;> rfl

/-- What holds of every new session and is kept by every move. -/
structure Invariant (I : Core → Prop) : Prop where
  start : ∀ (P : Platform) (u : Setup), I (initialCore P u)
  act : ∀ c c', Act c c' → I c → I c'
  inb : ∀ c c', Inb c c' → I c → I c'
  read : ∀ c f z, I c → I {c with iframe := f, inflater := z}
  outb : ∀ c c', Outb c c' → I c → I c'
  report : ∀ c e, I c → I (c.note (.fatal e))

theorem Invariant.sysSteps {I : Core → Prop} (h : Invariant I) {c c' : Core} (hs : SysSteps c c') (hc : I c) : I c' := by
  induction hs with
  | refl => exact hc
  | tail _ hm ih =>
    cases hm with
    | act hm => exact h.act _ _ hm ih
    | inb hm => exact h.inb _ _ hm ih
    | rd hm =>
      cases hm with
      | read f z => exact h.read _ f z ih
    | outb hm => exact h.outb _ _ hm ih
    | report e he =>
      rw [he]
      exact h.report _ e ih

/-- An invariant holds after every run, with its marks explained by the log. -/
theorem Invariant.run {I : Core → Prop} (h : Invariant I) (P : Platform) (u : Setup) (ops : List Op) :
    ∃ g, I (core ((u.start P).run P ops) g) ∧ g.hand = none ∧
      (g.stuck = true → Failed ((u.start P).run P ops).host.log) ∧
      (g.oversize = true → Failed ((u.start P).run P ops).host.log ∨ Oversize ((u.start P).run P ops).host.log) := by
  obtain ⟨g,hc⟩ := run_calls P (u.start P) ops
  have h0 : I (core (u.start P) cleanGhost) := by
    rw [core_start]
    exact h.start P u
  exact ⟨g,h.sysSteps hc.steps h0,hc.hand,fun hs => (hc.stuck hs).resolve_left nofun,
    fun hs => (hc.oversize hs).resolve_left nofun⟩

end Spdylay.Machine
