import Spdylay.Library.History
import Spdylay.Session.Runs

/-! Runs at a finer grain: the two halves of a pass of the send loop, the passes of
the receive loop, the other calls and the reports of fatal errors, in any order.
Every state of a run is reached so, and so are the states inside a call. -/
namespace Spdylay
open Library Session

/-- The first half of a pass of the send loop: the next item is prepared. -/
def Session.prepareNext (P : Platform) (s : Session) : Session :=
  match s.popNextObItem with
  | none => s
  | some (item, s1) =>
    let p := prepFrame P s1 item
    match p.result with
    | .ok bytes => p.ses.activate p.item bytes
    | .error .deferred => p.ses
    | .error .credentialPending => p.ses
    | .error e => p.ses.dropItem p.item e

/-- Half a pass of the send loop, a pass of the receive loop, or one other call. -/
inductive Turn (P : Platform) : Session → Session → Prop
  | prepare (s : Session) : s.aob.item = none → Turn P s (s.prepareNext P)
  | write (s : Session) (item : OutboundItem) : s.aob.item = some item → Turn P s (s.sendWrite item).1
  | recv (s : Session) (input : Bytes) : Turn P s (s.recvIter P input).1
  | submit (s : Session) (op : Op) : op ≠ .send → (∀ input, op ≠ .memRecv input) → Turn P s (s.call P op).1
  | report (s : Session) (e : Err) : Turn P s (s.emit (.fatal e))

abbrev Turns (P : Platform) : Session → Session → Prop := Relation.ReflTransGen (Turn P)

theorem activate_active (s : Session) (item : OutboundItem) (bytes : Bytes) :
    (s.activate item bytes).aob.item = some item := by
  unfold activate
  split <;> rfl

/-! A relation that each half of a pass respects is respected by the loop. -/

section Loops
variable {P : Platform} {R : Session → Session → Prop}

theorem sendIter_related (hrefl : ∀ s, R s s) (htrans : ∀ s1 s2 s3, R s1 s2 → R s2 s3 → R s1 s3)
    (hprepare : ∀ s, s.aob.item = none → R s (s.prepareNext P))
    (hwrite : ∀ s item, s.aob.item = some item → R s (s.sendWrite item).1) (s : Session) : R s (sendIter P s).1 := by
  unfold sendIter
  cases ha : s.aob.item with
  | some item => exact hwrite s item ha
  | none =>
    have h := hprepare s ha
    unfold prepareNext at h
    dsimp only
    cases hp : s.popNextObItem with
    | none => exact hrefl s
    | some r =>
      obtain ⟨item,s1⟩ := r
      rw [hp] at h
      dsimp only at h ⊢
      cases hr : (prepFrame P s1 item).result with
      | ok bytes =>
        rw [hr] at h
        exact htrans _ _ _ h (hwrite _ _ (activate_active _ _ _))
      | error e =>
        rw [hr] at h
        cases e <;> exact h

theorem sendLoop_related (hrefl : ∀ s, R s s) (htrans : ∀ s1 s2 s3, R s1 s2 → R s2 s3 → R s1 s3)
    (hprepare : ∀ s, s.aob.item = none → R s (s.prepareNext P))
    (hwrite : ∀ s item, s.aob.item = some item → R s (s.sendWrite item).1) (fuel : Nat) (s : Session) :
    R s (sendLoop P fuel s).1 := by
  induction fuel generalizing s with
  | zero => exact hrefl s
  | succ fuel ih =>
    have h := sendIter_related hrefl htrans hprepare hwrite s
    unfold sendLoop
    split
    · rename_i heq
      rw [heq] at h
      exact h
    · rename_i heq
      rw [heq] at h
      exact htrans _ _ _ h (ih _)

theorem recvLoop_related (hrefl : ∀ s, R s s) (htrans : ∀ s1 s2 s3, R s1 s2 → R s2 s3 → R s1 s3)
    (hrecv : ∀ s input, R s (s.recvIter P input).1) (fuel : Nat) (s : Session) (input : Bytes) :
    R s (s.recvLoop P fuel input).1 := by
  induction fuel generalizing s input with
  | zero => exact hrefl s
  | succ fuel ih =>
    have h := hrecv s input
    unfold recvLoop
    dsimp only
    split
    · exact h
    · exact htrans _ _ _ h (ih _ _)

end Loops

theorem sendIter_turns (P : Platform) (s : Session) : Turns P s (sendIter P s).1 :=
  sendIter_related (fun _ => .refl) (fun _ _ _ => .trans) (fun s ha => .single (.prepare s ha))
    (fun s item ha => .single (.write s item ha)) s

theorem sendLoop_turns (P : Platform) (fuel : Nat) (s : Session) : Turns P s (sendLoop P fuel s).1 :=
  sendLoop_related (fun _ => .refl) (fun _ _ _ => .trans) (fun s ha => .single (.prepare s ha))
    (fun s item ha => .single (.write s item ha)) fuel s

theorem recvLoop_turns (P : Platform) (fuel : Nat) (s : Session) (input : Bytes) :
    Turns P s (s.recvLoop P fuel input).1 :=
  recvLoop_related (fun _ => .refl) (fun _ _ _ => .trans) (fun s input => .single (.recv s input)) fuel s input

theorem call_turns (P : Platform) (s : Session) (op : Op) : Turns P s (s.call P op).1 := by
  by_cases hs : op = .send
  · subst hs
    exact sendLoop_turns P _ s
  · by_cases hr : ∃ input, op = .memRecv input
    · obtain ⟨input,rfl⟩ := hr
      exact recvLoop_turns P _ s input
    · exact .single (.submit s op hs (not_exists.mp hr))

theorem step_turns (P : Platform) (s : Session) (op : Op) : Turns P s (s.step P op) := by
  have h := call_turns P s op
  unfold step
  dsimp only
  split
  · split
    · exact h.tail (.report _ _)
    · exact h
  · exact h

theorem run_turns (P : Platform) (s : Session) (ops : List Op) : Turns P s (s.run P ops) := by
  induction ops generalizing s with
  | nil => exact .refl
  | cons op ops ih => exact (step_turns P s op).trans (ih _)

/-- The sessions that can come about. -/
def Reachable (P : Platform) (u : Setup) (s : Session) : Prop := Turns P (u.start P) s

theorem run_reachable (P : Platform) (u : Setup) (ops : List Op) : Reachable P u ((u.start P).run P ops) :=
  run_turns P _ ops

/-! For concrete runs of a server. -/

/-- zlib's answers when every list is empty. The inflater asks for the dictionary
after six bytes; the first block ends its match in the ninth byte and its literal in
the tenth, each later block of eight bytes is a match that ends in its second. -/
def peerPlatform : Platform := {samplePlatform with
  deflate := fun blocks block =>
    if block ≠ [0,0,0,0] then none
    else if blocks = [] then some [56,234,227,198,167,194,2,166,35,6,0,0,0,0,255,255]
    else if blocks.all (· = [0,0,0,0]) then some [2,1,0,0,0,0,255,255] else none
  inflate := fun hist _ =>
    if hist.length = 5 then .needDict
    else if hist.length = 8 then .output [0,0,0]
    else if hist.length = 9 then .output [0]
    else if 16 ≤ hist.length ∧ hist.length % 8 = 1 then .output [0,0,0,0]
    else .output []}

/-- zlib's answers for one block: what it is compressed to, and what the inflater puts
out with which byte of that. -/
def blockPlatform (block out : Bytes) (steps : List (Nat × Bytes)) : Platform := {samplePlatform with
  deflate := fun blocks b => if blocks = [] ∧ b = block then some out else none
  inflate := fun hist _ => if hist.length = 5 then .needDict else .output ((steps.lookup hist.length).getD [])}

/-- A SPDY/3 server whose allocations all succeed. -/
def sampleServer (sends : List SendAnswer) (reads : List ReadAnswer) : Setup :=
  ⟨true,.spdy3,.int32,false,⟨[],sends,reads,[],[]⟩⟩

/-- The first SYN_STREAM of a client, with an empty list. -/
def firstRequest (flags id : UInt8) : Bytes :=
  [128,3,0,1,flags,0,0,26,0,0,0,id,0,0,0,0,0,0,56,234,227,198,167,194,2,166,35,6,0,0,0,0,255,255]

/-- A later one. -/
def laterRequest (flags id : UInt8) : Bytes := [128,3,0,1,flags,0,0,18,0,0,0,id,0,0,0,0,0,0,2,1,0,0,0,0,255,255]

end Spdylay
