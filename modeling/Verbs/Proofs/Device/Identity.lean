import Mathlib.Tactic
import Verbs.Proofs.Device.Balance

/-!
What a queue pair keeps. Operations change its state and what waits at it; what it was made with
stays. Names are not used again, so whatever operations keep of a queue pair is still true of it at
the end of a run.
-/

namespace Verbs

structure QueuePair.Same (q q' : QueuePair) : Prop where
  fabric : q'.fabric = q.fabric
  nic : q'.nic = q.nic
  endpoint : q'.endpoint = q.endpoint
  caps : q'.caps = q.caps
  sendCq : q'.sendCq = q.sendCq
  recvCq : q'.recvCq = q.recvCq

namespace QueuePair.Same

lemma refl (q : QueuePair) : q.Same q := ⟨rfl, rfl, rfl, rfl, rfl, rfl⟩

lemma update {q p : QueuePair} (h : q.Same p) (state : QpState) (remote : Option Endpoint)
    (recvs : List Receive) (inbox : List Message) :
    q.Same { p with state, remote, recvs, inbox } :=
  ⟨h.fabric, h.nic, h.endpoint, h.caps, h.sendCq, h.recvCq⟩

end QueuePair.Same

def QueuePair.cqFor (q : QueuePair) : Work → CqId
  | .send _ _ => q.sendCq
  | .recv _ => q.recvCq

namespace Device

variable {d : Device} {id : QpId} {q q' : QueuePair} {p : Posting} {op : Operation}
  {ops : List Operation} {s : Device × Operation}

lemma kept_foldl {P : QueuePair → Prop} (hP : Kept fun _ => P)
    (hinbox : ∀ q inbox, P q → P { q with inbox }) (hrecvs : ∀ q recvs, P q → P { q with recvs })
    (hid : id < d.nextId) (h : ∀ q, d.qps.get? id = some q → P q) (ops : List Operation)
    (q : QueuePair) (hq : (ops.foldl perform d).qps.get? id = some q) : P q := by
  induction ops generalizing d with
  | nil => exact h q hq
  | cons op ops ih =>
    have heffect := perform_effect d op
    have hall : d.qps.Every fun j q => j = id → P q := by
      rintro j q hj rfl
      exact h q hj
    have hkept : Kept fun j q => j = id → P q :=
      ⟨fun j q hj hid => hP.failed j q (hj hid),
        fun j q peer hj hreset hid => hP.connected j q peer (hj hid) hreset,
        fun j q r rest hj hrecvs hid => hP.taken j q r rest (hj hid) hrecvs,
        fun j q m rest hj hinbox hid => hP.unboxed j q m rest (hj hid) hinbox⟩
    have hafter := heffect.every hall hkept
      (fun _ _ _ _ _ hid' => absurd hid' hid.ne')
      (fun _ _ _ _ _ _ _ _ hj _ _ hid => hinbox _ _ (hj hid))
      (fun _ _ _ _ _ hj _ _ _ hid => hrecvs _ _ (hj hid))
    exact ih (hid.trans_le heffect.nextId_le) (fun q hq => hafter id q hq rfl) hq

/-- What is true of a queue pair in a run, and kept, is true of it at the end. -/
lemma kept_run {P : QueuePair → Prop} (hP : Kept fun _ => P)
    (hinbox : ∀ q inbox, P q → P { q with inbox }) (hrecvs : ∀ q recvs, P q → P { q with recvs })
    (hs : s ∈ steps {} ops) (hq : s.1.qps.get? id = some q) (h : P q)
    (hq' : (run ops).qps.get? id = some q') : P q' := by
  obtain ⟨before, after, hops, hbefore⟩ := split_of_mem_steps hs
  have hrun : run ops = (s.2 :: after).foldl perform s.1 := by
    rw [hops, hbefore, run, List.foldl_append]
    rfl
  have hid : id < s.1.nextId := by
    rw [hbefore] at hq ⊢
    exact (balanced before).named id q hq
  rw [hrun] at hq'
  refine kept_foldl hP hinbox hrecvs hid (fun p hp => ?_) _ q' hq'
  cases hq.symm.trans hp
  exact h

lemma same_run (hs : s ∈ steps {} ops) (hq : s.1.qps.get? id = some q)
    (hq' : (run ops).qps.get? id = some q') : q.Same q' :=
  kept_run (P := q.Same)
    ⟨fun _ _ h => h.update _ _ _ _, fun _ _ _ h _ => h.update _ _ _ _,
      fun _ _ _ _ h _ => h.update _ _ _ _, fun _ _ _ _ h _ => h.update _ _ _ _⟩
    (fun _ _ h => h.update _ _ _ _) (fun _ _ h => h.update _ _ _ _) hs hq (.refl q) hq'

lemma cq_of_mem_accepts (h : p ∈ d.accepts op) :
    ∃ q, d.qps.get? p.qp = some q ∧ p.cq = q.cqFor p.work := by
  cases op with
  | postSend id w =>
    simp only [accepts] at h
    split at h
    · obtain ⟨q, hq, rfl⟩ := List.mem_map.mp h
      exact ⟨q, Option.mem_toList.mp hq, rfl⟩
    · cases h
  | postRecv id w =>
    simp only [accepts] at h
    split at h
    · obtain ⟨q, hq, rfl⟩ := List.mem_map.mp h
      exact ⟨q, Option.mem_toList.mp hq, rfl⟩
    · cases h
  | _ => cases h

lemma cq_of_mem_accepted (hp : p ∈ accepted ops) (hq : (run ops).qps.get? p.qp = some q) :
    p.cq = q.cqFor p.work := by
  obtain ⟨s, hs, hp⟩ := (mem_along _).mp hp
  obtain ⟨q₀, hq₀, hcq⟩ := cq_of_mem_accepts hp
  have hsame := same_run hs hq₀ hq
  rw [hcq]
  cases p.work with
  | send => exact hsame.sendCq.symm
  | recv => exact hsame.recvCq.symm

end Device

end Verbs
