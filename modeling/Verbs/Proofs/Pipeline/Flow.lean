import Mathlib.Algebra.BigOperators.Group.Multiset.Basic
import Mathlib.Tactic
import Verbs.Proofs.Device.Rings
import Verbs.Proofs.Pipeline.System

/-!
No completion is lost on its way. What was pushed for a ring is in the ring, with a poller, or has
been handed over, unless the ring was full or the executor took no more.
-/

namespace Verbs

def ofRing (cq : CqId) (m : Multiset (CqId × Completion)) : Multiset Completion :=
  (m.filter (·.1 = cq)).map (·.2)

@[simp] lemma ofRing_zero (cq : CqId) : ofRing cq 0 = 0 := rfl

@[simp] lemma ofRing_add (cq : CqId) (m n : Multiset (CqId × Completion)) :
    ofRing cq (m + n) = ofRing cq m + ofRing cq n := by
  simp [ofRing]

lemma ofRing_map (cq cq' : CqId) (cs : List Completion) :
    ofRing cq' ((cs.map (cq, ·) : List (CqId × Completion)) : Multiset (CqId × Completion)) =
      if cq' = cq then (cs : Multiset Completion) else 0 := by
  by_cases h : cq' = cq
  · subst h
    simp [ofRing, List.filter_map, Function.comp_def]
  · simp [ofRing, List.filter_map, Function.comp_def, h, Ne.symm h]

namespace Device

variable {d : Device} {ops : List Operation} {op : Operation}
  {polled : Multiset (CqId × Completion)}

/-- The rings that a queue pair was made with exist. -/
def HasRings (d : Device) (q : QueuePair) : Prop :=
  (d.rings.get? q.sendCq).isSome ∧ (d.rings.get? q.recvCq).isSome

/-- The rings of a run: queue pairs and requests have rings that exist, and what was pushed for a
ring was taken from it, is in it, or found it full. -/
structure Flow (ops : List Operation) (polled : Multiset (CqId × Completion)) : Prop where
  qps : (run ops).qps.Every fun _ q => (run ops).HasRings q
  accepted : ∀ p ∈ accepted ops, ((run ops).rings.get? p.cq).isSome
  flow : ∀ cq, ∃ dropped : Multiset Completion,
    pushedTo ops cq = ofRing cq polled + (run ops).entries cq + dropped ∧
    ∀ ring, (run ops).rings.get? cq = some ring → ring.overrun = false → dropped = 0

lemma pushedTo_eq_zero (haccepted : ∀ p ∈ Device.accepted ops, ((run ops).rings.get? p.cq).isSome)
    {cq : CqId} (h : (run ops).rings.get? cq = none) : pushedTo ops cq = 0 := by
  have hnil : (pushed ops).filter (·.cq = cq) = [] := by
    refine List.filter_eq_nil_iff.mpr fun r hr hcq => ?_
    obtain ⟨p, hp, hcompleted⟩ := (balanced ops).completedBy hr
    have hsome := haccepted p hp
    rw [← hcompleted.2.1, of_decide_eq_true hcq, h] at hsome
    cases hsome
  rw [pushedTo, hnil]
  rfl

namespace Flow

lemma nil : Flow [] 0 where
  qps _ _ h := nomatch h
  accepted _ h := nomatch h
  flow _ := ⟨0, rfl, fun _ _ _ => rfl⟩

lemma rings_snoc (h : Flow ops polled) (op : Operation)
    (hcreate : ∀ plan (q : QueuePair), op = .createQp plan → q.New plan → (run ops).HasRings q) :
    ((run (ops ++ [op])).qps.Every fun _ q => (run (ops ++ [op])).HasRings q) ∧
    ∀ p ∈ Device.accepted (ops ++ [op]), ((run (ops ++ [op])).rings.get? p.cq).isSome := by
  have hstay : ∀ cq, ((run ops).rings.get? cq).isSome →
      ((run (ops ++ [op])).rings.get? cq).isSome := by
    intro cq hcq
    rw [run_snoc]
    exact isSome_rings_perform (ringsNamed ops) hcq op
  constructor
  · have heffect := perform_effect (run ops) op
    rw [← run_snoc] at heffect
    refine heffect.every (fun id q hq => (h.qps id q hq).imp (hstay _) (hstay _))
      ⟨fun _ _ h => h, fun _ _ _ h _ => h, fun _ _ _ _ h _ => h, fun _ _ _ _ h _ => h⟩ ?_
      (fun _ _ _ _ _ _ _ _ h _ _ => h) (fun _ _ _ _ _ h _ _ _ => h)
    exact fun plan q hop hnew _ => (hcreate plan q hop hnew).imp (hstay _) (hstay _)
  · intro p hp
    rw [accepted_snoc] at hp
    rcases List.mem_append.mp hp with hp | hp
    · exact hstay _ (h.accepted p hp)
    · obtain ⟨q, hq, hcq | hcq⟩ := found_of_mem_accepts hp
      · exact hstay _ (hcq ▸ (h.qps _ q hq).1)
      · exact hstay _ (hcq ▸ (h.qps _ q hq).2)

lemma pushedTo_snoc (ops : List Operation) (op : Operation) (cq : CqId) :
    pushedTo (ops ++ [op]) cq = pushedTo ops cq +
      ((((run ops).pushes op).filter (·.cq = cq)).map (·.completion) : List Completion) := by
  rw [pushedTo, pushed_snoc, List.filter_append, List.map_append, ← Multiset.coe_add]
  rfl

lemma operate (h : Flow ops polled) (hpoll : ∀ cq n, op ≠ .poll cq n)
    (hcreate : ∀ plan (q : QueuePair), op = .createQp plan → q.New plan → (run ops).HasRings q) :
    Flow (ops ++ [op]) polled := by
  obtain ⟨hqps, haccepted⟩ := h.rings_snoc op hcreate
  refine ⟨hqps, haccepted, fun cq => ?_⟩
  obtain ⟨dropped, hflow, hdropped⟩ := h.flow cq
  rcases hring : (run ops).rings.get? cq with - | ring
  · -- nothing was pushed for the ring so far, and nothing is pushed while it is made
    have hzero := pushedTo_eq_zero h.accepted hring
    have hnew : pushedTo (ops ++ [op]) cq = 0 ∧ (run (ops ++ [op])).entries cq = [] := by
      by_cases hop : ∃ attr depth, op = .createCq attr depth ∧ cq = (run ops).nextId
      · obtain ⟨attr, depth, rfl, rfl⟩ := hop
        refine ⟨by rw [pushedTo_snoc, hzero]; rfl, ?_⟩
        rw [run_snoc]
        simp only [perform, createCq, entries]
        split_ifs <;> simp [hring]
      · have hnone : (run (ops ++ [op])).rings.get? cq = none := by
          rw [run_snoc, perform_rings (fun attr depth ho hcq => hop ⟨attr, depth, ho, hcq⟩)
            (hpoll cq), hring]
          rfl
        exact ⟨pushedTo_eq_zero haccepted hnone, by simp only [entries, hnone]⟩
    rw [hzero] at hflow
    have hpolled : ofRing cq polled = 0 :=
      (add_eq_zero.mp (add_eq_zero.mp hflow.symm).1).1
    exact ⟨0, by rw [hnew.1, hnew.2, hpolled]; rfl, fun _ _ _ => rfl⟩
  · have hnamed := ringsNamed ops cq ring hring
    have hring' : (run (ops ++ [op])).rings.get? cq =
        some (pushAll cq ((run ops).pushes op) ring) := by
      rw [run_snoc, perform_rings (fun _ _ _ => hnamed.ne) (hpoll cq), hring]
      rfl
    obtain ⟨full, hpush, hfull⟩ := pushAll_flow cq ((run ops).pushes op) ring
    refine ⟨dropped + full, ?_, fun ring' h' hoverrun => ?_⟩
    · rw [pushedTo_snoc, hflow, entries_of_ring hring, entries_of_ring hring']
      calc ofRing cq polled + ring.entries + dropped +
            (((run ops).pushes op).filter (·.cq = cq)).map (·.completion)
          = ofRing cq polled + dropped + (ring.entries +
              (((run ops).pushes op).filter (·.cq = cq)).map (·.completion)) := by abel
        _ = ofRing cq polled + (pushAll cq ((run ops).pushes op) ring).entries +
              (dropped + full) := by
          rw [hpush]
          abel
    · rw [hring', Option.some.injEq] at h'
      rw [← h'] at hoverrun
      obtain ⟨hbefore, hfull⟩ := hfull hoverrun
      rw [hdropped ring hring hbefore, hfull, add_zero]

lemma poll (h : Flow ops polled) {cq : CqId} {n : Nat} {cs : List Completion}
    {source : CompletionQueue} {d' : Device}
    (hpoll : CompletionQueue.poll { source := .ring cq } (run ops) n = .ok (cs, source, d')) :
    Flow (ops ++ [.poll cq n])
      (polled + ((cs.map (cq, ·) : List (CqId × Completion)) : Multiset (CqId × Completion))) := by
  obtain ⟨hqps, haccepted⟩ := h.rings_snoc (.poll cq n) fun _ _ hop => nomatch hop
  refine ⟨hqps, haccepted, fun cq' => ?_⟩
  obtain ⟨dropped, hflow, hdropped⟩ := h.flow cq'
  obtain ⟨hperform, hentries, hoverrun⟩ := poll_spec hpoll
  have hother : cq' ≠ cq → ((run ops).perform (.poll cq n)).rings.get? cq' =
      ((run ops).rings.get? cq').map (pushAll cq' []) := fun hcq =>
    perform_rings (fun _ _ hop => nomatch hop) fun m hop => hcq (by cases hop; rfl)
  refine ⟨dropped, ?_, fun ring' hring' ho => ?_⟩
  · have hpushed : pushedTo (ops ++ [.poll cq n]) cq' = pushedTo ops cq' := by
      rw [pushedTo_snoc]
      exact add_zero _
    rw [hpushed, hflow, ofRing_add, ofRing_map, run_snoc, hperform]
    by_cases hcq : cq' = cq
    · subst hcq
      rw [if_pos rfl, hentries, ← Multiset.coe_add, ← add_assoc (ofRing cq' polled)]
    · have hsame : d'.entries cq' = (run ops).entries cq' := by
        have hrings := hother hcq
        rw [hperform] at hrings
        simp only [entries, hrings]
        rcases (run ops).rings.get? cq' <;> rfl
      rw [if_neg hcq, add_zero, hsame]
  · rw [run_snoc] at hring'
    by_cases hcq : cq' = cq
    · subst hcq
      rw [hperform] at hring'
      obtain ⟨ring, hring, hsame⟩ := hoverrun ring' hring'
      exact hdropped ring hring (hsame.trans ho)
    · rw [hother hcq] at hring'
      rcases hring : (run ops).rings.get? cq' with - | ring
      · rw [hring] at hring'
        cases hring'
      · rw [hring] at hring'
        cases hring'
        exact hdropped ring hring ho

end Flow

end Device

end Verbs
