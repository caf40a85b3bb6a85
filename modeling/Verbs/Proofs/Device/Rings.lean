import Mathlib.Algebra.BigOperators.Group.Multiset.Basic
import Mathlib.Tactic
import Verbs.Proofs.Device.Balance

/-!
What operations do to the completion rings. A ring gets what is pushed into it, in order, as long as
it has room; polling takes the oldest completions away, and nothing else does.
-/

namespace Verbs.Device

variable {d d' : Device} {cq : CqId}

lemma map_pushAll_nil (cq : CqId) (ring : Option Ring) : ring = ring.map (pushAll cq []) := by
  rcases ring <;> rfl

lemma postSend_rings (id : QpId) (w : SendRequest) :
    (d.perform (.postSend id w)).rings.get? cq =
      (d.rings.get? cq).map (pushAll cq (d.pushes (.postSend id w))) := by
  rcases h : d.sendReports id w with e | ⟨d', out⟩
  · obtain ⟨hperform, hpushes⟩ := postSend_of_error h
    rw [hperform, hpushes]
    exact map_pushAll_nil _ _
  · obtain ⟨hperform, hpushes⟩ := postSend_of_ok h
    obtain ⟨memory, qps, rfl⟩ := sendReports_frame h
    rw [hperform, hpushes, record_rings]

lemma postRecv_rings (id : QpId) (w : RecvRequest) :
    (d.perform (.postRecv id w)).rings.get? cq =
      (d.rings.get? cq).map (pushAll cq (d.pushes (.postRecv id w))) := by
  rcases h : d.recvReports id w with e | ⟨d', out⟩
  · obtain ⟨hperform, hpushes⟩ := postRecv_of_error h
    rw [hperform, hpushes]
    exact map_pushAll_nil _ _
  · obtain ⟨hperform, hpushes⟩ := postRecv_of_ok h
    obtain ⟨memory, qps, rfl⟩ := recvReports_frame h
    rw [hperform, hpushes, record_rings]

/-- An operation pushes what it reports and otherwise leaves a ring alone, unless it makes it or
polls it. -/
lemma perform_rings {op : Operation}
    (hnew : ∀ attr depth, op = .createCq attr depth → cq ≠ d.nextId)
    (hpoll : ∀ n, op ≠ .poll cq n) :
    (d.perform op).rings.get? cq = (d.rings.get? cq).map (pushAll cq (d.pushes op)) := by
  have hid := map_pushAll_nil cq (d.rings.get? cq)
  have h := perform_change d op
  generalize d.perform op = d' at h ⊢
  cases h with
  | refused pushes => rwa [pushes]
  | addFabric | openNic | skipLids | overflow | register | deregister | fill | createQp | connect =>
    exact hid
  | @createCq attr depth => exact (Table.get?_set_of_ne _ _ (hnew attr depth rfl)).trans hid
  | @poll other n =>
    have hne : cq ≠ other := fun h => hpoll n (h ▸ rfl)
    exact (Table.get?_set_of_ne _ _ hne).trans hid
  | postSend => exact postSend_rings _ _
  | postRecv => exact postRecv_rings _ _
  | dropQp q found => simp only [pushes, dropQpReports, found, record_rings]

/-- Rings are named by numbers that have been used. -/
def RingsNamed (d : Device) : Prop := ∀ cq ring, d.rings.get? cq = some ring → cq < d.nextId

lemma RingsNamed.perform {d : Device} (h : d.RingsNamed) (op : Operation) :
    (d.perform op).RingsNamed := by
  intro cq ring hring
  have hle := (perform_effect d op).nextId_le
  rcases hold : d.rings.get? cq with - | old
  · by_cases hpoll : ∃ n, op = .poll cq n
    · obtain ⟨n, rfl⟩ := hpoll
      simp [Device.perform, CompletionQueue.poll, hold] at hring
    · by_cases hnew : ∃ attr depth, op = .createCq attr depth ∧ cq = d.nextId
      · obtain ⟨attr, depth, rfl, rfl⟩ := hnew
        simp only [Device.perform, createCq] at hring ⊢
        split_ifs at hring ⊢
        · simp [hold] at hring
        · simp [hold] at hring
        · exact Nat.lt_succ_self _
      · rw [perform_rings (fun attr depth hop hcq => hnew ⟨attr, depth, hop, hcq⟩)
          (fun n hop => hpoll ⟨n, hop⟩), hold] at hring
        cases hring
  · exact (h cq old hold).trans_le hle

lemma ringsNamed (ops : List Operation) : (run ops).RingsNamed := by
  induction ops using List.reverseRecOn with
  | nil => exact fun _ _ h => nomatch h
  | append_singleton ops op ih =>
    rw [run_snoc]
    exact ih.perform op

lemma rings_of_mem_steps {ops : List Operation} {s : Device × Operation} (hs : s ∈ steps {} ops)
    {cq : CqId} {ring : Ring} (hring : s.1.rings.get? cq = some ring)
    (hpoll : ∀ n, s.2 ≠ .poll cq n) :
    (s.1.perform s.2).rings.get? cq = some (pushAll cq (s.1.pushes s.2) ring) := by
  obtain ⟨before, -, -, hbefore⟩ := split_of_mem_steps hs
  have hold := ringsNamed before
  rw [← hbefore] at hold
  rw [perform_rings (fun _ _ _ => (hold cq ring hring).ne) hpoll, hring]
  rfl

/-! ### What rings hold -/

def entries (d : Device) (cq : CqId) : List Completion :=
  match d.rings.get? cq with
  | some ring => ring.entries
  | none => []

def pushedTo (ops : List Operation) (cq : CqId) : Multiset Completion :=
  ((pushed ops).filter (·.cq = cq)).map (·.completion)

lemma entries_of_ring {ring : Ring} (h : d.rings.get? cq = some ring) :
    d.entries cq = ring.entries := by
  simp only [entries, h]

lemma pushAll_flow (cq : CqId) (out : List Report) (ring : Ring) :
    ∃ dropped : Multiset Completion,
      (ring.entries : Multiset Completion) + ((out.filter (·.cq = cq)).map (·.completion)) =
        (pushAll cq out ring).entries + dropped ∧
      ((pushAll cq out ring).overrun = false → ring.overrun = false ∧ dropped = 0) := by
  induction out generalizing ring with
  | nil => exact ⟨0, rfl, fun h => ⟨h, rfl⟩⟩
  | cons r out ih =>
    by_cases hcq : r.cq = cq
    · have hfilter : (r :: out).filter (·.cq = cq) = r :: out.filter (·.cq = cq) := by
        simp [hcq]
      rw [pushAll_cons, if_pos hcq, hfilter, List.map_cons, ← Multiset.cons_coe,
        ← Multiset.singleton_add]
      obtain ⟨dropped, hflow, hoverrun⟩ := ih (ring.push r.completion)
      by_cases hfull : ring.depth.toNat ≤ ring.entries.length
      · have hpush : ring.push r.completion = { ring with overrun := true } := if_pos hfull
        rw [hpush] at hflow hoverrun ⊢
        refine ⟨{r.completion} + dropped, ?_, fun h => nomatch (hoverrun h).1⟩
        rw [add_left_comm]
        exact (congrArg ({r.completion} + ·) hflow).trans (add_left_comm _ _ _)
      · have hpush : ring.push r.completion =
            { ring with entries := ring.entries ++ [r.completion] } := if_neg hfull
        rw [hpush] at hflow hoverrun ⊢
        refine ⟨dropped, ?_, hoverrun⟩
        rw [← hflow, ← Multiset.coe_add, Multiset.coe_singleton, add_assoc]
    · have hfilter : (r :: out).filter (·.cq = cq) = out.filter (·.cq = cq) := by simp [hcq]
      rw [pushAll_cons, if_neg hcq, hfilter]
      exact ih ring

lemma poll_spec {n : Nat} {cs : List Completion} {source : CompletionQueue}
    (h : CompletionQueue.poll { source := .ring cq } d n = .ok (cs, source, d')) :
    d.perform (.poll cq n) = d' ∧ d.entries cq = cs ++ d'.entries cq ∧
      ∀ ring', d'.rings.get? cq = some ring' →
        ∃ ring, d.rings.get? cq = some ring ∧ ring.overrun = ring'.overrun := by
  refine ⟨by simp only [perform, h], ?_⟩
  rcases poll_cases h with ⟨rfl, rfl⟩ | ⟨ring, ring', hring, hpoll, rfl⟩
  · exact ⟨rfl, fun ring' h => ⟨ring', h, rfl⟩⟩
  · by_cases hoverrun : ring.overrun = true
    · rw [Ring.poll, if_pos hoverrun] at hpoll
      cases hpoll
    · rw [Ring.poll, if_neg hoverrun] at hpoll
      cases hpoll
      refine ⟨?_, fun ring' h => ⟨ring, hring, ?_⟩⟩
      · rw [entries_of_ring hring, entries_of_ring (Table.get?_set_self _ _ _)]
        exact (List.take_append_drop n ring.entries).symm
      · rw [Table.get?_set_self, Option.some.injEq] at h
        rw [← h]

lemma isSome_rings_perform (hnamed : d.RingsNamed) (h : (d.rings.get? cq).isSome)
    (op : Operation) : ((d.perform op).rings.get? cq).isSome := by
  obtain ⟨ring, hring⟩ := Option.isSome_iff_exists.mp h
  by_cases hpoll : ∃ n, op = .poll cq n
  · obtain ⟨n, rfl⟩ := hpoll
    have hchange := perform_change d (.poll cq n)
    generalize d.perform (.poll cq n) = d' at hchange ⊢
    cases hchange with
    | refused => exact h
    | poll ring ring' => rw [Table.get?_set_self, Option.isSome_some]
  · rw [perform_rings (fun attr depth hop => (hnamed cq ring hring).ne)
      (fun n hop => hpoll ⟨n, hop⟩), hring]
    rfl

end Verbs.Device
