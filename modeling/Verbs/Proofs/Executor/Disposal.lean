import Mathlib.Algebra.BigOperators.Group.Multiset.Basic
import Mathlib.Tactic
import Verbs.Proofs.Executor.Life

/-!
Every callback is disposed of once. Whatever the threads do and in whatever order, a callback that
was registered is in the registry, or has left it once: to a worker, who runs it once, or to the one
who released it.
-/

namespace Verbs

variable {κ : Type}

def Duty.held : Duty κ → Multiset Completion
  | .holding c | .armed c _ => {c}
  | _ => 0

namespace Crew

variable {s s' : Crew κ} {m : Move κ} {token : UInt64}

/-! ### Completions -/

def accepted (s : Crew κ) : List Completion :=
  s.log.filterMap fun
    | .accepted c => some c
    | _ => none

def handled (s : Crew κ) : List Completion :=
  s.log.filterMap fun
    | .invoked c _ | .skipped c => some c
    | _ => none

/-- Tables in order, and no completion lost or made up between the queue and the callbacks. -/
structure Supplied (s : Crew κ) : Prop where
  callbacks : s.executor.registry.callbacks.Unique
  duties : s.duties.Unique
  balance : (s.accepted : Multiset Completion) =
    s.executor.queue.items + s.duties.total (fun _ d => d.held) + s.handled

lemma unique_cancel {e : Executor κ} (h : e.registry.callbacks.Unique) (token : UInt64) :
    (e.cancel token).2.registry.callbacks.Unique :=
  Registry.unique_take token h

namespace Supplied

lemma same (h : s.Supplied) (hcallbacks : s'.executor.registry.callbacks.Unique)
    (hduties : s'.duties = s.duties) (haccepted : s'.accepted = s.accepted)
    (hitems : s'.executor.queue.items = s.executor.queue.items)
    (hhandled : s'.handled = s.handled) : s'.Supplied :=
  ⟨hcallbacks, hduties ▸ h.duties, by rw [haccepted, hitems, hduties, hhandled, h.balance]⟩

/-- A worker goes on: it holds other completions than before, and as many more are in the queue or
handled. -/
lemma of_set_duty {i : Nat} {d d' : Duty κ} (h : s.Supplied)
    (hcallbacks : s'.executor.registry.callbacks.Unique)
    (hd : s.duties.get? i = some d) (hduties : s'.duties = s.duties.set i d')
    (haccepted : s'.accepted = s.accepted)
    (hmoved : (s'.executor.queue.items + d'.held + s'.handled : Multiset Completion) =
      s.executor.queue.items + d.held + s.handled) : s'.Supplied := by
  refine ⟨hcallbacks, hduties ▸ Table.unique_set h.duties i d', ?_⟩
  have htotal := Table.total_set_add h.duties hd d' fun _ d => d.held
  apply add_right_cancel (b := d.held)
  calc (s'.accepted : Multiset Completion) + d.held
      = s.executor.queue.items + d.held + s.handled + s.duties.total (fun _ d => d.held) := by
        rw [haccepted, h.balance]
        abel
    _ = s'.executor.queue.items + (s.duties.total (fun _ d => d.held) + d'.held) + s'.handled := by
        rw [← hmoved]
        abel
    _ = s'.executor.queue.items + s'.duties.total (fun _ d => d.held) + s'.handled + d.held := by
        rw [hduties, ← htotal]
        abel

end Supplied

lemma Step.supplied (h : Step s m s') (hs : s.Supplied) : s'.Supplied := by
  cases h with
  | stay => exact hs
  | insert n t cb call =>
    exact hs.same (Table.unique_set hs.callbacks _ _) rfl (by simp [accepted]) rfl
      (by simp [handled])
  | revoke n t call =>
    exact hs.same (unique_cancel hs.callbacks t) rfl
      (by simp [accepted]) (by rw [Executor.cancel_queue])
      (by simp [handled])
  | cancel t =>
    exact hs.same (unique_cancel hs.callbacks t) rfl
      (by simp [accepted]) (by rw [Executor.cancel_queue])
      (by simp [handled])
  | release n t rest call =>
    exact hs.same (unique_cancel hs.callbacks t) rfl
      (by simp [accepted]) (by rw [Executor.cancel_queue])
      (by simp [handled])
  | process c isOpen =>
    refine ⟨hs.callbacks, hs.duties, ?_⟩
    have := hs.balance
    simp only [accepted, handled, List.filterMap_append, List.filterMap_cons, List.filterMap_nil,
      List.append_nil, ← Multiset.coe_add] at this ⊢
    rw [this]
    abel
  | pop i c rest duty items =>
    refine hs.of_set_duty hs.callbacks duty rfl rfl ?_
    rw [items, ← Multiset.cons_coe, ← Multiset.singleton_add]
    simp only [Duty.held, add_zero]
    exact congrArg (· + _) (add_comm _ _)
  | arm i c cb duty found =>
    exact hs.of_set_duty (unique_cancel hs.callbacks _) duty rfl (by simp [accepted])
      (by simp [handled, Duty.held])
  | skip i c duty missing =>
    refine hs.of_set_duty (unique_cancel hs.callbacks _) duty rfl (by simp [accepted]) ?_
    simp only [handled, List.filterMap_append, List.filterMap_cons, List.filterMap_nil,
      ← Multiset.coe_add, Multiset.coe_singleton, Executor.cancel_queue, Duty.held]
    abel
  | exit i duty closed items => exact hs.of_set_duty hs.callbacks duty rfl rfl rfl
  | invoke i c cb duty =>
    refine hs.of_set_duty hs.callbacks duty rfl (by simp [accepted]) ?_
    simp only [handled, List.filterMap_append, List.filterMap_cons, List.filterMap_nil,
      ← Multiset.coe_add, Multiset.coe_singleton, Duty.held]
    abel
  | finish i breaks duty =>
    exact hs.of_set_duty hs.callbacks duty rfl (by cases breaks <;> simp [accepted])
      (by cases breaks <;> simp [handled, Duty.held])
  | late | shutdown | join | await | shut | look | visit | gather =>
    exact hs.same hs.callbacks rfl rfl rfl rfl
  | draw | keep | leave =>
    exact hs.same hs.callbacks rfl (by simp [accepted]) rfl (by simp [handled])

lemma supplied (workers : Nat) (moves : List (Move κ)) : (run workers moves).Supplied := by
  induction moves using List.reverseRecOn with
  | nil =>
    refine ⟨Table.unique_empty, ?_, ?_⟩
    · simp [run, start, Table.Unique, Table.keys, Function.comp_def, List.nodup_range]
    · have hnone : Table.total (start workers : Crew κ).duties (fun _ d => d.held) = 0 := by
        simp [start, Table.total, Duty.held, Function.comp_def]
      show _ = _ + Table.total (start workers : Crew κ).duties (fun _ d => d.held) + _
      rw [hnone]
      rfl
  | append_singleton moves m ih =>
    rw [run_snoc]
    exact (perform_step _ m).supplied ih

lemma Step.exited_of {i : Nat} (hs : Step s m s') (h : s'.duties.get? i = some .exited)
    (hd : s.duties.get? i ≠ some .exited) :
    s.executor.queue.closed = true ∧ s.executor.queue.items = [] := by
  have hset : ∀ {j : Nat} {d : Duty κ}, (s.duties.set j d).get? i = some .exited → d = .exited := by
    intro j d hj
    rw [Table.get?_set] at hj
    split at hj
    · exact Option.some.inj hj
    · exact absurd hj hd
  cases hs with
  | exit j duty closed items => exact ⟨closed, items⟩
  | pop | arm | skip | invoke | finish => cases hset h
  | stay | draw | insert | late | keep | revoke | cancel | process | shutdown | join | await | shut
    | look | visit | gather | release | leave => exact absurd h hd

lemma Step.armed {i : Nat} {c : Completion} {cb : κ} (hs : Step s m s')
    (h : s.duties.get? i = some (.armed c cb)) (hm : m ≠ .invoke i) :
    s'.duties.get? i = some (.armed c cb) := by
  have hset : ∀ {j : Nat} {d d' : Duty κ}, s.duties.get? j = some d → d ≠ .armed c cb →
      (s.duties.set j d').get? i = some (.armed c cb) := by
    intro j d d' hj hne
    have hij : i ≠ j := by
      rintro rfl
      exact hne (Option.some.inj (hj.symm.trans h))
    rw [Table.get?_set_of_ne _ _ hij, h]
  cases hs with
  | pop j c' rest duty | exit j duty | arm j c' cb' duty | skip j c' duty | finish j breaks duty =>
    exact hset duty nofun
  | invoke j c' cb' duty =>
    have hij : i ≠ j := fun hij => hm (hij ▸ rfl)
    rw [Table.get?_set_of_ne _ _ hij, h]
  | stay | draw | insert | late | keep | revoke | cancel | process | shutdown | join | await | shut
    | look | visit | gather | release | leave => exact h

/-! ### The result -/

/-- The tokens of the callbacks that were registered and have not left the registry. -/
def outstanding (s : Crew κ) : List UInt64 := s.drawn.filter fun t => (s.history t).length = 2

lemma mem_history {e : CrewEvent κ} (h : e ∈ s.log) (token : UInt64)
    (he : e.concerns token = true) : e ∈ s.history token := List.mem_filter.mpr ⟨h, he⟩

lemma mem_accepted {c : Completion} : c ∈ s.accepted ↔ .accepted c ∈ s.log := by
  constructor
  · intro h
    obtain ⟨e, he, hc⟩ := List.mem_filterMap.mp h
    cases e with
    | accepted c' =>
      cases hc
      exact he
    | _ => cases hc
  · exact fun h => List.mem_filterMap.mpr ⟨_, h, rfl⟩

lemma accepted_of_invoked (hs : s.Supplied) {c : Completion} {cb : κ}
    (h : .invoked c cb ∈ s.log) : .accepted c ∈ s.log := by
  have hmem : c ∈ (s.accepted : Multiset Completion) := by
    rw [hs.balance]
    exact Multiset.mem_add.mpr (Or.inr (List.mem_filterMap.mpr ⟨_, h, rfl⟩))
  exact mem_accepted.mp hmem

lemma events_of_invoked {c : Completion} {cb : κ} (hl : s.Life c.wrId)
    (h : .invoked c cb ∈ s.log) :
    s.history c.wrId =
        [.drew c.wrId, .registered c.wrId cb, .taken c cb, .invoked c cb] ∧
      .registered c.wrId cb ∈ s.log := by
  have hmem := mem_history h c.wrId (by simp [CrewEvent.concerns])
  cases hl with
  | invoked cb' c' wrId events absent idle =>
    rw [events] at hmem
    obtain ⟨rfl, rfl⟩ : c = c' ∧ cb = cb' := by simpa using hmem
    have hreg : .registered c.wrId cb ∈ s.history c.wrId := by simp [events]
    exact ⟨events, List.mem_of_mem_filter hreg⟩
  | unknown events | drawn _ _ events | outstanding _ events | armed _ _ _ _ events
    | released _ _ events =>
    rw [events] at hmem
    simp at hmem

end Crew

end Verbs
