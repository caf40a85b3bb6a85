import Mathlib.Algebra.BigOperators.Group.Multiset.Basic
import Mathlib.Tactic
import Verbs.Device.Cascade
import Verbs.Proofs.Table

/-!
What a failure leaves of the queue pairs. Some of them are in the error state with nothing
outstanding, the others are as they were; and each completion that was owed for something they gave
up has been reported, once.
-/

namespace Verbs

/-- A completion that is owed, as far as it is settled before the outcome is known. -/
structure Due where
  posting : Nat
  cq : CqId
  wrId : UInt64
  opcode : Opcode
  deriving DecidableEq

/-- The opcode under which a completion is owed. That of a receive is settled by the message. -/
def Opcode.owed : Opcode → Opcode
  | .recvRdmaImm => .recv
  | o => o

def Report.due (r : Report) : Due := ⟨r.posting, r.cq, r.completion.wrId, r.completion.opcode.owed⟩

def Message.due (m : Message) : Due := ⟨m.posting, m.senderCq, m.wrId, m.opcode.owed⟩

def Receive.due (cq : CqId) (r : Receive) : Due := ⟨r.posting, cq, r.wrId, .recv⟩

def paid (out : List Report) : Multiset Due := (out.map (·.due) : Multiset Due)

@[simp] lemma paid_nil : paid [] = 0 := rfl

@[simp] lemma paid_cons (r : Report) (out : List Report) :
    paid (r :: out) = {r.due} + paid out := by
  rw [Multiset.singleton_add]
  rfl

@[simp] lemma paid_append (out out' : List Report) : paid (out ++ out') = paid out + paid out' := by
  simp [paid]

def owedFor (ms : List Message) : Multiset Due := (ms.map (·.due) : Multiset Due)

@[simp] lemma owedFor_nil : owedFor [] = 0 := rfl

@[simp] lemma owedFor_cons (m : Message) (ms : List Message) :
    owedFor (m :: ms) = {m.due} + owedFor ms := by
  rw [Multiset.singleton_add]
  rfl

@[simp] lemma owedFor_append (ms ms' : List Message) :
    owedFor (ms ++ ms') = owedFor ms + owedFor ms' := by
  simp [owedFor]

@[simp] lemma Message.due_report (m : Message) (s : Status) : (m.report s).due = m.due := rfl

def QueuePair.dues (q : QueuePair) : Multiset Due :=
  (q.recvs.map (·.due q.recvCq) : Multiset Due) + owedFor q.inbox

@[simp] lemma QueuePair.dues_failed (q : QueuePair) : q.failed.dues = 0 := rfl

lemma QueuePair.paid_flushes (q : QueuePair) : paid q.flushes + owedFor q.inbox = q.dues := by
  simp [paid, flushes, QueuePair.dues, Report.due, Receive.due, Completion.flushed, Opcode.owed,
    Function.comp_def]

/-- The completions of what a queue pair gives up when it fails. -/
def QueuePair.surrendered (q : QueuePair) : List Report :=
  q.flushes ++ q.inbox.map (·.report .rnrRetryExcErr)

@[simp] lemma QueuePair.surrendered_failed (q : QueuePair) : q.failed.surrendered = [] := rfl

lemma QueuePair.paid_surrendered (q : QueuePair) : paid q.surrendered = q.dues := by
  rw [← q.paid_flushes, surrendered, paid_append]
  simp [paid, owedFor, Function.comp_def]

namespace QueuePairs

def dues (qps : QueuePairs) : Multiset Due := Table.total qps fun _ q => q.dues

def held (qps : QueuePairs) : Multiset Report := Table.total qps fun _ q => q.surrendered

lemma map_due_held (qps : QueuePairs) : (held qps).map (·.due) = dues qps := by
  have hsum : ∀ es : List (QpId × QueuePair),
      ((es.map fun e => (e.2.surrendered : Multiset Report)).sum).map (·.due) =
        (es.map fun e => e.2.dues).sum := by
    intro es
    induction es with
    | nil => rfl
    | cons e r ih =>
      simp only [List.map_cons, List.sum_cons, Multiset.map_add, ih]
      exact congrArg (· + _) e.2.paid_surrendered
  exact hsum qps.entries

/-- Some of the queue pairs have failed, the others are as they were. -/
def Failed (qps qps' : QueuePairs) : Prop :=
  ∀ id, qps'.get? id = qps.get? id ∨ qps'.get? id = (qps.get? id).map QueuePair.failed

namespace Failed

variable {qps qps' qps'' : QueuePairs} {id : QpId} {q : QueuePair}

lemma refl (qps : QueuePairs) : Failed qps qps := fun _ => Or.inl rfl

lemma trans (h : Failed qps qps') (h' : Failed qps' qps'') : Failed qps qps'' := by
  intro id
  rcases h' id with h' | h' <;> rcases h id with h | h <;> rw [h', h]
  · exact Or.inl rfl
  · exact Or.inr rfl
  · exact Or.inr rfl
  · exact Or.inr (by rw [Option.map_map]; rfl)

lemma of_modify (h : qps.get? id = some q) : Failed qps (qps.modify id fun _ => q.failed) := by
  intro j
  rw [Table.get?_modify]
  by_cases hj : j = id
  · subst hj
    exact Or.inr (by simp [h])
  · exact Or.inl (by simp [hj])

lemma get?_eq_none (h : Failed qps qps') : qps'.get? id = none ↔ qps.get? id = none := by
  rcases h id with h | h <;> simp [h]

lemma get? (h : Failed qps qps') (hq : qps.get? id = some q) :
    qps'.get? id = some q ∨ qps'.get? id = some q.failed := by
  rcases h id with h | h <;> simp [h, hq]

lemma of_get? (h : Failed qps qps') (hq : qps'.get? id = some q) :
    ∃ q₀, qps.get? id = some q₀ ∧ (q = q₀ ∨ q = q₀.failed) := by
  rcases h id with h | h <;> rw [h] at hq
  · exact ⟨q, hq, Or.inl rfl⟩
  · obtain ⟨q₀, hq₀, rfl⟩ := Option.map_eq_some_iff.mp hq
    exact ⟨q₀, hq₀, Or.inr rfl⟩

end Failed

def Every (P : QpId → QueuePair → Prop) (qps : QueuePairs) : Prop :=
  ∀ id q, qps.get? id = some q → P id q

namespace Every

variable {P : QpId → QueuePair → Prop} {qps qps' : QueuePairs} {id : QpId} {q : QueuePair}

lemma failed (h : Every P qps) (hf : Failed qps qps') (hP : ∀ id q, P id q → P id q.failed) :
    Every P qps' := by
  intro j p hp
  obtain ⟨p₀, hp₀, rfl | rfl⟩ := hf.of_get? hp
  · exact h j _ hp₀
  · exact hP j p₀ (h j p₀ hp₀)

lemma set (h : Every P qps) (hq : P id q) : Every P (qps.set id q) := by
  intro j p hp
  rw [Table.get?_set] at hp
  split at hp
  · rename_i hj
    cases hp
    exact hj ▸ hq
  · exact h j p hp

lemma erase (h : Every P qps) (id : QpId) : Every P (qps.erase id) := by
  intro j p hp
  rw [Table.get?_erase] at hp
  split at hp
  · cases hp
  · exact h j p hp

end Every

/-! ### Refusing messages -/

variable {qps : QueuePairs}

lemma refuse_failed (qps : QueuePairs) (ms : List Message) : Failed qps (refuse qps ms).1 := by
  fun_induction refuse qps ms with
  | case1 qps => exact Failed.refl qps
  | case2 qps m rest h qps' out heq ih => simpa [heq] using ih
  | case3 qps m rest s h qps' out heq ih =>
    rw [heq] at ih
    exact (Failed.of_modify h).trans ih

lemma refuse_unique (hu : Table.Unique qps) (ms : List Message) :
    Table.Unique (refuse qps ms).1 := by
  fun_induction refuse qps ms with
  | case1 qps => exact hu
  | case2 qps m rest h qps' out heq ih => simpa [heq] using ih hu
  | case3 qps m rest s h qps' out heq ih => simpa [heq] using ih (Table.unique_modify hu _ _)

lemma held_modify_failed (hu : Table.Unique qps) {id : QpId} {q : QueuePair}
    (h : qps.get? id = some q) :
    held (qps.modify id fun _ => q.failed) + (q.surrendered : Multiset Report) = held qps := by
  have := Table.total_modify_add hu h q.failed fun _ q => (q.surrendered : Multiset Report)
  simpa [held] using this

/-- Refusing messages reports them and everything that is given up with them. -/
lemma refuse_held (hu : Table.Unique qps) (ms : List Message) :
    ((refuse qps ms).2 : Multiset Report) + held (refuse qps ms).1 =
      held qps + (ms.map (·.report .rnrRetryExcErr) : Multiset Report) := by
  fun_induction refuse qps ms with
  | case1 qps => simp
  | case2 qps m rest h qps' out heq ih =>
    have hrest := ih hu
    rw [heq] at hrest
    simp only [List.map_cons, ← Multiset.cons_coe, ← Multiset.singleton_add]
    rw [add_assoc, hrest]
    abel
  | case3 qps m rest s h qps' out heq ih =>
    have hrest := ih (Table.unique_modify hu _ _)
    rw [heq, List.map_append] at hrest
    simp only [List.map_cons, ← Multiset.cons_coe, ← Multiset.singleton_add, ← Multiset.coe_add]
      at hrest ⊢
    have hfailed := held_modify_failed hu h
    rw [QueuePair.surrendered, ← Multiset.coe_add] at hfailed
    calc {m.report .rnrRetryExcErr} + (↑s.flushes + ↑out) + held qps'
        = {m.report .rnrRetryExcErr} + ↑s.flushes + (↑out + held qps') := by abel
      _ = {m.report .rnrRetryExcErr} +
            (held (qps.modify m.sender fun _ => s.failed) +
              (↑s.flushes + ↑(s.inbox.map (·.report .rnrRetryExcErr)))) +
            ↑(rest.map (·.report .rnrRetryExcErr)) := by rw [hrest]; abel
      _ = held qps + ({m.report .rnrRetryExcErr} + ↑(rest.map (·.report .rnrRetryExcErr))) := by
        rw [hfailed]; abel

lemma refuse_dues (hu : Table.Unique qps) (ms : List Message) :
    paid (refuse qps ms).2 + dues (refuse qps ms).1 = dues qps + owedFor ms := by
  have h := congrArg (Multiset.map (·.due)) (refuse_held hu ms)
  rw [Multiset.map_add, Multiset.map_add, map_due_held, map_due_held] at h
  simpa [paid, owedFor, Function.comp_def] using h

/-! ### Failing and dropping -/

lemma fail_failed (qps : QueuePairs) (id : QpId) : Failed qps (fail qps id).1 := by
  unfold fail
  split
  · exact Failed.refl qps
  · rename_i q h
    exact (Failed.of_modify h).trans (refuse_failed _ _)

lemma fail_unique (hu : Table.Unique qps) (id : QpId) : Table.Unique (fail qps id).1 := by
  unfold fail
  split
  · exact hu
  · exact refuse_unique (Table.unique_modify hu _ _) _

lemma fail_held (hu : Table.Unique qps) (id : QpId) :
    ((fail qps id).2 : Multiset Report) + held (fail qps id).1 = held qps := by
  unfold fail
  split
  · simp
  · rename_i q h
    have hrefuse := refuse_held (Table.unique_modify hu id fun _ => q.failed) q.inbox
    rw [← held_modify_failed hu h, QueuePair.surrendered, ← Multiset.coe_add,
      ← Multiset.coe_add, add_assoc, hrefuse]
    abel

lemma fail_dues (hu : Table.Unique qps) (id : QpId) :
    paid (fail qps id).2 + dues (fail qps id).1 = dues qps := by
  rw [← map_due_held, ← map_due_held, ← fail_held hu id, Multiset.map_add]
  rfl

lemma get?_fail_self (qps : QueuePairs) (id : QpId) :
    (fail qps id).1.get? id = (qps.get? id).map QueuePair.failed := by
  unfold fail
  split
  · rename_i h
    simp [h]
  · rename_i q h
    have hfailed : (qps.modify id fun _ => q.failed).get? id = some q.failed := by
      simp [Table.get?_modify, h]
    rcases (refuse_failed (qps.modify id fun _ => q.failed) q.inbox).get? hfailed with hr | hr <;>
      rw [hr, h] <;> rfl

lemma Failed.state_error {qps' : QueuePairs} {id : QpId} (hf : Failed qps qps')
    (h : ∀ q, qps.get? id = some q → q.state = .error) (q : QueuePair)
    (hq : qps'.get? id = some q) : q.state = .error := by
  obtain ⟨q₀, hq₀, rfl | rfl⟩ := hf.of_get? hq
  · exact h _ hq₀
  · rfl

lemma state_error_of_fail (qps : QueuePairs) (id : QpId) (q : QueuePair)
    (hq : (fail qps id).1.get? id = some q) : q.state = .error := by
  rw [get?_fail_self] at hq
  obtain ⟨q₀, -, rfl⟩ := Option.map_eq_some_iff.mp hq
  rfl

lemma finish_failed (qps : QueuePairs) (m : Message) (s : Status) :
    Failed qps (finish qps m s).1 := by
  unfold finish
  split
  · exact Failed.refl qps
  · exact fail_failed qps m.sender

lemma finish_unique (hu : Table.Unique qps) (m : Message) (s : Status) :
    Table.Unique (finish qps m s).1 := by
  unfold finish
  split
  · exact hu
  · exact fail_unique hu m.sender

lemma finish_dues (hu : Table.Unique qps) (m : Message) (s : Status) :
    paid (finish qps m s).2 + dues (finish qps m s).1 = dues qps + {m.due} := by
  unfold finish
  split
  · simp [add_comm]
  · simp only [paid_cons, Message.due_report]
    rw [add_assoc, fail_dues hu, add_comm]

lemma complete_failed (qps : QueuePairs) (id : QpId) (r : Report) :
    Failed qps (complete qps id r).1 := by
  unfold complete
  split
  · exact Failed.refl qps
  · exact fail_failed qps id

lemma complete_unique (hu : Table.Unique qps) (id : QpId) (r : Report) :
    Table.Unique (complete qps id r).1 := by
  unfold complete
  split
  · exact hu
  · exact fail_unique hu id

lemma complete_dues (hu : Table.Unique qps) (id : QpId) (r : Report) :
    paid (complete qps id r).2 + dues (complete qps id r).1 = dues qps + {r.due} := by
  unfold complete
  split
  · simp [add_comm]
  · simp only [paid_cons]
    rw [add_assoc, fail_dues hu, add_comm]

lemma mem_complete (qps : QueuePairs) (id : QpId) (r : Report) : r ∈ (complete qps id r).2 := by
  unfold complete
  split <;> exact List.mem_cons_self

lemma drop_failed (qps : QueuePairs) (id : QpId) : Failed (qps.erase id) (drop qps id).1 := by
  unfold drop
  split
  · rename_i h
    intro j
    rw [Table.get?_erase]
    by_cases hj : j = id
    · subst hj
      simp [h]
    · simp [hj]
  · exact refuse_failed _ _

lemma drop_unique (hu : Table.Unique qps) (id : QpId) : Table.Unique (drop qps id).1 := by
  unfold drop
  split
  · exact hu
  · exact refuse_unique (Table.unique_erase hu id) _

lemma drop_dues (hu : Table.Unique qps) (id : QpId) :
    paid (drop qps id).2 + dues (drop qps id).1 = dues qps := by
  unfold drop
  split
  · simp
  · rename_i q h
    have hrefuse := refuse_dues (Table.unique_erase hu id) q.inbox
    have herase : dues (qps.erase id) + q.dues = dues qps :=
      Table.total_erase_add hu h fun _ q => q.dues
    simp only [paid_append]
    rw [add_assoc, hrefuse, ← herase, ← q.paid_flushes]
    abel

/-! ### Handing receives and messages over -/

variable {id : QpId} {q q' : QueuePair}

lemma dues_set_of_add (hu : Table.Unique qps) (hq : qps.get? id = some q) {x : Multiset Due}
    (h : q'.dues = q.dues + x) : dues (qps.set id q') = dues qps + x := by
  have hset := Table.total_set_add hu hq q' fun _ q => q.dues
  rw [h, ← add_assoc, add_right_comm] at hset
  exact add_right_cancel hset

lemma dues_set_add (hu : Table.Unique qps) (hq : qps.get? id = some q) {x : Multiset Due}
    (h : q'.dues + x = q.dues) : dues (qps.set id q') + x = dues qps := by
  have hset := Table.total_set_add hu hq q' fun _ q => q.dues
  rw [← h, ← add_assoc, add_right_comm] at hset
  exact add_right_cancel hset

end QueuePairs

namespace QueuePair

variable {q : QueuePair} {r : Receive} {m : Message} {recvs : List Receive} {inbox : List Message}

lemma dues_of_recvs_cons (h : q.recvs = r :: recvs) :
    { q with recvs }.dues + {r.due q.recvCq} = q.dues := by
  simp only [dues, h, List.map_cons, ← Multiset.cons_coe, ← Multiset.singleton_add]
  abel

lemma dues_of_inbox_cons (h : q.inbox = m :: inbox) :
    { q with inbox }.dues + {m.due} = q.dues := by
  simp only [dues, h, owedFor_cons]
  abel

lemma dues_recvs_append (q : QueuePair) (r : Receive) :
    { q with recvs := q.recvs ++ [r] }.dues = q.dues + {r.due q.recvCq} := by
  simp only [dues, List.map_append, List.map_cons, List.map_nil, ← Multiset.coe_add,
    Multiset.coe_singleton]
  abel

lemma dues_inbox_append (q : QueuePair) (m : Message) :
    { q with inbox := q.inbox ++ [m] }.dues = q.dues + {m.due} := by
  simp only [dues, owedFor_append, owedFor_cons, owedFor_nil]
  abel

end QueuePair

end Verbs
