import Mathlib.Algebra.BigOperators.Group.Multiset.Basic
import Mathlib.Tactic
import Verbs.Proofs.Pipeline.Flow

/-!
The books of a pipeline. What pollers took is with them, or was handed over, or was lost to an
executor that takes no more; and under each token of an executor at most one request was accepted,
after the token had been given out.
-/

namespace Verbs

namespace Work

variable {d : Device} {qp : QpId} {q : QueuePair} {token : UInt64}

lemma accepts_operation (w : Work) (h : d.qps.get? qp = some q) (token : UInt64) :
    d.accepts (w.operation qp token) = [] ∨
      ∃ p, d.accepts (w.operation qp token) = [p] ∧ p.cq = w.cq q ∧ p.wrId = token := by
  cases w with
  | send sgl op =>
    simp only [operation, Device.accepts]
    split
    · exact Or.inr ⟨_, by rw [h]; rfl, rfl, rfl⟩
    · exact Or.inl rfl
  | recv sgl =>
    simp only [operation, Device.accepts]
    split
    · exact Or.inr ⟨_, by rw [h]; rfl, rfl, rfl⟩
    · exact Or.inl rfl

lemma operation_ne_poll (w : Work) (qp : QpId) (token : UInt64) (cq : CqId) (n : Nat) :
    w.operation qp token ≠ .poll cq n := by
  cases w <;> exact Operation.noConfusion

lemma operation_ne_createQp (w : Work) (qp : QpId) (token : UInt64) (plan : QpPlan) :
    w.operation qp token ≠ .createQp plan := by
  cases w <;> exact Operation.noConfusion

end Work

namespace Pipeline

variable {serves : CqId → ExecutorId} {s s' : Pipeline}

def polled (s : Pipeline) : Multiset (CqId × Completion) :=
  s.handed + s.batches.total (fun _ b => (b : Multiset (CqId × Completion))) + s.lost

structure Ledger (serves : CqId → ExecutorId) (s : Pipeline) : Prop where
  flow : Device.Flow s.ops s.polled
  batches : s.batches.Unique
  /-- A poller takes completions out of one ring at a time. -/
  single : ∀ i b, s.batches.get? i = some b → ∃ cq, ∀ x ∈ b, x.1 = cq
  taken : ∀ e, (s.crews e).accepted = (s.handed.filter fun x => serves x.1 = e).map (·.2)
  lost : ∀ x ∈ s.lost, (s.crews (serves x.1)).executor.queue.closed = true
  tokens : ((Device.accepted s.ops).map fun p => (serves p.cq, p.wrId)).Nodup
  returned : ∀ p ∈ Device.accepted s.ops, .returned p.wrId ∈ (s.crews (serves p.cq)).log

lemma single_set {batches : Table Nat (List (CqId × Completion))}
    (h : ∀ i b, batches.get? i = some b → ∃ cq, ∀ x ∈ b, x.1 = cq) {j : Nat}
    {new : List (CqId × Completion)} (hnew : ∃ cq, ∀ x ∈ new, x.1 = cq) :
    ∀ i b, (batches.set j new).get? i = some b → ∃ cq, ∀ x ∈ b, x.1 = cq := by
  intro i b hb
  rw [Table.get?_set] at hb
  split at hb
  · cases hb
    exact hnew
  · exact h i b hb

/-! ### Permitted operations -/

lemma accepts_of_permits {d : Device} {op : Operation} (h : permits d op = true) :
    d.accepts op = [] := by
  cases op with
  | postSend | postRecv => cases h
  | _ => rfl

lemma ne_poll_of_permits {d : Device} {op : Operation} (h : permits d op = true) (cq : CqId)
    (n : Nat) : op ≠ .poll cq n := by
  rintro rfl
  cases h

lemma hasRings_of_permits {d : Device} {plan : QpPlan} {q : QueuePair}
    (h : permits d (.createQp plan) = true) (hnew : q.New plan) : d.HasRings q := by
  simp only [permits, hnew.sendCq, hnew.recvCq, Bool.and_eq_true] at h
  exact h

lemma accepted_snoc (s : Pipeline) (op : Operation) :
    Device.accepted (s.ops ++ [op]) = Device.accepted s.ops ++ s.device.accepts op :=
  Device.accepted_snoc s.ops op

/-! ### One step -/

/-- How crews go on: their logs grow, and a queue that is closed stays so. -/
structure CrewsGrow (s s' : Pipeline) : Prop where
  log : ∀ e, (s.crews e).log <+: (s'.crews e).log
  closed : ∀ e, (s.crews e).executor.queue.closed = true →
    (s'.crews e).executor.queue.closed = true

lemma CrewsGrow.of_update {e : ExecutorId} {m : Move Callback}
    (h : s'.crews = Function.update s.crews e ((s.crews e).perform m)) : CrewsGrow s s' := by
  constructor
  · intro e'
    by_cases he : e' = e
    · subst he
      rw [h, Function.update_self]
      exact Crew.log_perform _ m
    · rw [h, Function.update_of_ne he]
  · intro e' hclosed
    by_cases he : e' = e
    · subst he
      rw [h, Function.update_self]
      exact (Crew.perform_step _ m).queue_closed hclosed
    · rw [h, Function.update_of_ne he]
      exact hclosed

lemma CrewsGrow.of_eq (h : s'.crews = s.crews) : CrewsGrow s s' :=
  ⟨fun e => by rw [h], fun e hclosed => by rw [h]; exact hclosed⟩

namespace Ledger

lemma of_move (h : Ledger serves s) {e : ExecutorId} {m : Move Callback}
    (hm : ∀ c, m ≠ .process c)
    (hcrews : s'.crews = Function.update s.crews e ((s.crews e).perform m))
    (hops : s'.ops = s.ops) (hbatches : s'.batches = s.batches) (hhanded : s'.handed = s.handed)
    (hlost : s'.lost = s.lost) : Ledger serves s' := by
  have hgrow := CrewsGrow.of_update hcrews
  have hpolled : s'.polled = s.polled := by rw [polled, hhanded, hbatches, hlost]; rfl
  refine ⟨by rw [hops, hpolled]; exact h.flow, hbatches ▸ h.batches, hbatches ▸ h.single,
    fun e' => ?_, fun x hx => ?_, by rw [hops]; exact h.tokens, fun p hp => ?_⟩
  · rw [hhanded, ← h.taken e', hcrews]
    by_cases he : e' = e
    · subst he
      rw [Function.update_self, (Crew.perform_step _ _).accepted_eq hm]
    · rw [Function.update_of_ne he]
  · exact hgrow.closed _ (h.lost x (hlost ▸ hx))
  · exact (hgrow.log _).subset (h.returned p (hops ▸ hp))

lemma of_device (h : Ledger serves s) {op : Operation} (permitted : permits s.device op = true) :
    Ledger serves { s with ops := s.ops ++ [op] } := by
  have haccepted : Device.accepted (s.ops ++ [op]) = Device.accepted s.ops := by
    rw [accepted_snoc, accepts_of_permits permitted, List.append_nil]
  refine ⟨h.flow.operate (ne_poll_of_permits permitted) fun plan q hop hnew => ?_, h.batches,
    h.single, h.taken, h.lost, by rw [haccepted]; exact h.tokens, fun p hp => h.returned p ?_⟩
  · subst hop
    exact hasRings_of_permits permitted hnew
  · rwa [haccepted] at hp

lemma of_post (h : Ledger serves s) {qp : QpId} {token : UInt64} {w : Work} {q : QueuePair}
    (found : s.device.qps.get? qp = some q)
    (usable : isUsable serves s (serves (w.cq q)) token = true) :
    Ledger serves { s with ops := s.ops ++ [w.operation qp token] } := by
  simp only [isUsable, Bool.decide_and, Bool.and_eq_true, decide_eq_true_eq] at usable
  obtain ⟨hreturned, hunused⟩ := usable
  refine ⟨h.flow.operate (w.operation_ne_poll qp token) fun plan q hop _ =>
    absurd hop (w.operation_ne_createQp qp token plan), h.batches, h.single, h.taken, h.lost, ?_,
    fun p hp => ?_⟩
  · rw [accepted_snoc, List.map_append]
    rcases w.accepts_operation found token with hnil | ⟨p, hp, hcq, hwr⟩
    · rw [hnil, List.map_nil, List.append_nil]
      exact h.tokens
    · rw [hp, List.map_singleton, hcq, hwr]
      refine List.Nodup.append h.tokens (List.nodup_singleton _) fun x hx hx' => ?_
      rw [List.mem_singleton.mp hx'] at hx
      obtain ⟨p', hp', heq⟩ := List.mem_map.mp hx
      exact hunused p' hp' ⟨congrArg Prod.fst heq, congrArg Prod.snd heq⟩
  · rw [accepted_snoc] at hp
    rcases List.mem_append.mp hp with hp | hp
    · exact h.returned p hp
    · rcases w.accepts_operation found token with hnil | ⟨p', hp', hcq, hwr⟩
      · rw [hnil] at hp
        cases hp
      · rw [hp', List.mem_singleton] at hp
        rw [hp, hcq, hwr]
        exact hreturned

lemma of_poll (h : Ledger serves s) {i n : Nat} {cq : CqId} {cs : List Completion}
    {source : CompletionQueue} {d : Device}
    (idle : s.batches.get? i = none ∨ s.batches.get? i = some [])
    (polled : CompletionQueue.poll { source := .ring cq } s.device n = .ok (cs, source, d)) :
    Ledger serves { s with
      ops := s.ops ++ [.poll cq n]
      batches := s.batches.set i (cs.map (cq, ·)) } := by
  have haccepted : Device.accepted (s.ops ++ [.poll cq n]) = Device.accepted s.ops :=
    (accepted_snoc s _).trans (List.append_nil _)
  have hsingle : ∀ x ∈ cs.map (cq, ·), x.1 = cq := by simp
  refine ⟨?_, Table.unique_set h.batches _ _, single_set h.single ⟨cq, hsingle⟩, h.taken,
    h.lost, by rw [haccepted]; exact h.tokens, fun p hp => h.returned p (haccepted ▸ hp)⟩
  have htotal : s.batches.total (fun _ b => (b : Multiset (CqId × Completion))) +
      ((cs.map (cq, ·) : List (CqId × Completion)) : Multiset (CqId × Completion)) =
      (s.batches.set i (cs.map (cq, ·))).total
        fun _ b => (b : Multiset (CqId × Completion)) := by
    rcases idle with hi | hi
    · exact (Table.total_set_of_none hi _ _).symm
    · have := Table.total_set_add h.batches hi (cs.map (cq, ·))
        fun _ b => (b : Multiset (CqId × Completion))
      rw [Multiset.coe_nil, add_zero] at this
      exact this.symm
  have hpolled : s.polled + ((cs.map (cq, ·) : List (CqId × Completion)) :
      Multiset (CqId × Completion)) = Pipeline.polled { s with
        ops := s.ops ++ [.poll cq n]
        batches := s.batches.set i (cs.map (cq, ·)) } := by
    simp only [Pipeline.polled]
    rw [← htotal]
    abel
  rw [← hpolled]
  exact h.flow.poll polled

lemma of_hand (h : Ledger serves s) {i : Nat} {cq : CqId} {c : Completion}
    {rest : List (CqId × Completion)} (batch : s.batches.get? i = some ((cq, c) :: rest))
    (taken : ((s.crews (serves cq)).executor.process? c).isSome = true) :
    Ledger serves { s with
      crews := Function.update s.crews (serves cq) ((s.crews (serves cq)).perform (.process c))
      batches := s.batches.set i rest
      handed := s.handed ++ [(cq, c)] } := by
  have hgrow : CrewsGrow s { s with
      crews := Function.update s.crews (serves cq) ((s.crews (serves cq)).perform (.process c))
      batches := s.batches.set i rest
      handed := s.handed ++ [(cq, c)] } := .of_update rfl
  obtain ⟨cq₀, hsingle⟩ := h.single i _ batch
  refine ⟨?_, Table.unique_set h.batches _ _,
    single_set h.single ⟨cq₀, fun x hx => hsingle x (List.mem_cons_of_mem _ hx)⟩, fun e => ?_,
    fun x hx => hgrow.closed _ (h.lost x hx), h.tokens,
    fun p hp => (hgrow.log _).subset (h.returned p hp)⟩
  · have htotal := Table.total_set_add h.batches batch rest
      fun _ b => (b : Multiset (CqId × Completion))
    have hpolled : polled { s with
        crews := Function.update s.crews (serves cq) ((s.crews (serves cq)).perform (.process c))
        batches := s.batches.set i rest
        handed := s.handed ++ [(cq, c)] } = s.polled := by
      rw [← Multiset.cons_coe, ← Multiset.singleton_add, ← add_assoc] at htotal
      have htotal := add_right_cancel htotal
      simp only [polled, ← Multiset.coe_add, Multiset.coe_singleton]
      rw [← htotal]
      abel
    rw [hpolled]
    exact h.flow
  · by_cases he : e = serves cq
    · subst he
      rw [List.filter_append, List.map_append, ← h.taken]
      simp only [Function.update_self]
      rw [Crew.accepted_process taken]
      simp
    · have hne : serves cq ≠ e := Ne.symm he
      simp only [Function.update_of_ne he]
      rw [List.filter_append, h.taken e]
      simp [hne]

lemma of_lose (h : Ledger serves s) {i : Nat} {cq : CqId} {c : Completion}
    {rest : List (CqId × Completion)} (batch : s.batches.get? i = some ((cq, c) :: rest))
    (refused : (s.crews (serves cq)).executor.queue.closed = true) :
    Ledger serves { s with
      batches := s.batches.set i []
      lost := s.lost ++ ((cq, c) :: rest) } := by
  obtain ⟨cq₀, hsingle⟩ := h.single i _ batch
  refine ⟨?_, Table.unique_set h.batches _ _, single_set h.single ⟨cq, by simp⟩, h.taken,
    fun x hx => ?_, h.tokens, h.returned⟩
  · have htotal := Table.total_set_add h.batches batch []
      fun _ b => (b : Multiset (CqId × Completion))
    have hpolled : polled { s with
        batches := s.batches.set i []
        lost := s.lost ++ ((cq, c) :: rest) } = s.polled := by
      rw [Multiset.coe_nil, add_zero] at htotal
      simp only [polled, ← Multiset.coe_add]
      rw [← htotal]
      abel
    rw [hpolled]
    exact h.flow
  · rcases List.mem_append.mp hx with hx | hx
    · exact h.lost x hx
    · have hcq : x.1 = cq := (hsingle x hx).trans (hsingle _ List.mem_cons_self).symm
      rw [hcq]
      exact refused

end Ledger

lemma Step.ledger (h : Step serves s s') (hl : Ledger serves s) : Ledger serves s' := by
  cases h with
  | stay => exact hl
  | device op permitted => exact hl.of_device permitted
  | submit e n f receives new free => exact hl.of_move (fun c => by simp) rfl rfl rfl rfl rfl
  | crew e m free =>
    refine hl.of_move (fun c hm => ?_) rfl rfl rfl rfl rfl
    rw [hm] at free
    cases free
  | post qp token w q found usable => exact hl.of_post found usable
  | poll i cq n cs source d idle polled => exact hl.of_poll idle polled
  | hand i cq c rest batch taken => exact hl.of_hand batch taken
  | lose i cq c rest batch refused => exact hl.of_lose batch refused

lemma ledger (serves : CqId → ExecutorId) (workers : ExecutorId → Nat) (acts : List Act) :
    Ledger serves (run serves workers acts) := by
  induction acts using List.reverseRecOn with
  | nil =>
    exact ⟨Device.Flow.nil, Table.unique_empty, fun _ _ h => (nomatch h), fun _ => rfl,
      fun _ h => (nomatch h), List.nodup_nil, fun _ h => (nomatch h)⟩
  | append_singleton acts a ih =>
    rw [run_snoc]
    exact (perform_step serves _ a).ledger ih

end Pipeline

end Verbs
