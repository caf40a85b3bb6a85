import Mathlib.Logic.Function.Basic
import Mathlib.Tactic
import Verbs.Poller
import Verbs.Proofs.Executor.Alone
import Verbs.Proofs.Pipeline.Owners

/-!
Calls of a pipeline that nobody interrupts. Taken without a break, the steps by which a request is
submitted do what submitting does, and those of a poller do what a round does.
-/

namespace Verbs

def Work.receives : Work → Bool
  | .send _ _ => false
  | .recv _ => true

lemma QpSource.post_device (w : Work) (d : Device) (qp : QpId) (token : UInt64) :
    (∃ error, (QpSource.device qp).post d token w = .error error ∧
        d.perform (w.operation qp token) = d) ∨
      (QpSource.device qp).post d token w =
        .ok (.device qp, d.perform (w.operation qp token)) := by
  cases w with
  | send sgl op =>
    simp only [QpSource.post, Work.operation, Device.perform]
    rcases d.postSend qp ⟨token, sgl, op⟩ with error | d'
    · exact Or.inl ⟨error, rfl, rfl⟩
    · exact Or.inr rfl
  | recv sgl =>
    simp only [QpSource.post, Work.operation, Device.perform]
    rcases d.postRecv qp ⟨token, sgl⟩ with error | d'
    · exact Or.inl ⟨error, rfl, rfl⟩
    · exact Or.inr rfl

lemma Executor.register_fst {κ : Type} (e : Executor κ) (cb : κ) :
    (e.register cb).1 = e.registry.next := by
  rcases hclosed : e.registry.closed <;>
    simp [Executor.register, Registry.insert, Registry.store, Registry.draw, Registry.put, hclosed]

namespace Pipeline

variable {serves : CqId → ExecutorId} {s : Pipeline} {e : ExecutorId} {n i : Nat} {f : FutureId}

/-! ### Submitting -/

def nextToken (s : Pipeline) (e : ExecutorId) : UInt64 := (s.crews e).executor.registry.next

lemma nextToken_unused {workers : ExecutorId → Nat} {acts : List Act}
    (hrun : run serves workers acts = s) (hbound : ∀ e, (s.crews e).drawn.length + 1 < 2 ^ 64) :
    ∀ p ∈ Device.accepted s.ops, p.wrId ≠ s.nextToken (serves p.cq) := by
  subst hrun
  intro p hp hnext
  have hs := orderly (fun e => (Nat.lt_succ_self _).trans (hbound e)) (serves p.cq)
  have hreturned := hs.noted.returned _ ((ledger serves workers acts).returned p hp)
  have hdrawn := (hs.life p.wrId).mem_drawn (List.ne_nil_of_length_pos (by omega))
  rw [hnext] at hdrawn
  exact hs.desk.next_notMem (hbound _) hdrawn

lemma foldl_crew (serves : CqId → ExecutorId) (s : Pipeline) (moves : List (Move Callback))
    (hfree : ∀ m ∈ moves, isFree m = true) :
    let s' := (moves.map (.crew e ·)).foldl (perform serves) s
    s'.ops = s.ops ∧ s'.crews e = moves.foldl Crew.perform (s.crews e) ∧
      ∀ owner future, s.futures.get? f = some (owner, future) →
        ∃ future', s'.futures.get? f = some (owner, future') ∧ future'.wrId = future.wrId := by
  induction moves generalizing s with
  | nil => exact ⟨rfl, rfl, fun _ future hf => ⟨future, hf, rfl⟩⟩
  | cons m moves ih =>
    have hstep : s.perform serves (.crew e m) = s.advance e m := by
      simp only [perform, hfree m List.mem_cons_self, if_true]
    obtain ⟨hops, hcrew, hfuture⟩ := ih (s.advance e m) fun m' hm' => hfree m' (.tail _ hm')
    rw [List.map_cons, List.foldl_cons, hstep]
    refine ⟨hops, hcrew.trans ?_, fun owner future hf => ?_⟩
    · rw [List.foldl_cons]
      exact congrArg (moves.foldl Crew.perform) (Function.update_self _ _ _)
    · obtain ⟨future', hf', hw⟩ := hfuture owner _
        ((get?_foldl_account _ _ f).trans (by rw [hf, Option.map_some]))
      exact ⟨future', hf', hw.trans (Future.foldl_settle_wrId _ _)⟩

/-- The steps of a call that registers the callback of a future. -/
def registerActs (e : ExecutorId) (n : Nat) (f : FutureId) (receives : Bool) : List Act :=
  .submit e n f receives :: [.insert n, .check n, .revoke n].map (.crew e ·)

lemma registerActs_spec (serves : CqId → ExecutorId) (new : s.futures.get? f = none)
    (free : (s.crews e).calls.get? n = none) (receives : Bool) :
    let s' := (registerActs e n f receives).foldl (perform serves) s
    s'.ops = s.ops ∧
      s'.crews e = (Crew.registerMoves n (.resolve f)).foldl Crew.perform (s.crews e) ∧
      ∃ future, s'.futures.get? f = some (e, future) ∧ future.wrId = s.nextToken e := by
  have hstep : s.perform serves (.submit e n f receives) = { s with
      crews := Function.update s.crews e ((s.crews e).perform (.draw n (.resolve f)))
      futures := s.futures.set f (e, { wrId := s.nextToken e, receives }) } := by
    simp only [perform, new, free, nextToken]
  obtain ⟨hops, hcrew, hfuture⟩ := foldl_crew serves (e := e) (f := f)
    (s.perform serves (.submit e n f receives)) [.insert n, .check n, .revoke n] (by simp [isFree])
  obtain ⟨future, hf, hw⟩ := hfuture e { wrId := s.nextToken e, receives }
    (by rw [hstep]; exact Table.get?_set_self _ _ _)
  have hdraw : (s.perform serves (.submit e n f receives)).crews e =
      (s.crews e).perform (.draw n (.resolve f)) := by
    rw [hstep]
    exact Function.update_self _ _ _
  refine ⟨hops.trans (by rw [hstep]), hcrew.trans ?_, future, hf, hw⟩
  rw [hdraw]
  rfl

lemma post_alone {qp : QpId} {q : QueuePair} {w : Work} {token : UInt64}
    (found : s.device.qps.get? qp = some q)
    (returned : .returned token ∈ (s.crews (serves (w.cq q))).log)
    (unused : ∀ p ∈ Device.accepted s.ops, serves p.cq = serves (w.cq q) → p.wrId ≠ token) :
    let s' := s.perform serves (.post qp token w)
    s'.device = s.device.perform (w.operation qp token) ∧ s'.crews = s.crews ∧
      s'.futures = s.futures := by
  have husable : isUsable serves s (serves (w.cq q)) token = true :=
    decide_eq_true ⟨returned, fun p hp ⟨he, hw⟩ => unused p hp he hw⟩
  simp only [perform, found]
  rw [if_pos husable]
  exact ⟨Device.run_snoc _ _, rfl, rfl⟩

/-- The steps of a call that submits a request; it cancels where the request is refused. -/
def submitActs (s : Pipeline) (e : ExecutorId) (n : Nat) (f : FutureId) (qp : QpId) (w : Work) :
    List Act :=
  registerActs e n f w.receives ++ .post qp (s.nextToken e) w ::
    match ((QpSource.device qp).submit s.device (s.crews e).executor (.resolve f) w).result with
    | .ok _ => []
    | .error _ => [.crew e (.cancel (s.nextToken e))]

/-- **Submitting without interruption**, at any time as long as there are tokens left. -/
theorem submit_alone {workers : ExecutorId → Nat} {acts : List Act}
    (hrun : run serves workers acts = s) (hbound : ∀ e, (s.crews e).drawn.length + 1 < 2 ^ 64)
    {qp : QpId} {q : QueuePair} {w : Work} (new : s.futures.get? f = none)
    (free : (s.crews (serves (w.cq q))).calls.get? n = none)
    (found : s.device.qps.get? qp = some q) :
    let e := serves (w.cq q)
    let s' := (s.submitActs e n f qp w).foldl (perform serves) s
    let done := (QpSource.device qp).submit s.device (s.crews e).executor (.resolve f) w
    s'.device = done.device ∧ (s'.crews e).executor = done.executor ∧
      (s'.crews e).log.filterMap Crew.released? =
        (s.crews e).log.filterMap Crew.released? ++ done.released ∧
      ∀ token, done.result = .ok token →
        ∃ future, s'.futures.get? f = some (e, future) ∧ future.wrId = token := by
  intro e s' done
  obtain ⟨hops, hcrew, future, hf, hw⟩ := registerActs_spec serves new free w.receives
  -- the callback is registered first, and then the request is posted under its token
  set s₁ := (registerActs e n f w.receives).foldl (perform serves) s with hs₁
  obtain ⟨hexec, hlog, hreturned, -, -⟩ := Crew.register_alone free (.resolve f)
  rw [← hcrew] at hexec hlog hreturned
  rcases hreg : (s.crews e).executor.register (.resolve f) with ⟨token, early, executor⟩
  have htoken : token = s.nextToken e := by
    rw [nextToken, ← Executor.register_fst (s.crews e).executor (.resolve f), hreg]
  rw [hreg] at hexec hlog hreturned
  have hdevice : s₁.device = s.device := congrArg Device.run hops
  obtain ⟨hdevice₂, hcrews₂, hfutures₂⟩ := post_alone (s := s₁) (hdevice ▸ found) hreturned
    fun p hp he hw => nextToken_unused hrun hbound p (hops ▸ hp) (by rw [hw, htoken, he])
  set s₂ := s₁.perform serves (.post qp token w) with hs₂
  rw [hdevice] at hdevice₂
  rcases QpSource.post_device w s.device qp token with ⟨error, herror, hsame⟩ | hok
  · have hdone : done = ⟨.error error, early.toList ++ (executor.cancel token).1.toList,
        (executor.cancel token).2, .device qp, s.device⟩ := by
      simp only [done, QpSource.submit, hreg, herror]
    have hresult : ((QpSource.device qp).submit s.device (s.crews e).executor (.resolve f)
        w).result = .error error := congrArg Submission.result hdone
    have hs' : s' = ([.cancel token].map (.crew e ·)).foldl (perform serves) s₂ := by
      simp only [s', submitActs, hresult, List.foldl_append, ← hs₁, ← htoken]
      rfl
    obtain ⟨hops', hcrew', -⟩ := foldl_crew serves (e := e) (f := f) s₂ [.cancel token]
      (by simp [isFree])
    obtain ⟨hcancel, hreleased⟩ := Crew.cancel_alone (s₁.crews e) token
    rw [hcrews₂] at hcrew'
    rw [hdone, hs', hcrew']
    refine ⟨?_, hcancel.trans (by rw [hexec]), hreleased.trans ?_, fun t ht => by cases ht⟩
    · exact (congrArg Device.run hops').trans (hdevice₂.trans hsame)
    · rw [hlog, hexec, List.append_assoc]
  · have hdone : done = ⟨.ok token, early.toList, executor, .device qp,
        s.device.perform (w.operation qp token)⟩ := by
      simp only [done, QpSource.submit, hreg, hok]
    have hresult : ((QpSource.device qp).submit s.device (s.crews e).executor (.resolve f)
        w).result = .ok token := congrArg Submission.result hdone
    have hs' : s' = s₂ := by
      simp only [s', submitActs, hresult, List.foldl_append, ← hs₁, ← htoken]
      rfl
    rw [hs', hdone, hcrews₂, hfutures₂]
    refine ⟨hdevice₂, hexec, hlog, fun t ht => ⟨future, hf, ?_⟩⟩
    cases ht
    rw [hw, htoken]

/-! ### Polling -/

def roundActs (i : Nat) (cq : CqId) (batch : Nat) : List Act :=
  .poll i cq (max 1 batch) :: List.replicate (max 1 batch) (.hand i)

lemma hand_idle (h : ∀ x rest, s.batches.get? i ≠ some (x :: rest)) (k : Nat) :
    (List.replicate k (.hand i)).foldl (perform serves) s = s := by
  have hstep : s.perform serves (.hand i) = s := by
    simp only [perform]
    split
    · rename_i x rest hx
      exact absurd hx (h _ _)
    · rfl
  induction k with
  | zero => rfl
  | succ k ih => rw [List.replicate_succ, List.foldl_cons, hstep, ih]

lemma hand_alone (serves : CqId → ExecutorId) {cq : CqId} (cs : List Completion) {k : Nat}
    (hk : cs.length ≤ k) (batch : s.batches.get? i = some (cs.map (cq, ·))) :
    let s' := (List.replicate k (.hand i)).foldl (perform serves) s
    s'.ops = s.ops ∧ s'.batches.get? i = some [] ∧
      (s'.crews (serves cq)).executor = ((s.crews (serves cq)).executor.processAll cs).2 := by
  induction cs generalizing s k with
  | nil =>
    rw [List.map_nil] at batch
    rw [hand_idle (by simp [batch])]
    exact ⟨rfl, batch, rfl⟩
  | cons c cs ih =>
    obtain ⟨k, rfl⟩ : ∃ j, k = j + 1 := ⟨k - 1, by rw [List.length_cons] at hk; omega⟩
    rw [List.map_cons] at batch
    rw [List.replicate_succ, List.foldl_cons]
    rcases hprocess : (s.crews (serves cq)).executor.process? c with - | executor
    · have hstep : s.perform serves (.hand i) = { s with
          batches := s.batches.set i [], lost := s.lost ++ (cq, c) :: cs.map (cq, ·) } := by
        simp [perform, batch, hprocess]
      rw [hstep, hand_idle (by simp)]
      exact ⟨rfl, Table.get?_set_self _ _ _, by simp [Executor.processAll, hprocess]⟩
    · have hstep : s.perform serves (.hand i) = { s with
          crews := Function.update s.crews (serves cq)
            ((s.crews (serves cq)).perform (.process c))
          batches := s.batches.set i (cs.map (cq, ·))
          handed := s.handed ++ [(cq, c)] } := by
        simp [perform, batch, hprocess]
      obtain ⟨hops, hbatch, hexec⟩ := ih (s := s.perform serves (.hand i)) (k := k)
        (by rw [List.length_cons] at hk; omega)
        (by rw [hstep]; exact Table.get?_set_self _ _ _)
      refine ⟨hops.trans (by rw [hstep]), hbatch, hexec.trans ?_⟩
      rw [hstep]
      simp [Executor.processAll, hprocess, Crew.perform]

/-- **A round without interruption.** -/
theorem round_alone {cq : CqId} (batch : Nat)
    (idle : s.batches.get? i = none ∨ s.batches.get? i = some []) :
    let s' := (roundActs i cq batch).foldl (perform serves) s
    let done := Poller.round batch { source := .ring cq } (s.crews (serves cq)).executor s.device
    s'.device = done.2.2.2 ∧ (s'.crews (serves cq)).executor = done.2.2.1 ∧
      (s'.batches.get? i = none ∨ s'.batches.get? i = some []) := by
  intro s' done
  rcases hp : CompletionQueue.poll { source := .ring cq } s.device (max 1 batch) with
    error | ⟨cs, source, d⟩
  · have hpoll : s.perform serves (.poll i cq (max 1 batch)) = s := by
      rcases idle with h | h <;> simp only [perform, h, hp]
    have hs' : s' = s := by
      simp only [s', roundActs, List.foldl_cons, hpoll]
      refine hand_idle (fun x rest h => ?_) _
      rcases idle with h' | h' <;> cases h.symm.trans h'
    have hdone : done.2.2 = ((s.crews (serves cq)).executor, s.device) := by
      simp only [done, Poller.round, hp]
      cases error <;> rfl
    rw [hs', hdone]
    exact ⟨rfl, rfl, idle⟩
  · have hpoll : s.perform serves (.poll i cq (max 1 batch)) = { s with
        ops := s.ops ++ [.poll cq (max 1 batch)]
        batches := s.batches.set i (cs.map (cq, ·)) } := by
      rcases idle with h | h <;> simp only [perform, h, hp]
    obtain ⟨hops, hbatch, hexec⟩ := hand_alone serves (i := i)
      (s := s.perform serves (.poll i cq (max 1 batch))) cs (CompletionQueue.poll_ok hp).1
      (by rw [hpoll]; exact Table.get?_set_self _ _ _)
    have hdone : done.2.2 = (((s.crews (serves cq)).executor.processAll cs).2, d) := by
      simp only [done, Poller.round, hp]
      rcases (s.crews (serves cq)).executor.processAll cs with ⟨- | -, executor⟩ <;> rfl
    rw [hdone]
    refine ⟨(congrArg Device.run hops).trans ?_, hexec.trans ?_, Or.inr hbatch⟩
    · rw [hpoll]
      exact (Device.run_snoc _ _).trans (Device.poll_spec hp).1
    · rw [hpoll]

end Pipeline

end Verbs
