import Mathlib.Tactic
import Verbs.Proofs.Executor.Life

/-!
Calls that nobody interrupts. Taken without a break, the steps of a call do to the executor what the
executor's own function does.
-/

namespace Verbs.Crew

variable {κ : Type} {s : Crew κ} {n i : Nat}

def released? : CrewEvent κ → Option κ
  | .released _ cb _ => some cb
  | _ => none

lemma filterMap_released (t : UInt64) (cb : Option κ) (how : Release) :
    (cb.toList.map (CrewEvent.released t · how)).filterMap released? = cb.toList := by
  cases cb <;> rfl

def registerMoves (n : Nat) (cb : κ) : List (Move κ) := [.draw n cb, .insert n, .check n, .revoke n]

/-- **Registering without interruption.** -/
theorem register_alone (free : s.calls.get? n = none) (cb : κ) :
    let s' := (registerMoves n cb).foldl perform s
    s'.executor = (s.executor.register cb).2.2 ∧
    s'.log.filterMap released? =
      s.log.filterMap released? ++ (s.executor.register cb).2.1.toList ∧
    .returned (s.executor.register cb).1 ∈ s'.log ∧ s'.duties = s.duties ∧
      s'.calls.get? n = none := by
  rcases hclosed : s.executor.registry.closed with - | -
  · simp [registerMoves, perform, free, hclosed, Registry.draw, Registry.put, Executor.register,
      Registry.insert, Registry.store, released?]
  · simp [registerMoves, perform, free, hclosed, Registry.draw, Registry.put, Executor.register,
      Registry.insert, Registry.store, Executor.cancel, Registry.take]
    rfl

lemma cancel_alone (s : Crew κ) (token : UInt64) :
    (s.perform (.cancel token)).executor = (s.executor.cancel token).2 ∧
    (s.perform (.cancel token)).log.filterMap released? =
      s.log.filterMap released? ++ (s.executor.cancel token).1.toList := by
  rcases hcancel : s.executor.cancel token with ⟨cb, executor⟩
  have hanswered : [CrewEvent.answered token cb.isSome].filterMap released? = ([] : List κ) := rfl
  simp only [perform, hcancel, List.filterMap_append, filterMap_released, hanswered,
    List.append_nil, true_and]

/-- The steps of a call that joins and has no worker left to wait for. -/
def releaseMoves (n : Nat) (tokens : List UInt64) : List (Move κ) :=
  [.shut n, .look n] ++ tokens.map (.visit n) ++ [.gather n] ++
    List.replicate (tokens.length + 1) (.release n)

lemma visit_alone {present : List UInt64} (seen tokens : List UInt64)
    (call : s.calls.get? n = some (.visiting present seen))
    (hmem : ∀ t ∈ tokens, s.executor.registry.callbacks.contains t) :
    ∃ calls, (tokens.map (.visit n)).foldl perform s = { s with calls } ∧
      calls.get? n = some (.visiting present (seen ++ tokens)) := by
  induction tokens generalizing s seen with
  | nil => exact ⟨s.calls, rfl, by rw [call, List.append_nil]⟩
  | cons t ts ih =>
    have hstep : s.perform (.visit n t) =
        { s with calls := s.calls.set n (.visiting present (seen ++ [t])) } := by
      simp only [perform, call, hmem t List.mem_cons_self, if_true]
    obtain ⟨calls, hrun, hcalls⟩ := ih (s := s.perform (.visit n t)) (seen ++ [t])
      (by rw [hstep]; exact Table.get?_set_self _ _ _)
      (by rw [hstep]; exact fun u hu => hmem u (List.mem_cons_of_mem t hu))
    refine ⟨calls, ?_, by rw [hcalls, List.append_assoc]; rfl⟩
    rw [List.map_cons, List.foldl_cons, hrun, hstep]

lemma empty_alone {tokens : List UInt64} (call : s.calls.get? n = some (.emptying tokens)) :
    let s' := (List.replicate (tokens.length + 1) (.release n)).foldl perform s
    s'.executor = { s.executor with registry := (s.executor.registry.takeAll tokens).2 } ∧
    s'.log.filterMap released? =
      s.log.filterMap released? ++ (s.executor.registry.takeAll tokens).1 ∧
    .joined ∈ s'.log := by
  induction tokens generalizing s with
  | nil => simp [perform, call, Registry.takeAll, released?]
  | cons t ts ih =>
    have hstep : s.perform (.release n) = { s with
        executor := (s.executor.cancel t).2
        calls := s.calls.set n (.emptying ts)
        log := s.log ++ (s.executor.cancel t).1.toList.map (.released t · .joined) } := by
      simp only [perform, call]
    obtain ⟨hexec, hlog, hjoined⟩ := ih (s := s.perform (.release n))
      (by rw [hstep]; exact Table.get?_set_self _ _ _)
    rw [List.length_cons, List.replicate_succ, List.foldl_cons]
    rw [s.executor.registry.takeAll_cons]
    refine ⟨hexec.trans (by rw [hstep]; rfl), hlog.trans ?_, hjoined⟩
    rw [hstep, List.filterMap_append, filterMap_released, List.append_assoc]
    rfl

/-- **Joining without interruption**, once the workers are gone. -/
theorem release_alone (call : s.calls.get? n = some (.awaiting [])) :
    let s' := (releaseMoves n s.executor.registry.callbacks.keys).foldl perform s
    s'.executor = s.executor.release.2 ∧
    s'.log.filterMap released? = s.log.filterMap released? ++ s.executor.release.1 ∧
    .joined ∈ s'.log := by
  set tokens := s.executor.registry.callbacks.keys with htokens
  have hlook : [.shut n, .look n].foldl perform s =
      { s with
        executor.registry := s.executor.registry.shut
        calls := (s.calls.set n .closing).set n (.visiting tokens []) } := by
    simp [perform, call, Registry.shut, htokens]
  have hmem : ∀ t ∈ tokens, s.executor.registry.callbacks.contains t := fun t ht =>
    Option.isSome_iff_ne_none.mpr fun hnone => Table.get?_eq_none_iff.mp hnone ht
  obtain ⟨calls, hvisit, hcalls⟩ := visit_alone (s := [.shut n, .look n].foldl perform s) [] tokens
    (by rw [hlook]; exact Table.get?_set_self _ _ _) (by rw [hlook]; exact hmem)
  have hgather : perform { [.shut n, .look n].foldl perform s with calls } (.gather n) =
      { s with
        executor.registry := s.executor.registry.shut
        calls := calls.set n (.emptying tokens) } := by
    have hcovered : tokens.all (fun t => !s.executor.registry.shut.callbacks.contains t ||
        ([] ++ tokens).contains t) = true :=
      List.all_eq_true.mpr fun t ht => by simp [ht]
    rw [hlook]
    simp only [perform, hcalls]
    rw [if_pos hcovered]
    rfl
  have hempty := empty_alone (n := n)
    (s := { s with
      executor.registry := s.executor.registry.shut
      calls := calls.set n (.emptying tokens) }) (Table.get?_set_self _ _ _)
  rw [releaseMoves, List.foldl_append, List.foldl_append, List.foldl_append, hvisit,
    List.foldl_cons, List.foldl_nil, hgather]
  exact hempty

/-- **Dispatching without interruption**, up to the point where the callback is run. -/
theorem dispatch_alone {c : Completion} {queue : ClosableQueue Completion}
    (duty : s.duties.get? i = some .ready) (item : s.executor.queue.take = (.item c, queue)) :
    let s' := [.pop i, .take i].foldl perform s
    s'.executor = ({ s.executor with queue }.cancel c.wrId).2 ∧
    s'.duties.get? i = some (match ({ s.executor with queue }.cancel c.wrId).1 with
      | some cb => .armed c cb
      | none => .ready) := by
  rcases hcancel : { s.executor with queue }.cancel c.wrId with ⟨- | cb, executor⟩ <;>
    simp [perform, duty, item, hcancel]

end Verbs.Crew
