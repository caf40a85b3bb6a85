import Mathlib.Logic.Function.Basic
import Mathlib.Tactic
import Verbs.Proofs.Executor.Growth

/-!
What workers run. Which callback is run for which completion depends on the order in which the
completions are dispatched and on what is registered under their numbers, and on nothing else, as
long as every callback is registered before its completion is dispatched. A single worker
dispatches in the order of the queue.
-/

namespace Verbs

variable {κ : Type}

/-- The completions that a worker has taken from the queue and not looked up yet. -/
def Duty.holds : Duty κ → List Completion
  | .holding c => [c]
  | _ => []

/-- The callbacks that a worker has taken and not run yet. -/
def Duty.arms : Duty κ → List (Completion × κ)
  | .armed c cb => [(c, cb)]
  | _ => []

/-! ### Serving in order -/

/-- The callbacks that are run for completions one after another. A callback serves one completion,
the first with its number. -/
def serve (offers : UInt64 → Option κ) : List Completion → List (Completion × κ)
  | [] => []
  | c :: cs =>
    match offers c.wrId with
    | some cb => (c, cb) :: serve (Function.update offers c.wrId none) cs
    | none => serve offers cs

/-- The callbacks that are left after completions were served. -/
def unserved (offers : UInt64 → Option κ) (cs : List Completion) (token : UInt64) : Option κ :=
  if token ∈ cs.map (·.wrId) then none else offers token

section Serve

variable {offers offers' : UInt64 → Option κ} {cs : List Completion}

lemma serve_congr (h : ∀ c ∈ cs, offers c.wrId = offers' c.wrId) :
    serve offers cs = serve offers' cs := by
  induction cs generalizing offers offers' with
  | nil => rfl
  | cons c cs ih =>
    have htail : ∀ x ∈ cs, offers x.wrId = offers' x.wrId := fun x hx => h x (.tail c hx)
    rcases hcb : offers c.wrId with - | cb
    · have hcb' : offers' c.wrId = none := (h c List.mem_cons_self).symm.trans hcb
      simp only [serve, hcb, hcb']
      exact ih htail
    · have hcb' : offers' c.wrId = some cb := (h c List.mem_cons_self).symm.trans hcb
      simp only [serve, hcb, hcb', List.cons.injEq, true_and]
      refine ih fun x hx => ?_
      simp only [Function.update_apply, htail x hx]

lemma unserved_cons (c : Completion) (token : UInt64) :
    unserved offers (c :: cs) token = unserved (Function.update offers c.wrId none) cs token := by
  by_cases ht : token = c.wrId
  · simp [unserved, ht]
  · simp [unserved, ht]

lemma serve_snoc (offers : UInt64 → Option κ) (cs : List Completion) (c : Completion) :
    serve offers (cs ++ [c]) =
      serve offers cs ++ (unserved offers cs c.wrId).toList.map (c, ·) := by
  induction cs generalizing offers with
  | nil =>
    simp only [List.nil_append, serve, unserved, List.map_nil, List.not_mem_nil, if_false]
    rcases offers c.wrId with - | cb <;> rfl
  | cons x cs ih =>
    rcases hcb : offers x.wrId with - | cb
    · have hsame : Function.update offers x.wrId none = offers :=
        Function.update_eq_self_iff.mpr hcb.symm
      simp only [List.cons_append, serve, hcb, ih, unserved_cons, hsame]
    · simp only [List.cons_append, serve, hcb, ih, unserved_cons]

end Serve

namespace Crew

variable {s s' : Crew κ} {m : Move κ}

/-! ### What was noted -/

/-- The completions that workers looked up, in order. -/
def dispatched (s : Crew κ) : List Completion :=
  s.log.filterMap fun
    | .taken c _ | .skipped c => some c
    | _ => none

def takes (s : Crew κ) : List (Completion × κ) :=
  s.log.filterMap fun
    | .taken c cb => some (c, cb)
    | _ => none

def invocations (s : Crew κ) : List (Completion × κ) :=
  s.log.filterMap fun
    | .invoked c cb => some (c, cb)
    | _ => none

/-- What an event changes in the callbacks on offer. -/
def offer (offers : UInt64 → Option κ) : CrewEvent κ → UInt64 → Option κ
  | .registered token cb => Function.update offers token (some cb)
  | .released token _ _ => Function.update offers token none
  | _ => offers

/-- The callbacks that were registered and not released. -/
def offered (s : Crew κ) : UInt64 → Option κ := s.log.foldl offer fun _ => none

lemma offered_of_log {l : List (CrewEvent κ)} (h : s'.log = s.log ++ l) :
    s'.offered = l.foldl offer s.offered := by
  rw [offered, h, List.foldl_append]
  rfl

lemma takes_sublist (s : Crew κ) : (s.takes.map Prod.fst).Sublist s.dispatched := by
  simp only [takes, dispatched, List.map_filterMap]
  induction s.log with
  | nil => exact List.Sublist.slnil
  | cons e log ih =>
    cases e with
    | taken c cb => exact ih.cons_cons c
    | skipped c => exact ih.cons c
    | _ => exact ih

/-! ### Serving the dispatched completions -/

/-- The registry holds what the dispatched completions left, and they were served in order. -/
structure Served (s : Crew κ) : Prop where
  left : ∀ token, s.stored token = unserved s.offered s.dispatched token
  taken : s.takes = serve s.offered s.dispatched

namespace Served

variable {token : UInt64}

lemma same (h : s.Served) (hstored : ∀ t, s'.stored t = s.stored t)
    (hoffered : s'.offered = s.offered) (hdispatched : s'.dispatched = s.dispatched)
    (htakes : s'.takes = s.takes) : s'.Served :=
  ⟨fun t => by rw [hstored, hoffered, hdispatched, h.left],
    by rw [htakes, hoffered, hdispatched, h.taken]⟩

lemma reoffer {v : Option κ} (h : s.Served) (hnew : token ∉ s.dispatched.map (·.wrId))
    (hstored : ∀ t, s'.stored t = if t = token then v else s.stored t)
    (hoffered : s'.offered = Function.update s.offered token v)
    (hdispatched : s'.dispatched = s.dispatched) (htakes : s'.takes = s.takes) : s'.Served := by
  refine ⟨fun t => ?_, ?_⟩
  · rw [hstored, hoffered, hdispatched, unserved]
    by_cases ht : t = token
    · rw [if_pos ht, ht, if_neg hnew, Function.update_self]
    · rw [if_neg ht, Function.update_of_ne ht, h.left, unserved]
  · rw [htakes, hoffered, hdispatched, h.taken]
    refine serve_congr fun c hc => (Function.update_of_ne ?_ _ _).symm
    exact fun hw => hnew (hw ▸ List.mem_map_of_mem hc)

lemma notMem_of_stored {cb : κ} (h : s.Served) (hcb : s.stored token = some cb) :
    token ∉ s.dispatched.map (·.wrId) := by
  intro hmem
  rw [h.left, unserved, if_pos hmem] at hcb
  cases hcb

lemma cancel (h : s.Served) {how : Release} {rest : List (CrewEvent κ)}
    (hexec : s'.executor = (s.executor.cancel token).2)
    (hlog : s'.log =
      s.log ++ ((s.executor.cancel token).1.toList.map (.released token · how) ++ rest))
    (hoffer : ∀ offers : UInt64 → Option κ, rest.foldl offer offers = offers)
    (hdispatched : s'.dispatched = s.dispatched) (htakes : s'.takes = s.takes) : s'.Served := by
  have hstored : ∀ t, s'.stored t = if t = token then none else s.stored t := by
    intro t
    rw [stored, hexec, Executor.get?_cancel]
    rfl
  have hoffered := offered_of_log hlog
  rw [List.foldl_append, hoffer, Executor.cancel_fst] at hoffered
  rcases hcb : s.stored token with - | cb
  · rw [show s.executor.registry.callbacks.get? token = none from hcb] at hoffered
    refine h.same (fun t => ?_) hoffered hdispatched htakes
    rw [hstored]
    split
    · rename_i ht
      rw [ht, hcb]
    · rfl
  · rw [show s.executor.registry.callbacks.get? token = some cb from hcb] at hoffered
    exact h.reoffer (h.notMem_of_stored hcb) hstored hoffered hdispatched htakes

lemma dispatch {c : Completion} (h : s.Served)
    (hexec : s'.executor = (s.executor.cancel c.wrId).2) (hoffered : s'.offered = s.offered)
    (hdispatched : s'.dispatched = s.dispatched ++ [c])
    (htakes : s'.takes = s.takes ++ (s.executor.cancel c.wrId).1.toList.map (c, ·)) :
    s'.Served := by
  refine ⟨fun t => ?_, ?_⟩
  · have hleft := h.left t
    rw [stored, unserved] at hleft
    rw [stored, hexec, Executor.get?_cancel, hoffered, hdispatched, unserved]
    by_cases ht : t = c.wrId
    · simp [ht]
    · simp [ht, hleft]
  · rw [htakes, hoffered, hdispatched, serve_snoc, h.taken, ← h.left, Executor.cancel_fst]
    rfl

end Served

lemma Step.served (h : Step s m s') (hs : s.Served)
    (fresh : ∀ token cb, s'.log = s.log ++ [.registered token cb] →
      token ∉ s.dispatched.map (·.wrId)) : s'.Served := by
  cases h with
  | insert n t cb call =>
    exact hs.reoffer (v := some cb) (fresh t cb rfl) (fun u => Table.get?_set _ _ _ _)
      (by simp [offered, offer]) (by simp [dispatched]) (by simp [takes])
  | revoke n t call =>
    exact hs.cancel rfl rfl (fun _ => rfl) (by simp [dispatched]) (by simp [takes])
  | cancel t =>
    exact hs.cancel rfl rfl (fun _ => rfl) (by simp [dispatched]) (by simp [takes])
  | release n t rest call =>
    exact hs.cancel rfl (by rw [List.append_nil]) (fun _ => rfl) (by simp [dispatched])
      (by simp [takes])
  | arm i c cb duty found =>
    exact hs.dispatch rfl (by simp [offered, offer]) (by simp [dispatched]) (by simp [takes, found])
  | skip i c duty missing =>
    exact hs.dispatch rfl (by simp [offered, offer]) (by simp [dispatched])
      (by simp [takes, missing])
  | stay => exact hs
  | late | shutdown | join | await | shut | look | visit | gather | pop | exit =>
    exact hs.same (fun _ => rfl) rfl rfl rfl
  | draw | keep | process | leave | invoke =>
    exact hs.same (fun _ => rfl) (by simp [offered, offer]) (by simp [dispatched])
      (by simp [takes])
  | finish i breaks duty =>
    cases breaks <;>
      exact hs.same (fun _ => rfl) (by simp [offered, offer]) (by simp [dispatched])
      (by simp [takes])

lemma served_start (workers : Nat) : (start workers : Crew κ).Served :=
  ⟨fun _ => rfl, rfl⟩

/-! ### One worker -/

/-- A crew with a single worker, who is about something. What was accepted was dispatched, or is
held, or waits in the queue, in this order. -/
structure Solo (s : Crew κ) (d : Duty κ) : Prop where
  duties : ∀ i d', s.duties.get? i = some d' ↔ i = 0 ∧ d' = d
  queued : s.accepted = s.dispatched ++ d.holds ++ s.executor.queue.items
  taken : s.takes = s.invocations ++ d.arms

namespace Solo

variable {d d' : Duty κ}

lemma same (h : s.Solo d) (hduties : s'.duties = s.duties) (haccepted : s'.accepted = s.accepted)
    (hitems : s'.executor.queue.items = s.executor.queue.items)
    (hdispatched : s'.dispatched = s.dispatched) (htakes : s'.takes = s.takes)
    (hinvocations : s'.invocations = s.invocations) : s'.Solo d :=
  ⟨fun i d' => by rw [hduties, h.duties], by rw [haccepted, hdispatched, hitems, h.queued],
    by rw [htakes, hinvocations, h.taken]⟩

lemma of_set_duty {i : Nat} {d₀ : Duty κ} (h : s.Solo d) (duty : s.duties.get? i = some d₀)
    (hduties : s'.duties = s.duties.set i d') (haccepted : s'.accepted = s.accepted)
    (hqueued : s'.dispatched ++ d'.holds ++ s'.executor.queue.items =
      s.dispatched ++ d₀.holds ++ s.executor.queue.items)
    (htaken : s.takes = s.invocations ++ d₀.arms → s'.takes = s'.invocations ++ d'.arms) :
    s'.Solo d' := by
  obtain ⟨rfl, rfl⟩ := (h.duties i d₀).mp duty
  refine ⟨fun j e => ?_, by rw [haccepted, hqueued, h.queued], htaken h.taken⟩
  rw [hduties, Table.get?_set]
  by_cases hj : j = 0
  · rw [if_pos hj, Option.some.injEq]
    exact ⟨fun he => ⟨hj, he.symm⟩, fun he => he.2.symm⟩
  · rw [if_neg hj, h.duties]
    exact ⟨fun he => absurd he.1 hj, fun he => absurd he.1 hj⟩

end Solo

lemma Step.solo (h : Step s m s') (hs : ∃ d, s.Solo d) : ∃ d, s'.Solo d := by
  obtain ⟨d, hs⟩ := hs
  cases h with
  | stay => exact ⟨d, hs⟩
  | process c isOpen =>
    have hqueued := congrArg (· ++ [c]) hs.queued
    have htaken := hs.taken
    exact ⟨d, hs.duties, by simpa [accepted, dispatched] using hqueued,
      by simpa [takes, invocations] using htaken⟩
  | pop i c rest duty items =>
    refine ⟨_, hs.of_set_duty duty rfl rfl ?_ fun h => h⟩
    rw [items]
    simp [Duty.holds, dispatched]
  | exit i duty closed items => exact ⟨_, hs.of_set_duty duty rfl rfl rfl fun h => h⟩
  | arm i c cb duty found =>
    exact ⟨_, hs.of_set_duty duty rfl (by simp [accepted]) (by simp [Duty.holds, dispatched])
      fun h => by simpa [takes, invocations, Duty.arms] using h⟩
  | skip i c duty missing =>
    exact ⟨_, hs.of_set_duty duty rfl (by simp [accepted]) (by simp [Duty.holds, dispatched])
      fun h => by simpa [takes, invocations, Duty.arms] using h⟩
  | invoke i c cb duty =>
    exact ⟨_, hs.of_set_duty duty rfl (by simp [accepted]) (by simp [Duty.holds, dispatched])
      fun h => by simpa [takes, invocations, Duty.arms] using h⟩
  | finish i breaks duty =>
    refine ⟨_, hs.of_set_duty duty rfl (by cases breaks <;> simp [accepted]) ?_ fun h => ?_⟩
    · cases breaks <;> simp [Duty.holds, dispatched]
    · cases breaks <;> simpa [takes, invocations, Duty.arms] using h
  | late | shutdown | join | await | shut | look | visit | gather =>
    exact ⟨d, hs.same rfl rfl rfl rfl rfl rfl⟩
  | draw | insert | keep | leave =>
    exact ⟨d, hs.same rfl (by simp [accepted]) rfl (by simp [dispatched]) (by simp [takes])
      (by simp [invocations])⟩
  | revoke | cancel | release =>
    exact ⟨d, hs.same rfl (by simp [accepted]) (by rw [Executor.cancel_queue])
      (by simp [dispatched]) (by simp [takes]) (by simp [invocations])⟩

lemma solo_start : (start 1 : Crew κ).Solo .ready := by
  refine ⟨fun i d => ?_, rfl, rfl⟩
  cases i with
  | zero => exact ⟨fun h => ⟨rfl, (Option.some.inj h).symm⟩, fun h => h.2 ▸ rfl⟩
  | succ i => exact ⟨fun h => (nomatch h), fun h => (nomatch h.1)⟩

lemma Solo.invocations_sublist {d : Duty κ} (h : s.Solo d) :
    (s.invocations.map Prod.fst).Sublist s.accepted := by
  have htakes : (s.invocations.map Prod.fst).Sublist (s.takes.map Prod.fst) := by
    rw [h.taken, List.map_append]
    exact List.sublist_append_left _ _
  rw [h.queued, List.append_assoc]
  exact (htakes.trans s.takes_sublist).trans (List.sublist_append_left _ _)

end Crew

end Verbs
