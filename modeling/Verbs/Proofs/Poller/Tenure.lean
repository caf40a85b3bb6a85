import Mathlib.Tactic
import Verbs.Proofs.Poller.Claimants

/-!
A completion queue has one poller at a time. A thread that takes its steps without interruption goes
through the rounds of a poller, and one that is told to stop comes to its end whatever it is about,
so that a stop returns. What a stop is told, whose claim is given up and when another claim is
refused follow from what every run keeps.
-/

namespace Verbs

open Claimant

variable {κ : Type}

namespace Claimants

variable {s s' : Claimants κ} {i : Nat} {p : Claimant} {stage : Stage}

/-! ### Without interruption -/

lemma run_cons (s : Claimants κ) (a : Act κ) (acts : List (Act κ)) :
    s.run (a :: acts) = (s.perform a).run acts := rfl

lemma run_append (s : Claimants κ) (acts acts' : List (Act κ)) :
    s.run (acts ++ acts') = (s.run acts).run acts' := List.foldl_append

lemma get?_put (hp : s.pollers[i]? = some p) (p' : Claimant) :
    (s.put i p').pollers[i]? = some p' := by
  have hlt : i < s.pollers.length := (List.getElem?_eq_some_iff.mp hp).1
  simp [put, hlt]

lemma put_put (s : Claimants κ) (i : Nat) (p p' : Claimant) :
    (s.put i p).put i p' = s.put i p' := by
  simp only [put, List.set_set]

lemma forward_end (hp : s.pollers[i]? = some p) (hstage : p.stage = .forwarding []) :
    s.perform (.of i .forward) = s.put i (p.into .checking) := by
  rw [perform_of hp]
  simp only [go, hstage]

lemma forward_refused {c : Completion} {cs : List Completion} (hp : s.pollers[i]? = some p)
    (hstage : p.stage = .forwarding (c :: cs))
    (hprocess : (s.executors p.executor).process? c = none) :
    s.perform (.of i .forward) = s.put i (p.into (.leaving none)) := by
  rw [perform_of hp]
  simp only [go, hstage, hprocess]

lemma forward_handed {c : Completion} {cs : List Completion} {e : Executor κ}
    (hp : s.pollers[i]? = some p) (hstage : p.stage = .forwarding (c :: cs))
    (hprocess : (s.executors p.executor).process? c = some e) :
    s.perform (.of i .forward) =
      { s with executors := Function.update s.executors p.executor e }.put i
        (p.into (.forwarding cs)) := by
  rw [perform_of hp]
  simp only [go, hstage, hprocess]

lemma forward_idle (hp : s.pollers[i]? = some p) (hstage : ∀ cs, p.stage ≠ .forwarding cs)
    (k : Nat) : s.run (List.replicate k (.of i .forward)) = s := by
  have hstep : s.perform (.of i .forward) = s := by
    rw [perform_of hp]
    simp only [go]
    split
    · exact absurd ‹_› (hstage _)
    · exact absurd ‹_› (hstage _)
    · rfl
  induction k with
  | zero => rfl
  | succ k ih => rw [List.replicate_succ, run_cons, hstep, ih]

lemma forward_alone {cs : List Completion} {k : Nat} (hp : s.pollers[i]? = some p)
    (hstage : p.stage = .forwarding cs) (hk : cs.length < k) :
    let sent := (s.executors p.executor).processAll cs
    s.run (List.replicate k (.of i .forward)) =
      { s with executors := Function.update s.executors p.executor sent.2 }.put i
        (p.into (if sent.1 then .checking else .leaving none)) := by
  induction cs generalizing s p k with
  | nil =>
    obtain ⟨k, rfl⟩ := Nat.exists_eq_add_one_of_ne_zero hk.ne'
    rw [List.replicate_succ, run_cons, forward_end hp hstage,
      forward_idle (get?_put hp _) (fun _ => by simp) k]
    simp only [Executor.processAll, if_true, Function.update_eq_self]
  | cons c cs ih =>
    obtain ⟨k, rfl⟩ := Nat.exists_eq_add_one_of_ne_zero (Nat.zero_lt_of_lt hk).ne'
    rcases hprocess : (s.executors p.executor).process? c with - | e
    · rw [List.replicate_succ, run_cons, forward_refused hp hstage hprocess,
        forward_idle (get?_put hp _) (fun _ => by simp) k]
      simp only [Executor.processAll, hprocess, Function.update_eq_self, Bool.false_eq_true,
        if_false]
    · have hstep := forward_handed hp hstage hprocess
      have hget : (s.perform (.of i .forward)).pollers[i]? = some (p.into (.forwarding cs)) := by
        rw [hstep]
        exact get?_put hp _
      rw [List.replicate_succ, run_cons, ih hget rfl (Nat.lt_of_succ_lt_succ hk), hstep]
      simp only [Executor.processAll, hprocess, put, into_executor, into_into,
        Function.update_self, Function.update_idem, List.set_set]

lemma check_untold (hp : s.pollers[i]? = some p) (hstage : p.stage = .checking)
    (htold : p.told = false) : s.perform (.of i .check) = s.put i (p.into .polling) := by
  rw [perform_of hp]
  simp only [go, hstage, htold, Bool.false_eq_true, if_false]

lemma check_told (hp : s.pollers[i]? = some p) (hstage : p.stage = .checking)
    (htold : p.told = true) : s.perform (.of i .check) = s.put i (p.into (.leaving none)) := by
  rw [perform_of hp]
  simp only [go, hstage, htold, if_true]

lemma leave_alone {error : Option IoError} (hp : s.pollers[i]? = some p)
    (hstage : p.stage = .leaving error) :
    s.perform (.of i .leave) =
      { s with queue := s.queue.release }.put i (p.into (.ended error)) := by
  rw [perform_of hp]
  simp only [go, hstage]

lemma leave_idle (hp : s.pollers[i]? = some p) (hstage : ∀ error, p.stage ≠ .leaving error) :
    s.perform (.of i .leave) = s := by
  rw [perform_of hp]
  cases hp : p.stage <;> simp_all [go]

lemma forward_leave {cs : List Completion} {k : Nat} (hp : s.pollers[i]? = some p)
    (hstage : p.stage = .forwarding cs) (hk : cs.length < k) :
    let sent := (s.executors p.executor).processAll cs
    let s' := (s.run (List.replicate k (.of i .forward))).perform (.of i .leave)
    s'.pollers[i]? = some (p.into (if sent.1 then .checking else .ended none)) ∧
      s'.queue = (if sent.1 then s.queue else s.queue.release) ∧
      s'.executors = Function.update s.executors p.executor sent.2 ∧ s'.device = s.device := by
  intro sent s'
  let t : Claimants κ := { s with executors := Function.update s.executors p.executor sent.2 }
  have ht : ∀ stage, (t.put i (p.into stage)).pollers[i]? = some (p.into stage) :=
    fun stage => get?_put hp _
  have hs' : s' = (t.put i (p.into (if sent.1 then .checking else .leaving none))).perform
      (.of i .leave) := congrArg (perform · _) (forward_alone hp hstage hk)
  rw [hs']
  rcases sent.1 with - | -
  · simp only [Bool.false_eq_true, if_false]
    rw [leave_alone (ht _) rfl]
    exact ⟨get?_put (ht _) _, rfl, rfl, rfl⟩
  · simp only [if_true]
    rw [leave_idle (ht _) (fun _ => by simp)]
    exact ⟨ht _, rfl, rfl, rfl⟩

lemma poll_failed {error : IoError} (hp : s.pollers[i]? = some p) (hstage : p.stage = .polling)
    (hpoll : s.queue.poll s.device (max 1 p.batch) = .error (.io error)) :
    s.perform (.of i .poll) = s.put i (p.into (.leaving (some error))) := by
  rw [perform_of hp]
  simp only [go, hstage, hpoll]

lemma poll_broke {fault : Fault} (hp : s.pollers[i]? = some p) (hstage : p.stage = .polling)
    (hpoll : s.queue.poll s.device (max 1 p.batch) = .error (.fault fault)) :
    s.perform (.of i .poll) = s.put i (p.into .crashed) := by
  rw [perform_of hp]
  simp only [go, hstage, hpoll]

lemma poll_took {cs : List Completion} {queue : CompletionQueue} {device : Device}
    (hp : s.pollers[i]? = some p) (hstage : p.stage = .polling)
    (hpoll : s.queue.poll s.device (max 1 p.batch) = .ok (cs, queue, device)) :
    s.perform (.of i .poll) = { s with queue, device }.put i (p.into (.forwarding cs)) := by
  rw [perform_of hp]
  simp only [go, hstage, hpoll]

def roundActs (i batch : Nat) : List (Act κ) :=
  .of i .check :: .of i .poll :: (List.replicate (max 1 batch + 1) (.of i .forward) ++
    [.of i .leave])

lemma round_alone (h : p.Orderly) (hp : s.pollers[i]? = some p) (hstage : p.stage = .checking)
    (htold : p.told = false) :
    let s' := s.run (roundActs i p.batch)
    let done := Poller.round p.batch s.queue (s.executors p.executor) s.device
    (∃ p', s'.pollers[i]? = some p' ∧ p'.status = done.1) ∧ s'.queue = done.2.1 ∧
      s'.executors = Function.update s.executors p.executor done.2.2.1 ∧
      s'.device = done.2.2.2 := by
  intro s' done
  have hjoin : p.join ≠ .done := h.not_done (by rw [hstage]; rfl)
  have hget : ∀ stage, (s.put i (p.into stage)).pollers[i]? = some (p.into stage) :=
    fun stage => get?_put hp _
  have hs' : s' = (((s.put i (p.into .polling)).perform (.of i .poll)).run
      (List.replicate (max 1 p.batch + 1) (.of i .forward))).perform (.of i .leave) := by
    simp only [s', roundActs, run_cons, run_append, check_untold hp hstage htold]
    rfl
  rcases hpoll : s.queue.poll s.device (max 1 p.batch) with
    (error | fault) | ⟨cs, queue, device⟩
  · have hdone : done = (.ended (some error), s.queue.release, s.executors p.executor,
        s.device) := by
      simp only [done, Poller.round, hpoll]
    have hpolled : (s.put i (p.into .polling)).perform (.of i .poll) =
        s.put i (p.into (.leaving (some error))) := by
      rw [poll_failed (hget _) rfl hpoll, put_put, into_into]
    rw [hs', hdone, hpolled, forward_idle (hget _) (fun _ => by simp), leave_alone (hget _) rfl]
    exact ⟨⟨_, get?_put (hget _) _, status_of rfl hjoin⟩, rfl,
      (Function.update_eq_self _ _).symm, rfl⟩
  · have hdone : done = (.crashed, s.queue, s.executors p.executor, s.device) := by
      simp only [done, Poller.round, hpoll]
    have hpolled : (s.put i (p.into .polling)).perform (.of i .poll) =
        s.put i (p.into .crashed) := by
      rw [poll_broke (hget _) rfl hpoll, put_put, into_into]
    rw [hs', hdone, hpolled, forward_idle (hget _) (fun _ => by simp),
      leave_idle (hget _) (fun _ => by simp)]
    exact ⟨⟨_, hget _, status_of rfl hjoin⟩, rfl, (Function.update_eq_self _ _).symm, rfl⟩
  · have hlength : cs.length < max 1 p.batch + 1 :=
      Nat.lt_succ_of_le (CompletionQueue.poll_ok hpoll).1
    let u : Claimants κ := { s with queue, device }
    have hu : ∀ stage, (u.put i (p.into stage)).pollers[i]? = some (p.into stage) := hget
    have hpolled : (s.put i (p.into .polling)).perform (.of i .poll) =
        u.put i (p.into (.forwarding cs)) :=
      (poll_took (hget _) rfl hpoll).trans (put_put u i _ _)
    obtain ⟨hpoller, hqueue, hexecutors, hdevice⟩ := forward_leave (hu _) rfl hlength
    have hsent : (u.put i (p.into (.forwarding cs))).executors p.executor =
        s.executors p.executor := rfl
    rw [into_executor, hsent] at hpoller hqueue hexecutors
    rw [hs', hpolled]
    simp only [done, Poller.round, hpoll]
    rcases hall : (s.executors p.executor).processAll cs with ⟨- | -, e⟩ <;>
    · rw [hall] at hpoller hqueue hexecutors
      exact ⟨⟨_, hpoller, status_of rfl hjoin⟩, hqueue, hexecutors, hdevice⟩

lemma stop_able (hp : s.pollers[i]? = some p) (hstarted : p.stage.isStarted = true)
    (hdropped : p.dropped = false) (hjoin : p.join = .able) (last : Bool) :
    s.perform (.of i (.stop last)) =
      s.put i { p with told := true, dropped := last, join := .waiting } := by
  rw [perform_of hp]
  simp [go, hstarted, hdropped, hjoin]

lemma stop_again (hp : s.pollers[i]? = some p) (hstarted : p.stage.isStarted = true)
    (hdropped : p.dropped = false) (hjoin : p.join = .done) (last : Bool) :
    s.perform (.of i (.stop last)) =
      s.put i { p with dropped := last, answers := p.answers ++ [.ok ()] } := by
  rw [perform_of hp]
  simp [go, hstarted, hdropped, hjoin]

lemma join_alone (hp : s.pollers[i]? = some p) (hjoin : p.join = .waiting)
    (hgone : p.stage.isGone = true) :
    s.perform (.of i .join) =
      { s with queue := (Poller.stop p.status s.queue).2 }.put i
        { p with join := .done, answers := p.answers ++ [(Poller.stop p.status s.queue).1] } := by
  rw [perform_of hp]
  simp [go, hjoin, hgone]

lemma join_idle (hp : s.pollers[i]? = some p) (hjoin : p.join ≠ .waiting) :
    s.perform (.of i .join) = s := by
  rw [perform_of hp]
  simp [go, hjoin]

lemma check_idle (hp : s.pollers[i]? = some p) (hstage : p.stage ≠ .checking) :
    s.perform (.of i .check) = s := by
  rw [perform_of hp]
  cases hp : p.stage <;> simp_all [go]

/-- The steps of one who stops a poller, and of a thread that finds itself told to. -/
def stopActs (i : Nat) (last : Bool) : List (Act κ) :=
  [.of i (.stop last), .of i .check, .of i .leave, .of i .join]

lemma stop_alone (h : p.Orderly) (hp : s.pollers[i]? = some p) (hdropped : p.dropped = false)
    (hjoin : p.join ≠ .waiting) (hrest : p.stage = .checking ∨ p.stage.isGone = true)
    (last : Bool) :
    let s' := s.run (stopActs i last)
    let done := Poller.stop p.status s.queue
    s'.queue = done.2 ∧ ∃ p', s'.pollers[i]? = some p' ∧ p'.status = .stopped ∧
      p'.answers = p.answers ++ [done.1] := by
  intro s' done
  have hs' : s' = (((s.perform (.of i (.stop last))).perform (.of i .check)).perform
    (.of i .leave)).perform (.of i .join) := rfl
  have hgone_idle : p.stage.isGone = true → p.stage ≠ .checking ∧
      ∀ error, p.stage ≠ .leaving error := by
    intro hgone
    refine ⟨fun hstage => ?_, fun error hstage => ?_⟩ <;>
    · rw [hstage] at hgone
      cases hgone
  rcases hjoin' : p.join with - | - | -
  · let q : Claimant := { p with told := true, dropped := last, join := .waiting }
    have hq : (s.put i q).pollers[i]? = some q := get?_put hp q
    have hstatus : p.status = p.stage.status := status_of rfl (by rw [hjoin']; decide)
    rcases hrest with hstage | hgone
    · have hstarted : p.stage.isStarted = true := by rw [hstage]; rfl
      let u : Claimants κ := { s with queue := s.queue.release }
      have hended : (u.put i (q.into (.ended none))).pollers[i]? = some (q.into (.ended none)) :=
        get?_put hp _
      have hleft : (s.put i (q.into (.leaving none))).perform (.of i .leave) =
          u.put i (q.into (.ended none)) :=
        (leave_alone (get?_put hp _) rfl).trans (put_put u i _ _)
      rw [hs', stop_able hp hstarted hdropped hjoin' last, check_told hq hstage rfl, put_put,
        hleft, join_alone hended rfl rfl]
      simp only [done, hstatus, hstage]
      exact ⟨rfl, _, get?_put hended _, rfl, rfl⟩
    · obtain ⟨hchecking, hleaving⟩ := hgone_idle hgone
      have hstatus' : q.status = p.status := hstatus.symm
      rw [hs', stop_able hp (started_of_gone hgone) hdropped hjoin' last,
        check_idle hq hchecking, leave_idle hq hleaving, join_alone hq rfl hgone]
      rw [hstatus']
      exact ⟨rfl, _, get?_put hq _, rfl, rfl⟩
  · exact absurd hjoin' hjoin
  · let q : Claimant := { p with dropped := last, answers := p.answers ++ [.ok ()] }
    have hq : (s.put i q).pollers[i]? = some q := get?_put hp q
    have hgone := (h.answered hjoin').1
    obtain ⟨hchecking, hleaving⟩ := hgone_idle hgone
    have hstatus : p.status = .stopped := if_pos hjoin'
    rw [hs', stop_again hp (started_of_gone hgone) hdropped hjoin' last, check_idle hq hchecking,
      leave_idle hq hleaving, join_idle hq hjoin]
    simp only [done, hstatus]
    exact ⟨rfl, q, hq, if_pos hjoin', rfl⟩

/-! ### A stop returns -/

/-- The thread comes to its end by its own motions, and nobody is told anything on the way. -/
def Finishes (s : Claimants κ) (i : Nat) (p : Claimant) : Prop :=
  ∃ ms : List Motion, .crash ∉ ms ∧ ∃ p', (s.run (ms.map (.of i))).pollers[i]? = some p' ∧
    p'.stage.isGone = true ∧ p'.join = p.join ∧ p'.answers = p.answers

lemma Finishes.of_gone (hp : s.pollers[i]? = some p) (hgone : p.stage.isGone = true) :
    s.Finishes i p := ⟨[], by simp, p, hp, hgone, rfl, rfl⟩

lemma Finishes.of_step {m : Motion} (hm : m ≠ .crash) (hstep : s.perform (.of i m) = s')
    (h : s'.Finishes i (p.into stage)) : s.Finishes i p := by
  obtain ⟨ms, hms, p', hp', hgone, hjoin, hanswers⟩ := h
  refine ⟨m :: ms, ?_, p', ?_, hgone, hjoin, hanswers⟩
  · simp [hms, hm.symm]
  · rw [List.map_cons, run_cons, hstep]
    exact hp'

lemma finishes_of_leaving {error : Option IoError} (hp : s.pollers[i]? = some p)
    (hstage : p.stage = .leaving error) : s.Finishes i p :=
  .of_step (by decide) (leave_alone hp hstage) (.of_gone (get?_put hp _) rfl)

lemma finishes_of_checking (hp : s.pollers[i]? = some p) (hstage : p.stage = .checking)
    (htold : p.told = true) : s.Finishes i p :=
  .of_step (by decide) (check_told hp hstage htold) (finishes_of_leaving (get?_put hp _) rfl)

lemma finishes_of_forwarding {cs : List Completion} (hp : s.pollers[i]? = some p)
    (hstage : p.stage = .forwarding cs) (htold : p.told = true) : s.Finishes i p := by
  induction cs generalizing s p with
  | nil =>
    exact .of_step (by decide) (forward_end hp hstage)
      (finishes_of_checking (get?_put hp _) rfl htold)
  | cons c cs ih =>
    rcases hprocess : (s.executors p.executor).process? c with - | e
    · exact .of_step (by decide) (forward_refused hp hstage hprocess)
        (finishes_of_leaving (get?_put hp _) rfl)
    · exact .of_step (by decide) (forward_handed hp hstage hprocess)
        (ih (get?_put hp _) rfl htold)

lemma finishes (hp : s.pollers[i]? = some p) (hstarted : p.stage.isStarted = true)
    (htold : p.told = true) : s.Finishes i p := by
  cases hstage : p.stage with
  | claimed | unstarted =>
    rw [hstage] at hstarted
    cases hstarted
  | checking => exact finishes_of_checking hp hstage htold
  | polling =>
    rcases hpoll : s.queue.poll s.device (max 1 p.batch) with
      (error | fault) | ⟨cs, queue, device⟩
    · exact .of_step (by decide) (poll_failed hp hstage hpoll)
        (finishes_of_leaving (get?_put hp _) rfl)
    · exact .of_step (by decide) (poll_broke hp hstage hpoll) (.of_gone (get?_put hp _) rfl)
    · exact .of_step (by decide) (poll_took hp hstage hpoll)
        (finishes_of_forwarding (get?_put hp _) rfl htold)
  | forwarding cs => exact finishes_of_forwarding hp hstage htold
  | leaving error => exact finishes_of_leaving hp hstage
  | ended | crashed => exact .of_gone hp (by rw [hstage]; rfl)

lemma stop_returns (hp : s.pollers[i]? = some p) (hstarted : p.stage.isStarted = true)
    (hdropped : p.dropped = false) (hjoin : p.join ≠ .waiting) (last : Bool) :
    ∃ ms : List Motion, .crash ∉ ms ∧ ∃ p' answer,
      (s.run ((.stop last :: ms).map (.of i))).pollers[i]? = some p' ∧
        p'.answers = p.answers ++ [answer] := by
  rcases hjoin' : p.join with - | - | -
  · let q : Claimant := { p with told := true, dropped := last, join := .waiting }
    have hq : (s.put i q).pollers[i]? = some q := get?_put hp q
    obtain ⟨ms, hms, p', hp', hgone, hwaiting, hanswers⟩ := finishes hq hstarted rfl
    refine ⟨ms ++ [.join], by simp [hms], ?_⟩
    rw [List.map_cons, List.map_append, run_cons, run_append,
      stop_able hp hstarted hdropped hjoin' last]
    have hjoined := congrArg (fun t => t.pollers[i]?) (join_alone hp' hwaiting hgone)
    let answer := (Poller.stop p'.status ((s.put i q).run (ms.map (.of i))).queue).1
    exact ⟨_, answer, hjoined.trans (get?_put hp' _), congrArg (· ++ [answer]) hanswers⟩
  · exact absurd hjoin' hjoin
  · have hstopped := congrArg (fun t => t.pollers[i]?) (stop_again hp hstarted hdropped hjoin' last)
    exact ⟨[], by simp, _, .ok (), hstopped.trans (get?_put hp _), rfl⟩

/-! ### One poller at a time -/

/-- **A completion queue has one poller at a time.** However those who start, stop and drop pollers
of a queue, their threads and all around them take turns, one poller at most holds the claim, and
the queue is claimed exactly while one does: from the claim until the thread gives it up or could
not be started, or, after a breakdown, until the poller was stopped. While the queue is claimed, and
only then, another claim is refused, and that changes nothing. A claim is given up by the poller
that holds it and by nobody else. The first to stop a poller is told the error that its thread ended
with, if any, and nobody else is told anything; a stop always comes to its answer. Without
interruption all this comes to the rounds and stops of a poller. -/
theorem one_poller_at_a_time (source : CqSource) (d : Device)
    (executors : ExecutorId → Executor κ) (acts : List (Act κ)) :
    let s := (start source d executors).run acts
    (∀ i j, s.Holds i → s.Holds j → i = j) ∧
    (s.queue.claimed = true ↔ ∃ i, s.Holds i) ∧
    (∀ executor batch,
      (s.spawn executor batch = .error .alreadyPolled ↔ s.queue.claimed = true) ∧
      (s.queue.claimed = true → s.perform (.spawn executor batch) = s)) ∧
    (∀ a, s.queue.claimed = true → (s.perform a).queue.claimed = false →
      ∃ i m, a = .of i m ∧ s.Holds i) ∧
    ∀ i p, s.pollers[i]? = some p →
      (p.answers = [] ∨ ∃ n, p.answers = p.stage.outcome :: List.replicate n (.ok ())) ∧
      (p.stage = .checking → p.told = false →
        let s' := s.run (roundActs i p.batch)
        let done := Poller.round p.batch s.queue (s.executors p.executor) s.device
        (∃ p', s'.pollers[i]? = some p' ∧ p'.status = done.1) ∧ s'.queue = done.2.1 ∧
          s'.executors = Function.update s.executors p.executor done.2.2.1 ∧
          s'.device = done.2.2.2) ∧
      (p.stage.isStarted = true → p.dropped = false → p.join ≠ .waiting → ∀ last,
        (∃ ms : List Motion, .crash ∉ ms ∧ ∃ p' answer,
          (s.run ((.stop last :: ms).map (.of i))).pollers[i]? = some p' ∧
            p'.answers = p.answers ++ [answer]) ∧
        (p.stage = .checking ∨ p.stage.isGone = true →
          let s' := s.run (stopActs i last)
          let done := Poller.stop p.status s.queue
          s'.queue = done.2 ∧ ∃ p', s'.pollers[i]? = some p' ∧ p'.status = .stopped ∧
            p'.answers = p.answers ++ [done.1])) := by
  intro s
  have hs : s.Sound := sound source d executors acts
  refine ⟨hs.one, hs.claimed, fun executor batch => ⟨⟨fun h => ?_, fun h => ?_⟩, fun h => ?_⟩,
    fun a => hs.released, fun i p hp => ⟨?_, ?_, fun hstarted hdropped hjoin last => ⟨?_, ?_⟩⟩⟩
  · by_contra hfree
    rw [spawn_of_free (Bool.eq_false_iff.mpr hfree)] at h
    cases h
  · exact spawn_of_claimed h executor batch
  · simp only [perform, spawn_of_claimed h]
  · have horderly := hs.orderly p (List.mem_of_getElem? hp)
    by_cases hjoin : p.join = .done
    · exact Or.inr (horderly.answered hjoin).2
    · exact Or.inl (horderly.unanswered hjoin)
  · exact round_alone (hs.orderly p (List.mem_of_getElem? hp)) hp
  · exact stop_returns hp hstarted hdropped hjoin last
  · intro hrest
    exact stop_alone (hs.orderly p (List.mem_of_getElem? hp)) hp hdropped hjoin hrest last

/-- The thread of the first poller fails, and another poller claims the queue before the first is
stopped, twice. -/
def relief : List (Act Unit) :=
  [.spawn 0 1, .of 0 .start, .of 0 .check, .of 0 .poll, .of 0 .leave, .spawn 0 1, .of 1 .start,
    .of 0 (.stop false), .of 0 .join, .of 0 (.stop true)]

/-- The claim of the other poller stays. -/
theorem one_poller_at_a_time_relief :
    let s := (start (.scripted { capacity := 8, errno := some 5 }) {}
      fun _ => { workers := 1 }).run relief
    (∀ i, s.Holds i → i = 1) ∧ s.spawn 0 1 = .error .alreadyPolled ∧
      (s.pollers.map Claimant.answers) = [[.error (.os 5), .ok ()], []] := by
  intro s
  obtain ⟨hone, hclaimed, hspawn, -⟩ := one_poller_at_a_time
    (.scripted { capacity := 8, errno := some 5 }) {} (fun _ => { workers := 1 }) relief
  have hholds : s.Holds 1 := ⟨_, rfl, rfl⟩
  exact ⟨fun i hi => hone i 1 hi hholds, (hspawn 0 1).1.mpr (hclaimed.mpr ⟨1, hholds⟩), rfl⟩

end Claimants

end Verbs
