import Mathlib.Tactic
import Verbs.Poller

/-!
The pollers of one completion queue. Each claims the queue before its thread is started, and the
claim is given up in one of three places: where the thread cannot be started, where the thread
leaves its loop, and, if the thread broke down inside the loop, where the poller is stopped. None of
the three looks whose claim it gives up. The threads, those who start and stop them and everything
around them take their steps in any order.
-/

namespace Verbs

variable {κ : Type}

namespace Claimant

/-- Where a poller is, from its claim on. -/
inductive Stage where
  /-- The queue is claimed, and the thread is yet to be started. -/
  | claimed
  /-- The thread could not be started. -/
  | unstarted (error : IoError)
  /-- The thread looks whether it is told to stop. -/
  | checking
  | polling
  | forwarding (rest : List Completion)
  /-- The thread is out of its loop, perhaps with an error, and has not given the claim up yet. -/
  | leaving (error : Option IoError)
  | ended (error : Option IoError)
  /-- The thread has broken down inside its loop. -/
  | crashed
  deriving DecidableEq

namespace Stage

/-- Whether the poller is between its claim and its release, and sound. -/
def isLive : Stage → Bool
  | claimed | checking | polling | forwarding _ | leaving _ => true
  | unstarted _ | ended _ | crashed => false

def isLooping : Stage → Bool
  | checking | polling | forwarding _ => true
  | claimed | unstarted _ | leaving _ | ended _ | crashed => false

/-- Whether there is a thread, or was one; only then is there a poller to stop. -/
def isStarted : Stage → Bool
  | claimed | unstarted _ => false
  | checking | polling | forwarding _ | leaving _ | ended _ | crashed => true

/-- Whether there was a thread that is gone. -/
def isGone : Stage → Bool
  | ended _ | crashed => true
  | claimed | unstarted _ | checking | polling | forwarding _ | leaving _ => false

def status : Stage → PollerStatus
  | ended error => .ended error
  | crashed => .crashed
  | claimed | unstarted _ | checking | polling | forwarding _ | leaving _ => .running

def outcome : Stage → Except IoError Unit
  | ended (some error) => .error error
  | _ => .ok ()

end Stage

inductive Join where
  | able
  | waiting
  | done
  deriving DecidableEq

/-- What the thread of a poller does next, or the one who starts or stops it. -/
inductive Motion where
  | start
  | startFails (error : IoError)
  | check
  | poll
  | forward
  | leave
  | crash
  /-- The poller is told to stop, for the last time if it is dropped. -/
  | stop (last : Bool)
  | join
  deriving DecidableEq

end Claimant

open Claimant

/-- A poller that has claimed the queue. -/
structure Claimant where
  executor : ExecutorId
  batch : Nat
  stage : Stage := .claimed
  told : Bool := false
  dropped : Bool := false
  join : Join := .able
  /-- What those who stopped it were told. -/
  answers : List (Except IoError Unit) := []
  deriving DecidableEq

namespace Claimant

/-- Whether the poller holds the claim: it is between claim and release, or its thread has broken
down and nobody has stopped it yet. -/
def holds (p : Claimant) : Bool :=
  p.stage.isLive || (p.stage = .crashed && p.answers.isEmpty)

def into (p : Claimant) (stage : Stage) : Claimant := { p with stage }

@[simp] lemma into_stage (p : Claimant) (stage : Stage) : (p.into stage).stage = stage := rfl
@[simp] lemma into_executor (p : Claimant) (stage : Stage) :
    (p.into stage).executor = p.executor := rfl
@[simp] lemma into_into (p : Claimant) (stage stage' : Stage) :
    (p.into stage).into stage' = p.into stage' := rfl

def status (p : Claimant) : PollerStatus := if p.join = .done then .stopped else p.stage.status

end Claimant

/-- A completion queue with the pollers that have claimed it, in the order of their claims. -/
structure Claimants (κ : Type) where
  queue : CompletionQueue
  device : Device
  executors : ExecutorId → Executor κ
  pollers : List Claimant := []

namespace Claimants

/-- What happens: someone wants a poller, one of the pollers moves on, or something around them
changes. -/
inductive Act (κ : Type) where
  | spawn (executor : ExecutorId) (batch : Nat)
  | of (i : Nat) (m : Motion)
  | around (source : CqSource) (device : Device) (executors : ExecutorId → Executor κ)

def start (source : CqSource) (device : Device) (executors : ExecutorId → Executor κ) :
    Claimants κ where
  queue := { source }
  device
  executors

def spawn (s : Claimants κ) (executor : ExecutorId) (batch : Nat) :
    Except PollerError (Claimants κ) :=
  match s.queue.claim? with
  | none => .error .alreadyPolled
  | some queue => .ok { s with queue, pollers := s.pollers ++ [{ executor, batch }] }

def put (s : Claimants κ) (i : Nat) (p : Claimant) : Claimants κ :=
  { s with pollers := s.pollers.set i p }

/-- Let a poller move on. A motion that is not its next leaves everything as it was. -/
def go (s : Claimants κ) (i : Nat) (p : Claimant) : Motion → Claimants κ
  | .start =>
    match p.stage with
    | .claimed => s.put i (p.into .checking)
    | _ => s
  | .startFails error =>
    match p.stage with
    | .claimed => { s with queue := s.queue.release }.put i (p.into (.unstarted error))
    | _ => s
  | .check =>
    match p.stage with
    | .checking => s.put i (p.into (if p.told then .leaving none else .polling))
    | _ => s
  | .poll =>
    match p.stage with
    | .polling =>
      match s.queue.poll s.device (max 1 p.batch) with
      | .error (.fault _) => s.put i (p.into .crashed)
      | .error (.io error) => s.put i (p.into (.leaving (some error)))
      | .ok (cs, queue, device) => { s with queue, device }.put i (p.into (.forwarding cs))
    | _ => s
  | .forward =>
    match p.stage with
    | .forwarding [] => s.put i (p.into .checking)
    | .forwarding (c :: rest) =>
      match (s.executors p.executor).process? c with
      | none => s.put i (p.into (.leaving none))
      | some e =>
        { s with executors := Function.update s.executors p.executor e }.put i
          (p.into (.forwarding rest))
    | _ => s
  | .leave =>
    match p.stage with
    | .leaving error => { s with queue := s.queue.release }.put i (p.into (.ended error))
    | _ => s
  | .crash => if p.stage.isLooping then s.put i (p.into .crashed) else s
  | .stop last =>
    if p.stage.isStarted && ! p.dropped then
      match p.join with
      | .able => s.put i { p with told := true, dropped := last, join := .waiting }
      | .waiting => s
      | .done => s.put i { p with dropped := last, answers := p.answers ++ [.ok ()] }
    else s
  | .join =>
    if p.join = .waiting && p.stage.isGone then
      let (answer, queue) := Poller.stop p.status s.queue
      { s with queue }.put i { p with join := .done, answers := p.answers ++ [answer] }
    else s

def perform (s : Claimants κ) : Act κ → Claimants κ
  | .spawn executor batch =>
    match s.spawn executor batch with
    | .ok s' => s'
    | .error _ => s
  | .of i m =>
    match s.pollers[i]? with
    | some p => s.go i p m
    | none => s
  | .around source device executors => { s with queue.source := source, device, executors }

def run (s : Claimants κ) (acts : List (Act κ)) : Claimants κ := acts.foldl perform s

lemma run_snoc (s : Claimants κ) (acts : List (Act κ)) (a : Act κ) :
    s.run (acts ++ [a]) = (s.run acts).perform a := by
  simp [run]

def Holds (s : Claimants κ) (i : Nat) : Prop := ∃ p, s.pollers[i]? = some p ∧ p.holds = true

end Claimants

/-! ### One poller -/

namespace Claimant

variable {p : Claimant} {stage : Stage}

/-- What those who stop a poller are told: the first one what there is to tell, and the others
nothing. -/
structure Orderly (p : Claimant) : Prop where
  begun : p.join ≠ .able → p.stage.isStarted = true
  unanswered : p.join ≠ .done → p.answers = []
  answered : p.join = .done → p.stage.isGone = true ∧
    ∃ n, p.answers = p.stage.outcome :: List.replicate n (.ok ())

namespace Orderly

lemma not_done (h : p.Orderly) (hgone : p.stage.isGone = false) : p.join ≠ .done := by
  intro hdone
  rw [(h.answered hdone).1] at hgone
  cases hgone

lemma able (h : p.Orderly) (hstarted : p.stage.isStarted = false) : p.join = .able := by
  by_contra hjoin
  rw [h.begun hjoin] at hstarted
  cases hstarted

lemma move (h : p.Orderly) (hgone : p.stage.isGone = false)
    (hbegun : p.join ≠ .able → stage.isStarted = true) : (p.into stage).Orderly where
  begun := hbegun
  unanswered _ := h.unanswered (h.not_done hgone)
  answered hdone := absurd hdone (h.not_done hgone)

end Orderly

lemma started_of_gone (h : stage.isGone = true) : stage.isStarted = true := by
  cases stage <;> first | rfl | cases h

lemma isGone_iff : stage.isGone = true ↔ (∃ error, stage = .ended error) ∨ stage = .crashed := by
  cases stage <;> simp [Stage.isGone]

lemma stop_ended (error : Option IoError) (q : CompletionQueue) :
    Poller.stop (.ended error) q = ((Stage.ended error).outcome, q) := by
  cases error <;> rfl

lemma status_of (hstage : p.stage = stage) (hjoin : p.join ≠ .done) : p.status = stage.status := by
  rw [status, if_neg hjoin, hstage]

lemma holds_of_live (h : p.stage.isLive = true) : p.holds = true := by
  rw [holds, h, Bool.true_or]

lemma holds_of_crashed (hstage : p.stage = .crashed) (hanswers : p.answers = []) :
    p.holds = true := by
  simp [holds, hstage, hanswers]

end Claimant

namespace Claimants

variable {s s' : Claimants κ} {i j : Nat} {p p' : Claimant} {a : Act κ} {stage : Stage}

/-! ### What a step can do -/

/-- What the next motion of a poller comes to: nothing, or the claim stays with whom it is, or the
poller gives it up, which is its own. -/
inductive Turn (s : Claimants κ) (i : Nat) (p : Claimant) : Claimants κ → Prop where
  | stays : Turn s i p s
  | moves {s' : Claimants κ} {p' : Claimant} (pollers : s'.pollers = s.pollers.set i p')
      (claimed : s'.queue.claimed = s.queue.claimed) (holds : p'.holds = p.holds)
      (orderly : p'.Orderly) : Turn s i p s'
  | releases {s' : Claimants κ} {p' : Claimant} (pollers : s'.pollers = s.pollers.set i p')
      (claimed : s'.queue.claimed = false) (held : p.holds = true) (holds : p'.holds = false)
      (orderly : p'.Orderly) : Turn s i p s'

lemma turn_of_live {before : Stage} (h : p.Orderly) (hstage : p.stage = before)
    (hlive : before.isLive = true) (hlive' : stage.isLive = true)
    (hbegun : p.join ≠ .able → stage.isStarted = true)
    (hpollers : s'.pollers = s.pollers.set i (p.into stage))
    (hclaimed : s'.queue.claimed = s.queue.claimed) : Turn s i p s' := by
  have hgone : before.isGone = false := by
    cases before <;> first | rfl | cases hlive
  rw [← hstage] at hlive hgone
  refine .moves hpollers hclaimed ?_ (h.move hgone hbegun)
  rw [holds_of_live hlive, holds_of_live hlive']

lemma turn_of_crash {before : Stage} (h : p.Orderly) (hstage : p.stage = before)
    (hlooping : before.isLooping = true)
    (hpollers : s'.pollers = s.pollers.set i (p.into .crashed))
    (hclaimed : s'.queue.claimed = s.queue.claimed) : Turn s i p s' := by
  have hlive : before.isLive = true ∧ before.isGone = false := by
    cases before <;> first | exact ⟨rfl, rfl⟩ | cases hlooping
  rw [← hstage] at hlive
  have hanswers : p.answers = [] := h.unanswered (h.not_done hlive.2)
  refine .moves hpollers hclaimed ?_ (h.move hlive.2 fun _ => rfl)
  rw [holds_of_live hlive.1]
  exact holds_of_crashed rfl hanswers

/-- Whoever waited for the thread is told what there is to tell; a claim that a breakdown left
behind is given up. -/
lemma turn_of_join (s : Claimants κ) (i : Nat) (h : p.Orderly) (hjoin : p.join = .waiting)
    (hgone : p.stage.isGone = true) : Turn s i p (s.go i p .join) := by
  have hanswers : p.answers = [] := h.unanswered (by rw [hjoin]; decide)
  have horderly : ∀ answer, answer = p.stage.outcome →
      Orderly { p with join := .done, answers := p.answers ++ [answer] } := by
    rintro answer rfl
    refine ⟨fun _ => h.begun (by rw [hjoin]; decide), fun hne => absurd rfl hne,
      fun _ => ⟨hgone, 0, ?_⟩⟩
    rw [hanswers]
    rfl
  simp only [go, hjoin, hgone, decide_true, Bool.and_self, if_true]
  rcases isGone_iff.mp hgone with ⟨error, hstage⟩ | hstage
  · have hstatus : p.status = .ended error := status_of hstage (by rw [hjoin]; decide)
    rw [hstatus, stop_ended]
    exact .moves rfl rfl (by simp [holds, hstage]) (horderly _ (by rw [hstage]))
  · have hstatus : p.status = .crashed := status_of hstage (by rw [hjoin]; decide)
    rw [hstatus]
    exact .releases rfl rfl (holds_of_crashed hstage hanswers)
      (by simp [holds, hstage, Stage.isLive]) (horderly _ (by rw [hstage]; rfl))

lemma go_turn (s : Claimants κ) (i : Nat) (h : p.Orderly) (m : Motion) :
    Turn s i p (s.go i p m) := by
  cases m with
  | start =>
    simp only [go]
    split
    · exact turn_of_live h ‹_› rfl rfl (fun _ => rfl) rfl rfl
    · exact .stays
  | startFails error =>
    simp only [go]
    split
    · rename_i hstage
      have hable : p.join = .able := h.able (by rw [hstage]; rfl)
      exact .releases rfl rfl (holds_of_live (by rw [hstage]; rfl)) rfl
        (h.move (by rw [hstage]; rfl) fun hjoin => absurd hable hjoin)
    · exact .stays
  | check =>
    simp only [go]
    split
    · refine turn_of_live h ‹_› rfl ?_ (fun _ => ?_) rfl rfl <;> split <;> rfl
    · exact .stays
  | poll =>
    simp only [go]
    split
    · rename_i hstage
      split
      · exact turn_of_crash h hstage rfl rfl rfl
      · exact turn_of_live h hstage rfl rfl (fun _ => rfl) rfl rfl
      · rename_i hpoll
        exact turn_of_live h hstage rfl rfl (fun _ => rfl) rfl (CompletionQueue.poll_ok hpoll).2
    · exact .stays
  | forward =>
    simp only [go]
    split
    · exact turn_of_live h ‹_› rfl rfl (fun _ => rfl) rfl rfl
    · split <;> exact turn_of_live h ‹_› rfl rfl (fun _ => rfl) rfl rfl
    · exact .stays
  | leave =>
    simp only [go]
    split
    · rename_i hstage
      exact .releases rfl rfl (holds_of_live (by rw [hstage]; rfl)) rfl
        (h.move (by rw [hstage]; rfl) fun _ => rfl)
    · exact .stays
  | crash =>
    simp only [go]
    split
    · exact turn_of_crash h rfl ‹_› rfl rfl
    · exact .stays
  | stop last =>
    simp only [go]
    split
    · rename_i hmay
      have hstarted : p.stage.isStarted = true := (Bool.and_eq_true_iff.mp hmay).1
      split
      · rename_i hjoin
        have hanswers : p.answers = [] := h.unanswered (by rw [hjoin]; decide)
        exact .moves rfl rfl rfl
          ⟨fun _ => hstarted, fun _ => hanswers, fun hdone => by cases hdone⟩
      · exact .stays
      · rename_i hjoin
        -- the thread was waited for before, so whoever stops it now is told nothing
        obtain ⟨hgone, n, hanswers⟩ := h.answered hjoin
        refine .moves rfl rfl ?_ ⟨fun _ => hstarted, fun hne => absurd hjoin hne,
          fun _ => ⟨hgone, n + 1, ?_⟩⟩
        · simp [holds, hanswers]
        · rw [List.replicate_succ', ← List.cons_append, ← hanswers]
    · exact .stays
  | join =>
    by_cases hmay : p.join = .waiting ∧ p.stage.isGone = true
    · exact turn_of_join s i h hmay.1 hmay.2
    · have hstays : s.go i p .join = s := by
        simp only [go, Bool.and_eq_true, decide_eq_true_eq, if_neg hmay]
      rw [hstays]
      exact .stays

/-! ### What every run keeps -/

structure Sound (s : Claimants κ) : Prop where
  one : ∀ i j, s.Holds i → s.Holds j → i = j
  claimed : s.queue.claimed = true ↔ ∃ i, s.Holds i
  orderly : ∀ p ∈ s.pollers, p.Orderly

lemma holds_of_set (hp : s.pollers[i]? = some p) (hpollers : s'.pollers = s.pollers.set i p') :
    s'.Holds j ↔ if j = i then p'.holds = true else s.Holds j := by
  have hlt : i < s.pollers.length := (List.getElem?_eq_some_iff.mp hp).1
  by_cases hj : j = i
  · subst hj
    simp [Holds, hpollers, hlt]
  · simp [Holds, hpollers, hj, List.getElem?_set_ne (Ne.symm hj)]

lemma Sound.turn (h : s.Sound) (hp : s.pollers[i]? = some p) (hturn : Turn s i p s') :
    s'.Sound := by
  have horderly : ∀ p', p'.Orderly → ∀ q ∈ s.pollers.set i p', q.Orderly := by
    intro p' hp' q hq
    rcases List.mem_or_eq_of_mem_set hq with hq | rfl
    · exact h.orderly q hq
    · exact hp'
  cases hturn with
  | stays => exact h
  | @moves _ p' pollers claimed holds orderly =>
    have hsame : ∀ j, s'.Holds j ↔ s.Holds j := by
      intro j
      rw [holds_of_set hp pollers]
      split
      · rename_i hj
        subst hj
        simp [Holds, hp, holds]
      · exact Iff.rfl
    refine ⟨fun j k hj hk => h.one j k ((hsame j).mp hj) ((hsame k).mp hk), ?_, ?_⟩
    · rw [claimed, h.claimed]
      exact exists_congr fun j => (hsame j).symm
    · rw [pollers]
      exact horderly p' orderly
  | @releases _ p' pollers claimed held holds orderly =>
    -- Nobody else holds the claim that is given up.
    have hnone : ∀ j, ¬ s'.Holds j := by
      intro j hj
      rw [holds_of_set hp pollers] at hj
      split at hj
      · rw [holds] at hj
        cases hj
      · exact absurd (h.one j i hj ⟨p, hp, held⟩) ‹_›
    refine ⟨fun j _ hj => absurd hj (hnone j), ?_, ?_⟩
    · simp [claimed, hnone]
    · rw [pollers]
      exact horderly p' orderly

lemma spawn_of_free (hfree : s.queue.claimed = false) (executor : ExecutorId) (batch : Nat) :
    s.spawn executor batch = .ok { s with
      queue := { s.queue with claimed := true }
      pollers := s.pollers ++ [{ executor, batch }] } := by
  simp [spawn, CompletionQueue.claim?, hfree]

lemma spawn_of_claimed (hclaimed : s.queue.claimed = true) (executor : ExecutorId) (batch : Nat) :
    s.spawn executor batch = .error .alreadyPolled := by
  simp [spawn, CompletionQueue.claim?, hclaimed]

lemma Sound.spawn (h : s.Sound) (executor : ExecutorId) (batch : Nat) :
    (s.perform (.spawn executor batch)).Sound := by
  by_cases hclaimed : s.queue.claimed = true
  · simp only [perform, spawn_of_claimed hclaimed]
    exact h
  · have hfree : s.queue.claimed = false := Bool.eq_false_iff.mpr hclaimed
    -- Nobody holds the claim yet, so it is the new poller alone that does.
    have hnone : ∀ j, ¬ s.Holds j := fun j hj => hclaimed (h.claimed.mpr ⟨j, hj⟩)
    simp only [perform, spawn_of_free hfree]
    have hnew : ∀ j, Holds { s with
        queue := { s.queue with claimed := true }
        pollers := s.pollers ++ [{ executor, batch }] } j ↔ j = s.pollers.length := by
      intro j
      rcases Nat.lt_trichotomy j s.pollers.length with hlt | rfl | hlt
      · refine iff_of_false (fun ⟨p, hp, hholds⟩ => hnone j ⟨p, ?_, hholds⟩) hlt.ne
        rwa [List.getElem?_append_left hlt] at hp
      · refine iff_of_true ⟨{ executor, batch }, ?_, rfl⟩ rfl
        simp
      · refine iff_of_false (fun ⟨p, hp, _⟩ => ?_) hlt.ne'
        have hlength := (List.getElem?_eq_some_iff.mp hp).1
        rw [List.length_append, List.length_singleton] at hlength
        omega
    refine ⟨fun i j hi hj => ((hnew i).mp hi).trans ((hnew j).mp hj).symm,
      iff_of_true rfl ⟨s.pollers.length, (hnew _).mpr rfl⟩, fun p hp => ?_⟩
    rcases List.mem_append.mp hp with hp | hp
    · exact h.orderly p hp
    · cases List.mem_singleton.mp hp
      exact ⟨fun hne => absurd rfl hne, fun _ => rfl, fun hdone => by cases hdone⟩

lemma perform_of (hp : s.pollers[i]? = some p) (m : Motion) :
    s.perform (.of i m) = s.go i p m := by
  simp only [perform, hp]

lemma Sound.perform (h : s.Sound) (a : Act κ) : (s.perform a).Sound := by
  cases a with
  | spawn executor batch => exact h.spawn executor batch
  | of i m =>
    rcases hp : s.pollers[i]? with - | p
    · simpa only [Claimants.perform, hp] using h
    · rw [perform_of hp]
      exact h.turn hp (go_turn s i (h.orderly p (List.mem_of_getElem? hp)) m)
  | around source device executors => exact ⟨h.one, h.claimed, h.orderly⟩

lemma sound_start (source : CqSource) (d : Device) (executors : ExecutorId → Executor κ) :
    (start source d executors).Sound where
  one i _ hi := by
    obtain ⟨p, hp, -⟩ := hi
    cases hp
  claimed := iff_of_false Bool.false_ne_true fun ⟨i, p, hp, _⟩ => by cases hp
  orderly p hp := by cases hp

lemma sound (source : CqSource) (d : Device) (executors : ExecutorId → Executor κ)
    (acts : List (Act κ)) : ((start source d executors).run acts).Sound := by
  induction acts using List.reverseRecOn with
  | nil => exact sound_start source d executors
  | append_singleton acts a ih =>
    rw [run_snoc]
    exact ih.perform a

lemma Sound.released (h : s.Sound) (hclaimed : s.queue.claimed = true)
    (hfree : (s.perform a).queue.claimed = false) : ∃ i m, a = .of i m ∧ s.Holds i := by
  cases a with
  | spawn executor batch =>
    simp only [Claimants.perform, spawn_of_claimed hclaimed] at hfree
    cases hclaimed.symm.trans hfree
  | around source device executors => cases hclaimed.symm.trans hfree
  | of i m =>
    rcases hp : s.pollers[i]? with - | p
    · simp only [Claimants.perform, hp] at hfree
      cases hclaimed.symm.trans hfree
    · rw [perform_of hp] at hfree
      have hturn := go_turn s i (h.orderly p (List.mem_of_getElem? hp)) m
      generalize s.go i p m = s' at hturn hfree
      cases hturn with
      | stays => cases hclaimed.symm.trans hfree
      | moves _ claimed => cases (hclaimed.symm.trans claimed.symm).trans hfree
      | releases _ _ held => exact ⟨i, m, rfl, p, hp, held⟩

end Claimants

end Verbs
