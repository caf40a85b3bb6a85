import Mathlib.Tactic
import Verbs.Queue.Sleepers

/-!
Threads at a queue. A step of a thread is what it does under the lock; the wake-up that it owes for
an item or for closing comes later, in a step of its own, and whoever it wakes has to look again and
may find that another thread was faster. Counted by what they are about, the threads are a queue
with sleepers, and the counts show that nobody sleeps for lack of a wake-up.
-/

namespace Verbs

variable {α : Type}

/-! ### Counts -/

namespace Sleepers

inductive Step (s : Sleepers α) : Sleepers α → Prop where
  | stay : Step s s
  | come : Step s s.enter.look.2
  | look (awake : 0 < s.awake) : Step s s.look.2
  | append (a : α) (s' : Sleepers α) (appended : s.append? a = some s') : Step s s'
  | wakeOne (owed : 0 < s.owedOne) : Step s s.wakeOne
  | take : Step s s.take.2
  | shut : Step s s.shut
  | wakeAll (owed : 0 < s.owedAll) : Step s s.wakeAll
  | stir (asleep : 0 < s.asleep) : Step s s.stir

/-- As long as someone sleeps, there is a wake-up on its way, or a thread about to look, for every
item; and a closed queue owes a wake-up of all. -/
structure Attended (s : Sleepers α) : Prop where
  items : 0 < s.asleep → s.queue.items.length ≤ s.owedOne + s.awake
  closed : 0 < s.asleep → s.queue.closed = true → 0 < s.owedAll

variable {s s' : Sleepers α}

namespace Attended

lemma enter (h : s.Attended) : s.enter.Attended :=
  ⟨fun hasleep => (h.items hasleep).trans (Nat.le_succ _), h.closed⟩

lemma look (h : s.Attended) : s.look.2.Attended := by
  rcases hitems : s.queue.items with - | ⟨a, rest⟩
  · by_cases hclosed : s.queue.closed = true
    · have hlook : s.look.2 = { s with awake := s.awake - 1 } := by
        simp [Sleepers.look, ClosableQueue.take, hitems, hclosed]
      rw [hlook]
      exact ⟨fun _ => by simp [hitems], h.closed⟩
    · have hlook : s.look.2 = { s with awake := s.awake - 1, asleep := s.asleep + 1 } := by
        simp [Sleepers.look, ClosableQueue.take, hitems, hclosed]
      rw [hlook]
      exact ⟨fun _ => by simp [hitems], fun _ hc => absurd hc hclosed⟩
  · have hlook : s.look.2 =
        { s with queue := { s.queue with items := rest }, awake := s.awake - 1 } := by
      simp [Sleepers.look, ClosableQueue.take, hitems]
    rw [hlook]
    refine ⟨fun hasleep => ?_, h.closed⟩
    have hbefore := h.items hasleep
    rw [hitems, List.length_cons] at hbefore
    show rest.length ≤ s.owedOne + (s.awake - 1)
    omega

lemma take (h : s.Attended) : s.take.2.Attended := by
  rcases hitems : s.queue.items with - | ⟨a, rest⟩
  · have htake : s.take.2 = s := by
      simp [Sleepers.take, ClosableQueue.take, hitems]
    rw [htake]
    exact h
  · have htake : s.take.2 = { s with queue := { s.queue with items := rest } } := by
      simp [Sleepers.take, ClosableQueue.take, hitems]
    rw [htake]
    refine ⟨fun hasleep => ?_, h.closed⟩
    have hbefore := h.items hasleep
    rw [hitems, List.length_cons] at hbefore
    exact (Nat.le_succ _).trans hbefore

lemma append {a : α} (h : s.Attended) (happend : s.append? a = some s') : s'.Attended := by
  obtain ⟨queue, hpush, rfl⟩ := Option.map_eq_some_iff.mp happend
  by_cases hclosed : s.queue.closed = true
  · simp [ClosableQueue.push?, hclosed] at hpush
  · rw [ClosableQueue.push?, if_neg hclosed, Option.some.injEq] at hpush
    subst hpush
    refine ⟨fun hasleep => ?_, fun _ hc => absurd hc hclosed⟩
    have hbefore := h.items hasleep
    show (s.queue.items ++ [a]).length ≤ s.owedOne + 1 + s.awake
    rw [List.length_append, List.length_singleton]
    omega

lemma wakeOne (h : s.Attended) : s.wakeOne.Attended := by
  refine ⟨fun hasleep => ?_, fun hasleep => h.closed (hasleep.trans_le (Nat.sub_le _ _))⟩
  have hbefore := h.items (hasleep.trans_le (Nat.sub_le _ _))
  simp only [Sleepers.wakeOne] at hasleep ⊢
  omega

lemma stir (h : s.Attended) : s.stir.Attended := by
  refine ⟨fun hasleep => ?_, fun hasleep => h.closed (hasleep.trans_le (Nat.sub_le _ _))⟩
  have hbefore := h.items (hasleep.trans_le (Nat.sub_le _ _))
  simp only [Sleepers.stir] at hasleep ⊢
  omega

lemma shut (h : s.Attended) : s.shut.Attended :=
  ⟨h.items, fun _ _ => Nat.succ_pos _⟩

lemma wakeAll (s : Sleepers α) : s.wakeAll.Attended :=
  ⟨fun hasleep => absurd hasleep (lt_irrefl 0), fun hasleep => absurd hasleep (lt_irrefl 0)⟩

end Attended

lemma Step.attended (h : Step s s') (hs : s.Attended) : s'.Attended := by
  cases h with
  | stay => exact hs
  | come => exact hs.enter.look
  | look awake => exact hs.look
  | append a s' appended => exact hs.append appended
  | wakeOne owed => exact hs.wakeOne
  | take => exact hs.take
  | shut => exact hs.shut
  | wakeAll owed => exact .wakeAll s
  | stir asleep => exact hs.stir

end Sleepers

/-! ### Threads -/

inductive Stance where
  /-- It is outside, or waits for the lock to begin. -/
  | free
  | asleep
  /-- It was woken and has not looked yet. -/
  | woken
  /-- It has appended an item and not woken anyone yet. -/
  | appended
  /-- It has closed the queue and not woken the sleepers yet. -/
  | closed
  deriving DecidableEq

def Stance.roused : Stance → Stance
  | .asleep => .woken
  | s => s

/-- A queue and the threads at it. -/
structure Crowd (α : Type) where
  queue : ClosableQueue α := {}
  stances : List Stance

namespace Crowd

/-- A step that a thread can take. Which sleeper a single wake-up reaches is open; a sleeper may
also stir for no reason. -/
inductive Act (α : Type) where
  | push (thread : Nat) (a : α)
  | notifyOne (thread sleeper : Nat)
  | pop (thread : Nat)
  | tryPop (thread : Nat)
  | close (thread : Nat)
  | notifyAll (thread : Nat)
  | stir (sleeper : Nat)

/-- A thread looks into the queue: it leaves, with an item or because the queue is closed, or it
falls asleep. -/
def look (s : Crowd α) (i : Nat) : Crowd α :=
  match s.queue.take with
  | (.nothing, queue) => ⟨queue, s.stances.set i .asleep⟩
  | (_, queue) => ⟨queue, s.stances.set i .free⟩

def perform (s : Crowd α) : Act α → Crowd α
  | .push i a =>
    match s.stances[i]?, s.queue.push? a with
    | some .free, some queue => ⟨queue, s.stances.set i .appended⟩
    | _, _ => s
  | .notifyOne i j =>
    match s.stances[i]?, s.stances[j]? with
    | some .appended, some .asleep =>
      { s with stances := (s.stances.set j .woken).set i .free }
    | some .appended, _ =>
      if .asleep ∈ s.stances then s else { s with stances := s.stances.set i .free }
    | _, _ => s
  | .pop i =>
    match s.stances[i]? with
    | some .free | some .woken => s.look i
    | _ => s
  | .tryPop i =>
    match s.stances[i]? with
    | some .free => { s with queue := s.queue.take.2 }
    | _ => s
  | .close i =>
    match s.stances[i]? with
    | some .free => ⟨s.queue.close, s.stances.set i .closed⟩
    | _ => s
  | .notifyAll i =>
    match s.stances[i]? with
    | some .closed => { s with stances := (s.stances.map Stance.roused).set i .free }
    | _ => s
  | .stir j =>
    match s.stances[j]? with
    | some .asleep => { s with stances := s.stances.set j .woken }
    | _ => s

def run (n : Nat) (acts : List (Act α)) : Crowd α :=
  acts.foldl perform { stances := List.replicate n .free }

lemma run_snoc (n : Nat) (acts : List (Act α)) (a : Act α) :
    run n (acts ++ [a]) = (run n acts).perform a := by
  simp [run]

def counts (s : Crowd α) : Sleepers α where
  queue := s.queue
  asleep := s.stances.count .asleep
  awake := s.stances.count .woken
  owedOne := s.stances.count .appended
  owedAll := s.stances.count .closed

variable {s : Crowd α} {i : Nat} {st : Stance}

lemma count_set {stances : List Stance} (h : stances[i]? = some st) (new x : Stance) :
    (stances.set i new).count x + (if st = x then 1 else 0) =
      stances.count x + if new = x then 1 else 0 := by
  obtain ⟨hi, rfl⟩ := List.getElem?_eq_some_iff.mp h
  have hle : (if stances[i] = x then 1 else 0) ≤ stances.count x := by
    split
    · rename_i hx
      exact List.count_pos_iff.mpr (hx ▸ List.getElem_mem hi)
    · exact Nat.zero_le _
  rw [List.count_set hi]
  simp only [beq_iff_eq]
  omega

lemma counts_set (h : s.stances[i]? = some st) (queue : ClosableQueue α) (new : Stance) :
    (⟨queue, s.stances.set i new⟩ : Crowd α).counts =
      { queue
        asleep := s.counts.asleep + (if new = .asleep then 1 else 0) - if st = .asleep then 1 else 0
        awake := s.counts.awake + (if new = .woken then 1 else 0) - if st = .woken then 1 else 0
        owedOne :=
          s.counts.owedOne + (if new = .appended then 1 else 0) - if st = .appended then 1 else 0
        owedAll := s.counts.owedAll + (if new = .closed then 1 else 0) -
          if st = .closed then 1 else 0 } := by
  simp only [counts, Sleepers.mk.injEq, true_and]
  exact ⟨Nat.eq_sub_of_add_eq (count_set h new _), Nat.eq_sub_of_add_eq (count_set h new _),
    Nat.eq_sub_of_add_eq (count_set h new _), Nat.eq_sub_of_add_eq (count_set h new _)⟩

lemma counts_roused (s : Crowd α) :
    ({ s with stances := s.stances.map Stance.roused } : Crowd α).counts =
      { s.counts with asleep := 0, awake := s.counts.awake + s.counts.asleep } := by
  obtain ⟨queue, stances⟩ := s
  simp only [counts, Sleepers.mk.injEq, true_and]
  induction stances with
  | nil => simp
  | cons st stances ih =>
    obtain ⟨hasleep, hwoken, happended, hclosed⟩ := ih
    cases st <;> simp [Stance.roused, hasleep, hwoken, happended, hclosed] <;> omega

lemma counts_pos (h : s.stances[i]? = some st) : 0 < s.stances.count st :=
  List.count_pos_iff.mpr (List.mem_of_getElem? h)

lemma counts_look {t : Sleepers α} (hqueue : t.queue = s.queue)
    (hcounts : ∀ queue new, new = .free ∨ new = .asleep →
      (⟨queue, s.stances.set i new⟩ : Crowd α).counts = { t with
        queue
        asleep := t.asleep + if new = .asleep then 1 else 0
        awake := t.awake - 1 }) :
    (s.look i).counts = t.look.2 := by
  simp only [look, Sleepers.look, hqueue]
  rcases s.queue.take with ⟨- | - | -, queue⟩
  · exact hcounts queue .free (Or.inl rfl)
  · exact hcounts queue .free (Or.inl rfl)
  · exact hcounts queue .asleep (Or.inr rfl)

lemma counts_push {a : α} {queue : ClosableQueue α} (hi : s.stances[i]? = some .free)
    (hpush : s.queue.push? a = some queue) :
    s.counts.append? a = some (⟨queue, s.stances.set i .appended⟩ : Crowd α).counts := by
  rw [Sleepers.append?, counts_set hi]
  simp [counts, hpush]

lemma counts_wakeOne {j : Nat} (hi : s.stances[i]? = some .appended)
    (hj : s.stances[j]? = some .asleep) :
    ({ s with stances := (s.stances.set j .woken).set i .free } : Crowd α).counts =
      s.counts.wakeOne := by
  have hij : i ≠ j := by
    rintro rfl
    cases hi.symm.trans hj
  have hi' : (s.stances.set j .woken)[i]? = some .appended := by
    rwa [List.getElem?_set_ne hij.symm]
  have hasleep : 0 < s.counts.asleep := counts_pos hj
  rw [counts_set (s := { s with stances := s.stances.set j .woken }) hi', counts_set hj]
  simp [Sleepers.wakeOne, Nat.min_eq_left hasleep]
  rfl

lemma counts_wakeNone (hi : s.stances[i]? = some .appended) (hnone : .asleep ∉ s.stances) :
    ({ s with stances := s.stances.set i .free } : Crowd α).counts = s.counts.wakeOne := by
  have hasleep : s.counts.asleep = 0 := List.count_eq_zero.mpr hnone
  rw [counts_set hi]
  simp [Sleepers.wakeOne, hasleep]
  rfl

lemma counts_shut (hi : s.stances[i]? = some .free) :
    (⟨s.queue.close, s.stances.set i .closed⟩ : Crowd α).counts = s.counts.shut := by
  rw [counts_set hi]
  simp [Sleepers.shut]
  rfl

lemma counts_wakeAll (hi : s.stances[i]? = some .closed) :
    ({ s with stances := (s.stances.map Stance.roused).set i .free } : Crowd α).counts =
      s.counts.wakeAll := by
  have hi' : (s.stances.map Stance.roused)[i]? = some .closed := by simp [hi, Stance.roused]
  rw [counts_set (s := { s with stances := s.stances.map Stance.roused }) hi', counts_roused]
  simp [Sleepers.wakeAll]
  rfl

lemma counts_stir (hi : s.stances[i]? = some .asleep) :
    ({ s with stances := s.stances.set i .woken } : Crowd α).counts = s.counts.stir := by
  have hasleep : 0 < s.counts.asleep := counts_pos hi
  rw [counts_set hi]
  simp [Sleepers.stir, Nat.min_eq_left hasleep]
  rfl

lemma counts_step (s : Crowd α) (a : Act α) : s.counts.Step (s.perform a).counts := by
  cases a with
  | push i a =>
    simp only [perform]
    split
    · rename_i queue hi hpush
      exact .append a _ (counts_push hi hpush)
    · exact .stay
  | notifyOne i j =>
    simp only [perform]
    split
    · rename_i hi hj
      rw [counts_wakeOne hi hj]
      exact .wakeOne (counts_pos hi)
    · rename_i hi hj
      split
      · exact .stay
      · rename_i hnone
        -- nobody sleeps, so the wake-up is spent without waking anyone
        rw [counts_wakeNone hi hnone]
        exact .wakeOne (counts_pos hi)
    · exact .stay
  | pop i =>
    simp only [perform]
    split
    · rename_i hi
      rw [counts_look (t := s.counts.enter) rfl fun queue new hnew => ?_]
      · exact .come
      · rw [counts_set hi]
        rcases hnew with rfl | rfl <;> simp [Sleepers.enter]
    · rename_i hi
      rw [counts_look (t := s.counts) rfl fun queue new hnew => ?_]
      · exact .look (counts_pos hi)
      · rw [counts_set hi]
        rcases hnew with rfl | rfl <;> simp
    · exact .stay
  | tryPop i =>
    simp only [perform]
    split
    · exact .take
    · exact .stay
  | close i =>
    simp only [perform]
    split
    · rename_i hi
      rw [counts_shut hi]
      exact .shut
    · exact .stay
  | notifyAll i =>
    simp only [perform]
    split
    · rename_i hi
      rw [counts_wakeAll hi]
      exact .wakeAll (counts_pos hi)
    · exact .stay
  | stir j =>
    simp only [perform]
    split
    · rename_i hj
      rw [counts_stir hj]
      exact .stir (counts_pos hj)
    · exact .stay

lemma attended (n : Nat) (acts : List (Act α)) : (run n acts).counts.Attended := by
  induction acts using List.reverseRecOn with
  | nil =>
    have hnone : (run n ([] : List (Act α))).counts.asleep = 0 := by
      simp [run, counts, List.count_replicate]
    exact ⟨fun h => absurd hnone h.ne', fun h => absurd hnone h.ne'⟩
  | append_singleton acts a ih =>
    rw [run_snoc]
    exact (counts_step _ a).attended ih

/-- **No wake-up is lost.** While a thread sleeps, there are at least as many wake-ups to come and
threads about to look as there are items, and a closed queue has a wake-up of all to come. So when
nobody owes a wake-up and nobody who was woken has yet to look, a thread sleeps only at an open
queue that holds nothing. -/
theorem sleepers_attended (n : Nat) (acts : List (Act α)) (i : Nat)
    (hi : (run n acts).stances[i]? = some .asleep) :
    let s := run n acts
    s.queue.items.length ≤ s.stances.count .appended + s.stances.count .woken ∧
    (s.queue.closed = true → .closed ∈ s.stances) ∧
    (.appended ∉ s.stances → .closed ∉ s.stances → .woken ∉ s.stances →
      s.queue.items = [] ∧ s.queue.closed = false) := by
  intro s
  have hs : s.counts.Attended := attended n acts
  have hasleep : 0 < s.counts.asleep := counts_pos hi
  have hitems : s.queue.items.length ≤ s.stances.count .appended + s.stances.count .woken :=
    hs.items hasleep
  have hclosed : s.queue.closed = true → .closed ∈ s.stances := fun h =>
    List.count_pos_iff.mp (hs.closed hasleep h)
  refine ⟨hitems, hclosed, fun happended hnobody hwoken => ⟨?_, ?_⟩⟩
  · rw [List.count_eq_zero.mpr happended, List.count_eq_zero.mpr hwoken] at hitems
    exact List.length_eq_zero_iff.mp (Nat.le_zero.mp hitems)
  · by_contra h
    exact hnobody (hclosed (by simpa using h))

/-- Two threads sleep. An item wakes the first, but is gone before that one looks. The next item
wakes it again, and goes to the second, which has stirred by itself. -/
def stolen : List (Act Nat) :=
  [.pop 0, .pop 1, .push 2 7, .notifyOne 2 0, .tryPop 3, .pop 0, .push 2 8, .stir 1, .notifyOne 2 0,
    .pop 1, .pop 0]

theorem sleepers_attended_stolen :
    (run 4 stolen).stances = [.asleep, .free, .free, .free] ∧
    (run 4 stolen).queue.items = [] ∧ (run 4 stolen).queue.closed = false :=
  have hstances : (run 4 stolen).stances = [.asleep, .free, .free, .free] := rfl
  ⟨hstances, (sleepers_attended 4 stolen 0 (by rw [hstances]; rfl)).2.2 (by rw [hstances]; decide)
    (by rw [hstances]; decide) (by rw [hstances]; decide)⟩

end Crowd

end Verbs
