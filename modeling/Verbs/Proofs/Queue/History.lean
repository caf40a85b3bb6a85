import Mathlib.Tactic
import Verbs.Proofs.Queue.Wakeups

/-!
What callers of a queue are told, in the order in which they hold its lock. A reply depends on the
replies before it and on nothing else: on whether one of them was for closing, and on which items
were accepted and not handed out since.
-/

namespace Verbs

namespace Crowd

variable {α : Type}

inductive Reply (α : Type) where
  /-- The item was appended. -/
  | accepted (a : α)
  /-- The queue is closed, and the item was not appended. -/
  | refused
  | handed (a : α)
  /-- The queue is closed and has handed out everything. -/
  | ended
  /-- There is no item, and the caller does not wait for one. -/
  | nothing
  /-- There is no item, and the caller goes to sleep. -/
  | slept
  /-- The queue is closed now. -/
  | shut
  deriving DecidableEq

namespace Reply

def accepted? : Reply α → Option α
  | accepted a => some a
  | _ => none

def handed? : Reply α → Option α
  | handed a => some a
  | _ => none

/-- What a taker is told, if it is told `idle` where there is nothing yet. -/
def ofTaken (idle : Reply α) : Taken α → Reply α
  | .item a => handed a
  | .closed => ended
  | .nothing => idle

end Reply

def accepted (told : List (Reply α)) : List α := told.filterMap Reply.accepted?

def handed (told : List (Reply α)) : List α := told.filterMap Reply.handed?

/-- The step is one that a caller can take under the lock now. Wake-ups happen outside of it. -/
def Able (s : Crowd α) : Act α → Prop
  | .push i _ | .tryPop i | .close i => s.stances[i]? = some .free
  | .pop i => s.stances[i]? = some .free ∨ s.stances[i]? = some .woken
  | .notifyOne _ _ | .notifyAll _ | .stir _ => False

instance (s : Crowd α) : (act : Act α) → Decidable (s.Able act)
  | .push i _ | .tryPop i | .close i => inferInstanceAs (Decidable (s.stances[i]? = some .free))
  | .pop i =>
    inferInstanceAs (Decidable (s.stances[i]? = some .free ∨ s.stances[i]? = some .woken))
  | .notifyOne _ _ | .notifyAll _ | .stir _ => inferInstanceAs (Decidable False)

def reply (s : Crowd α) (act : Act α) : Option (Reply α) :=
  if s.Able act then
    match act with
    | .push _ a => some (if (s.queue.push? a).isSome then .accepted a else .refused)
    | .pop _ => some (.ofTaken .slept s.queue.take.1)
    | .tryPop _ => some (.ofTaken .nothing s.queue.take.1)
    | .close _ => some .shut
    | .notifyOne _ _ | .notifyAll _ | .stir _ => none
  else none

def repliesFrom (s : Crowd α) : List (Act α) → List (Reply α)
  | [] => []
  | act :: acts => (s.reply act).toList ++ repliesFrom (s.perform act) acts

/-- What callers are told in a run of `n` threads that starts with an empty queue. -/
def replies (n : Nat) (acts : List (Act α)) : List (Reply α) :=
  repliesFrom { stances := List.replicate n .free } acts

/-- The replies that a call can get. -/
def Act.Gets : Act α → Reply α → Prop
  | .push _ a, o => o = .accepted a ∨ o = .refused
  | .pop _, o => o = .slept ∨ o = .ended ∨ ∃ a, o = .handed a
  | .tryPop _, o => o = .nothing ∨ o = .ended ∨ ∃ a, o = .handed a
  | .close _, o => o = .shut
  | .notifyOne _ _, _ | .notifyAll _, _ | .stir _, _ => False

/-- What callers were told before calls for this reply. -/
def Reply.Due (told : List (Reply α)) : Reply α → Prop
  | accepted _ => shut ∉ told
  | refused => shut ∈ told
  | handed a => ∃ rest, Crowd.accepted told = Crowd.handed told ++ a :: rest
  | ended => shut ∈ told ∧ Crowd.accepted told = Crowd.handed told
  | nothing | slept => shut ∉ told ∧ Crowd.accepted told = Crowd.handed told
  | shut => True

variable {s : Crowd α} {told : List (Reply α)} {q q' : ClosableQueue α}

lemma repliesFrom_snoc (s : Crowd α) (acts : List (Act α)) (act : Act α) :
    s.repliesFrom (acts ++ [act]) =
      s.repliesFrom acts ++ ((acts.foldl perform s).reply act).toList := by
  induction acts generalizing s with
  | nil => simp [repliesFrom]
  | cons first acts ih =>
    rw [List.cons_append, repliesFrom, repliesFrom, ih, List.foldl_cons, List.append_assoc]

lemma replies_snoc (n : Nat) (acts : List (Act α)) (act : Act α) :
    replies n (acts ++ [act]) = replies n acts ++ ((run n acts).reply act).toList :=
  repliesFrom_snoc _ acts act

lemma accepted_snoc (told : List (Reply α)) (o : Reply α) :
    accepted (told ++ [o]) = accepted told ++ o.accepted?.toList := by
  rw [accepted, List.filterMap_append]
  cases o <;> rfl

lemma handed_snoc (told : List (Reply α)) (o : Reply α) :
    handed (told ++ [o]) = handed told ++ o.handed?.toList := by
  rw [handed, List.filterMap_append]
  cases o <;> rfl

/-! ### One step -/

/-- What a step does to the queue, by what the caller is told. -/
inductive Told (q : ClosableQueue α) : Option (Reply α) → ClosableQueue α → Prop
  | none : Told q none q
  | accepted (a : α) (isOpen : q.closed = false) :
      Told q (some (.accepted a)) { q with items := q.items ++ [a] }
  | refused (closed : q.closed = true) : Told q (some .refused) q
  | handed {a : α} {rest : List α} (items : q.items = a :: rest) :
      Told q (some (.handed a)) { q with items := rest }
  | ended (closed : q.closed = true) (items : q.items = []) : Told q (some .ended) q
  | nothing (isOpen : q.closed = false) (items : q.items = []) : Told q (some .nothing) q
  | slept (isOpen : q.closed = false) (items : q.items = []) : Told q (some .slept) q
  | shut : Told q (some .shut) q.close

lemma told_take (q : ClosableQueue α) {idle : Reply α}
    (hidle : q.closed = false → q.items = [] → Told q (some idle) q) :
    Told q (some (.ofTaken idle q.take.1)) q.take.2 := by
  rcases hitems : q.items with - | ⟨a, rest⟩
  · by_cases hclosed : q.closed = true
    · have htake : q.take = (.closed, q) := by simp [ClosableQueue.take, hitems, hclosed]
      rw [htake]
      exact .ended hclosed hitems
    · have htake : q.take = (.nothing, q) := by simp [ClosableQueue.take, hitems, hclosed]
      rw [htake]
      exact hidle (by simpa using hclosed) hitems
  · have htake : q.take = (.item a, { q with items := rest }) := by
      simp [ClosableQueue.take, hitems]
    rw [htake]
    exact .handed hitems

lemma queue_look (s : Crowd α) (i : Nat) : (s.look i).queue = s.queue.take.2 := by
  unfold look
  split <;> simp [*]

lemma queue_of_not_able {act : Act α} (h : ¬ s.Able act) : (s.perform act).queue = s.queue := by
  cases act with
  | push i a =>
    simp only [perform]
    split
    · rename_i hi _
      exact absurd hi h
    · rfl
  | pop i =>
    simp only [perform]
    split
    · rename_i hi
      exact absurd (Or.inl hi) h
    · rename_i hi
      exact absurd (Or.inr hi) h
    · rfl
  | tryPop i | close i =>
    simp only [perform]
    split
    · rename_i hi
      exact absurd hi h
    · rfl
  | notifyOne i j =>
    simp only [perform]
    split
    · rfl
    · split <;> rfl
    · rfl
  | notifyAll i | stir j =>
    simp only [perform]
    split <;> rfl

lemma told_step (s : Crowd α) (act : Act α) :
    Told s.queue (s.reply act) (s.perform act).queue := by
  by_cases hable : s.Able act
  · unfold reply
    rw [if_pos hable]
    cases act with
    | push i a =>
      have hfree : s.stances[i]? = some .free := hable
      by_cases hclosed : s.queue.closed = true
      · have hpush : s.queue.push? a = none := if_pos hclosed
        simp only [perform, hfree, hpush, Option.isSome_none, Bool.false_eq_true, if_false]
        exact .refused hclosed
      · have hpush : s.queue.push? a = some { s.queue with items := s.queue.items ++ [a] } :=
          if_neg hclosed
        simp only [perform, hfree, hpush, Option.isSome_some, if_true]
        exact .accepted a (by simpa using hclosed)
    | pop i =>
      have hlook : s.perform (.pop i) = s.look i := by
        rcases hable with hi | hi <;> simp only [perform, hi]
      rw [hlook, queue_look]
      exact told_take s.queue .slept
    | tryPop i =>
      have hfree : s.stances[i]? = some .free := hable
      simp only [perform, hfree]
      exact told_take s.queue .nothing
    | close i =>
      have hfree : s.stances[i]? = some .free := hable
      simp only [perform, hfree]
      exact .shut
    | notifyOne | notifyAll | stir => exact hable.elim
  · unfold reply
    rw [if_neg hable, queue_of_not_able hable]
    exact .none

/-! ### Runs -/

structure Agrees (told : List (Reply α)) (q : ClosableQueue α) : Prop where
  items : accepted told = handed told ++ q.items
  closed : q.closed = true ↔ .shut ∈ told
  ended : .ended ∈ told → q.closed = true ∧ q.items = []

namespace Agrees

variable {o : Reply α}

lemma drained_iff (h : Agrees told q) : accepted told = handed told ↔ q.items = [] := by
  rw [h.items, List.append_right_eq_self]

lemma due (h : Agrees told q) (hstep : Told q (some o) q') : o.Due told := by
  cases hstep with
  | accepted a isOpen => exact fun hshut => by simp [h.closed.mpr hshut] at isOpen
  | refused closed => exact h.closed.mp closed
  | @handed a rest items => exact ⟨rest, items ▸ h.items⟩
  | ended closed items => exact ⟨h.closed.mp closed, h.drained_iff.mpr items⟩
  | nothing isOpen items | slept isOpen items =>
    exact ⟨fun hshut => by simp [h.closed.mpr hshut] at isOpen, h.drained_iff.mpr items⟩
  | shut => trivial

lemma step_items {o : Option (Reply α)} (h : Agrees told q) (hstep : Told q o q') :
    accepted (told ++ o.toList) = handed (told ++ o.toList) ++ q'.items := by
  cases hstep with
  | none => simpa using h.items
  | handed items =>
    simp [accepted_snoc, handed_snoc, Reply.accepted?, Reply.handed?, h.items, items]
  | accepted | refused | ended | nothing | slept | shut =>
    simp [accepted_snoc, handed_snoc, Reply.accepted?, Reply.handed?, h.items,
      ClosableQueue.close]

lemma step_ended {o : Option (Reply α)} (h : Agrees told q) (hstep : Told q o q')
    (hended : .ended ∈ told) : q'.closed = true ∧ q'.items = [] := by
  obtain ⟨hclosed, hitems⟩ := h.ended hended
  cases hstep with
  | accepted a isOpen => simp [hclosed] at isOpen
  | handed items => simp [hitems] at items
  | none | refused | ended | nothing | slept => exact ⟨hclosed, hitems⟩
  | shut => exact ⟨rfl, hitems⟩

lemma step {o : Option (Reply α)} (h : Agrees told q) (hstep : Told q o q') :
    Agrees (told ++ o.toList) q' := by
  refine ⟨h.step_items hstep, ?_, fun hended => ?_⟩
  · cases hstep with
    | shut => simp [ClosableQueue.close]
    | none | accepted | refused | handed | ended | nothing | slept => simpa using h.closed
  · rcases List.mem_append.mp hended with hbefore | hnow
    · exact h.step_ended hstep hbefore
    · obtain rfl : o = some .ended := by simpa using hnow
      cases hstep with
      | ended closed items => exact ⟨closed, items⟩

end Agrees

lemma agrees (n : Nat) (acts : List (Act α)) : Agrees (replies n acts) (run n acts).queue := by
  induction acts using List.reverseRecOn with
  | nil => exact ⟨rfl, by simp [run, replies, repliesFrom], by simp [replies, repliesFrom]⟩
  | append_singleton acts act ih =>
    rw [run_snoc, replies_snoc]
    exact ih.step (told_step _ act)

lemma due_unique {act : Act α} {o o' : Reply α} (ho : act.Gets o) (ho' : act.Gets o')
    (hdue : o.Due told) (hdue' : o'.Due told) : o = o' := by
  have hfirst : ∀ {a b : α} {rest rest' : List α}, accepted told = handed told ++ a :: rest →
      accepted told = handed told ++ b :: rest' → a = b := fun ha hb =>
    (List.cons.inj (List.append_cancel_left (ha.symm.trans hb))).1
  have hmore : ∀ {a : α} {rest : List α}, accepted told = handed told ++ a :: rest →
      accepted told ≠ handed told := fun ha hnone => by simp [ha] at hnone
  cases act with
  | push i a =>
    rcases ho with rfl | rfl <;> rcases ho' with rfl | rfl
    · rfl
    · exact absurd hdue' hdue
    · exact absurd hdue hdue'
    · rfl
  | pop i | tryPop i =>
    rcases ho with rfl | rfl | ⟨a, rfl⟩ <;> rcases ho' with rfl | rfl | ⟨b, rfl⟩
    · rfl
    · exact absurd hdue'.1 hdue.1
    · exact absurd hdue.2 (hmore hdue'.choose_spec)
    · exact absurd hdue.1 hdue'.1
    · rfl
    · exact absurd hdue.2 (hmore hdue'.choose_spec)
    · exact absurd hdue'.2 (hmore hdue.choose_spec)
    · exact absurd hdue'.2 (hmore hdue.choose_spec)
    · rw [hfirst hdue.choose_spec hdue'.choose_spec]
  | close i => exact ho.trans ho'.symm
  | notifyOne | notifyAll | stir => exact ho.elim

lemma reply_of_able {act : Act α} (h : s.Able act) : ∃ o, s.reply act = some o ∧ act.Gets o := by
  unfold reply
  rw [if_pos h]
  cases act with
  | push i a =>
    refine ⟨_, rfl, ?_⟩
    split
    · exact Or.inl rfl
    · exact Or.inr rfl
  | pop i | tryPop i =>
    refine ⟨_, rfl, ?_⟩
    rcases s.queue.take.1 with a | - | -
    · exact Or.inr (Or.inr ⟨a, rfl⟩)
    · exact Or.inr (Or.inl rfl)
    · exact Or.inl rfl
  | close i => exact ⟨_, rfl, rfl⟩
  | notifyOne | notifyAll | stir => exact h.elim

lemma open_of_asleep (n : Nat) (acts : List (Act α)) {i : Nat}
    (hi : (run n acts).stances[i]? = some .asleep)
    (hnone : ∀ st ∈ [Stance.appended, .closed, .woken], st ∉ (run n acts).stances) :
    (run n acts).queue.closed = false ∧ (run n acts).queue.items = [] := by
  have hattended := attended n acts
  have hasleep : 0 < (run n acts).counts.asleep := counts_pos hi
  have hzero : ∀ st ∈ [Stance.appended, .closed, .woken], (run n acts).stances.count st = 0 :=
    fun st hst => List.count_eq_zero.mpr (hnone st hst)
  constructor
  · by_contra hclosed
    have howed := hattended.closed hasleep (Bool.eq_true_of_not_eq_false hclosed)
    exact howed.ne' (hzero .closed (by simp))
  · have hitems := hattended.items hasleep
    have howed : (run n acts).counts.owedOne = 0 := hzero .appended (by simp)
    have hawake : (run n acts).counts.awake = 0 := hzero .woken (by simp)
    rw [howed, hawake] at hitems
    exact List.length_eq_zero_iff.mp (Nat.le_zero.mp hitems)

lemma asleep_iff_slept {i : Nat} (h : s.Able (.pop i)) :
    (s.perform (.pop i)).stances[i]? = some .asleep ↔ s.reply (.pop i) = some .slept := by
  have hperform : s.perform (.pop i) = s.look i := by
    rcases h with hi | hi <;> simp only [perform, hi]
  have hset : ∀ st, (s.stances.set i st)[i]? = some st := by
    intro st
    rw [List.getElem?_set_self]
    rcases h with hi | hi <;> exact (List.getElem?_eq_some_iff.mp hi).1
  have hreply : s.reply (.pop i) = some (.ofTaken .slept s.queue.take.1) := if_pos h
  rw [hperform, hreply, look]
  rcases s.queue.take with ⟨a | - | -, q⟩ <;> simp [hset, Reply.ofTaken]

lemma perform_push_of_closed (h : s.queue.closed = true) (i : Nat) (a : α) :
    s.perform (.push i a) = s := by
  have hpush : s.queue.push? a = none := if_pos h
  simp only [perform, hpush]
  split
  · rename_i hsome
    cases hsome
  · rfl

lemma queue_perform_close (s : Crowd α) (i : Nat) :
    (s.perform (.close i)).queue = s.queue.close ∨ (s.perform (.close i)).queue = s.queue := by
  simp only [perform]
  split
  · exact Or.inl rfl
  · exact Or.inr rfl

/-- **First in, first out, until closed.** After any steps of any number of threads, the items that
were accepted are those that were handed out, in this order, and behind them those in the queue. Of
the replies that a call can get, it gets the one that is due: an item is refused when the queue was
closed before, a taker gets the oldest item that was accepted and not handed out, and if there is
none, it is told that this is the end when the queue was closed, and has to do without or to sleep
when it was not. Who is refused changes nothing. Once a taker was told that this is the end, every
later one is. Closing discards nothing, and closing again leaves the queue as it is. -/
theorem replies_due (n : Nat) (acts : List (Act α)) :
    let s : Crowd α := run n acts
    let told : List (Reply α) := replies n acts
    accepted told = handed told ++ s.queue.items ∧
    (∀ act, s.Able act → ∃ o, s.reply act = some o ∧ act.Gets o) ∧
    (∀ act o, s.Able act → act.Gets o → (s.reply act = some o ↔ o.Due told)) ∧
    (∀ i a, s.reply (.push i a) = some .refused → s.perform (.push i a) = s) ∧
    (.ended ∈ told → ∀ act, s.Able act → act.Gets .ended → s.reply act = some .ended) ∧
    (∀ i, s.Able (.pop i) →
      ((s.perform (.pop i)).stances[i]? = some .asleep ↔ s.reply (.pop i) = some .slept)) ∧
    (∀ i : Nat, s.stances[i]? = some .asleep →
      (∀ st ∈ [Stance.appended, .closed, .woken], st ∉ s.stances) →
      .shut ∉ told ∧ accepted told = handed told) ∧
    ∀ i, (s.perform (.close i)).queue.items = s.queue.items ∧
      (.shut ∈ told → (s.perform (.close i)).queue = s.queue) := by
  intro s told
  have hagrees : Agrees told s.queue := agrees n acts
  have hreply : ∀ act o, s.Able act → act.Gets o → (s.reply act = some o ↔ o.Due told) := by
    intro act o hable hgets
    obtain ⟨o', hreply, hgets'⟩ := reply_of_able hable
    have hdue' : o'.Due told := hagrees.due (hreply ▸ told_step s act)
    constructor
    · intro h
      cases hreply.symm.trans h
      exact hdue'
    · intro hdue
      rw [hreply, due_unique hgets hgets' hdue hdue']
  refine ⟨hagrees.items, fun act => reply_of_able, hreply, fun i a hrefused => ?_,
    fun hended act hable hgets => ?_, fun i => asleep_iff_slept, fun i hi hnone => ?_, fun i => ?_⟩
  · have hable : s.Able (.push i a) := by
      by_contra hnot
      have hnone : s.reply (.push i a) = none := if_neg hnot
      rw [hnone] at hrefused
      cases hrefused
    have hshut : .shut ∈ told := (hreply _ _ hable (Or.inr rfl)).mp hrefused
    exact perform_push_of_closed (hagrees.closed.mpr hshut) i a
  · obtain ⟨hclosed, hitems⟩ := hagrees.ended hended
    exact (hreply act _ hable hgets).mpr ⟨hagrees.closed.mp hclosed, hagrees.drained_iff.mpr hitems⟩
  · obtain ⟨hopen, hitems⟩ := open_of_asleep n acts hi hnone
    refine ⟨fun hshut => ?_, hagrees.drained_iff.mpr hitems⟩
    simp [s, hagrees.closed.mpr hshut] at hopen
  · rcases queue_perform_close s i with hqueue | hqueue
    · rw [hqueue]
      refine ⟨rfl, fun hshut => ?_⟩
      rw [ClosableQueue.close, ← hagrees.closed.mpr hshut]
    · rw [hqueue]
      exact ⟨rfl, fun _ => rfl⟩

def closing : List (Act Nat) :=
  [.push 0 7, .push 1 8, .pop 2, .close 3, .tryPop 2, .pop 2]

/-- A push after the end is refused, and a taker is told of the end again. -/
theorem replies_due_closing :
    replies 5 closing =
      [.accepted 7, .accepted 8, .handed 7, .shut, .handed 8, .ended] ∧
    (run 5 closing).reply (.push 4 9) = some .refused ∧
    (run 5 closing).perform (.push 4 9) = run 5 closing ∧
    (run 5 closing).reply (.tryPop 4) = some .ended := by
  obtain ⟨-, -, hdue, hrefused, hended, -⟩ := replies_due 5 closing
  have hpush : (run 5 closing).reply (.push 4 9) = some .refused :=
    (hdue (.push 4 9) .refused (by decide) (Or.inr rfl)).mpr
      (show Reply.shut ∈ replies 5 closing by decide)
  exact ⟨by decide, hpush, hrefused 4 9 hpush,
    hended (by decide) (.tryPop 4) (by decide) (Or.inr (Or.inl rfl))⟩

end Crowd

end Verbs
