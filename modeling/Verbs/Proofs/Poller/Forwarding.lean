import Mathlib.Tactic
import Verbs.Proofs.Executor.Solo
import Verbs.Proofs.Poller.Relay

/-!
What a poller forwards. The executor accepts from a poller the completions of its ring, in order and
each once, up to the place that the poller has come to. With a single worker behind it, which
callbacks run, and in which order, does not depend on the size of the batches or on who was faster.
-/

namespace Verbs

variable {κ : Type}

namespace Crew

variable {s s' : Crew κ}

def registrations (s : Crew κ) : List UInt64 :=
  s.log.filterMap fun
    | .registered token _ => some token
    | _ => none

lemma accepted_grows (s : Crew κ) (m : Move κ) : s.accepted <+: (s.perform m).accepted :=
  (log_perform s m).filterMap _

end Crew

namespace Relay

variable {s s' : Relay κ}

/-! ### The crew behind a poller -/

def Act.feeds : Act κ → Bool
  | .crew (.process _) => true
  | _ => false

inductive CrewStep (s : Relay κ) (a : Act κ) (s' : Relay κ) : Prop where
  | same (crew : s'.crew = s.crew) (handed : s'.handed = s.handed)
  | move (m : Move κ) (act : a = .crew m) (crew : s'.crew = s.crew.perform m)
      (handed : s'.handed = s.handed)
  | hand (c : Completion) (accepts : (s.crew.executor.process? c).isSome)
      (crew : s'.crew = s.crew.perform (.process c)) (handed : s'.handed = s.handed ++ [c])

lemma perform_crew (s : Relay κ) (a : Act κ) : CrewStep s a (s.perform a) := by
  cases a with
  | crew m => exact .move m rfl rfl rfl
  | append | stop => exact .same rfl rfl
  | check =>
    simp only [perform]
    split <;> exact .same rfl rfl
  | poll =>
    simp only [perform]
    split
    · split <;> exact .same rfl rfl
    · exact .same rfl rfl
  | forward =>
    simp only [perform]
    split
    · rename_i c _ _
      by_cases haccepts : (s.crew.executor.process? c).isSome = true
      · rw [if_pos haccepts]
        exact .hand c haccepts rfl rfl
      · rw [if_neg haccepts]
        exact .same rfl rfl
    · exact .same rfl rfl

lemma crew_perform (s : Relay κ) (a : Act κ) :
    (s.perform a).crew = s.crew ∨ ∃ m, (s.perform a).crew = s.crew.perform m := by
  cases perform_crew s a with
  | same crew handed => exact Or.inl crew
  | move m act crew handed => exact Or.inr ⟨m, crew⟩
  | hand c accepts crew handed => exact Or.inr ⟨.process c, crew⟩

lemma handed_accepted (ring : Ring) (crew : Crew κ) (batch : Nat) (acts : List (Act κ)) :
    ∃ more, (run ring crew batch acts).crew.accepted = crew.accepted ++ more ∧
      (run ring crew batch acts).handed.Sublist more := by
  induction acts using List.reverseRecOn with
  | nil => exact ⟨[], (List.append_nil _).symm, List.Sublist.slnil⟩
  | append_singleton acts a ih =>
    rw [run_snoc]
    obtain ⟨more, haccepted, hhanded⟩ := ih
    cases perform_crew (run ring crew batch acts) a with
    | same crew' handed => exact ⟨more, by rw [crew', haccepted], by rw [handed]; exact hhanded⟩
    | move m act crew' handed =>
      obtain ⟨l, hl⟩ := (run ring crew batch acts).crew.accepted_grows m
      refine ⟨more ++ l, ?_, ?_⟩
      · rw [crew', ← hl, haccepted, List.append_assoc]
      · rw [handed]
        exact hhanded.trans (List.sublist_append_left _ _)
    | hand c accepts crew' handed =>
      refine ⟨more ++ [c], ?_, ?_⟩
      · rw [crew', Crew.accepted_process accepts, haccepted, List.append_assoc]
      · rw [handed]
        exact hhanded.append_right _

/-! ### A crew of one -/

section Solo

variable (ring : Ring) (batch : Nat) {acts : List (Act κ)}

lemma accepted_eq (fed : ∀ a ∈ acts, a.feeds = false) :
    (run ring (Crew.start 1) batch acts).crew.accepted =
      (run ring (Crew.start 1) batch acts).handed := by
  induction acts using List.reverseRecOn with
  | nil => rfl
  | append_singleton acts a ih =>
    have ih := ih fun b hb => fed b (List.mem_append_left _ hb)
    rw [run_snoc]
    cases perform_crew (run ring (Crew.start 1) batch acts) a with
    | same crew handed => rw [crew, handed, ih]
    | move m act crew handed =>
      have hm : ∀ c, m ≠ .process c := by
        rintro c rfl
        have := fed a (List.mem_append_right _ (List.mem_singleton_self a))
        simp [act, Act.feeds] at this
      rw [crew, handed, (Crew.perform_step _ _).accepted_eq hm, ih]
    | hand c accepts crew handed => rw [crew, handed, Crew.accepted_process accepts, ih]

lemma solo (acts : List (Act κ)) : ∃ d, (run ring (Crew.start 1) batch acts).crew.Solo d := by
  induction acts using List.reverseRecOn with
  | nil => exact ⟨_, Crew.solo_start⟩
  | append_singleton acts a ih =>
    rw [run_snoc]
    rcases crew_perform (run ring (Crew.start 1) batch acts) a with hcrew | ⟨m, hcrew⟩
    · rwa [hcrew]
    · rw [hcrew]
      exact (Crew.perform_step _ m).solo ih

lemma dispatched_stored (fed : ∀ a ∈ acts, a.feeds = false) :
    (run ring (Crew.start 1) batch acts).crew.dispatched <+:
      (run ring (Crew.start 1) batch acts).stored := by
  obtain ⟨d, hsolo⟩ := solo ring batch acts
  have hqueued := hsolo.queued
  rw [accepted_eq ring batch fed] at hqueued
  rw [(sound ring (Crew.start 1) batch acts).balance, hqueued]
  simp only [List.append_assoc]
  exact List.prefix_append _ _

end Solo

def registers (s : Relay κ) (a : Act κ) : List UInt64 :=
  (s.perform a).crew.registrations.drop s.crew.registrations.length

/-- No callback is registered under the number of a completion that has already been stored. -/
def Timely (s : Relay κ) : List (Act κ) → Prop
  | [] => True
  | a :: acts =>
    (∀ token ∈ s.registers a, token ∉ s.stored.map (·.wrId)) ∧ Timely (s.perform a) acts

instance Timely.decidable : (s : Relay κ) → (acts : List (Act κ)) → Decidable (s.Timely acts)
  | _, [] => .isTrue trivial
  | s, a :: acts =>
    have := decidable (s.perform a) acts
    -- over the list, not over all numbers
    have : Decidable (∀ token ∈ s.registers a, token ∉ s.stored.map (·.wrId)) :=
      List.decidableBAll _ _
    inferInstanceAs (Decidable (_ ∧ _))

lemma timely_snoc {acts : List (Act κ)} {a : Act κ} : s.Timely (acts ++ [a]) ↔
    s.Timely acts ∧ ∀ token ∈ (acts.foldl perform s).registers a,
      token ∉ (acts.foldl perform s).stored.map (·.wrId) := by
  induction acts generalizing s with
  | nil => simp [Timely]
  | cons b acts ih => simp only [List.cons_append, Timely, ih, List.foldl_cons, and_assoc]

lemma mem_registers {a : Act κ} {token : UInt64} {cb : κ}
    (h : (s.perform a).crew.log = s.crew.log ++ [.registered token cb]) :
    token ∈ s.registers a := by
  simp [registers, Crew.registrations, h]

lemma served (ring : Ring) (batch : Nat) {acts : List (Act κ)}
    (fed : ∀ a ∈ acts, a.feeds = false)
    (timely : (start ring (Crew.start 1) batch).Timely acts) :
    (run ring (Crew.start 1) batch acts).crew.Served := by
  induction acts using List.reverseRecOn with
  | nil => exact Crew.served_start 1
  | append_singleton acts a ih =>
    obtain ⟨htimely, hlast⟩ := timely_snoc.mp timely
    have hfed : ∀ b ∈ acts, b.feeds = false := fun b hb => fed b (List.mem_append_left _ hb)
    have hserved := ih hfed htimely
    rw [run_snoc]
    rcases crew_perform (run ring (Crew.start 1) batch acts) a with hcrew | ⟨m, hcrew⟩
    · rwa [hcrew]
    · rw [hcrew]
      refine (Crew.perform_step _ m).served hserved fun token cb hlog hmem => ?_
      rw [← hcrew] at hlog
      -- what was dispatched was stored, and nothing is registered for that any more
      exact hlast token (mem_registers hlog)
        (((dispatched_stored ring batch hfed).map _).subset hmem)

/-! ### The result -/

structure Drained (s : Relay κ) : Prop where
  ring : s.ring.entries = []
  batch : s.pending = []
  queue : s.crew.executor.queue.items = []
  workers : ∀ w ∈ s.crew.duties.entries, w.2.holds = [] ∧ w.2.arms = []

/-- A run with a crew of one that only the poller feeds and callbacks that are registered in time,
after which everything is drained. -/
structure Settled (ring : Ring) (batch : Nat) (acts : List (Act κ)) : Prop where
  fed : ∀ a ∈ acts, a.feeds = false
  timely : (start ring (Crew.start 1) batch).Timely acts
  drained : (run ring (Crew.start 1) batch acts).Drained

section Drained

variable {ring : Ring} {batch : Nat} {acts : List (Act κ)}

lemma Drained.duty {d : Duty κ} (h : s.Drained) (hs : s.crew.Solo d) :
    d.holds = [] ∧ d.arms = [] := by
  have hget : s.crew.duties.get? 0 = some d := (hs.duties 0 d).mpr ⟨rfl, rfl⟩
  exact h.workers _ (Table.mem_of_find? hget)

lemma Drained.dispatched (fed : ∀ a ∈ acts, a.feeds = false)
    (h : (run ring (Crew.start 1) batch acts).Drained) :
    (run ring (Crew.start 1) batch acts).crew.dispatched =
      (run ring (Crew.start 1) batch acts).stored := by
  obtain ⟨d, hsolo⟩ := solo ring batch acts
  have hqueued := hsolo.queued
  rw [accepted_eq ring batch fed, (h.duty hsolo).1, h.queue] at hqueued
  rw [(sound ring (Crew.start 1) batch acts).balance, h.batch, h.ring, hqueued]
  simp only [List.append_nil]

lemma Settled.invocations (h : Settled ring batch acts) :
    (run ring (Crew.start 1) batch acts).crew.invocations =
      serve (run ring (Crew.start 1) batch acts).crew.offered
        (run ring (Crew.start 1) batch acts).stored := by
  obtain ⟨d, hsolo⟩ := solo ring batch acts
  have htaken := hsolo.taken
  rw [(h.drained.duty hsolo).2, List.append_nil] at htaken
  rw [← h.drained.dispatched h.fed, ← htaken]
  exact (served ring batch h.fed h.timely).taken

end Drained

/-- What is known of a poller in front of a crew that began in some state. -/
structure Forwards (s : Relay κ) (crew : Crew κ) (batch : Nat) : Prop where
  conserved : s.stored = s.handed ++ s.pending ++ s.ring.entries
  bounded : s.pending.length ≤ max 1 batch
  accepted : ∃ more, s.crew.accepted = crew.accepted ++ more ∧ s.handed.Sublist more
  told : s.phase = .ended .told → s.stopped = true ∧ s.pending = []
  failed : ∀ error, s.phase = .ended (.failed error) → s.ring.overrun = true ∧ s.pending = []
  refused : s.phase = .ended .refused → s.crew.executor.queue.closed = true ∧ s.pending ≠ []
  ended : ∀ exit, s.phase = .ended exit → ∀ a, (s.perform a).phase = .ended exit ∧
    (s.perform a).pending = s.pending ∧ (s.perform a).handed = s.handed
  round : s.phase = .checking → s.stopped = false → s.ring.overrun = false →
    s.crew.executor.queue.closed = false →
      let t := (roundActs batch).foldl perform s
      t.phase = .checking ∧ t.handed = s.handed ++ s.ring.entries.take (max 1 batch) ∧
        t.ring.entries = s.ring.entries.drop (max 1 batch)
  /-- A later poller goes on with what is left in the ring. -/
  resumed : ∀ (crew' : Crew κ) (batch' : Nat) (acts' : List (Act κ)),
    let t := run s.ring crew' batch' acts'
    s.stored ++ t.appended = s.handed ++ s.pending ++ t.handed ++ t.pending ++ t.ring.entries

/-- What is known of a crew of one that only a poller feeds. -/
structure InOrder (ring : Ring) (batch : Nat) (acts : List (Act κ)) : Prop where
  accepted : (run ring (Crew.start 1) batch acts).crew.accepted =
    (run ring (Crew.start 1) batch acts).handed
  invoked : ((run ring (Crew.start 1) batch acts).crew.invocations.map Prod.fst).Sublist
    (run ring (Crew.start 1) batch acts).stored
  dispatched : (run ring (Crew.start 1) batch acts).Drained →
    (run ring (Crew.start 1) batch acts).crew.dispatched =
      (run ring (Crew.start 1) batch acts).stored
  served : Settled ring batch acts → (run ring (Crew.start 1) batch acts).crew.invocations =
    serve (run ring (Crew.start 1) batch acts).crew.offered
      (run ring (Crew.start 1) batch acts).stored
  /-- What runs does not depend on how it was forwarded. -/
  same : Settled ring batch acts →
    ∀ (ring' : Ring) (batch' : Nat) (acts' : List (Act κ)), Settled ring' batch' acts' →
      let s := run ring (Crew.start 1) batch acts
      let t := run ring' (Crew.start 1) batch' acts'
      t.stored = s.stored → (∀ c ∈ s.stored, t.crew.offered c.wrId = s.crew.offered c.wrId) →
        t.crew.invocations = s.crew.invocations

lemma forwards (ring : Ring) (crew : Crew κ) (batch : Nat) (acts : List (Act κ)) :
    (run ring crew batch acts).Forwards crew batch := by
  have hs : (run ring crew batch acts).Sound batch := sound ring crew batch acts
  exact
    { conserved := hs.balance
      bounded := hs.pending_length_le
      accepted := handed_accepted ring crew batch acts
      told := fun hphase =>
        ⟨hs.told hphase, hs.pending_eq_nil (by simp [hphase]) (by simp [hphase])⟩
      failed := fun error hphase =>
        ⟨hs.failed error hphase, hs.pending_eq_nil (by simp [hphase]) (by simp [hphase])⟩
      refused := fun hphase => ⟨hs.refused hphase, hs.pending_ne_nil (hs.busy (Or.inr hphase))⟩
      ended := fun exit hphase a => ended_perform hphase a
      round := round_hands hs
      resumed := by
        intro crew' batch' acts' t
        have ht : t.found ++ t.appended = t.handed ++ t.pending ++ t.ring.entries :=
          (sound _ crew' batch' acts').balance
        rw [show t.found = _ from found_run _ crew' batch' acts'] at ht
        rw [hs.balance, List.append_assoc, ht]
        simp only [List.append_assoc] }

lemma inOrder (ring : Ring) (batch : Nat) {acts : List (Act κ)}
    (fed : ∀ a ∈ acts, a.feeds = false) : InOrder ring batch acts := by
  obtain ⟨d, hsolo⟩ := solo ring batch acts
  refine
    { accepted := accepted_eq ring batch fed
      invoked := hsolo.invocations_sublist.trans ?_
      dispatched := fun h => h.dispatched fed
      served := fun h => h.invocations
      same := fun h ring' batch' acts' h' hstored hoffered => ?_ }
  · rw [accepted_eq ring batch fed, (sound ring (Crew.start 1) batch acts).balance,
      List.append_assoc]
    exact List.sublist_append_left _ _
  · rw [h'.invocations, h.invocations, hstored, serve_congr hoffered]

/-- **A poller forwards its ring unchanged.** Whatever the size of the batches, whatever the ring
holds and whoever does what in between: what was stored in the ring is what the executor accepted
from the poller, then the rest of the batch, then what is still in the ring. The rest is never more
than a batch. A thread that was told to stop or failed to poll leaves none, so a later poller goes
on where it ended; one that was refused leaves a rest, which is lost, because the executor is closed
and the thread does nothing more. A thread that nothing keeps from it hands over a batch in each
round. A single worker that only the poller feeds runs callbacks in the order of the ring. Once all
is drained it has dispatched exactly what was stored, and if callbacks were registered in time, what
it ran depends on what was stored and what was registered for it, and on nothing else. -/
theorem forwards_unchanged (ring : Ring) (crew : Crew κ) (batch : Nat) (acts : List (Act κ)) :
    (run ring crew batch acts).Forwards crew batch ∧
    (crew = Crew.start 1 → (∀ a ∈ acts, a.feeds = false) → InOrder ring batch acts) :=
  ⟨forwards ring crew batch acts, fun _ fed => inOrder ring batch fed⟩

/-- The steps by which the single worker dispatches a completion and runs its callback. -/
def dispatchActs : List (Act Nat) :=
  [.crew (.pop 0), .crew (.take 0), .crew (.invoke 0), .crew (.finish 0 false)]

/-- Two completions one by one: both are stored before the first is polled, and the poller is told
to stop in the end. -/
def singly : List (Act Nat) :=
  [.crew (.draw 0 70), .crew (.insert 0), .crew (.draw 1 80), .crew (.insert 1),
    .append { wrId := 1 }, .append { wrId := 2 }, .check, .poll, .forward, .check, .poll,
    .forward] ++ dispatchActs ++ dispatchActs ++ [.stop, .check]

def together : List (Act Nat) :=
  [.crew (.draw 0 70), .crew (.insert 0), .append { wrId := 1 }, .check, .poll,
    .crew (.draw 1 80), .crew (.insert 1), .append { wrId := 2 }, .forward] ++ dispatchActs ++
  [.check, .poll, .forward] ++ dispatchActs

def cutShort : List (Act Nat) :=
  [.append { wrId := 1 }, .append { wrId := 2 }, .check, .poll, .forward, .crew .shutdown, .forward]

def overflowing : List (Act Nat) :=
  [.append { wrId := 1 }, .append { wrId := 2 }, .append { wrId := 3 }, .check, .poll]

def waiting : Ring := { depth := 2, entries := [{ wrId := 1 }, { wrId := 2 }] }

lemma settled_singly : Settled { depth := 2 } 0 singly :=
  ⟨by decide, by decide, ⟨by decide, by decide, by decide, by decide⟩⟩

lemma settled_together : Settled { depth := 2 } 8 together :=
  ⟨by decide, by decide, ⟨by decide, by decide, by decide, by decide⟩⟩

theorem forwards_unchanged_settled :
    ((run { depth := 2 } (Crew.start 1) 0 singly).phase = .ended .told ∧
      (run { depth := 2 } (Crew.start 1) 0 singly).pending = []) ∧
    ((run { depth := 2 } (Crew.start 1) 8 cutShort).phase = .ended .refused ∧
      (run { depth := 2 } (Crew.start 1) 8 cutShort).pending ≠ []) ∧
    ((run { depth := 2 } (Crew.start 1) 8 overflowing).phase = .ended (.failed .queueOverrun) ∧
      (run { depth := 2 } (Crew.start 1) 8 overflowing).pending = []) ∧
    ((roundActs 1).foldl perform (run waiting (Crew.start 1 : Crew Nat) 1 [])).handed =
      [{ wrId := 1 }] ∧
    (run { depth := 2 } (Crew.start 1) 0 singly).crew.invocations =
      [({ wrId := 1 }, 70), ({ wrId := 2 }, 80)] ∧
    (run { depth := 2 } (Crew.start 1) 8 together).crew.invocations =
      (run { depth := 2 } (Crew.start 1) 0 singly).crew.invocations :=
  have htold : (run { depth := 2 } (Crew.start 1) 0 singly).phase = .ended .told := by decide
  have hrefused : (run { depth := 2 } (Crew.start 1) 8 cutShort).phase = .ended .refused := by
    decide
  have hfailed : (run { depth := 2 } (Crew.start 1) 8 overflowing).phase =
      .ended (.failed .queueOverrun) := by decide
  have order := (forwards_unchanged { depth := 2 } (Crew.start 1) 0 singly).2 rfl settled_singly.fed
  ⟨⟨htold, ((forwards_unchanged { depth := 2 } _ 0 singly).1.told htold).2⟩,
    ⟨hrefused, ((forwards_unchanged { depth := 2 } _ 8 cutShort).1.refused hrefused).2⟩,
    ⟨hfailed, ((forwards_unchanged { depth := 2 } _ 8 overflowing).1.failed _ hfailed).2⟩,
    ((forwards_unchanged waiting (Crew.start 1 : Crew Nat) 1 []).1.round rfl rfl rfl
      rfl).2.1.trans rfl,
    (order.served settled_singly).trans (by decide),
    order.same settled_singly { depth := 2 } 8 together settled_together (by decide) (by decide)⟩

end Relay

end Verbs
