import Mathlib.Tactic
import Verbs.Proofs.Executor.Growth

/-!
Tearing a crew down. A worker ends only when nothing is left to dispatch, and the first call that
joins from outside waits for every worker; so what it releases is owed nothing. A call that joins
while another one is waiting finds nobody to wait for, and goes on to release at once.
-/

namespace Verbs

variable {κ : Type}

/-- The workers that a call that joins still has to wait for. -/
def Call.awaited? : Call κ → Option (List Nat)
  | .awaiting others => some others
  | .closing | .visiting _ _ | .emptying _ => some []
  | .storing _ _ | .checking _ | .revoking _ => none

namespace Executor

@[simp] lemma cancel_workers (e : Executor κ) (token : UInt64) :
    (e.cancel token).2.workers = e.workers := by
  simp only [cancel, Registry.take]

end Executor

namespace Crew

variable {s s' : Crew κ} {m : Move κ} {token : UInt64} {cb : κ} {workers n i : Nat}
  {moves : List (Move κ)}

def Gone (workers : Nat) (s : Crew κ) : Prop := ∀ i < workers, s.duties.get? i = some .exited

/-- A call joins from outside while workers are still there, but someone else waits for them. -/
def Hasty (workers : Nat) (moves : List (Move κ)) (n : Nat) : Prop :=
  ∃ before after, moves = before ++ .join n none :: after ∧
    (run workers before).calls.get? n = none ∧
    (run workers before).executor.joined = true ∧ ¬ (run workers before).Gone workers

def Outside (moves : List (Move κ)) : Prop := ∀ n i, .join n (some i) ∉ moves

lemma Outside.of_append {after : List (Move κ)} (h : Outside (moves ++ after)) : Outside moves :=
  fun n i hmem => h n i (List.mem_append_left _ hmem)

lemma Hasty.snoc (h : Hasty workers moves n) (m : Move κ) : Hasty workers (moves ++ [m]) n := by
  obtain ⟨before, after, rfl, free, joined, there⟩ := h
  exact ⟨before, after ++ [m], by simp, free, joined, there⟩

lemma Hasty.at_index (h : Hasty workers moves n) : ∃ k < moves.length,
    moves[k]? = some (.join n none) ∧ (run workers (moves.take k)).executor.joined = true ∧
      ¬ (run workers (moves.take k)).Gone workers := by
  obtain ⟨before, after, rfl, -, joined, there⟩ := h
  refine ⟨before.length, by simp, by simp, ?_, ?_⟩
  · rwa [List.take_left]
  · rwa [List.take_left]

/-! ### Workers -/

lemma Step.duties (h : Step s m s') : s'.duties = s.duties ∨
    ∃ j d d', s.duties.get? j = some d ∧ d ≠ .exited ∧ s'.duties = s.duties.set j d' := by
  cases h with
  | pop j c rest duty | exit j duty | arm j c cb duty | skip j c duty | invoke j c cb duty
    | finish j breaks duty =>
    exact Or.inr ⟨j, _, _, duty, by simp, rfl⟩
  | _ => exact Or.inl rfl

lemma Step.exited (h : Step s m s') (hi : s.duties.get? i = some .exited) :
    s'.duties.get? i = some .exited := by
  rcases h.duties with hsame | ⟨j, d, d', hj, hd, hset⟩
  · rw [hsame, hi]
  · have hne : i ≠ j := by
      rintro rfl
      exact hd (Option.some.inj (hj.symm.trans hi))
    rw [hset, Table.get?_set_of_ne _ _ hne, hi]

lemma Gone.step (hg : s.Gone workers) (h : Step s m s') : s'.Gone workers :=
  fun i hi => h.exited (hg i hi)

lemma Step.drained (h : Step s m s')
    (hq : s.executor.queue.closed = true ∧ s.executor.queue.items = []) :
    s'.executor.queue.closed = true ∧ s'.executor.queue.items = [] := by
  cases h with
  | process c isOpen => cases hq.1.symm.trans isOpen
  | pop j c rest duty items => cases hq.2.symm.trans items
  | shutdown => exact ⟨rfl, hq.2⟩
  | revoke | cancel | release | arm | skip => rwa [Executor.cancel_queue]
  | _ => exact hq

/-- The workers are the ones that the crew started with, and end when the queue is empty. -/
structure Manned (workers : Nat) (s : Crew κ) : Prop where
  count : s.executor.workers = workers
  lt : ∀ i d, s.duties.get? i = some d → i < workers
  drained : ∀ i, s.duties.get? i = some .exited →
    s.executor.queue.closed = true ∧ s.executor.queue.items = []

lemma Step.manned_count (h : Step s m s') : s'.executor.workers = s.executor.workers := by
  cases h with
  | revoke | cancel | release | arm | skip => exact Executor.cancel_workers _ _
  | _ => rfl

lemma Manned.perform (h : s.Manned workers) (m : Move κ) : (s.perform m).Manned workers := by
  have hstep := perform_step s m
  refine ⟨hstep.manned_count.trans h.count, fun i d hi => ?_, fun i hi => ?_⟩
  · rcases hstep.duties with hsame | ⟨j, d, d', hj, -, hset⟩
    · exact h.lt i d (hsame ▸ hi)
    · rw [hset, Table.get?_set] at hi
      split at hi
      · rename_i hij
        exact hij ▸ h.lt j d hj
      · exact h.lt i _ hi
  · by_cases hold : s.duties.get? i = some .exited
    · exact hstep.drained (h.drained i hold)
    · exact hstep.drained (hstep.exited_of hi hold)

lemma manned (workers : Nat) (moves : List (Move κ)) :
    (run workers moves).Manned workers := by
  induction moves using List.reverseRecOn with
  | nil =>
    refine ⟨rfl, fun i d hi => ?_, fun i hi => nomatch get?_start hi⟩
    obtain ⟨j, hj, heq⟩ := List.mem_map.mp (Table.mem_of_find? hi)
    obtain rfl : j = i := congrArg Prod.fst heq
    exact List.mem_range.mp hj
  | append_singleton moves m ih =>
    rw [run_snoc]
    exact ih.perform m

namespace Gone

lemma held (hg : s.Gone workers) (hm : s.Manned workers) {d : Duty κ}
    (hd : s.duties.get? i = some d) : d = .exited :=
  Option.some.inj (hd.symm.trans (hg i (hm.lt i d hd)))

lemma items (hg : s.Gone workers) (hm : s.Manned workers) (hworkers : 0 < workers) :
    s.executor.queue.items = [] :=
  (hm.drained 0 (hg 0 hworkers)).2

end Gone

/-! ### Calls that join -/

/-- A call has nobody left to wait for but certain workers. -/
def Waits (s : Crew κ) (n : Nat) (rest : List Nat) : Prop :=
  ∃ c rest₀, s.calls.get? n = some c ∧ c.awaited? = some rest₀ ∧
    ∀ i ∈ rest₀, i ∈ rest ∨ s.duties.get? i = some .exited

lemma waits_of_same {c : Call κ} {rest : List Nat} (h : s.calls.get? n = some c)
    (hc : c.awaited? = some rest) : s.Waits n rest := ⟨c, rest, h, hc, fun _ hi => Or.inl hi⟩

/-- Who is past waiting waits for nobody. -/
lemma waits_of_nil {c : Call κ} {rest : List Nat} (h : s.calls.get? n = some c)
    (hc : c.awaited? = some []) : s.Waits n rest := ⟨c, [], h, hc, fun _ hi => nomatch hi⟩

lemma Step.awaited (h : Step s m s') {c : Call κ} {rest : List Nat}
    (hn : s'.calls.get? n = some c) (hc : c.awaited? = some rest) : s.Waits n rest ∨
      ∃ caller, m = .join n caller ∧ s.calls.get? n = none ∧ rest = others s.executor caller := by
  rcases h.enters hn with hn | hnew
  · exact Or.inl (waits_of_same hn hc)
  · cases hnew with
    | joins caller free =>
      cases hc
      exact Or.inr ⟨caller, rfl, free, rfl⟩
    | passes i rest' call exited =>
      -- the call goes past a worker that has ended
      cases hc
      refine Or.inl ⟨_, _, call, rfl, fun j hj => ?_⟩
      rcases List.mem_cons.mp hj with rfl | hj
      · exact Or.inr exited
      · exact Or.inl hj
    | shuts call | looks call => exact Or.inl (waits_of_nil call rfl)
    | visits t present seen call => exact Or.inl (waits_of_nil call rfl)
    | gathers present seen call => exact Or.inl (waits_of_nil call rfl)
    | releases t rest' call => exact Or.inl (waits_of_nil call rfl)
    | draws | inserts | late => cases hc

lemma closed_of_step (h : Step s m s') (hclosed : s'.executor.registry.closed = true) :
    s.executor.registry.closed = true ∨ ∃ n, s.calls.get? n = some (.awaiting []) := by
  cases h with
  | shut n call => exact Or.inr ⟨n, call⟩
  | revoke | cancel | release | arm | skip =>
    rw [Executor.cancel_closed] at hclosed
    exact Or.inl hclosed
  | _ => exact Or.inl hclosed

/-- A call that joins without haste has seen all but the workers that it waits for end. -/
def Waited (workers : Nat) (moves : List (Move κ)) : Prop :=
  ∀ n c rest, (run workers moves).calls.get? n = some c → c.awaited? = some rest →
    (∀ i < workers, i ∉ rest → (run workers moves).duties.get? i = some .exited) ∨
      Hasty workers moves n

lemma waited (houtside : Outside moves) : Waited workers moves := by
  induction moves using List.reverseRecOn with
  | nil => exact fun n c rest h => nomatch h
  | append_singleton moves m ih =>
    have hbefore := ih houtside.of_append
    have hstep := perform_step (run workers moves) m
    intro n c rest hn hc
    rw [run_snoc] at hn ⊢
    rcases hstep.awaited hn hc with ⟨c₀, rest₀, hn₀, hc₀, hless⟩ | ⟨caller, rfl, hfree, rfl⟩
    · rcases hbefore n c₀ rest₀ hn₀ hc₀ with hgone | hhasty
      · refine Or.inl fun i hi hrest => hstep.exited ?_
        by_cases hmem : i ∈ rest₀
        · exact (hless i hmem).resolve_left hrest
        · exact hgone i hi hmem
      · exact Or.inr (hhasty.snoc m)
    · obtain rfl : caller = none := by
        rcases caller with - | i
        · rfl
        · exact absurd (List.mem_append_right _ List.mem_cons_self) (houtside n i)
      by_cases hgone : (run workers moves).Gone workers
      · exact Or.inl fun i hi _ => hgone.step hstep i hi
      · by_cases hjoined : (run workers moves).executor.joined = true
        · exact Or.inr ⟨moves, [], rfl, hfree, hjoined, hgone⟩
        · refine Or.inl fun i hi hrest => absurd ?_ hrest
          simp [others, hjoined, (manned workers moves).count, hi]

lemma gone_of_awaited {c : Call κ} (hw : Waited workers moves)
    (hn : (run workers moves).calls.get? n = some c) (hc : c.awaited? = some []) :
    (run workers moves).Gone workers ∨ Hasty workers moves n :=
  (hw n c [] hn hc).imp_left fun h i hi => h i hi List.not_mem_nil

lemma gone_of_closed (houtside : Outside moves)
    (hclosed : (run workers moves).executor.registry.closed = true) :
    (run workers moves).Gone workers ∨ ∃ n, Hasty workers moves n := by
  induction moves using List.reverseRecOn with
  | nil => cases hclosed
  | append_singleton moves m ih =>
    have hbefore := houtside.of_append
    have hstep := perform_step (run workers moves) m
    rw [run_snoc] at hclosed ⊢
    have hgone : (run workers moves).Gone workers ∨ ∃ n, Hasty workers moves n := by
      rcases closed_of_step hstep hclosed with hclosed | ⟨n, hn⟩
      · exact ih hbefore hclosed
      · exact (gone_of_awaited (waited hbefore) hn rfl).imp_right fun h => ⟨n, h⟩
    exact hgone.imp (·.step hstep) fun ⟨n, h⟩ => ⟨n, h.snoc m⟩

/-! ### What a completion is owed -/

/-- A callback will be run, or someone took it back: a completion is on the way to it, a worker has
taken it, or it was cancelled. -/
inductive Promised (s : Crew κ) (token : UInt64) (cb : κ) : Prop where
  | queued (c : Completion) (wrId : c.wrId = token) (present : s.stored token = some cb)
      (queue : c ∈ s.executor.queue.items)
  | held (c : Completion) (i : Nat) (wrId : c.wrId = token) (present : s.stored token = some cb)
      (duty : s.duties.get? i = some (.holding c))
  | taken (c : Completion) (wrId : c.wrId = token) (event : .taken c cb ∈ s.log)
  | cancelled (event : .released token cb .cancelled ∈ s.log)

/-- While the registry is open, a callback stays there until it is taken or cancelled. -/
lemma stored_of_step (h : Step s m s') (hl : s.Life token) (hc : s.Closing)
    (hopen : s.executor.registry.closed = false) (present : s.stored token = some cb) :
    s'.stored token = some cb ∨ (∃ c, c.wrId = token ∧ .taken c cb ∈ s'.log) ∨
      .released token cb .cancelled ∈ s'.log := by
  have keep : ∀ t, token ≠ t → (s.executor.cancel t).2.registry.callbacks.get? token = some cb :=
    fun t ht => by rw [Executor.get?_cancel, if_neg ht]; exact present
  cases h with
  | insert n t cb' call =>
    have hne : token ≠ t := by
      rintro rfl
      cases hl with
      | outstanding _ _ _ idle => exact idle (.call n) ⟨cb', call⟩
      | unknown _ absent | drawn _ _ _ absent | armed _ _ _ _ _ absent | invoked _ _ _ _ absent
        | released _ _ _ absent => cases present.symm.trans absent
    exact Or.inl ((Table.get?_set_of_ne _ _ hne).trans present)
  | revoke n t call => cases (hc.closed call rfl rfl).symm.trans hopen
  | release n t rest call => cases (hc.closed call rfl rfl).symm.trans hopen
  | cancel t =>
    by_cases ht : token = t
    · subst ht
      have hfound : (s.executor.cancel token).1 = some cb := by
        rw [Executor.cancel_fst]
        exact present
      exact Or.inr (Or.inr (by simp [hfound]))
    · exact Or.inl (keep t ht)
  | arm j c cb' duty found =>
    by_cases ht : token = c.wrId
    · have hcb : some cb' = some cb := by
        rw [← found, Executor.cancel_fst, ← ht]
        exact present
      cases hcb
      exact Or.inr (Or.inl ⟨c, ht.symm, by simp⟩)
    · exact Or.inl (keep _ ht)
  | skip j c duty missing =>
    refine Or.inl (keep _ fun ht => ?_)
    rw [Executor.cancel_fst, ← ht] at missing
    cases present.symm.trans missing
  | _ => exact Or.inl present

lemma onItsWay_of_step (h : Step s m s') {c : Completion} (present : s.stored c.wrId = some cb)
    (present' : s'.stored c.wrId = some cb)
    (hway : c ∈ s.executor.queue.items ∨ ∃ i, s.duties.get? i = some (.holding c)) :
    c ∈ s'.executor.queue.items ∨ ∃ i, s'.duties.get? i = some (.holding c) := by
  have moved : ∀ {j : Nat} {d d' : Duty κ}, s.duties.get? j = some d → d ≠ .holding c →
      (∃ i, s.duties.get? i = some (.holding c)) →
      ∃ i, (s.duties.set j d').get? i = some (.holding c) := by
    rintro j d d' hj hd ⟨i, hi⟩
    have hne : i ≠ j := by
      rintro rfl
      exact hd (Option.some.inj (hj.symm.trans hi))
    exact ⟨i, by rw [Table.get?_set_of_ne _ _ hne, hi]⟩
  cases h with
  | process c' isOpen => exact hway.imp_left (List.mem_append_left _)
  | pop j c' rest duty items =>
    rcases hway with hway | hway
    · rw [items] at hway
      rcases List.mem_cons.mp hway with rfl | hrest
      · exact Or.inr ⟨j, Table.get?_set_self _ _ _⟩
      · exact Or.inl hrest
    · exact Or.inr (moved duty (by simp) hway)
  | exit j duty => exact hway.imp_right (moved duty (by simp))
  | arm j c' cb' duty found =>
    -- the callback is still there, so it was another completion that found its own
    have hne : c' ≠ c := by
      rintro rfl
      rw [stored, Executor.get?_cancel, if_pos rfl] at present'
      cases present'
    rw [Executor.cancel_queue]
    exact hway.imp_right (moved duty (by simpa using hne))
  | skip j c' duty missing =>
    have hne : c' ≠ c := by
      rintro rfl
      rw [Executor.cancel_fst] at missing
      cases present.symm.trans missing
    rw [Executor.cancel_queue]
    exact hway.imp_right (moved duty (by simpa using hne))
  | invoke j c' cb' duty => exact hway.imp_right (moved duty (by simp))
  | finish j breaks duty => exact hway.imp_right (moved duty (by simp))
  | revoke | cancel | release => rwa [Executor.cancel_queue]
  | _ => exact hway

lemma Promised.of_way {c : Completion} (wrId : c.wrId = token) (present : s.stored token = some cb)
    (hway : c ∈ s.executor.queue.items ∨ ∃ i, s.duties.get? i = some (.holding c)) :
    s.Promised token cb :=
  hway.elim (.queued c wrId present) fun ⟨i, duty⟩ => .held c i wrId present duty

lemma Promised.step (hp : s.Promised token cb) (h : Step s m s') (hl : s.Life token)
    (hc : s.Closing) (hopen : s.executor.registry.closed = false) : s'.Promised token cb := by
  have onTheWay : ∀ c : Completion, c.wrId = token → s.stored token = some cb →
      (c ∈ s.executor.queue.items ∨ ∃ i, s.duties.get? i = some (.holding c)) →
      s'.Promised token cb := by
    rintro c rfl present hway
    rcases stored_of_step h hl hc hopen present with present' | ⟨c', hc', htaken⟩ | hcancelled
    · exact .of_way rfl present' (onItsWay_of_step h present present' hway)
    · exact .taken c' hc' htaken
    · exact .cancelled hcancelled
  cases hp with
  | queued c wrId present queue => exact onTheWay c wrId present (Or.inl queue)
  | held c i wrId present duty => exact onTheWay c wrId present (Or.inr ⟨i, duty⟩)
  | taken c wrId event => exact .taken c wrId (h.log_grows.subset event)
  | cancelled event => exact .cancelled (h.log_grows.subset event)

lemma Promised.gone (hp : s.Promised token cb) (hg : s.Gone workers) (hm : s.Manned workers)
    (hworkers : 0 < workers) :
    (∃ c, c.wrId = token ∧ .taken c cb ∈ s.log) ∨ .released token cb .cancelled ∈ s.log := by
  cases hp with
  | queued c wrId present queue =>
    rw [hg.items hm hworkers] at queue
    cases queue
  | held c i wrId present duty => cases hg.held hm duty
  | taken c wrId event => exact Or.inl ⟨c, wrId, event⟩
  | cancelled event => exact Or.inr event

lemma promised_of_process {c : Completion} (isOpen : s.executor.queue.closed = false)
    (present : s.stored c.wrId = some cb) : (s.perform (.process c)).Promised c.wrId cb := by
  have hpush : s.executor.process? c =
      some { s.executor with queue.items := s.executor.queue.items ++ [c] } := by
    simp [Executor.process?, ClosableQueue.push?, isOpen]
  refine .queued c rfl ?_ ?_
  · rw [perform, hpush]
    exact present
  · rw [perform, hpush]
    exact List.mem_append_right _ List.mem_cons_self

lemma promised {before after : List (Move κ)} {c : Completion} (hworkers : 0 < workers)
    (hbound : (run workers (before ++ .process c :: after)).drawn.length < 2 ^ 64)
    (houtside : Outside (before ++ .process c :: after))
    (hpatient : ∀ n, ¬ Hasty workers (before ++ .process c :: after) n)
    (isOpen : (run workers before).executor.queue.closed = false)
    (present : (run workers before).stored c.wrId = some cb) :
    (run workers (before ++ .process c :: after)).Promised c.wrId cb := by
  induction after using List.reverseRecOn with
  | nil =>
    rw [run_snoc]
    exact promised_of_process isOpen present
  | append_singleton after m ih =>
    rw [← List.cons_append, ← List.append_assoc] at hbound houtside hpatient ⊢
    set moves := before ++ .process c :: after with hmoves
    have hstep := perform_step (run workers moves) m
    rw [run_snoc] at hbound ⊢
    have hbound' := hstep.drawn_le.trans_lt hbound
    have houtside' := houtside.of_append
    have hpatient' : ∀ n, ¬ Hasty workers moves n := fun n h => hpatient n (h.snoc m)
    have hp := ih hbound' houtside' hpatient'
    rcases hclosed : (run workers moves).executor.registry.closed with - | -
    · exact hp.step hstep (life hbound' _) (closing workers moves) hclosed
    · -- the registry was closed after the workers had gone
      have hgone := (gone_of_closed houtside' hclosed).resolve_right fun ⟨n, h⟩ => hpatient' n h
      rcases hp.gone hgone (manned workers moves) hworkers with ⟨c', hc', htaken⟩ | hcancelled
      · exact .taken c' hc' (hstep.log_grows.subset htaken)
      · exact .cancelled (hstep.log_grows.subset hcancelled)

lemma invoked_of_taken {c : Completion} (hl : s.Life c.wrId) (hg : s.Gone workers)
    (hm : s.Manned workers) (htaken : .taken c cb ∈ s.log) :
    s.history c.wrId =
      [.drew c.wrId, .registered c.wrId cb, .taken c cb, .invoked c cb] := by
  have hmem := mem_history htaken c.wrId (by simp [CrewEvent.concerns])
  cases hl with
  | unknown events | drawn _ _ events | outstanding _ events | released _ _ events =>
    rw [events] at hmem
    simp at hmem
  | armed cb' c' i wrId events absent duty => cases hg.held hm duty
  | invoked cb' c' wrId events =>
    obtain ⟨rfl, rfl⟩ : c = c' ∧ cb = cb' := by
      rw [events] at hmem
      simpa using hmem
    exact events

/-! ### The result -/

/-- **Teardown.** Calls that join from outside have seen every worker end once they stop waiting,
release only what no completion is on the way to, and leave no accepted completion behind, except
for a call that joins while another one waits for the workers. -/
theorem teardown_keeps_accepted (workers : Nat) (moves : List (Move κ)) (hworkers : 0 < workers)
    (hbound : (run workers moves).drawn.length < 2 ^ 64)
    (houtside : Outside moves) :
    let s := run workers moves
    (∀ n c, s.calls.get? n = some c → c.awaited? = some [] →
      s.Gone workers ∨ Hasty workers moves n) ∧
    (.joined ∈ s.log → s.Gone workers ∨ ∃ n, Hasty workers moves n) ∧
    (∀ n token rest cb, s.calls.get? n = some (.emptying (token :: rest)) →
      s.stored token = some cb →
      (s.executor.queue.items = [] ∧ ∀ i d, s.duties.get? i = some d → d.held = 0) ∨
        Hasty workers moves n) ∧
    ((∀ n, ¬ Hasty workers moves n) → ∀ before c after cb,
      moves = before ++ .process c :: after →
      (run workers before).executor.queue.closed = false →
      (run workers before).stored c.wrId = some cb →
      s.Gone workers → .released c.wrId cb .cancelled ∉ s.log →
      ∃ c', c'.wrId = c.wrId ∧
        s.history c.wrId =
          [.drew c.wrId, .registered c.wrId cb, .taken c' cb, .invoked c' cb]) := by
  intro s
  have hm : s.Manned workers := manned workers moves
  have hw : Waited workers moves := waited houtside
  refine ⟨fun n c hn hc => gone_of_awaited hw hn hc, fun hjoined => ?_, ?_, ?_⟩
  · exact gone_of_closed houtside ((closing workers moves).joined hjoined).1
  · intro n token rest cb hn _
    refine (gone_of_awaited hw hn rfl).imp_left fun hg => ⟨hg.items hm hworkers, fun i d hd => ?_⟩
    rw [hg.held hm hd]
    rfl
  · rintro hpatient before c after cb rfl isOpen present hg hkept
    have hp := promised hworkers hbound houtside hpatient isOpen present
    obtain ⟨c', hc', htaken⟩ := (hp.gone hg hm hworkers).resolve_right hkept
    refine ⟨c', hc', ?_⟩
    rw [← hc']
    exact invoked_of_taken (life hbound _) hg hm htaken

/-- Two calls join, the second when the worker has ended. Of the two callbacks, the one that a
completion was handed over for has been run. -/
def teardown : List (Move Nat) :=
  [.draw 0 70, .insert 0, .check 0, .draw 0 80, .insert 0, .check 0, .process { wrId := 1 },
    .join 1 none, .shutdown, .pop 0, .take 0, .invoke 0, .finish 0 false, .pop 0, .join 2 none,
    .shut 2, .look 2, .visit 2 2, .gather 2]

lemma teardown_patient (n : Nat) : ¬ Hasty 1 teardown n := by
  intro h
  obtain ⟨k, hk, hjoin, joined, there⟩ := h.at_index
  have hk' : k < 19 := hk
  interval_cases k <;> cases hjoin
  · cases joined
  · refine there fun i hi => ?_
    obtain rfl : i = 0 := by omega
    rfl

theorem teardown_keeps_accepted_twoJoins :
    (run 1 teardown).drawn.length < 2 ^ 64 ∧ Outside teardown ∧
    (run 1 teardown).stored 2 = some 80 ∧ (run 1 teardown).executor.queue.items = [] ∧
    ∃ c', c'.wrId = 1 ∧ (run 1 teardown).history 1 =
      [.drew 1, .registered 1 70, .taken c' 70, .invoked c' 70] := by
  have hbound : (run 1 teardown).drawn.length < 2 ^ 64 := by decide
  have houtside : Outside teardown := fun n i => by simp [teardown]
  have hgone : (run 1 teardown).Gone 1 := fun i hi => by
    obtain rfl : i = 0 := by omega
    rfl
  obtain ⟨-, -, hempty, howed⟩ := teardown_keeps_accepted 1 teardown (by decide) hbound houtside
  refine ⟨hbound, houtside, rfl, ?_, ?_⟩
  · exact ((hempty 2 2 [] 80 rfl rfl).resolve_right (teardown_patient 2)).1
  · exact howed teardown_patient (teardown.take 6) { wrId := 1 } (teardown.drop 7) 70 rfl rfl rfl
      hgone (by decide)

/-- A completion is handed over, and while one call waits for the worker another one joins. -/
def overtaken : List (Move Nat) :=
  [.draw 0 70, .insert 0, .check 0, .process { wrId := 1 }, .shutdown, .join 1 none, .join 2 none,
    .shut 2, .look 2, .visit 2 1, .gather 2, .release 2, .release 2]

def aftermath : List (Move Nat) :=
  [.pop 0, .take 0, .pop 0, .await 1, .shut 1, .look 1, .gather 1, .release 1]

/-- The call that finds nobody to wait for returns before the worker has ended, and releases the
callback that the worker was to run. -/
theorem hasty_join_loses :
    Outside (overtaken ++ aftermath) ∧ ¬ (run 1 overtaken).Gone 1 ∧
    (run 1 overtaken).executor.queue.items = [{ wrId := 1 }] ∧
    (run 1 overtaken).log =
      [.drew 1, .registered 1 70, .returned 1, .accepted { wrId := 1 }, .released 1 70 .joined,
        .joined] ∧
    (run 1 (overtaken ++ aftermath)).Gone 1 ∧ (run 1 (overtaken ++ aftermath)).calls = {} ∧
    (run 1 (overtaken ++ aftermath)).history 1 =
      [.drew 1, .registered 1 70, .released 1 70 .joined] := by
  refine ⟨fun n i => by simp [overtaken, aftermath], fun h => ?_, rfl, by decide, fun i hi => ?_,
    rfl, by decide⟩
  · cases h 0 Nat.one_pos
  · obtain rfl : i = 0 := by omega
    rfl

end Crew

end Verbs
