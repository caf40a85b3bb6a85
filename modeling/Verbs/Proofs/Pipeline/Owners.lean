import Mathlib.Tactic
import Verbs.Proofs.Pipeline.Ledger

/-!
Whose callback resolves which future. The callback of a future is registered once, under one token
of one executor; what becomes of it there is all that the future learns.
-/

namespace Verbs

/-- What an event means for a future. -/
def CrewEvent.fateOf (f : FutureId) (event : CrewEvent Callback) : Option Fate :=
  event.fate?.bind fun x => if x.1 = f then some x.2 else none

/-- What became of the callback of a future, as far as a crew knows. -/
def Crew.fates (s : Crew Callback) (f : FutureId) : List Fate := s.log.filterMap (·.fateOf f)

@[simp] lemma Future.settle_wrId (future : Future) (fate : Fate) :
    (future.settle fate).wrId = future.wrId := by
  unfold Future.settle
  split <;> rfl

lemma Future.foldl_settle_wrId (fates : List Fate) (future : Future) :
    (fates.foldl Future.settle future).wrId = future.wrId := by
  induction fates generalizing future with
  | nil => rfl
  | cons fate fates ih => rw [List.foldl_cons, ih, settle_wrId]

namespace Crew

variable {s : Crew Callback} {f : FutureId} {event : CrewEvent Callback}

lemma bound_of_fate (ho : s.Orderly) (hevent : event ∈ s.log) (hfate : event.fateOf f ≠ none) :
    ∃ token, s.Bound token (.resolve f) ∧ event.concerns token = true := by
  cases event with
  | invoked c cb =>
    cases cb with
    | resolve g =>
      have hg : g = f := by
        by_contra hne
        exact hfate (by simp [CrewEvent.fateOf, CrewEvent.fate?, hne])
      subst hg
      exact ⟨c.wrId, Or.inl (events_of_invoked (ho.life c.wrId) hevent).2,
        by simp [CrewEvent.concerns]⟩
    | labelled => exact absurd rfl hfate
  | released token cb how =>
    cases cb with
    | resolve g =>
      have hg : g = f := by
        by_contra hne
        exact hfate (by simp [CrewEvent.fateOf, CrewEvent.fate?, hne])
      subst hg
      have hmem := mem_history hevent token (by simp [CrewEvent.concerns])
      refine ⟨token, Or.inl ?_, by simp [CrewEvent.concerns]⟩
      cases ho.life token with
      | released cb' how' events absent idle =>
        rw [events] at hmem
        obtain ⟨rfl, rfl⟩ : .resolve g = cb' ∧ how = how' := by simpa using hmem
        have hreg : .registered token (.resolve g) ∈ s.history token := by simp [events]
        exact List.mem_of_mem_filter hreg
      | unknown events | drawn _ _ events | outstanding _ events | armed _ _ _ _ events
        | invoked _ _ _ events =>
        rw [events] at hmem
        simp at hmem
    | labelled => exact absurd rfl hfate
  | drew | registered | returned | accepted | skipped | taken | broke | answered | joined =>
    exact absurd rfl hfate

lemma fates_eq (ho : s.Orderly) {token : UInt64}
    (hown : ∀ t, s.Bound t (.resolve f) → t = token) :
    s.fates f = (s.history token).filterMap (·.fateOf f) := by
  rw [history, List.filterMap_filter]
  refine List.filterMap_congr fun event hevent => ?_
  by_cases hfate : event.fateOf f = none
  · simp [hfate]
  · obtain ⟨t, hbound, hconcerns⟩ := bound_of_fate ho hevent hfate
    rw [← hown t hbound, if_pos hconcerns]

lemma Bound.mem_drawn {token : UInt64} {cb : Callback} (ho : s.Orderly) (h : s.Bound token cb) :
    token ∈ s.drawn := by
  refine (ho.life token).mem_drawn ?_
  rcases h with h | ⟨n, h⟩
  · exact List.ne_nil_of_mem (mem_history h token (by simp [CrewEvent.concerns]))
  · have hholds : s.Holds token (.call n) := ⟨cb, h⟩
    cases ho.life token with
    | drawn _ _ events => simp [events]
    | armed _ _ _ _ events => simp [events]
    | unknown _ _ idle | outstanding _ _ _ idle | invoked _ _ _ _ _ idle
      | released _ _ _ _ idle => exact absurd hholds (idle _)

lemma fates_eq_nil (ho : s.Orderly) (h : ∀ token, ¬ s.Bound token (.resolve f)) :
    s.fates f = [] := by
  refine List.filterMap_eq_nil_iff.mpr fun event hevent => ?_
  by_contra hfate
  obtain ⟨token, hbound, -⟩ := bound_of_fate ho hevent hfate
  exact h token hbound

def news (s : Crew Callback) (m : Move Callback) : List (CrewEvent Callback) :=
  (s.perform m).log.drop s.log.length

lemma log_append_news (s : Crew Callback) (m : Move Callback) :
    (s.perform m).log = s.log ++ s.news m := List.prefix_iff_eq_append.mp (log_perform s m) |>.symm

lemma fates_perform (s : Crew Callback) (m : Move Callback) (f : FutureId) :
    (s.perform m).fates f = s.fates f ++ (s.news m).filterMap (·.fateOf f) := by
  rw [fates, log_append_news, List.filterMap_append]
  rfl

lemma news_draw_fates (s : Crew Callback) (n : Nat) (cb : Callback) (f : FutureId) :
    (s.news (.draw n cb)).filterMap (·.fateOf f) = [] := by
  simp only [news, perform]
  split
  · simp [CrewEvent.fateOf, CrewEvent.fate?]
  · simp

lemma news_process_fates (s : Crew Callback) (c : Completion) (f : FutureId) :
    (s.news (.process c)).filterMap (·.fateOf f) = [] := by
  simp only [news, perform]
  split
  · simp [CrewEvent.fateOf, CrewEvent.fate?]
  · simp

lemma next_notMem_of_free {n : Nat} {cb : Callback} (free : s.calls.get? n = none)
    (ho : (s.perform (.draw n cb)).Orderly) : s.executor.registry.next ∉ s.drawn := by
  have hnodup := ho.nodup
  rw [drawn_draw free] at hnodup
  exact fun hmem => List.disjoint_of_nodup_append hnodup hmem (List.mem_singleton_self _)

lemma bound_of_drawn {m : Move Callback} (ho : (s.perform m).Orderly) {token : UInt64}
    {cb : Callback} (hdrawn : token ∈ s.drawn) (h : (s.perform m).Bound token cb) :
    s.Bound token cb := by
  rcases (perform_step s m).bound h with h | ⟨n, rfl, rfl, free⟩
  · exact h
  · exact absurd hdrawn (next_notMem_of_free free ho)

end Crew

namespace Pipeline

variable {serves : CqId → ExecutorId} {s s' : Pipeline} {f : FutureId}

lemma get?_foldl_account (events : List (CrewEvent Callback))
    (futures : Table FutureId (ExecutorId × Future)) (f : FutureId) :
    (events.foldl account futures).get? f = (futures.get? f).map fun x =>
      (x.1, (events.filterMap (·.fateOf f)).foldl Future.settle x.2) := by
  induction events generalizing futures with
  | nil =>
    rw [List.foldl_nil]
    rcases futures.get? f <;> rfl
  | cons event events ih =>
    rw [List.foldl_cons, ih]
    rcases hfate : event.fate? with - | ⟨g, fate⟩
    · have hnone : event.fateOf f = none := by simp [CrewEvent.fateOf, hfate]
      simp only [account, hfate, List.filterMap_cons_none hnone]
    · simp only [account, hfate, Table.get?_modify]
      by_cases hg : f = g
      · have hsome : event.fateOf f = some fate := by simp [CrewEvent.fateOf, hfate, hg]
        rw [if_pos hg, List.filterMap_cons_some hsome]
        rcases futures.get? f <;> rfl
      · have hnone : event.fateOf f = none := by simp [CrewEvent.fateOf, hfate, Ne.symm hg]
        rw [if_neg hg, List.filterMap_cons_none hnone]

/-- Every completion that was handed to an executor is that of a request posted under a token of the
executor. -/
lemma posting_of_accepted (hl : Ledger serves s) {e : ExecutorId} {c : Completion}
    (h : c ∈ (s.crews e).accepted) : ∃ p ∈ Device.accepted s.ops, ∃ r ∈ Device.pushed s.ops,
      serves p.cq = e ∧ p.wrId = c.wrId ∧ p.CompletedBy r ∧ r.completion = c := by
  rw [hl.taken e] at h
  obtain ⟨⟨cq, c'⟩, hx, rfl⟩ := List.mem_map.mp h
  obtain ⟨hhanded, hserves⟩ := List.mem_filter.mp hx
  have hserve : serves cq = e := of_decide_eq_true hserves
  have hring : c' ∈ ofRing cq s.polled := by
    refine Multiset.mem_map.mpr ⟨(cq, c'), Multiset.mem_filter.mpr ⟨?_, rfl⟩, rfl⟩
    exact Multiset.mem_add.mpr (Or.inl (Multiset.mem_add.mpr (Or.inl hhanded)))
  obtain ⟨dropped, hflow, -⟩ := hl.flow.flow cq
  have hpushed : c' ∈ Device.pushedTo s.ops cq := by
    rw [hflow]
    exact Multiset.mem_add.mpr (Or.inl (Multiset.mem_add.mpr (Or.inl hring)))
  obtain ⟨r, hr, rfl⟩ := List.mem_map.mp hpushed
  obtain ⟨hr, hcq⟩ := List.mem_filter.mp hr
  obtain ⟨p, hp, hcompleted⟩ := (Device.balanced s.ops).completedBy hr
  have hpcq : p.cq = cq := hcompleted.2.1.symm.trans (of_decide_eq_true hcq)
  exact ⟨p, hp, r, hr, hpcq ▸ hserve, hcompleted.2.2.1.symm, hcompleted, rfl⟩

structure Owners (s : Pipeline) : Prop where
  /-- The callback of a future is only with its executor, under its token. -/
  own : ∀ e token f, (s.crews e).Bound token (.resolve f) →
    ∃ future, s.futures.get? f = some (e, future) ∧ future.wrId = token
  /-- The token of a future was drawn for its callback. -/
  drawn : ∀ f e future, s.futures.get? f = some (e, future) →
    future.wrId ∈ (s.crews e).drawn ∧
      ∀ cb, (s.crews e).Bound future.wrId cb → cb = .resolve f
  /-- A future is what its callback made of it. -/
  settled : ∀ f e future, s.futures.get? f = some (e, future) →
    ∃ receives, future = ((s.crews e).fates f).foldl Future.settle { wrId := future.wrId, receives }
  /-- A completion is skipped only after its callback has left the registry. -/
  skipped : ∀ e c, .skipped c ∈ (s.crews e).log → 3 ≤ ((s.crews e).history c.wrId).length

lemma Owners.of_eq (h : s.Owners) (hcrews : s'.crews = s.crews)
    (hfutures : s'.futures = s.futures) : s'.Owners := by
  obtain ⟨own, drawn, settled, skipped⟩ := h
  refine ⟨?_, ?_, ?_, ?_⟩ <;> rw [hcrews] <;> try rw [hfutures]
  · exact own
  · exact drawn
  · exact settled
  · exact skipped

lemma skipped_perform (hl : Ledger serves s) (ho : s.Owners) (hcrews : ∀ e, (s.crews e).Orderly)
    {e : ExecutorId} {m : Move Callback} {c : Completion}
    (h : .skipped c ∈ ((s.crews e).perform m).log) :
    3 ≤ (((s.crews e).perform m).history c.wrId).length := by
  have hgrow := Crew.history_length_le (Crew.log_perform (s.crews e) m) c.wrId
  refine le_trans ?_ hgrow
  rcases (Crew.perform_step _ m).skipped h with hold | ⟨hnone, i, hduty⟩
  · exact ho.skipped e c hold
  · have hheld : c ∈ ((s.crews e).accepted : Multiset Completion) := by
      rw [(hcrews e).supplied.balance]
      refine Multiset.mem_add.mpr (Or.inl (Multiset.mem_add.mpr (Or.inr ?_)))
      exact (Table.mem_total (hcrews e).supplied.duties).mpr
        ⟨i, _, hduty, Multiset.mem_singleton_self c⟩
    obtain ⟨p, hp, r, -, rfl, hwr, -, -⟩ := posting_of_accepted hl hheld
    have hnoted := (hcrews _).noted.returned _ (hl.returned p hp)
    rw [hwr] at hnoted
    cases (hcrews (serves p.cq)).life c.wrId with
    | unknown events | drawn _ _ events =>
      rw [events] at hnoted
      simp at hnoted
    | outstanding _ _ present => cases hnone.symm.trans present
    | armed _ _ _ _ events | invoked _ _ _ events | released _ _ events => simp [events]

lemma crews_cases {e : ExecutorId} {m : Move Callback}
    (hcrews : s'.crews = Function.update s.crews e ((s.crews e).perform m)) (e' : ExecutorId) :
    (e' = e ∧ s'.crews e' = (s.crews e).perform m) ∨ (e' ≠ e ∧ s'.crews e' = s.crews e') := by
  by_cases he : e' = e
  · subst he
    exact Or.inl ⟨rfl, by rw [hcrews, Function.update_self]⟩
  · exact Or.inr ⟨he, by rw [hcrews, Function.update_of_ne he]⟩

namespace Owners

lemma of_move (h : s.Owners) (hl : Ledger serves s) (hs : ∀ e, (s.crews e).Orderly)
    (hs' : ∀ e, (s'.crews e).Orderly) {e : ExecutorId} {m : Move Callback}
    (hm : ∀ n f, m ≠ .draw n (.resolve f))
    (hcrews : s'.crews = Function.update s.crews e ((s.crews e).perform m))
    (hfutures : ∀ f, s'.futures.get? f = (s.futures.get? f).map fun x =>
      (x.1, (((s.crews e).news m).filterMap (·.fateOf f)).foldl Future.settle x.2)) :
    s'.Owners := by
  have hbound : ∀ e' token f, (s'.crews e').Bound token (.resolve f) →
      (s.crews e').Bound token (.resolve f) := by
    intro e' token f hb
    rcases crews_cases hcrews e' with ⟨rfl, hcrew⟩ | ⟨-, hcrew⟩ <;> rw [hcrew] at hb
    · rcases (Crew.perform_step _ _).bound hb with hb | ⟨n, hdraw, -, -⟩
      · exact hb
      · exact absurd hdraw (hm n f)
    · exact hb
  have hbefore : ∀ {f e' future'}, s'.futures.get? f = some (e', future') →
      ∃ future, s.futures.get? f = some (e', future) ∧ future' =
        (((s.crews e).news m).filterMap (·.fateOf f)).foldl Future.settle future := by
    intro f e' future' hf
    rw [hfutures f] at hf
    obtain ⟨⟨e₀, future⟩, hfuture, heq⟩ := Option.map_eq_some_iff.mp hf
    cases heq
    exact ⟨future, hfuture, rfl⟩
  refine ⟨fun e' token f hb => ?_, fun f e' future' hf => ?_, fun f e' future' hf => ?_,
    fun e' c hc => ?_⟩
  · obtain ⟨future, hfuture, hwr⟩ := h.own e' token f (hbound e' token f hb)
    refine ⟨_, by rw [hfutures f, hfuture]; rfl, ?_⟩
    rw [Future.foldl_settle_wrId, hwr]
  · obtain ⟨future, hfuture, rfl⟩ := hbefore hf
    obtain ⟨hdrawn, hcb⟩ := h.drawn f e' future hfuture
    rw [Future.foldl_settle_wrId]
    rcases crews_cases hcrews e' with ⟨rfl, hcrew⟩ | ⟨-, hcrew⟩ <;> rw [hcrew]
    · refine ⟨((Crew.log_perform _ m).sublist.filterMap _).subset hdrawn, fun cb hb => ?_⟩
      exact hcb cb (Crew.bound_of_drawn (hcrew ▸ hs' e') hdrawn hb)
    · exact ⟨hdrawn, hcb⟩
  · obtain ⟨future, hfuture, rfl⟩ := hbefore hf
    obtain ⟨receives, hsettled⟩ := h.settled f e' future hfuture
    refine ⟨receives, ?_⟩
    rw [Future.foldl_settle_wrId]
    rcases crews_cases hcrews e' with ⟨rfl, hcrew⟩ | ⟨hne, hcrew⟩
    · rw [hcrew, Crew.fates_perform, List.foldl_append, ← hsettled]
    · -- news of another executor is no news for the future
      have hnone : ((s.crews e).news m).filterMap (·.fateOf f) = [] := by
        refine List.filterMap_eq_nil_iff.mpr fun event hevent => ?_
        by_contra hfate
        have hcrewe : s'.crews e = (s.crews e).perform m := by
          rw [hcrews, Function.update_self]
        have hlog : event ∈ (s'.crews e).log := by
          rw [hcrewe]
          exact List.mem_of_mem_drop hevent
        obtain ⟨token, hb, -⟩ := Crew.bound_of_fate (hs' e) hlog hfate
        obtain ⟨future', hfuture', -⟩ := h.own e token f (hbound e token f hb)
        cases hfuture.symm.trans hfuture'
        exact hne rfl
      rw [hcrew, hnone]
      exact hsettled
  · rcases crews_cases hcrews e' with ⟨rfl, hcrew⟩ | ⟨-, hcrew⟩ <;> rw [hcrew] at hc ⊢
    · exact skipped_perform hl h hs hc
    · exact h.skipped e' c hc

lemma of_submit (h : s.Owners) (hl : Ledger serves s) (hs : ∀ e, (s.crews e).Orderly)
    (hs' : ∀ e, (s'.crews e).Orderly) {e : ExecutorId} {n : Nat} {f : FutureId} {receives : Bool}
    (new : s.futures.get? f = none) (free : (s.crews e).calls.get? n = none)
    (hcrews : s'.crews = Function.update s.crews e ((s.crews e).perform (.draw n (.resolve f))))
    (hfutures : s'.futures =
      s.futures.set f (e, { wrId := (s.crews e).executor.registry.next, receives })) :
    s'.Owners := by
  have hcrewe : s'.crews e = (s.crews e).perform (.draw n (.resolve f)) := by
    rw [hcrews, Function.update_self]
  -- the token is new, so no callback is bound to it and no event is about it
  have hnext : (s.crews e).executor.registry.next ∉ (s.crews e).drawn :=
    Crew.next_notMem_of_free free (hcrewe ▸ hs' e)
  have hself : s'.futures.get? f =
      some (e, { wrId := (s.crews e).executor.registry.next, receives }) := by
    rw [hfutures]
    exact Table.get?_set_self _ _ _
  have hother : ∀ {g}, g ≠ f → s'.futures.get? g = s.futures.get? g := fun hg => by
    rw [hfutures]
    exact Table.get?_set_of_ne _ _ hg
  have hfates : ∀ e' g, (s'.crews e').fates g = (s.crews e').fates g := by
    intro e' g
    rcases crews_cases hcrews e' with ⟨rfl, hcrew⟩ | ⟨-, hcrew⟩ <;> rw [hcrew]
    rw [Crew.fates_perform, Crew.news_draw_fates, List.append_nil]
  -- the future is new, so no callback is its own yet
  have hnone : ∀ e' token, ¬ (s.crews e').Bound token (.resolve f) := by
    intro e' token hb
    obtain ⟨future, hfuture, -⟩ := h.own e' token f hb
    cases new.symm.trans hfuture
  refine ⟨fun e' token g hb => ?_, fun g e' future hg => ?_, fun g e' future hg => ?_,
    fun e' c hc => ?_⟩
  · have hold : (s.crews e').Bound token (.resolve g) →
        ∃ future, s'.futures.get? g = some (e', future) ∧ future.wrId = token := by
      intro hb
      have hgf : g ≠ f := by
        rintro rfl
        exact hnone e' token hb
      rw [hother hgf]
      exact h.own e' token g hb
    rcases crews_cases hcrews e' with ⟨rfl, hcrew⟩ | ⟨-, hcrew⟩ <;> rw [hcrew] at hb
    · rcases (Crew.perform_step _ _).bound hb with hb | ⟨n', hdraw, rfl, -⟩
      · exact hold hb
      · cases hdraw
        exact ⟨_, hself, rfl⟩
    · exact hold hb
  · by_cases hgf : g = f
    · subst hgf
      cases hself.symm.trans hg
      rw [hcrewe]
      refine ⟨by rw [Crew.drawn_draw free]; simp, fun cb hb => ?_⟩
      rcases (Crew.perform_step _ _).bound hb with hb | ⟨n', hdraw, -, -⟩
      · exact absurd (hb.mem_drawn (hs e)) hnext
      · cases hdraw
        rfl
    · rw [hother hgf] at hg
      obtain ⟨hdrawn, hcb⟩ := h.drawn g e' future hg
      rcases crews_cases hcrews e' with ⟨rfl, hcrew⟩ | ⟨-, hcrew⟩ <;> rw [hcrew]
      · refine ⟨((Crew.log_perform _ _).sublist.filterMap _).subset hdrawn, fun cb hb => ?_⟩
        exact hcb cb (Crew.bound_of_drawn (hcrew ▸ hs' e') hdrawn hb)
      · exact ⟨hdrawn, hcb⟩
  · by_cases hgf : g = f
    · subst hgf
      cases hself.symm.trans hg
      refine ⟨receives, ?_⟩
      rw [hfates, Crew.fates_eq_nil (hs e) (hnone e)]
      rfl
    · rw [hother hgf] at hg
      rw [hfates]
      exact h.settled g e' future hg
  · rcases crews_cases hcrews e' with ⟨rfl, hcrew⟩ | ⟨-, hcrew⟩ <;> rw [hcrew] at hc ⊢
    · exact skipped_perform hl h hs hc
    · exact h.skipped e' c hc

end Owners

lemma Step.owners (h : Step serves s s') (hl : Ledger serves s) (hs : ∀ e, (s.crews e).Orderly)
    (hs' : ∀ e, (s'.crews e).Orderly) (ho : s.Owners) : s'.Owners := by
  cases h with
  | stay => exact ho
  | submit e n f receives new free => exact ho.of_submit hl hs hs' new free rfl rfl
  | crew e m free =>
    refine ho.of_move hl hs hs' (fun n f hm => ?_) rfl fun f => get?_foldl_account _ _ f
    rw [hm] at free
    cases free
  | hand i cq c rest batch taken =>
    refine ho.of_move hl hs hs' (fun n f hm => ?_) rfl fun f => ?_
    · cases hm
    · rw [Crew.news_process_fates]
      rcases s.futures.get? f <;> rfl
  | device | post | poll | lose => exact ho.of_eq rfl rfl

/-! ### Runs -/

variable {workers : ExecutorId → Nat} {acts : List Act}

lemma crews_run (serves : CqId → ExecutorId) (workers : ExecutorId → Nat) (acts : List Act)
    (e : ExecutorId) :
    ∃ moves, (run serves workers acts).crews e = Crew.run (workers e) moves := by
  induction acts using List.reverseRecOn with
  | nil => exact ⟨[], rfl⟩
  | append_singleton acts a ih =>
    obtain ⟨moves, hmoves⟩ := ih
    have hmove : ∀ {s' : Pipeline} {e' : ExecutorId} {m : Move Callback},
        s'.crews = Function.update (run serves workers acts).crews e'
          (((run serves workers acts).crews e').perform m) →
        ∃ moves, s'.crews e = Crew.run (workers e) moves := by
      intro s' e' m hcrews
      rcases crews_cases hcrews e with ⟨rfl, hcrew⟩ | ⟨-, hcrew⟩
      · exact ⟨moves ++ [m], by rw [hcrew, hmoves, Crew.run_snoc]⟩
      · exact ⟨moves, by rw [hcrew, hmoves]⟩
    rw [run_snoc]
    have hstep := perform_step serves (run serves workers acts) a
    generalize (run serves workers acts).perform serves a = s' at hstep ⊢
    cases hstep with
    | submit | crew | hand => exact hmove rfl
    | stay | device | post | poll | lose => exact ⟨moves, hmoves⟩

lemma crews_grow (serves : CqId → ExecutorId) (s : Pipeline) (a : Act) :
    CrewsGrow s (s.perform serves a) := by
  have hstep := perform_step serves s a
  generalize s.perform serves a = s' at hstep ⊢
  cases hstep with
  | submit | crew | hand => exact .of_update rfl
  | stay | device | post | poll | lose => exact .of_eq rfl

lemma drawn_length_le (serves : CqId → ExecutorId) (workers : ExecutorId → Nat) (acts : List Act)
    (e : ExecutorId) : ((run serves workers acts).crews e).drawn.length ≤ acts.length := by
  induction acts using List.reverseRecOn with
  | nil => exact le_rfl
  | append_singleton acts a ih =>
    have hmove : ∀ {s' : Pipeline} {e' : ExecutorId} {m : Move Callback},
        s'.crews = Function.update (run serves workers acts).crews e'
          (((run serves workers acts).crews e').perform m) →
        (s'.crews e).drawn.length ≤ acts.length + 1 := by
      intro s' e' m hcrews
      rcases crews_cases hcrews e with ⟨rfl, hcrew⟩ | ⟨-, hcrew⟩ <;> rw [hcrew]
      · exact ((Crew.perform_step _ m).drawn_le_succ).trans (Nat.add_le_add_right ih 1)
      · exact ih.trans (Nat.le_succ _)
    rw [run_snoc, List.length_append, List.length_singleton]
    have hstep := perform_step serves (run serves workers acts) a
    generalize (run serves workers acts).perform serves a = s' at hstep ⊢
    cases hstep with
    | submit | crew | hand => exact hmove rfl
    | stay | device | post | poll | lose => exact ih.trans (Nat.le_succ _)

lemma orderly (hbound : ∀ e, ((run serves workers acts).crews e).drawn.length < 2 ^ 64)
    (e : ExecutorId) : ((run serves workers acts).crews e).Orderly := by
  obtain ⟨moves, hmoves⟩ := crews_run serves workers acts e
  have hb := hbound e
  rw [hmoves] at hb ⊢
  exact Crew.orderly hb

lemma owners (hbound : ∀ e, ((run serves workers acts).crews e).drawn.length < 2 ^ 64) :
    (run serves workers acts).Owners := by
  induction acts using List.reverseRecOn with
  | nil =>
    refine ⟨fun e token f hb => ?_, fun _ _ _ h => (nomatch h), fun _ _ _ h => (nomatch h),
      fun _ _ h => (nomatch h)⟩
    rcases hb with hb | ⟨n, hb⟩ <;> cases hb
  | append_singleton acts a ih =>
    have hs' := orderly hbound
    have hgrow := crews_grow serves (run serves workers acts) a
    rw [run_snoc] at hbound hs' ⊢
    have hbefore : ∀ e, ((run serves workers acts).crews e).drawn.length < 2 ^ 64 := fun e =>
      (((hgrow.log e).sublist.filterMap _).length_le).trans_lt (hbound e)
    exact (perform_step serves _ a).owners (ledger serves workers acts) (orderly hbefore) hs'
      (ih hbefore)

end Pipeline

end Verbs
