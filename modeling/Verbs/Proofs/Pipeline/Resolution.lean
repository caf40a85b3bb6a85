import Mathlib.Algebra.BigOperators.Group.Multiset.Basic
import Mathlib.Tactic
import Verbs.Proofs.Pipeline.Owners

/-!
Every future is resolved by its own completion. The request of a future is at one stage on its way,
and what arrives is the one completion that the device pushed for it; a future is cancelled only
when its callback is released.
-/

namespace Verbs

namespace Pipeline

variable {serves : CqId → ExecutorId} {s : Pipeline} {f : FutureId} {e : ExecutorId}
  {future : Future}

/-! ### Fates -/

/-- A future has heard nothing, or of one completion with its token, or of one release. -/
lemma fates_cases (hs : (s.crews e).Orderly) (ho : s.Owners)
    (hf : s.futures.get? f = some (e, future)) :
    ((s.crews e).fates f = [] ∧
        (∀ c cb, .invoked c cb ∈ (s.crews e).log → c.wrId ≠ future.wrId) ∧
        ∀ cb how, .released future.wrId cb how ∉ (s.crews e).log) ∨
      (∃ c, c.wrId = future.wrId ∧ .invoked c (.resolve f) ∈ (s.crews e).log ∧
        (s.crews e).fates f = [.invoked (.resolve f) c none]) ∨
      ∃ how, .released future.wrId (.resolve f) how ∈ (s.crews e).log ∧
        (s.crews e).fates f = [.released (.resolve f)] := by
  have hown : ∀ t, (s.crews e).Bound t (.resolve f) → t = future.wrId := by
    intro t hb
    obtain ⟨future', hf', hwr⟩ := ho.own e t f hb
    cases hf.symm.trans hf'
    exact hwr.symm
  have hcb := (ho.drawn f e future hf).2
  have hfates := Crew.fates_eq hs hown
  have hinvoked : ∀ c cb, .invoked c cb ∈ (s.crews e).log → c.wrId = future.wrId →
      .invoked c cb ∈ (s.crews e).history future.wrId := fun c cb hmem hw =>
    Crew.mem_history hmem _ (by simp [CrewEvent.concerns, hw])
  cases hs.life future.wrId with
  | unknown events | drawn _ _ events | outstanding _ events | armed _ _ _ _ events =>
    refine Or.inl ⟨?_, fun c cb hmem hw => ?_, fun cb how hmem => ?_⟩
    · rw [hfates, events]
      rfl
    · have := hinvoked c cb hmem hw
      rw [events] at this
      simp at this
    · have := Crew.mem_history hmem future.wrId (by simp [CrewEvent.concerns])
      rw [events] at this
      simp at this
  | invoked cb c wrId events =>
    have hreg : .registered future.wrId cb ∈ (s.crews e).history future.wrId := by simp [events]
    cases hcb cb (Or.inl (List.mem_of_mem_filter hreg))
    have hmem : .invoked c (.resolve f) ∈ (s.crews e).history future.wrId := by simp [events]
    refine Or.inr (Or.inl ⟨c, wrId, List.mem_of_mem_filter hmem, ?_⟩)
    rw [hfates, events]
    simp [CrewEvent.fateOf, CrewEvent.fate?]
  | released cb how events =>
    have hreg : .registered future.wrId cb ∈ (s.crews e).history future.wrId := by simp [events]
    cases hcb cb (Or.inl (List.mem_of_mem_filter hreg))
    have hmem : .released future.wrId (.resolve f) how ∈ (s.crews e).history future.wrId := by
      simp [events]
    refine Or.inr (Or.inr ⟨how, List.mem_of_mem_filter hmem, ?_⟩)
    rw [hfates, events]
    simp [CrewEvent.fateOf, CrewEvent.fate?]

lemma fates_elsewhere (hs : ∀ e, (s.crews e).Orderly) (ho : s.Owners)
    (hf : s.futures.get? f = some (e, future)) {e' : ExecutorId} (he : e' ≠ e) :
    (s.crews e').fates f = [] := by
  refine Crew.fates_eq_nil (hs e') fun token hb => ?_
  obtain ⟨future', hf', -⟩ := ho.own e' token f hb
  cases hf.symm.trans hf'
  exact he rfl

/-! ### Stages -/

/-- How often a request is found at each stage of its way: itself on the device, and its completion
in its ring, with a poller, in the queue of the executor and with one of its workers. -/
def stages (serves : CqId → ExecutorId) (s : Pipeline) (p : Posting) : List Nat :=
  [(s.device.placesOf p).length,
    (s.device.entries p.cq).countP (·.wrId = p.wrId),
    (s.batches.total fun _ b => (b : Multiset (CqId × Completion))).countP
      (fun x => serves x.1 = serves p.cq ∧ x.2.wrId = p.wrId),
    (s.crews (serves p.cq)).executor.queue.items.countP (·.wrId = p.wrId),
    ((s.crews (serves p.cq)).duties.total fun _ d => d.held).countP (·.wrId = p.wrId)]

variable {p : Posting}

lemma posting_unique (hl : Ledger serves s) {p' : Posting} (hp : p ∈ Device.accepted s.ops)
    (hp' : p' ∈ Device.accepted s.ops) (he : serves p'.cq = serves p.cq)
    (hw : p'.wrId = p.wrId) : p' = p :=
  List.inj_on_of_nodup_map hl.tokens hp' hp (by rw [he, hw])

lemma countP_pushedTo (hl : Ledger serves s) (hp : p ∈ Device.accepted s.ops) :
    (Device.pushedTo s.ops p.cq).countP (·.wrId = p.wrId) =
      (Device.reportsOf s.ops p).length := by
  rw [Device.pushedTo, Multiset.coe_countP, List.countP_map, List.countP_filter,
    Device.reportsOf, ← List.countP_eq_length_filter]
  refine List.countP_congr fun r hr => ?_
  obtain ⟨p', hp', hnumber, hcq, hwr, -⟩ := (Device.balanced s.ops).completedBy hr
  simp only [Function.comp_apply, Bool.and_eq_true, decide_eq_true_eq]
  constructor
  · rintro ⟨hw, hc⟩
    have hsame : p' = p := posting_unique hl hp hp' (by rw [← hcq, hc]) (by rw [← hwr, hw])
    rw [hnumber, hsame]
  · intro hn
    have hsame : p' = p :=
      (Device.balanced s.ops).eq_of_number hp' hp (hnumber.symm.trans hn)
    rw [← hsame]
    exact ⟨hwr, hcq⟩

lemma countP_polled (hl : Ledger serves s) (hp : p ∈ Device.accepted s.ops) :
    (ofRing p.cq s.polled).countP (·.wrId = p.wrId) =
      s.polled.countP fun x => serves x.1 = serves p.cq ∧ x.2.wrId = p.wrId := by
  rw [ofRing, Multiset.countP_map, Multiset.filter_filter, ← Multiset.countP_eq_card_filter]
  refine Multiset.countP_congr rfl fun x hx => propext ⟨?_, ?_⟩
  · rintro ⟨hw, hcq⟩
    exact ⟨by rw [hcq], hw⟩
  · rintro ⟨he, hw⟩
    refine ⟨hw, ?_⟩
    obtain ⟨dropped, hflow, -⟩ := hl.flow.flow x.1
    have hring : x.2 ∈ ofRing x.1 s.polled :=
      Multiset.mem_map.mpr ⟨x, Multiset.mem_filter.mpr ⟨hx, rfl⟩, rfl⟩
    have hpushed : x.2 ∈ Device.pushedTo s.ops x.1 := by
      rw [hflow]
      exact Multiset.mem_add.mpr (Or.inl (Multiset.mem_add.mpr (Or.inl hring)))
    obtain ⟨r, hr, hc⟩ := List.mem_map.mp hpushed
    obtain ⟨hr, hrcq⟩ := List.mem_filter.mp hr
    have hrcq : r.cq = x.1 := of_decide_eq_true hrcq
    obtain ⟨p', hp', hnumber, hcq, hwr, -⟩ := (Device.balanced s.ops).completedBy hr
    have hsame : p' = p := posting_unique hl hp hp' (by rw [← hcq, hrcq, he])
      (by rw [← hwr, hc, hw])
    rw [← hrcq, hcq, hsame]

/-- Whatever was pushed for a request is somewhere, unless its ring was overrun or its executor was
shut down. -/
lemma countP_pipeline (hl : Ledger serves s) (hs : (s.crews (serves p.cq)).Orderly)
    (hp : p ∈ Device.accepted s.ops)
    (hring : ∀ ring, s.device.rings.get? p.cq = some ring → ring.overrun = false)
    (hopen : (s.crews (serves p.cq)).executor.queue.closed = false) :
    (s.stages serves p).sum + (s.crews (serves p.cq)).handled.countP (·.wrId = p.wrId) = 1 := by
  have hone := (Device.balanced s.ops).length_add_length hp
  have hpushed := countP_pushedTo hl hp
  obtain ⟨dropped, hflow, hdropped⟩ := hl.flow.flow p.cq
  obtain ⟨ring, hget⟩ := Option.isSome_iff_exists.mp (hl.flow.accepted p hp)
  rw [hflow, hdropped ring hget (hring ring hget), add_zero, Multiset.countP_add,
    countP_polled hl hp, polled, Multiset.countP_add, Multiset.countP_add] at hpushed
  have hlost : (s.lost : Multiset (CqId × Completion)).countP
      (fun x => serves x.1 = serves p.cq ∧ x.2.wrId = p.wrId) = 0 := by
    refine Multiset.countP_eq_zero.mpr fun x hx hxp => ?_
    have hclosed := hl.lost x hx
    rw [hxp.1, hopen] at hclosed
    cases hclosed
  have hhanded : (s.handed : Multiset (CqId × Completion)).countP
      (fun x => serves x.1 = serves p.cq ∧ x.2.wrId = p.wrId) =
        ((s.crews (serves p.cq)).accepted : Multiset Completion).countP (·.wrId = p.wrId) := by
    rw [hl.taken, Multiset.coe_countP, Multiset.coe_countP, List.countP_map, List.countP_filter]
    refine List.countP_congr fun x _ => ?_
    simp [and_comm]
  rw [hs.supplied.balance, Multiset.countP_add, Multiset.countP_add] at hhanded
  simp only [Multiset.coe_countP] at hpushed hlost hhanded
  rw [hlost, hhanded] at hpushed
  simp only [stages, List.sum_cons, List.sum_nil, device] at hpushed ⊢
  omega

lemma stages_sum (hl : Ledger serves s) (hs : ∀ e, (s.crews e).Orderly) (ho : s.Owners)
    (hp : p ∈ Device.accepted s.ops) (hf : s.futures.get? f = some (serves p.cq, future))
    (hw : p.wrId = future.wrId) (hpending : (s.crews (serves p.cq)).fates f = [])
    (hring : ∀ ring, s.device.rings.get? p.cq = some ring → ring.overrun = false)
    (hopen : (s.crews (serves p.cq)).executor.queue.closed = false) :
    (s.stages serves p).sum = 1 := by
  have hcrew := hs (serves p.cq)
  have hcount := countP_pipeline hl hcrew hp hring hopen
  have hnoted := hcrew.noted.returned _ (hl.returned p hp)
  obtain ⟨hinvoked, hreleased⟩ :
      (∀ c cb, .invoked c cb ∈ (s.crews (serves p.cq)).log → c.wrId ≠ p.wrId) ∧
        ∀ cb how, .released p.wrId cb how ∉ (s.crews (serves p.cq)).log := by
    rcases fates_cases hcrew ho hf with ⟨-, h⟩ | ⟨c, -, -, h⟩ | ⟨how, -, h⟩
    · rw [hw]
      exact h
    · cases hpending.symm.trans h
    · cases hpending.symm.trans h
  -- a completion that a worker is done with was run or skipped; both mean that the callback is gone
  have hhandled : ((s.crews (serves p.cq)).history p.wrId).length = 2 →
      (s.crews (serves p.cq)).handled.countP (·.wrId = p.wrId) = 0 := by
    intro hlen
    refine List.countP_eq_zero.mpr fun c hc hcw => ?_
    have hcw : c.wrId = p.wrId := of_decide_eq_true hcw
    obtain ⟨event, hevent, heq⟩ := List.mem_filterMap.mp hc
    cases event with
    | invoked c' cb =>
      cases heq
      exact hinvoked c cb hevent hcw
    | skipped c' =>
      cases heq
      have := ho.skipped _ c hevent
      rw [hcw, hlen] at this
      omega
    | _ => cases heq
  cases hcrew.life p.wrId with
  | unknown events | drawn _ _ events =>
    rw [events] at hnoted
    simp at hnoted
  | outstanding cb events =>
    have := hhandled (by rw [events]; rfl)
    omega
  | armed cb c i wrId events absent duty =>
    have hheld : 0 < ((s.crews (serves p.cq)).duties.total fun _ d => d.held).countP
        (·.wrId = p.wrId) := by
      refine Multiset.countP_pos.mpr ⟨c, ?_, wrId⟩
      exact (Table.mem_total hcrew.supplied.duties).mpr ⟨i, _, duty, Multiset.mem_singleton_self c⟩
    simp only [stages, List.sum_cons, List.sum_nil] at hcount ⊢
    omega
  | invoked cb c wrId events =>
    have hmem : .invoked c cb ∈ (s.crews (serves p.cq)).history p.wrId := by simp [events]
    exact absurd wrId (hinvoked c cb (List.mem_of_mem_filter hmem))
  | released cb how events =>
    have hmem : .released p.wrId cb how ∈ (s.crews (serves p.cq)).history p.wrId := by
      simp [events]
    exact absurd (List.mem_of_mem_filter hmem) (hreleased cb how)

/-! ### The result -/

lemma resolved_stays (s : Pipeline) (acts : List Act)
    (hf : s.futures.get? f = some (e, future)) (hresolved : future.state ≠ .pending) :
    (acts.foldl (perform serves) s).futures.get? f = some (e, future) := by
  have hsettle : ∀ fates : List Fate, fates.foldl Future.settle future = future := by
    intro fates
    induction fates with
    | nil => rfl
    | cons fate fates ih =>
      have : future.settle fate = future := by
        unfold Future.settle
        split
        · rename_i h
          exact absurd h hresolved
        · rename_i h
          exact absurd h hresolved
        · rfl
        · rfl
      rw [List.foldl_cons, this, ih]
  induction acts generalizing s with
  | nil => exact hf
  | cons a acts ih =>
    refine ih _ ?_
    have hstep := perform_step serves s a
    generalize s.perform serves a = s' at hstep ⊢
    cases hstep with
    | submit e' n g receives new free =>
      have hne : f ≠ g := by
        rintro rfl
        cases hf.symm.trans new
      exact (Table.get?_set_of_ne _ _ hne).trans hf
    | crew e' m free =>
      refine (get?_foldl_account _ _ f).trans ?_
      rw [hf, Option.map_some, hsettle]
    | stay | device | post | poll | hand | lose => exact hf

/-- A completion is the one report that was pushed for a future: for the one request that was
accepted under its token into a ring of its executor. -/
def Reports (serves : CqId → ExecutorId) (s : Pipeline) (e : ExecutorId) (future : Future)
    (c : Completion) : Prop :=
  ∃ p ∈ Device.accepted s.ops, ∃ r, serves p.cq = e ∧ p.wrId = future.wrId ∧
    (∀ p' ∈ Device.accepted s.ops, serves p'.cq = e → p'.wrId = future.wrId → p' = p) ∧
    Device.reportsOf s.ops p = [r] ∧ p.CompletedBy r ∧ r.completion = c

/-- What is known of a future that an executor is to resolve. -/
structure Resolution (serves : CqId → ExecutorId) (workers : ExecutorId → Nat) (acts : List Act)
    (f : FutureId) (e : ExecutorId) (future : Future) : Prop where
  /-- Its callback ends at most once, and with its own executor. -/
  once : (((run serves workers acts).crews e).fates f).length ≤ 1
  elsewhere : ∀ e', e' ≠ e → ((run serves workers acts).crews e').fates f = []
  stays : future.state ≠ .pending → ∀ more,
    (run serves workers (acts ++ more)).futures.get? f = some (e, future)
  unresolved : future.state = .pending → future.result? = none
  reported : ∀ c, future.state = .completed c →
    Reports serves (run serves workers acts) e future c ∧ c.wrId = future.wrId
  value : ∀ c, future.state = .completed c → c.status.isSuccess = true →
    future.result? = some (.ok
      (if future.receives then .received c.byteLen.toNat c.imm else .bytes c.byteLen.toNat))
  failure : ∀ c, future.state = .completed c → c.status.isSuccess = false →
    future.result? = some (.error (.completion future.wrId c.status))
  /-- It is told that it was cancelled once its callback was released, by someone who cancels or
  after the registry was closed. -/
  cancelled : future.state = .cancelled → future.result? = some (.error .cancelled) ∧
    ∃ how, .released future.wrId (.resolve f) how ∈ ((run serves workers acts).crews e).log ∧
      (how ≠ .cancelled →
        ((run serves workers acts).crews e).executor.registry.closed = true)
  stage : ∀ p ∈ Device.accepted (run serves workers acts).ops, serves p.cq = e →
    p.wrId = future.wrId → future.state = .pending →
    (∀ ring, (run serves workers acts).device.rings.get? p.cq = some ring → ring.overrun = false) →
    ((run serves workers acts).crews e).executor.queue.closed = false →
      ((run serves workers acts).stages serves p).sum = 1

lemma reports_of_invoked (hl : Ledger serves s) (hs : (s.crews e).Orderly) {c : Completion}
    {cb : Callback} (hinvoked : .invoked c cb ∈ (s.crews e).log) (hwr : c.wrId = future.wrId) :
    Reports serves s e future c := by
  have haccepted : c ∈ (s.crews e).accepted :=
    Crew.mem_accepted.mpr (Crew.accepted_of_invoked hs.supplied hinvoked)
  obtain ⟨p, hp, r, hr, rfl, hpw, hcompletedBy, hrc⟩ := posting_of_accepted hl haccepted
  refine ⟨p, hp, r, rfl, hpw.trans hwr, fun p' hp' he hw => ?_, ?_, hcompletedBy, hrc⟩
  · exact posting_unique hl hp hp' he (hw.trans (hpw.trans hwr).symm)
  · exact (Device.balanced s.ops).reportsOf_eq hp hr hcompletedBy.1

/-- **Every future is resolved by its own completion.** In a run that draws fewer tokens than there
are, the callback of a future ends at most once, and a future that is resolved stays so. A future
that is pending has no result. What completes it is the one report that was pushed for the one
request under its token, and it yields a value exactly if that was a success; it is cancelled only
when its callback is released, by someone who cancels or after the registry was closed. As long as
it is pending, the ring of its request not overrun and its executor not shut down, its request is at
exactly one stage. -/
theorem resolved_by_own_completion (serves : CqId → ExecutorId) (workers : ExecutorId → Nat)
    (acts : List Act) (hbound : ∀ e, ((run serves workers acts).crews e).drawn.length < 2 ^ 64)
    (f : FutureId) (e : ExecutorId) (future : Future)
    (hf : (run serves workers acts).futures.get? f = some (e, future)) :
    Resolution serves workers acts f e future := by
  have hs : ∀ e, ((run serves workers acts).crews e).Orderly := orderly hbound
  have ho : (run serves workers acts).Owners := owners hbound
  have hl : Ledger serves (run serves workers acts) := ledger serves workers acts
  obtain ⟨receives, hsettled⟩ := ho.settled f e future hf
  have hstays : future.state ≠ .pending → ∀ more,
      (run serves workers (acts ++ more)).futures.get? f = some (e, future) := by
    intro hresolved more
    rw [run, List.foldl_append]
    exact resolved_stays _ more hf hresolved
  have helsewhere : ∀ e', e' ≠ e → ((run serves workers acts).crews e').fates f = [] :=
    fun e' he => fates_elsewhere hs ho hf he
  rcases fates_cases (hs e) ho hf with ⟨hnone, -⟩ | ⟨c, hwr, hinvoked, hone⟩ |
    ⟨how, hreleased, hone⟩
  · have hpending : future.state = .pending := by
      rw [hsettled, hnone]
      rfl
    have hopen : ∀ c, future.state ≠ .completed c := by simp [hpending]
    exact
      { once := by simp [hnone]
        elsewhere := helsewhere
        stays := hstays
        unresolved := fun _ => by simp [Future.result?, hpending]
        reported := fun c hc => absurd hc (hopen c)
        value := fun c hc => absurd hc (hopen c)
        failure := fun c hc => absurd hc (hopen c)
        cancelled := by simp [hpending]
        stage := by
          rintro p hp rfl hw - hring hrunning
          exact stages_sum hl hs ho hp hf hw hnone hring hrunning }
  · have hcompleted : future.state = .completed c := by
      rw [hsettled, hone]
      rfl
    have hresolved : future.state ≠ .pending := by simp [hcompleted]
    have hsame : ∀ c', future.state = .completed c' → c' = c := fun c' hc' =>
      FutureState.completed.inj (hc'.symm.trans hcompleted)
    exact
      { once := by simp [hone]
        elsewhere := helsewhere
        stays := hstays
        unresolved := (absurd · hresolved)
        reported := fun c' hc' => hsame c' hc' ▸ ⟨reports_of_invoked hl (hs e) hinvoked hwr, hwr⟩
        value := by
          intro c' hc' hsuccess
          simp [Future.result?, hc', Completion.result, hsuccess]
        failure := by
          intro c' hc' hfailure
          obtain rfl := hsame c' hc'
          simp [Future.result?, hc', Completion.result, hfailure, hwr]
        cancelled := by simp [hcompleted]
        stage := fun p _ _ _ hpending => absurd hpending hresolved }
  · have hcancelled : future.state = .cancelled := by
      rw [hsettled, hone]
      rfl
    have hresolved : future.state ≠ .pending := by simp [hcancelled]
    have hopen : ∀ c, future.state ≠ .completed c := by simp [hcancelled]
    exact
      { once := by simp [hone]
        elsewhere := helsewhere
        stays := hstays
        unresolved := (absurd · hresolved)
        reported := fun c hc => absurd hc (hopen c)
        value := fun c hc => absurd hc (hopen c)
        failure := fun c hc => absurd hc (hopen c)
        cancelled := fun _ => ⟨by simp [Future.result?, hcancelled], how, hreleased,
          (hs e).ended _ _ how hreleased⟩
        stage := fun p _ _ _ hpending => absurd hpending hresolved }

/-- A receive and a message that a queue pair sends itself, up to the callback of the receive. -/
def trip : List Act :=
  [.device .addFabric, .device (.openNic 0 {}), .device (.createCq {} 8),
    .device (.createQp ⟨1, some 2, some 2, {}, 0⟩), .device (.connect 3 ⟨1, 1, 0⟩),
    .submit 0 0 7 true, .crew 0 (.insert 0), .crew 0 (.check 0), .post 3 1 (.recv []),
    .crew 0 (.draw 0 (.labelled "sent" .note)), .crew 0 (.insert 0), .crew 0 (.check 0),
    .post 3 2 (.send [] (.send none)), .poll 0 2 16, .hand 0, .crew 0 (.pop 0), .crew 0 (.take 0),
    .crew 0 (.invoke 0)]

def calledOff : List Act := trip.take 8 ++ [.crew 0 (.cancel 1)]

/-- Before the completion comes, when its callback has run, and where it was cancelled instead. -/
theorem resolved_by_own_completion_trip :
    let s := run (fun _ => 0) (fun _ => 1) trip
    let c : Completion := { wrId := 1, opcode := .recv }
    (∀ e, (s.crews e).drawn.length < 2 ^ 64) ∧
    (Future.mk 1 true .pending).result? = none ∧
    s.futures.get? 7 = some (0, ⟨1, true, .completed c⟩) ∧
    (∃ p ∈ Device.accepted s.ops, ∃ r, Device.reportsOf s.ops p = [r] ∧ r.completion = c) ∧
    (Future.mk 1 true (.completed c)).result? = some (.ok (.received 0 none)) ∧
    (∀ more, (run (fun _ => 0) (fun _ => 1) (trip ++ more)).futures.get? 7 =
      some (0, ⟨1, true, .completed c⟩)) ∧
    (Future.mk 1 true .cancelled).result? = some (.error .cancelled) := by
  have hbound : ∀ acts : List Act, acts.length < 2 ^ 64 → ∀ e,
      ((run (fun _ => 0) (fun _ => 1) acts).crews e).drawn.length < 2 ^ 64 :=
    fun acts hlength e => (drawn_length_le (fun _ => 0) (fun _ => 1) acts e).trans_lt hlength
  have hcompleted : (run (fun _ => 0) (fun _ => 1) trip).futures.get? 7 =
      some (0, ⟨1, true, .completed { wrId := 1, opcode := .recv }⟩) := by decide
  have done := resolved_by_own_completion (fun _ => 0) (fun _ => 1) trip (hbound _ (by decide))
    7 0 _ hcompleted
  have waiting := resolved_by_own_completion (fun _ => 0) (fun _ => 1) (trip.take 12)
    (hbound _ (by decide)) 7 0 ⟨1, true, .pending⟩ (by decide)
  have released := resolved_by_own_completion (fun _ => 0) (fun _ => 1) calledOff
    (hbound _ (by decide)) 7 0 ⟨1, true, .cancelled⟩ (by decide)
  obtain ⟨p, hp, r, -, -, -, hr, -, hc⟩ := (done.reported _ rfl).1
  exact ⟨hbound _ (by decide), waiting.unresolved rfl, hcompleted, ⟨p, hp, r, hr, hc⟩,
    done.value _ rfl rfl, done.stays (by decide), (released.cancelled rfl).1⟩

end Pipeline

end Verbs
