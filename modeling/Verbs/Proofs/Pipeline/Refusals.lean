import Mathlib.Tactic
import Verbs.Proofs.Device.Lifecycle
import Verbs.Proofs.Executor.Growth
import Verbs.Proofs.Pipeline.Alone
import Verbs.Proofs.Setup.Attempts
import Verbs.Session.Requests

/-!
Requests that are refused. The callback of a request is registered before the request is posted, so
a refusal has something to undo: the callback is taken back, and the only thing left of it is the
number that it used up. What a refusal looks at are the length of the list of windows, the state of
the queue pair and, for a receive, whether it would have to wait where no more may.
-/

namespace Verbs

/-- Whether a queue pair refuses a request. A receive waits only if no message does, so a full queue
does not keep a receive from taking a message that is there. -/
def Work.Refusable (q : QueuePair) : Work → Prop
  | .send sgl _ => q.caps.maxSendSge.toNat < sgl.length ∨ q.state = .reset
  | .recv sgl => q.caps.maxRecvSge.toNat < sgl.length ∨ q.state = .reset ∨
      q.state = .rts ∧ q.inbox = [] ∧ q.recvs.length = q.caps.maxRecvWr.toNat

/-- What is left of a request that was refused: its callback is released, once, and everything is as
it was but for the number that is spent. -/
structure Submission.Undone {κ : Type} (s : Submission κ) (d : Device) (e : Executor κ) (qp : QpId)
    (cb : κ) : Prop where
  released : s.released = [cb]
  executor : s.executor = { e with registry.next := e.registry.next + 1 }
  source : s.source = .device qp
  device : s.device = d

variable {κ : Type} {e : Executor κ} {d : Device} {qp : QpId} {q : QueuePair}

/-! ### The callback -/

/-- A callback that is registered under a new token and taken back is released once, by whichever of
the two calls finds it. -/
lemma Executor.cancel_register (cb : κ)
    (hnew : e.registry.callbacks.get? e.registry.next = none) :
    let (token, early, registered) := e.register cb
    let (cancelled, after) := registered.cancel token
    early.toList ++ cancelled.toList = [cb] ∧
      after = { e with registry.next := e.registry.next + 1 } := by
  rcases hclosed : e.registry.closed with - | -
  · simp [register, cancel, Registry.insert, Registry.store, Registry.draw, Registry.put,
      Registry.take, hclosed, Table.erase_set hnew]
  · simp [register, cancel, Registry.insert, Registry.store, Registry.draw, Registry.put,
      Registry.take, hclosed, Table.erase_set hnew, hnew]

lemma Crew.callbacks_next {workers : Nat} {moves : List (Move κ)}
    (hbound : (Crew.run workers moves).drawn.length + 1 < 2 ^ 64) :
    let registry := (Crew.run workers moves).executor.registry
    registry.callbacks.get? registry.next = none := by
  intro registry
  have horderly := Crew.orderly ((Nat.lt_succ_self _).trans hbound)
  have hhistory : (Crew.run workers moves).history registry.next = [] := by
    by_contra hevents
    exact horderly.desk.next_notMem hbound ((horderly.life _).mem_drawn hevents)
  cases horderly.life registry.next with
  | outstanding _ events => cases hhistory.symm.trans events
  | unknown _ absent _ | drawn _ _ _ absent | armed _ _ _ _ _ absent | invoked _ _ _ _ absent
    | released _ _ _ absent => exact absent

/-- Submitting comes down to posting: what is posted is the number of the callback, and what comes
of it decides whether the callback stays. -/
lemma QpSource.submit_cases (d : Device) (qp : QpId) (cb : κ) (w : Work)
    (hnew : e.registry.callbacks.get? e.registry.next = none) :
    let done := (QpSource.device qp).submit d e cb w
    let posted := (QpSource.device qp).post d e.registry.next w
    (∃ after, posted = .ok after ∧ done.result = .ok e.registry.next) ∨
      ∃ error, posted = .error error ∧ done.result = .error error ∧ done.Undone d e qp cb := by
  intro done posted
  have htoken : (e.register cb).1 = e.registry.next := Executor.register_fst e cb
  have hcancel := Executor.cancel_register cb hnew
  rcases hregister : e.register cb with ⟨token, early, registered⟩
  rw [hregister] at htoken hcancel
  simp only at htoken hcancel
  subst htoken
  rcases hposted : posted with error | ⟨source, device⟩
  · have hdone : done = ⟨.error error,
        early.toList ++ (registered.cancel e.registry.next).1.toList,
        (registered.cancel e.registry.next).2, .device qp, d⟩ := by
      simp only [done, submit, hregister, show QpSource.post d _ w _ = _ from hposted]
    rw [hdone]
    exact Or.inr ⟨error, rfl, rfl, hcancel.1, hcancel.2, rfl, rfl⟩
  · refine Or.inl ⟨_, rfl, ?_⟩
    simp only [done, submit, hregister, show QpSource.post d _ w _ = _ from hposted]

/-! ### The request -/

lemma QpSource.post_error_iff (token : UInt64) (hq : d.qps.get? qp = some q) (hproper : q.Proper)
    (hfit : q.Fit) (w : Work) :
    (∃ error, (QpSource.device qp).post d token w = .error error) ↔ w.Refusable q := by
  cases w with
  | send sgl op =>
    rw [Work.Refusable, ← Device.postSend_error_iff (w := ⟨token, sgl, op⟩) hq hproper hfit]
    simp only [QpSource.post]
    cases d.postSend qp ⟨token, sgl, op⟩ <;> simp [Except.map]
  | recv sgl =>
    rw [Work.Refusable, ← Device.postRecv_error_iff (w := ⟨token, sgl⟩) hq hproper hfit]
    simp only [QpSource.post]
    cases d.postRecv qp ⟨token, sgl⟩ <;> simp [Except.map]

/-! ### The session -/

namespace Session

variable {x : Session} {name : String} {h : QpHandle} {id : ExecutorId} {ne : NamedExecutor}

lemma get_run : (get : Act Session).run.run x = (.ok x, x) := rfl

lemma modify_run (f : Session → Session) : (modify f : Act Unit).run.run x = (.ok (), f x) := rfl

lemma find_run {α β : Type} [DecidableEq α] {names : Session → Table α β} {key : α} {text : String}
    {b : β} (hfound : (names x).get? key = some b) :
    (find names key text).run.run x = (.ok b, x) := by
  refine (run_bind get_run).trans ?_
  rw [hfound]
  rfl

lemma orRefuse_run {ε α : Type} (refusal : ε → Refusal) (result : Except ε α) :
    (orRefuse refusal result).run.run x = (result.mapError refusal, x) := by
  cases result <;> rfl

lemma submitCallback_run (hname : x.qps.get? name = some h) (hexecutor : h.executor = some id)
    (hfound : x.executors.get? id = some ne) (w : Work) (cb : Callback) :
    let done := h.link.source.submit x.device ne.executor cb w
    (submitCallback name w cb).run.run x =
      (done.result.mapError (.error ∘ .post),
        accountAll id ne (done.released.map .released) done.executor
          { x with
            device := done.device
            qps := x.qps.modify name fun h =>
              { h with link := { h.link with source := done.source } } }) := by
  intro done
  have hqp : (qpHandle name).run.run x = (.ok h, x) := find_run hname
  have hne : (executor id).run.run x = (.ok ne, x) := find_run hfound
  refine (run_bind hqp).trans ?_
  simp only [hexecutor]
  refine (run_bind hne).trans ((run_bind get_run).trans ?_)
  refine (run_bind (modify_run _)).trans ((run_bind (modify_run _)).trans ?_)
  refine (run_bind (modify_run _)).trans ?_
  exact orRefuse_run _ _

lemma get?_modify_source {qps : Table String QpHandle} (hname : qps.get? name = some h)
    {source : QpSource} (hsource : h.link.source = source) (other : String) :
    (qps.modify name fun h => { h with link := { h.link with source } }).get? other =
      qps.get? other := by
  rw [Table.get?_modify]
  split
  · rename_i heq
    subst heq hsource
    rw [hname]
    rfl
  · rfl

lemma submitCallback_undone (hname : x.qps.get? name = some h) (hexecutor : h.executor = some id)
    (hfound : x.executors.get? id = some ne) {w : Work} {cb : Callback} {qp : QpId}
    (hsource : h.link.source = .device qp)
    (hundone : (h.link.source.submit x.device ne.executor cb w).Undone x.device ne.executor qp cb) :
    ∃ qps, (∀ other, Table.get? qps other = x.qps.get? other) ∧
      ((submitCallback name w cb).run.run x).2 =
        accountAll id ne [.released cb] (h.link.source.submit x.device ne.executor cb w).executor
          { x with qps } := by
  refine ⟨_, get?_modify_source hname hsource, ?_⟩
  rw [submitCallback_run hname hexecutor hfound w cb, hundone.released, hundone.source,
    hundone.device]
  rfl

end Session

namespace Device

/-- **A refused request leaves no trace.** In every state of a device and of an executor with tokens
left, a queue pair refuses a request exactly if its list of windows is too long, the queue pair is
not connected, or it is a receive that would have to wait where the queue is full. Then the new
callback is released, once and without being run; the device, with its memory, its completion rings
and all that waits at queue pairs, is what it was, and so are the executor and its callbacks. In a
session the caller is told the error of the post, and nothing else happens. -/
theorem refused_without_trace (ops : List Operation) (workers : Nat) (moves : List (Move Callback))
    (hbound : (Crew.run workers moves).drawn.length + 1 < 2 ^ 64) (qp : QpId) (q : QueuePair)
    (hq : (run ops).qps.get? qp = some q) (cb : Callback) (w : Work) :
    let e := (Crew.run workers moves).executor
    let done := (QpSource.device qp).submit (run ops) e cb w
    ((∃ error, done.result = .error error) ↔ w.Refusable q) ∧
      ((∃ error, done.result = .error error) → done.Undone (run ops) e qp cb) ∧
      ∀ (x : Session) (name : String) (h : Session.QpHandle) (id : ExecutorId)
        (ne : Session.NamedExecutor), x.device = run ops → x.qps.get? name = some h →
        h.link.source = .device qp → h.executor = some id → x.executors.get? id = some ne →
        ne.executor = e →
        let called := (Session.submitCallback name w cb).run.run x
        called.1 = done.result.mapError (.error ∘ .post) ∧
          ((∃ error, done.result = .error error) →
            ∃ qps, (∀ other, Table.get? qps other = x.qps.get? other) ∧
              called.2 = Session.accountAll id ne [.released cb] done.executor { x with qps }) := by
  intro e done
  have hsubmit := QpSource.submit_cases (run ops) qp cb w (Crew.callbacks_next hbound)
  have hundone : (∃ error, done.result = .error error) → done.Undone (run ops) e qp cb := by
    rintro ⟨error, hresult⟩
    rcases hsubmit with ⟨_, _, hok⟩ | ⟨_, _, _, hundone⟩
    · cases hok.symm.trans hresult
    · exact hundone
  refine ⟨?_, hundone, ?_⟩
  · rw [← QpSource.post_error_iff e.registry.next hq (proper ops qp q hq)
      (fit ops qp q hq)]
    rcases hsubmit with ⟨after, hposted, hresult⟩ | ⟨error, hposted, hresult, -⟩
    · refine ⟨fun ⟨_, hrefused⟩ => ?_, fun ⟨_, hrefused⟩ => ?_⟩
      · cases hresult.symm.trans hrefused
      · cases hposted.symm.trans hrefused
    · exact ⟨fun _ => ⟨error, hposted⟩, fun _ => ⟨error, hresult⟩⟩
  · intro x name h id ne hdevice hname hsource hexecutor hfound he
    have hsame : h.link.source.submit x.device ne.executor cb w = done := by
      rw [hsource, hdevice, he]
    have hanswer := congrArg Prod.fst (Session.submitCallback_run hname hexecutor hfound w cb)
    rw [hsame] at hanswer
    refine ⟨hanswer, fun hrefused => ?_⟩
    rw [← hsame]
    refine Session.submitCallback_undone hname hexecutor hfound hsource ?_
    rw [hsame, hdevice, he]
    exact hundone hrefused

def saturated : List Operation :=
  [.addFabric, .openNic 0 {}, .createCq {} 8,
    .createQp ⟨1, some 2, some 2, { maxRecvWr := 1 }, 0⟩, .connect 3 ⟨1, 1, 0⟩,
    .postRecv 3 ⟨1, []⟩]

def oneWaiting : List (Move Callback) :=
  [.draw 0 (.labelled "first" .note), .insert 0, .check 0]

def queueing : Session where
  device := run saturated
  qps := ⟨[("qp", { link := { source := .device 3 }, executor := some 1 })]⟩
  executors := ⟨[(1, ⟨"executor", (Crew.run 1 oneWaiting).executor⟩)]⟩

theorem refused_without_trace_saturated :
    let e := (Crew.run 1 oneWaiting).executor
    let cb := .labelled "second" .note
    let done := (QpSource.device 3).submit (run saturated) e cb (.recv [])
    let called := (Session.submitCallback "qp" (.recv []) cb).run.run queueing
    e.pending = 1 ∧ (∃ error, done.result = .error error) ∧ done.Undone (run saturated) e 3 cb ∧
      called.1 = done.result.mapError (.error ∘ .post) ∧ called.2.device = run saturated := by
  intro e cb done called
  obtain ⟨q, hq, hrefusable⟩ : ∃ q, (run saturated).qps.get? 3 = some q ∧
      Work.Refusable q (.recv []) := ⟨_, rfl, Or.inr (Or.inr ⟨rfl, rfl, rfl⟩)⟩
  obtain ⟨hrefuses, hundone, hsession⟩ :=
    refused_without_trace saturated 1 oneWaiting (by decide) 3 q hq cb (.recv [])
  have hrefused := hrefuses.mpr hrefusable
  obtain ⟨hanswer, hleft⟩ := hsession queueing "qp" _ 1 _ rfl rfl rfl rfl rfl rfl
  obtain ⟨qps, -, hcalled⟩ := hleft hrefused
  exact ⟨rfl, hrefused, hundone hrefused, hanswer, congrArg Session.device hcalled⟩

end Device

end Verbs
