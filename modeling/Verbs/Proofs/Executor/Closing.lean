import Mathlib.Tactic
import Verbs.Proofs.Executor.Crew
import Verbs.Proofs.Registry.Desk

/-!
What the registry of a crew goes through. Calls that register insert a callback, calls that join
close the registry, and whoever else takes a callback out, a worker or one who cancels, does so in a
single step.
-/

namespace Verbs

namespace Executor

variable {κ : Type} (e : Executor κ) (token : UInt64)

lemma cancel_fst : (e.cancel token).1 = e.registry.callbacks.get? token :=
  e.registry.take_fst token

lemma get?_cancel (t : UInt64) : (e.cancel token).2.registry.callbacks.get? t =
    if t = token then none else e.registry.callbacks.get? t :=
  e.registry.get?_take token t

@[simp] lemma cancel_queue : (e.cancel token).2.queue = e.queue := by
  simp only [cancel, Registry.take]

@[simp] lemma cancel_closed : (e.cancel token).2.registry.closed = e.registry.closed :=
  e.registry.take_closed token

end Executor

variable {κ : Type}

/-- Whether a call has stored the callback with a token and is not done with it. -/
def Call.registers (token : UInt64) : Call κ → Bool
  | .checking t | .revoking t => t = token
  | _ => false

def Call.stage : Call κ → Option Desk.Stage
  | .checking token => some (.checking token)
  | .revoking token => some (.revoking token)
  | .closing => some .marked
  | .visiting present _ => some (.looking present)
  | .emptying seen => some (.emptying seen)
  | .storing _ _ | .awaiting _ => none

namespace Crew

variable {s s' : Crew κ} {m : Move κ} {n : Nat} {c : Call κ} {token : UInt64}

def drawn (s : Crew κ) : List UInt64 :=
  s.log.filterMap fun
    | .drew token => some token
    | _ => none

def desk (s : Crew κ) : Desk κ :=
  ⟨s.executor.registry, s.drawn, fun n => (s.calls.get? n).bind Call.stage⟩

/-! ### Steps of the registry -/

lemma stage_of_get? {call : Option (Call κ)} (h : s.calls.get? n = call) :
    s.desk.stage n = call.bind Call.stage := congrArg (·.bind Call.stage) h

lemma desk_of_eq (hd : s'.drawn = s.drawn) (hc : s'.calls = s.calls)
    (h : s.desk.Step ⟨s'.executor.registry, s.drawn, s.desk.stage⟩) : s.desk.Step s'.desk := by
  have hstage : s'.desk.stage = s.desk.stage := congrArg (fun t n => (t.get? n).bind Call.stage) hc
  rwa [← hd, ← hstage] at h

lemma desk_of_set {tokens : List UInt64} (hd : s'.drawn = tokens)
    (hc : s'.calls = s.calls.set n c)
    (h : s.desk.Step ⟨s'.executor.registry, tokens, Function.update s.desk.stage n c.stage⟩) :
    s.desk.Step s'.desk := by
  have hstage : s'.desk.stage = Function.update s.desk.stage n c.stage := by
    funext k
    show (s'.calls.get? k).bind Call.stage = _
    rw [hc, Function.update_apply, Table.get?_set]
    split <;> rfl
  rwa [← hd, ← hstage] at h

lemma desk_of_same {tokens : List UInt64} (hd : s'.drawn = tokens)
    (hc : s'.calls = s.calls.set n c) (hstage : s.desk.stage n = c.stage)
    (h : s.desk.Step ⟨s'.executor.registry, tokens, s.desk.stage⟩) : s.desk.Step s'.desk :=
  desk_of_set hd hc (by rwa [← hstage, Function.update_eq_self])

lemma desk_of_erase (hd : s'.drawn = s.drawn) (hc : s'.calls = s.calls.erase n)
    (h : s.desk.Step ⟨s'.executor.registry, s.drawn, Function.update s.desk.stage n none⟩) :
    s.desk.Step s'.desk := by
  have hstage : s'.desk.stage = Function.update s.desk.stage n none := by
    funext k
    show (s'.calls.get? k).bind Call.stage = _
    rw [hc, Function.update_apply, Table.get?_erase]
    split <;> rfl
  rwa [← hd, ← hstage] at h

/-- Every step of a crew is a step of its registry, if only to stay as it is. -/
lemma Step.desk (h : Step s m s') : s.desk.Step s'.desk := by
  cases h with
  | stay => exact .stay
  | draw n cb free =>
    exact desk_of_same (by simp [drawn, Crew.desk]) rfl (stage_of_get? free) .draw
  | insert n t cb call =>
    exact desk_of_set (by simp [drawn, Crew.desk]) rfl (.store n t cb (stage_of_get? call))
  | late n t call closed => exact desk_of_set rfl rfl (.late n t (stage_of_get? call) closed)
  | keep n t call isOpen =>
    exact desk_of_erase (by simp [drawn]) rfl (.keep n t (stage_of_get? call) isOpen)
  | revoke n t call =>
    exact desk_of_erase (by simp [drawn]) rfl (.revoke n t (stage_of_get? call))
  | cancel t => exact desk_of_eq (by simp [drawn]) rfl (.take t)
  | join n caller free made => exact desk_of_same rfl rfl (stage_of_get? free) .stay
  | await n i rest call exited => exact desk_of_same rfl rfl (stage_of_get? call) .stay
  | shut n call => exact desk_of_set rfl rfl (.mark n (stage_of_get? call))
  | look n call => exact desk_of_set rfl rfl (.look n (stage_of_get? call))
  | visit n t present seen call => exact desk_of_same rfl rfl (stage_of_get? call) .stay
  | gather n present seen call covered =>
    exact desk_of_set rfl rfl (.gather n present seen (stage_of_get? call) covered)
  | release n t rest call =>
    exact desk_of_set (by simp [drawn, Crew.desk]) rfl (.remove n t rest (stage_of_get? call))
  | leave n call => exact desk_of_erase (by simp [drawn]) rfl (.leave n (stage_of_get? call))
  | arm i c cb duty found => exact desk_of_eq (by simp [drawn]) rfl (.take c.wrId)
  | skip i c duty missing => exact desk_of_eq (by simp [drawn]) rfl (.take c.wrId)
  | shutdown | pop | exit => exact desk_of_eq rfl rfl .stay
  | process | invoke => exact desk_of_eq (by simp [drawn]) rfl .stay
  | finish i breaks duty => exact desk_of_eq (by cases breaks <;> simp [drawn]) rfl .stay

lemma reached (workers : Nat) (moves : List (Move κ)) : (run workers moves).desk.Reached := by
  induction moves using List.reverseRecOn with
  | nil => exact .start
  | append_singleton moves m ih =>
    rw [run_snoc]
    exact .step ih (perform_step _ m).desk

lemma Step.log_grows (h : Step s m s') : s.log <+: s'.log := by
  cases h with
  | stay | late | shutdown | join | await | shut | look | visit | gather | pop | exit =>
    exact List.prefix_rfl
  | draw | insert | keep | revoke | cancel | process | release | leave | arm | skip | invoke
    | finish => exact List.prefix_append _ _

lemma Step.drawn_le (h : Step s m s') : s.drawn.length ≤ s'.drawn.length :=
  (h.log_grows.sublist.filterMap _).length_le

/-! ### Calls that join -/

def Registering (s : Crew κ) (token : UInt64) : Prop :=
  ∃ n c, s.calls.get? n = some c ∧ c.registers token

/-- A call that joins takes out whatever is there, apart from what is being registered. -/
structure Closing (s : Crew κ) : Prop where
  desk : s.desk.Closing
  joined : .joined ∈ s.log → s.executor.registry.closed = true ∧ s.desk.Covered []

lemma Closing.closed {g : Desk.Stage} (h : s.Closing) (call : s.calls.get? n = some c)
    (hg : c.stage = some g) (hcloses : g.closes = true) : s.executor.registry.closed = true :=
  h.desk.closed n g ((stage_of_get? call).trans hg) hcloses

lemma Step.joined (h : Step s m s') (hj : .joined ∈ s'.log) :
    .joined ∈ s.log ∨ ∃ n, s.calls.get? n = some (.emptying []) := by
  refine (h.notes hj).imp_right fun hnew => ?_
  cases hnew with
  | joined n call => exact ⟨n, call⟩

lemma closing (workers : Nat) (moves : List (Move κ)) : (run workers moves).Closing := by
  refine ⟨(reached workers moves).closing, ?_⟩
  induction moves using List.reverseRecOn with
  | nil => exact nofun
  | append_singleton moves m ih =>
    have hstep := perform_step (run workers moves) m
    have hbefore : (run workers moves).Closing := ⟨(reached workers moves).closing, ih⟩
    rw [run_snoc]
    intro hj
    have hdone : (run workers moves).executor.registry.closed = true ∧
        (run workers moves).desk.Covered [] := by
      rcases hstep.joined hj with hj | ⟨n, call⟩
      · exact ih hj
      · exact ⟨hbefore.closed call rfl rfl,
          hbefore.desk.covered n _ [] (stage_of_get? call) rfl⟩
    exact ⟨hstep.desk.closed hdone.1, hstep.desk.covered hdone.1 hdone.2⟩

/-- What was released without being cancelled was released after the registry was closed. -/
def Ended (s : Crew κ) : Prop :=
  ∀ token cb how, .released token cb how ∈ s.log → how ≠ .cancelled →
    s.executor.registry.closed = true

lemma Step.ended (h : Step s m s') (hc : s.Closing) (he : s.Ended) : s'.Ended := by
  intro token cb how hmem hhow
  refine h.desk.closed ?_
  rcases h.notes hmem with hmem | hnew
  · exact he token cb how hmem hhow
  · cases hnew with
    | late n t cb call found => exact hc.closed call rfl rfl
    | cancelled => exact absurd rfl hhow
    | released n t rest cb call found => exact hc.closed call rfl rfl

lemma ended (workers : Nat) (moves : List (Move κ)) : (run workers moves).Ended := by
  induction moves using List.reverseRecOn with
  | nil => exact fun _ _ _ h => (nomatch h)
  | append_singleton moves m ih =>
    rw [run_snoc]
    exact (perform_step _ m).ended (closing workers moves) ih

end Crew

end Verbs
