import Mathlib.Tactic
import Verbs.Proofs.Executor.Disposal

/-!
What a step adds to what was noted of a crew: where registrations and skipped completions come from,
and what stays as it is from one step to the next.
-/

namespace Verbs.Crew

variable {κ : Type} {s s' : Crew κ} {m : Move κ} {token : UInt64} {cb : κ}

lemma log_perform (s : Crew κ) (m : Move κ) : s.log <+: (s.perform m).log :=
  (perform_step s m).log_grows

lemma history_length_le (h : s.log <+: s'.log) (token : UInt64) :
    (s.history token).length ≤ (s'.history token).length :=
  (h.sublist.filter _).length_le

lemma Step.queue_closed (h : Step s m s') (hclosed : s.executor.queue.closed = true) :
    s'.executor.queue.closed = true := by
  cases h with
  | shutdown => rfl
  | revoke | cancel | release | arm | skip => rw [Executor.cancel_queue, hclosed]
  | _ => exact hclosed

lemma Step.accepted_eq (h : Step s m s') (hm : ∀ c, m ≠ .process c) : s'.accepted = s.accepted := by
  cases h with
  | process c isOpen => exact absurd rfl (hm c)
  | stay | late | shutdown | join | await | shut | look | visit | gather | pop | exit => rfl
  | finish i breaks duty => cases breaks <;> simp [accepted]
  | draw | insert | keep | revoke | cancel | release | leave | arm | skip | invoke =>
    simp [accepted]

lemma accepted_process {c : Completion} (h : (s.executor.process? c).isSome) :
    (s.perform (.process c)).accepted = s.accepted ++ [c] := by
  obtain ⟨executor, he⟩ := Option.isSome_iff_exists.mp h
  simp [perform, he, accepted]

/-! ### Registrations -/

def Bound (s : Crew κ) (token : UInt64) (cb : κ) : Prop :=
  .registered token cb ∈ s.log ∨ ∃ n, s.calls.get? n = some (.storing token cb)

/-- A callback comes under a token when the token is drawn for it. -/
lemma Step.bound (h : Step s m s') (hb : s'.Bound token cb) : s.Bound token cb ∨
    ∃ n, m = .draw n cb ∧ token = s.executor.registry.next ∧ s.calls.get? n = none := by
  rcases hb with hmem | ⟨j, hj⟩
  · rcases h.notes hmem with hmem | hnew
    · exact Or.inl (Or.inl hmem)
    · cases hnew with
      | registered n t cb call => exact Or.inl (Or.inr ⟨n, call⟩)
  · rcases h.enters hj with hj | hnew
    · exact Or.inl (Or.inr ⟨j, hj⟩)
    · cases hnew with
      | draws cb free => exact Or.inr ⟨j, rfl, rfl, free⟩

/-- A call that has stored its callback has it noted. -/
structure Noted (s : Crew κ) : Prop where
  registering : ∀ token, s.Registering token → 2 ≤ (s.history token).length
  returned : ∀ token, .returned token ∈ s.log → 2 ≤ (s.history token).length

lemma registering_of_step (h : Step s m s') (hr : s'.Registering token) : s.Registering token ∨
    ∃ n cb, s.calls.get? n = some (.storing token cb) ∧
      s'.log = s.log ++ [.registered token cb] := by
  obtain ⟨n, c, hn, hreg⟩ := hr
  rcases h.enters hn with hn | hnew
  · exact Or.inl ⟨n, c, hn, hreg⟩
  · cases hnew with
    | inserts t cb call =>
      obtain rfl : t = token := by simpa [Call.registers] using hreg
      cases h with
      | stay => cases call.symm.trans hn
      | insert _ t' cb' call' =>
        cases call.symm.trans call'
        exact Or.inr ⟨n, cb, call, rfl⟩
    | late t call closed => exact Or.inl ⟨n, _, call, hreg⟩
    | _ => cases hreg

lemma returned_of_step (h : Step s m s') (hr : .returned token ∈ s'.log) :
    .returned token ∈ s.log ∨ s.Registering token := by
  refine (h.notes hr).imp_right fun hnew => ?_
  cases hnew with
  | kept n t call => exact ⟨n, _, call, by simp [Call.registers]⟩
  | revoked n t call => exact ⟨n, _, call, by simp [Call.registers]⟩

lemma Step.noted (h : Step s m s') (hl : ∀ token, s.Life token) (hn : s.Noted) : s'.Noted := by
  have hgrow : ∀ token, 2 ≤ (s.history token).length → 2 ≤ (s'.history token).length :=
    fun token hlen => hlen.trans (history_length_le h.log_grows token)
  refine ⟨fun token hr => ?_, fun token hr => ?_⟩
  · -- a call that registers has drawn its token and now stores the callback, which makes two events
    rcases registering_of_step h hr with hr | ⟨n, cb, hcall, hlog⟩
    · exact hgrow token (hn.registering token hr)
    · have hholds : s.Holds token (.call n) := ⟨cb, hcall⟩
      have hevents := Life.history_of_log hlog token
      cases hl token with
      | drawn cb' n' events => simp [hevents, events, CrewEvent.concerns]
      | armed _ _ _ _ _ _ _ alone => cases alone _ hholds
      | unknown _ _ idle | outstanding _ _ _ idle | invoked _ _ _ _ _ idle
        | released _ _ _ _ idle => exact absurd hholds (idle _)
  · rcases returned_of_step h hr with hr | hr
    · exact hgrow token (hn.returned token hr)
    · exact hgrow token (hn.registering token hr)

lemma noted {workers : Nat} {moves : List (Move κ)}
    (hbound : (run workers moves).drawn.length < 2 ^ 64) : (run workers moves).Noted := by
  induction moves using List.reverseRecOn with
  | nil => exact ⟨fun _ ⟨_, _, h, _⟩ => (nomatch h), fun _ h => (nomatch h)⟩
  | append_singleton moves m ih =>
    have hstep := perform_step (run workers moves) m
    rw [run_snoc] at hbound ⊢
    have hbefore := hstep.drawn_le.trans_lt hbound
    exact hstep.noted (life hbefore) (ih hbefore)

/-- All that is known of a crew with tokens left. -/
structure Orderly (s : Crew κ) : Prop where
  desk : s.desk.Numbered
  life : ∀ token, s.Life token
  supplied : s.Supplied
  closing : s.Closing
  ended : s.Ended
  noted : s.Noted
  nodup : s.drawn.Nodup

lemma orderly {workers : Nat} {moves : List (Move κ)}
    (hbound : (run workers moves).drawn.length < 2 ^ 64) : (run workers moves).Orderly :=
  have hdesk := (reached workers moves).numbered
  ⟨hdesk, life hbound, supplied workers moves, closing workers moves, ended workers moves,
    noted hbound, hdesk.nodup hbound⟩

/-! ### Skipped completions -/

lemma Step.skipped {c : Completion} (h : Step s m s') (hmem : .skipped c ∈ s'.log) :
    .skipped c ∈ s.log ∨ s.stored c.wrId = none ∧ ∃ i, s.duties.get? i = some (.holding c) := by
  refine (h.notes hmem).imp_right fun hnew => ?_
  cases hnew with
  | skipped i c duty missing => exact ⟨(s.executor.cancel_fst _).symm.trans missing, i, duty⟩

lemma drawn_draw {n : Nat} (free : s.calls.get? n = none) (cb : κ) :
    (s.perform (.draw n cb)).drawn = s.drawn ++ [s.executor.registry.next] := by
  simp [perform, free, drawn, Registry.draw]

lemma Step.drawn_le_succ (h : Step s m s') : s'.drawn.length ≤ s.drawn.length + 1 := by
  cases h with
  | draw n cb free => simp [drawn]
  | stay | late | shutdown | join | await | shut | look | visit | gather | pop | exit =>
    exact Nat.le_succ _
  | finish i breaks duty => cases breaks <;> simp [drawn]
  | insert | keep | revoke | cancel | process | release | leave | arm | skip | invoke =>
    simp [drawn]

end Verbs.Crew
