import Mathlib.Tactic
import Verbs.Proofs.Executor.Closing

/-!
The life of a callback. It is registered under a token of its own; it is then taken by one worker,
who runs it, or released once. What is noted of a token tells how far its callback has come.
-/

namespace Verbs

variable {κ : Type}

/-- Whether an event is part of the life of the callback with a token. -/
def CrewEvent.concerns (token : UInt64) : CrewEvent κ → Bool
  | .drew t | .registered t _ | .released t _ _ => t = token
  | .taken c _ | .invoked c _ => c.wrId = token
  | _ => false

namespace Crew

variable {s s' : Crew κ} {m : Move κ} {token : UInt64}

def history (s : Crew κ) (token : UInt64) : List (CrewEvent κ) := s.log.filter (·.concerns token)

def stored (s : Crew κ) (token : UInt64) : Option κ := s.executor.registry.callbacks.get? token

/-- Who has a callback that is not in the registry. -/
inductive Holder where
  /-- A worker that is about to run it. -/
  | worker (i : Nat)
  /-- A call that is about to store it. -/
  | call (n : Nat)

def Holds (s : Crew κ) (token : UInt64) : Holder → Prop
  | .worker i => ∃ c cb, s.duties.get? i = some (.armed c cb) ∧ c.wrId = token
  | .call n => ∃ cb, s.calls.get? n = some (.storing token cb)

/-- How far the callback with a token has come. -/
inductive Life (s : Crew κ) (token : UInt64) : Prop where
  | unknown (events : s.history token = []) (absent : s.stored token = none)
      (idle : ∀ h, ¬ s.Holds token h)
  | drawn (cb : κ) (n : Nat) (events : s.history token = [.drew token])
      (absent : s.stored token = none) (call : s.calls.get? n = some (.storing token cb))
      (alone : ∀ h, s.Holds token h → h = .call n)
  | outstanding (cb : κ) (events : s.history token = [.drew token, .registered token cb])
      (present : s.stored token = some cb) (idle : ∀ h, ¬ s.Holds token h)
  | armed (cb : κ) (c : Completion) (i : Nat) (wrId : c.wrId = token)
      (events : s.history token = [.drew token, .registered token cb, .taken c cb])
      (absent : s.stored token = none) (duty : s.duties.get? i = some (.armed c cb))
      (alone : ∀ h, s.Holds token h → h = .worker i)
  | invoked (cb : κ) (c : Completion) (wrId : c.wrId = token)
      (events : s.history token =
        [.drew token, .registered token cb, .taken c cb, .invoked c cb])
      (absent : s.stored token = none) (idle : ∀ h, ¬ s.Holds token h)
  | released (cb : κ) (how : Release)
      (events : s.history token =
        [.drew token, .registered token cb, .released token cb how])
      (absent : s.stored token = none) (idle : ∀ h, ¬ s.Holds token h)

/-! ### Hands -/

structure SameHands (s s' : Crew κ) (token : UInt64) : Prop where
  duties : ∀ i c cb, c.wrId = token →
    (s'.duties.get? i = some (.armed c cb) ↔ s.duties.get? i = some (.armed c cb))
  calls : ∀ n cb,
    s'.calls.get? n = some (.storing token cb) ↔ s.calls.get? n = some (.storing token cb)

namespace SameHands

lemma holds (h : SameHands s s' token) (holder : Holder) :
    s'.Holds token holder ↔ s.Holds token holder := by
  cases holder with
  | worker i =>
    exact exists_congr fun c => exists_congr fun cb => and_congr_left fun hc => h.duties i c cb hc
  | call n => exact exists_congr fun cb => h.calls n cb

lemma of_eq (hd : s'.duties = s.duties) (hc : s'.calls = s.calls) : SameHands s s' token :=
  ⟨fun i c cb _ => by rw [hd], fun n cb => by rw [hc]⟩

lemma of_set_call {n : Nat} {c : Call κ} (hd : s'.duties = s.duties)
    (hc : s'.calls = s.calls.set n c) (old : ∀ cb, s.calls.get? n ≠ some (.storing token cb))
    (new : ∀ cb, c ≠ .storing token cb) : SameHands s s' token := by
  refine ⟨fun i c cb _ => by rw [hd], fun m cb => ?_⟩
  rw [hc, Table.get?_set]
  split
  · rename_i hm
    rw [hm]
    exact ⟨fun h => absurd (Option.some.inj h) (new cb), fun h => absurd h (old cb)⟩
  · rfl

lemma of_erase_call {n : Nat} (hd : s'.duties = s.duties) (hc : s'.calls = s.calls.erase n)
    (old : ∀ cb, s.calls.get? n ≠ some (.storing token cb)) : SameHands s s' token := by
  refine ⟨fun i c cb _ => by rw [hd], fun m cb => ?_⟩
  rw [hc, Table.get?_erase]
  split
  · rename_i hm
    rw [hm]
    exact ⟨fun h => (by cases h), fun h => absurd h (old cb)⟩
  · rfl

lemma of_set_duty {i : Nat} {d : Duty κ} (hc : s'.calls = s.calls)
    (hd : s'.duties = s.duties.set i d)
    (old : ∀ c cb, s.duties.get? i = some (.armed c cb) → c.wrId ≠ token)
    (new : ∀ c cb, d = .armed c cb → c.wrId ≠ token) : SameHands s s' token := by
  refine ⟨fun j c cb hw => ?_, fun n cb => by rw [hc]⟩
  rw [hd, Table.get?_set]
  split
  · rename_i hj
    rw [hj]
    exact ⟨fun h => absurd hw (new c cb (Option.some.inj h)), fun h => absurd hw (old c cb h)⟩
  · rfl

end SameHands

/-! ### How a life goes on -/

namespace Life

variable {cb : κ} {c : Completion} {i n : Nat}

lemma same (h : s.Life token) (hevents : s'.history token = s.history token)
    (hstored : s'.stored token = s.stored token) (hh : SameHands s s' token) : s'.Life token := by
  have hidle : (∀ h, ¬ s.Holds token h) → ∀ h, ¬ s'.Holds token h :=
    fun hidle h hh' => hidle h ((hh.holds h).mp hh')
  cases h with
  | unknown events absent idle =>
    exact .unknown (hevents.trans events) (hstored.trans absent) (hidle idle)
  | drawn cb n events absent call alone =>
    exact .drawn cb n (hevents.trans events) (hstored.trans absent) ((hh.calls n cb).mpr call)
      fun h hh' => alone h ((hh.holds h).mp hh')
  | outstanding cb events present idle =>
    exact .outstanding cb (hevents.trans events) (hstored.trans present) (hidle idle)
  | armed cb c i wrId events absent duty alone =>
    exact .armed cb c i wrId (hevents.trans events) (hstored.trans absent)
      ((hh.duties i c cb wrId).mpr duty) fun h hh' => alone h ((hh.holds h).mp hh')
  | invoked cb c wrId events absent idle =>
    exact .invoked cb c wrId (hevents.trans events) (hstored.trans absent) (hidle idle)
  | released cb how events absent idle =>
    exact .released cb how (hevents.trans events) (hstored.trans absent) (hidle idle)

lemma draw (h : s.Life token) (hnone : s.history token = [])
    (hevents : s'.history token = s.history token ++ [.drew token])
    (hstored : s'.stored token = s.stored token) (hd : s'.duties = s.duties)
    (hc : s'.calls = s.calls.set n (.storing token cb)) : s'.Life token := by
  cases h with
  | unknown events absent idle =>
    refine .drawn cb n (by rw [hevents, events]; rfl) (hstored.trans absent)
      (by rw [hc]; exact Table.get?_set_self _ _ _) ?_
    rintro (i | m) hh
    · rw [Holds, hd] at hh
      exact absurd hh (idle (.worker i))
    · obtain ⟨cb', hm⟩ := hh
      rw [hc, Table.get?_set] at hm
      split at hm
      · rename_i hmn
        rw [hmn]
      · exact absurd ⟨cb', hm⟩ (idle (.call m))
  | drawn _ _ events | outstanding _ events | armed _ _ _ _ events | invoked _ _ _ events
    | released _ _ events =>
    rw [events] at hnone
    cases hnone

lemma register (h : s.Life token) (call : s.calls.get? n = some (.storing token cb))
    (hevents : s'.history token = s.history token ++ [.registered token cb])
    (hstored : s'.stored token = some cb) (hd : s'.duties = s.duties)
    (hc : s'.calls = s.calls.set n (.checking token)) : s'.Life token := by
  have hholds : s.Holds token (.call n) := ⟨cb, call⟩
  cases h with
  | drawn cb' n' events absent call' alone =>
    cases alone _ hholds
    cases call.symm.trans call'
    refine .outstanding cb (by rw [hevents, events]; rfl) hstored ?_
    rintro (i | m) hh
    · rw [Holds, hd] at hh
      cases alone (.worker i) hh
    · obtain ⟨cb', hm⟩ := hh
      rw [hc, Table.get?_set] at hm
      split at hm
      · cases hm
      · rename_i hmn
        exact hmn (Holder.call.inj (alone (.call m) ⟨cb', hm⟩))
  | armed _ _ _ _ _ _ _ alone => cases alone _ hholds
  | unknown _ _ idle | outstanding _ _ _ idle | invoked _ _ _ _ _ idle | released _ _ _ _ idle =>
    exact absurd hholds (idle _)

lemma release {how : Release} (h : s.Life token) (present : s.stored token = some cb)
    (hevents : s'.history token = s.history token ++ [.released token cb how])
    (hstored : s'.stored token = none) (hh : SameHands s s' token) : s'.Life token := by
  cases h with
  | outstanding cb' events present' idle =>
    cases present.symm.trans present'
    exact .released cb how (by rw [hevents, events]; rfl) hstored
      fun h hh' => idle h ((hh.holds h).mp hh')
  | unknown _ absent | drawn _ _ _ absent | armed _ _ _ _ _ absent | invoked _ _ _ _ absent
    | released _ _ _ absent => cases present.symm.trans absent

lemma arm (h : s.Life token) (present : s.stored token = some cb) (hw : c.wrId = token)
    (hevents : s'.history token = s.history token ++ [.taken c cb])
    (hstored : s'.stored token = none) (hc : s'.calls = s.calls)
    (hd : s'.duties = s.duties.set i (.armed c cb)) : s'.Life token := by
  cases h with
  | outstanding cb' events present' idle =>
    cases present.symm.trans present'
    refine .armed cb c i hw (by rw [hevents, events]; rfl) hstored
      (by rw [hd]; exact Table.get?_set_self _ _ _) ?_
    rintro (j | m) hh
    · obtain ⟨c', cb', hj, hc'⟩ := hh
      rw [hd, Table.get?_set] at hj
      split at hj
      · rename_i hji
        rw [hji]
      · exact absurd ⟨c', cb', hj, hc'⟩ (idle (.worker j))
    · rw [Holds, hc] at hh
      exact absurd hh (idle (.call m))
  | unknown _ absent | drawn _ _ _ absent | armed _ _ _ _ _ absent | invoked _ _ _ _ absent
    | released _ _ _ absent => cases present.symm.trans absent

lemma invoke (h : s.Life token) (duty : s.duties.get? i = some (.armed c cb)) (hw : c.wrId = token)
    (hevents : s'.history token = s.history token ++ [.invoked c cb])
    (hstored : s'.stored token = s.stored token) (hc : s'.calls = s.calls)
    (hd : s'.duties = s.duties.set i .running) : s'.Life token := by
  have hholds : s.Holds token (.worker i) := ⟨c, cb, duty, hw⟩
  cases h with
  | armed cb' c' i' wrId events absent duty' alone =>
    cases alone _ hholds
    cases duty.symm.trans duty'
    refine .invoked cb c hw (by rw [hevents, events]; rfl) (hstored.trans absent) ?_
    rintro (j | m) hh
    · obtain ⟨c', cb', hj, hc'⟩ := hh
      rw [hd, Table.get?_set] at hj
      split at hj
      · cases hj
      · rename_i hji
        exact hji (Holder.worker.inj (alone (.worker j) ⟨c', cb', hj, hc'⟩))
    · rw [Holds, hc] at hh
      cases alone (.call m) hh
  | drawn _ _ _ _ _ alone => cases alone _ hholds
  | unknown _ _ idle | outstanding _ _ _ idle | invoked _ _ _ _ _ idle | released _ _ _ _ idle =>
    exact absurd hholds (idle _)

lemma history_of_log {l : List (CrewEvent κ)} (hlog : s'.log = s.log ++ l) (token : UInt64) :
    s'.history token = s.history token ++ l.filter (·.concerns token) := by
  rw [history, hlog, List.filter_append]
  rfl

lemma cancel (h : s.Life token) (t : UInt64) (how : Release) {rest : List (CrewEvent κ)}
    (hexec : s'.executor = (s.executor.cancel t).2)
    (hlog : s'.log =
      s.log ++ ((s.executor.cancel t).1.toList.map (.released t · how) ++ rest))
    (hrest : rest.filter (·.concerns token) = []) (hh : SameHands s s' token) : s'.Life token := by
  have hstored : s'.stored token = if token = t then none else s.stored token := by
    rw [stored, hexec, Executor.get?_cancel]
    rfl
  have hevents := history_of_log hlog token
  rw [List.filter_append, hrest, List.append_nil, Executor.cancel_fst] at hevents
  by_cases ht : token = t
  · subst ht
    rw [if_pos rfl] at hstored
    rcases hcb : s.stored token with - | cb
    · rw [show s.executor.registry.callbacks.get? token = none from hcb] at hevents
      exact h.same (by simpa using hevents) (hstored.trans hcb.symm) hh
    · rw [show s.executor.registry.callbacks.get? token = some cb from hcb] at hevents
      exact h.release hcb (by simpa [CrewEvent.concerns] using hevents) hstored hh
  · rw [if_neg ht] at hstored
    refine h.same ?_ hstored hh
    rw [hevents]
    rcases s.executor.registry.callbacks.get? t <;> simp [CrewEvent.concerns, Ne.symm ht]

end Life

lemma Life.mem_drawn (h : s.Life token) (hevents : s.history token ≠ []) : token ∈ s.drawn := by
  have hmem : .drew token ∈ s.history token := by
    cases h with
    | unknown events => exact absurd events hevents
    | drawn _ _ events | outstanding _ events | armed _ _ _ _ events | invoked _ _ _ events
      | released _ _ events =>
      rw [events]
      exact List.mem_cons_self
  exact List.mem_filterMap.mpr ⟨_, List.mem_of_mem_filter hmem, rfl⟩

/-! ### Steps -/

lemma Step.life (h : Step s m s') (hd : s.desk.Numbered) (hbound : s'.drawn.length < 2 ^ 64)
    (hl : s.Life token) : s'.Life token := by
  cases h with
  | stay => exact hl
  | draw n cb free =>
    have hcalls : ∀ cb, s.calls.get? n ≠ some (.storing token cb) := by simp [free]
    by_cases ht : token = s.executor.registry.next
    · subst ht
      -- what is noted of a token is noted after it was drawn
      have hnone : s.history s.executor.registry.next = [] := by
        by_contra hsome
        exact hd.next_notMem (by simpa [drawn, Crew.desk] using hbound) (hl.mem_drawn hsome)
      exact hl.draw hnone (by simp [history, CrewEvent.concerns]) rfl rfl rfl
    · refine hl.same (by simp [history, CrewEvent.concerns, Ne.symm ht]) rfl
        (.of_set_call rfl rfl hcalls ?_)
      rintro cb' heq
      cases heq
      exact ht rfl
  | insert n t cb call =>
    by_cases ht : token = t
    · subst ht
      exact hl.register call (by simp [history, CrewEvent.concerns]) (Table.get?_set_self _ _ _)
        rfl rfl
    · refine hl.same (by simp [history, CrewEvent.concerns, Ne.symm ht])
        (Table.get?_set_of_ne _ _ ht) (.of_set_call rfl rfl ?_ (by simp))
      rintro cb' heq
      cases call.symm.trans heq
      exact ht rfl
  | late n t call closed =>
    exact hl.same rfl rfl (.of_set_call rfl rfl (by simp [call]) (by simp))
  | keep n t call isOpen =>
    exact hl.same (by simp [history, CrewEvent.concerns]) rfl
      (.of_erase_call rfl rfl (by simp [call]))
  | revoke n t call =>
    exact hl.cancel t .late rfl rfl rfl (.of_erase_call rfl rfl (by simp [call]))
  | cancel t => exact hl.cancel t .cancelled rfl rfl rfl (.of_eq rfl rfl)
  | process c isOpen => exact hl.same (by simp [history, CrewEvent.concerns]) rfl (.of_eq rfl rfl)
  | shutdown => exact hl.same rfl rfl (.of_eq rfl rfl)
  | join n caller free =>
    exact hl.same rfl rfl (.of_set_call rfl rfl (by simp [free]) (by simp))
  | await n i rest call exited =>
    exact hl.same rfl rfl (.of_set_call rfl rfl (by simp [call]) (by simp))
  | shut n call => exact hl.same rfl rfl (.of_set_call rfl rfl (by simp [call]) (by simp))
  | look n call => exact hl.same rfl rfl (.of_set_call rfl rfl (by simp [call]) (by simp))
  | visit n t present seen call =>
    exact hl.same rfl rfl (.of_set_call rfl rfl (by simp [call]) (by simp))
  | gather n present seen call covered =>
    exact hl.same rfl rfl (.of_set_call rfl rfl (by simp [call]) (by simp))
  | release n t rest call =>
    exact hl.cancel t .joined rfl (by rw [List.append_nil]) rfl
      (.of_set_call rfl rfl (by simp [call]) (by simp))
  | leave n call =>
    exact hl.same (by simp [history, CrewEvent.concerns]) rfl
      (.of_erase_call rfl rfl (by simp [call]))
  | pop i c rest duty items =>
    exact hl.same rfl rfl (.of_set_duty rfl rfl (by simp [duty]) (by simp))
  | exit i duty closed items =>
    exact hl.same rfl rfl (.of_set_duty rfl rfl (by simp [duty]) (by simp))
  | arm i c cb duty found =>
    rw [Executor.cancel_fst] at found
    by_cases hw : c.wrId = token
    · subst hw
      exact hl.arm found rfl (by simp [history, CrewEvent.concerns])
        (by rw [stored, Executor.get?_cancel, if_pos rfl]) rfl rfl
    · refine hl.same (by simp [history, CrewEvent.concerns, hw]) ?_
        (.of_set_duty rfl rfl (by simp [duty]) ?_)
      · rw [stored, Executor.get?_cancel, if_neg (Ne.symm hw)]
        rfl
      · rintro c' cb' heq
        cases heq
        exact hw
  | skip i c duty missing =>
    rw [Executor.cancel_fst] at missing
    refine hl.same (by simp [history, CrewEvent.concerns]) ?_
      (.of_set_duty rfl rfl (by simp [duty]) (by simp))
    rw [stored, Executor.get?_cancel]
    split
    · rename_i ht
      rw [stored, ht, missing]
    · rfl
  | invoke i c cb duty =>
    by_cases hw : c.wrId = token
    · exact hl.invoke duty hw (by simp [history, CrewEvent.concerns, hw]) rfl rfl rfl
    · refine hl.same (by simp [history, CrewEvent.concerns, hw]) rfl
        (.of_set_duty rfl rfl ?_ (by simp))
      rintro c' cb' heq
      cases duty.symm.trans heq
      exact hw
  | finish i breaks duty =>
    refine hl.same ?_ rfl (.of_set_duty rfl rfl (by simp [duty]) (by simp))
    cases breaks <;> simp [history, CrewEvent.concerns]

/-! ### Runs -/

variable {workers : Nat}

lemma get?_start {i : Nat} {d : Duty κ} (h : (start workers).duties.get? i = some d) :
    d = .ready := by
  obtain ⟨j, -, hj⟩ := List.mem_map.mp (Table.mem_of_find? h)
  exact (congrArg Prod.snd hj).symm

lemma life_start (token : UInt64) : (start workers : Crew κ).Life token := by
  refine .unknown rfl rfl ?_
  rintro (i | n) hh
  · obtain ⟨c, cb, hi, -⟩ := hh
    cases get?_start hi
  · obtain ⟨cb, hn⟩ := hh
    cases hn

lemma life {moves : List (Move κ)} (hbound : (run workers moves).drawn.length < 2 ^ 64)
    (token : UInt64) : (run workers moves).Life token := by
  induction moves using List.reverseRecOn with
  | nil => exact life_start token
  | append_singleton moves m ih =>
    rw [run_snoc] at hbound ⊢
    have hstep := perform_step (run workers moves) m
    exact hstep.life (reached workers moves).numbered hbound (ih (hstep.drawn_le.trans_lt hbound))

end Crew

end Verbs
