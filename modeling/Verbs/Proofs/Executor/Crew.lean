import Mathlib.Tactic
import Verbs.Executor

/-!
The threads around an executor. Workers and callers take turns in any order, and a call that takes
several steps can be overtaken between any two of them. What a callback does while it runs are
calls like all others, made by its worker.
-/

namespace Verbs

/-- What a worker is about. -/
inductive Duty (κ : Type) where
  | ready
  /-- It has taken a completion from the queue and looks for the callback. -/
  | holding (c : Completion)
  /-- It has taken the callback and is about to run it. -/
  | armed (c : Completion) (cb : κ)
  | running
  | exited

/-- How far a call has come. A call that registers has drawn a token, has stored the callback, or
has found the registry closed; a call that joins waits for workers, has marked the registry closed,
looks through it, or takes out what it saw. -/
inductive Call (κ : Type) where
  | storing (token : UInt64) (cb : κ)
  | checking (token : UInt64)
  | revoking (token : UInt64)
  | awaiting (others : List Nat)
  | closing
  | visiting (present seen : List UInt64)
  | emptying (seen : List UInt64)

inductive Release where
  | cancelled
  /-- The call that registered it, which came too late. -/
  | late
  | joined
  deriving DecidableEq

inductive CrewEvent (κ : Type) where
  | drew (token : UInt64)
  | registered (token : UInt64) (cb : κ)
  | returned (token : UInt64)
  | accepted (c : Completion)
  | skipped (c : Completion)
  | taken (c : Completion) (cb : κ)
  | invoked (c : Completion) (cb : κ)
  | broke (worker : Nat)
  | released (token : UInt64) (cb : κ) (how : Release)
  /-- What an attempt to cancel was told. -/
  | answered (token : UInt64) (found : Bool)
  | joined
  deriving DecidableEq

/-- A step that a thread can take. Calls are told apart by numbers; a call that joins is made by a
worker that runs a callback, or by another thread. -/
inductive Move (κ : Type) where
  | draw (call : Nat) (cb : κ)
  | insert (call : Nat)
  | check (call : Nat)
  | revoke (call : Nat)
  | cancel (token : UInt64)
  | process (c : Completion)
  | shutdown
  | join (call : Nat) (caller : Option Nat)
  | await (call : Nat)
  | shut (call : Nat)
  | look (call : Nat)
  | visit (call : Nat) (token : UInt64)
  | gather (call : Nat)
  | release (call : Nat)
  | pop (worker : Nat)
  | take (worker : Nat)
  | invoke (worker : Nat)
  | finish (worker : Nat) (breaks : Bool)

/-- An executor with its workers, the calls under way, and what happened so far. -/
structure Crew (κ : Type) where
  executor : Executor κ
  duties : Table Nat (Duty κ)
  calls : Table Nat (Call κ) := {}
  log : List (CrewEvent κ) := []

namespace Crew

variable {κ : Type}

def start (workers : Nat) : Crew κ where
  executor := { workers }
  duties := ⟨(List.range workers).map (·, .ready)⟩

/-- The workers that a call to join waits for: all but the caller, if nobody waits for them yet. -/
def others (e : Executor κ) (caller : Option Nat) : List Nat :=
  if e.joined then [] else (List.range e.workers).filter (some · ≠ caller)

/-- Whether a call can be made: from outside, or by a worker that runs a callback. -/
def canCall (s : Crew κ) : Option Nat → Bool
  | none => true
  | some i =>
    match s.duties.get? i with
    | some .running => true
    | _ => false

/-- The crew after a step. One that is not possible leaves everything as it was. -/
def perform (s : Crew κ) : Move κ → Crew κ
  | .draw n cb =>
    match s.calls.get? n with
    | none =>
      let (token, registry) := s.executor.registry.draw
      { s with
        executor.registry := registry
        calls := s.calls.set n (.storing token cb)
        log := s.log ++ [.drew token] }
    | some _ => s
  | .insert n =>
    match s.calls.get? n with
    | some (.storing token cb) =>
      { s with
        executor.registry := s.executor.registry.put token cb
        calls := s.calls.set n (.checking token)
        log := s.log ++ [.registered token cb] }
    | _ => s
  | .check n =>
    match s.calls.get? n with
    | some (.checking token) =>
      if s.executor.registry.closed then { s with calls := s.calls.set n (.revoking token) }
      else { s with calls := s.calls.erase n, log := s.log ++ [.returned token] }
    | _ => s
  | .revoke n =>
    match s.calls.get? n with
    | some (.revoking token) =>
      let (cb, executor) := s.executor.cancel token
      { s with
        executor
        calls := s.calls.erase n
        log := s.log ++ (cb.toList.map (.released token · .late) ++ [.returned token]) }
    | _ => s
  | .cancel token =>
    let (cb, executor) := s.executor.cancel token
    { s with
      executor
      log := s.log ++ (cb.toList.map (.released token · .cancelled) ++
        [.answered token cb.isSome]) }
  | .process c =>
    match s.executor.process? c with
    | some executor => { s with executor, log := s.log ++ [.accepted c] }
    | none => s
  | .shutdown => { s with executor := s.executor.shutdown }
  | .join n caller =>
    match s.calls.get? n with
    | none =>
      if s.canCall caller then
        { s with
          executor.joined := true
          calls := s.calls.set n (.awaiting (others s.executor caller)) }
      else s
    | some _ => s
  | .await n =>
    match s.calls.get? n with
    | some (.awaiting (i :: rest)) =>
      match s.duties.get? i with
      | some .exited => { s with calls := s.calls.set n (.awaiting rest) }
      | _ => s
    | _ => s
  | .shut n =>
    match s.calls.get? n with
    | some (.awaiting []) =>
      { s with
        executor.registry := s.executor.registry.shut
        calls := s.calls.set n .closing }
    | _ => s
  | .look n =>
    match s.calls.get? n with
    | some .closing =>
      { s with calls := s.calls.set n (.visiting s.executor.registry.callbacks.keys []) }
    | _ => s
  | .visit n token =>
    match s.calls.get? n with
    | some (.visiting present seen) =>
      if s.executor.registry.callbacks.contains token then
        { s with calls := s.calls.set n (.visiting present (seen ++ [token])) }
      else s
    | _ => s
  | .gather n =>
    match s.calls.get? n with
    | some (.visiting present seen) =>
      -- an entry that was there all the time is seen, one that came or went meanwhile may be
      if present.all fun t => !s.executor.registry.callbacks.contains t || seen.contains t then
        { s with calls := s.calls.set n (.emptying seen) }
      else s
    | _ => s
  | .release n =>
    match s.calls.get? n with
    | some (.emptying (token :: rest)) =>
      let (cb, executor) := s.executor.cancel token
      { s with
        executor
        calls := s.calls.set n (.emptying rest)
        log := s.log ++ cb.toList.map (.released token · .joined) }
    | some (.emptying []) => { s with calls := s.calls.erase n, log := s.log ++ [.joined] }
    | _ => s
  | .pop i =>
    match s.duties.get? i with
    | some .ready =>
      match s.executor.queue.take with
      | (.item c, queue) =>
        { s with executor.queue := queue, duties := s.duties.set i (.holding c) }
      | (.closed, _) => { s with duties := s.duties.set i .exited }
      | (.nothing, _) => s
    | _ => s
  | .take i =>
    match s.duties.get? i with
    | some (.holding c) =>
      match s.executor.cancel c.wrId with
      | (some cb, executor) =>
        { s with
          executor
          duties := s.duties.set i (.armed c cb)
          log := s.log ++ [.taken c cb] }
      | (none, executor) =>
        { s with executor, duties := s.duties.set i .ready, log := s.log ++ [.skipped c] }
    | _ => s
  | .invoke i =>
    match s.duties.get? i with
    | some (.armed c cb) =>
      { s with duties := s.duties.set i .running, log := s.log ++ [.invoked c cb] }
    | _ => s
  | .finish i breaks =>
    match s.duties.get? i with
    | some .running =>
      { s with
        duties := s.duties.set i .ready
        log := s.log ++ if breaks then [.broke i] else [] }
    | _ => s

def run (workers : Nat) (moves : List (Move κ)) : Crew κ := moves.foldl perform (start workers)

lemma run_snoc (workers : Nat) (moves : List (Move κ)) (m : Move κ) :
    run workers (moves ++ [m]) = (run workers moves).perform m := by
  simp [run]

/-! ### What a step can do -/

inductive Step (s : Crew κ) : Move κ → Crew κ → Prop where
  | stay {m : Move κ} : Step s m s
  | draw (n : Nat) (cb : κ) (free : s.calls.get? n = none) :
      Step s (.draw n cb) { s with
        executor.registry := s.executor.registry.draw.2
        calls := s.calls.set n (.storing s.executor.registry.next cb)
        log := s.log ++ [.drew s.executor.registry.next] }
  | insert (n : Nat) (token : UInt64) (cb : κ) (call : s.calls.get? n = some (.storing token cb)) :
      Step s (.insert n) { s with
        executor.registry := s.executor.registry.put token cb
        calls := s.calls.set n (.checking token)
        log := s.log ++ [.registered token cb] }
  | late (n : Nat) (token : UInt64) (call : s.calls.get? n = some (.checking token))
      (closed : s.executor.registry.closed = true) :
      Step s (.check n) { s with calls := s.calls.set n (.revoking token) }
  | keep (n : Nat) (token : UInt64) (call : s.calls.get? n = some (.checking token))
      (isOpen : s.executor.registry.closed = false) :
      Step s (.check n) { s with calls := s.calls.erase n, log := s.log ++ [.returned token] }
  | revoke (n : Nat) (token : UInt64) (call : s.calls.get? n = some (.revoking token)) :
      Step s (.revoke n) { s with
        executor := (s.executor.cancel token).2
        calls := s.calls.erase n
        log := s.log ++ ((s.executor.cancel token).1.toList.map (.released token · .late) ++
          [.returned token]) }
  | cancel (token : UInt64) :
      Step s (.cancel token) { s with
        executor := (s.executor.cancel token).2
        log := s.log ++ ((s.executor.cancel token).1.toList.map (.released token · .cancelled) ++
          [.answered token (s.executor.cancel token).1.isSome]) }
  | process (c : Completion) (isOpen : s.executor.queue.closed = false) :
      Step s (.process c) { s with
        executor.queue.items := s.executor.queue.items ++ [c]
        log := s.log ++ [.accepted c] }
  | shutdown : Step s .shutdown { s with executor := s.executor.shutdown }
  | join (n : Nat) (caller : Option Nat) (free : s.calls.get? n = none)
      (made : s.canCall caller = true) :
      Step s (.join n caller) { s with
        executor.joined := true
        calls := s.calls.set n (.awaiting (others s.executor caller)) }
  | await (n i : Nat) (rest : List Nat) (call : s.calls.get? n = some (.awaiting (i :: rest)))
      (exited : s.duties.get? i = some .exited) :
      Step s (.await n) { s with calls := s.calls.set n (.awaiting rest) }
  | shut (n : Nat) (call : s.calls.get? n = some (.awaiting [])) :
      Step s (.shut n) { s with
        executor.registry := s.executor.registry.shut
        calls := s.calls.set n .closing }
  | look (n : Nat) (call : s.calls.get? n = some .closing) :
      Step s (.look n) { s with
        calls := s.calls.set n (.visiting s.executor.registry.callbacks.keys []) }
  | visit (n : Nat) (token : UInt64) (present seen : List UInt64)
      (call : s.calls.get? n = some (.visiting present seen)) :
      Step s (.visit n token) { s with
        calls := s.calls.set n (.visiting present (seen ++ [token])) }
  | gather (n : Nat) (present seen : List UInt64)
      (call : s.calls.get? n = some (.visiting present seen))
      (covered : ∀ t ∈ present, s.executor.registry.callbacks.contains t → t ∈ seen) :
      Step s (.gather n) { s with calls := s.calls.set n (.emptying seen) }
  | release (n : Nat) (token : UInt64) (rest : List UInt64)
      (call : s.calls.get? n = some (.emptying (token :: rest))) :
      Step s (.release n) { s with
        executor := (s.executor.cancel token).2
        calls := s.calls.set n (.emptying rest)
        log := s.log ++ (s.executor.cancel token).1.toList.map (.released token · .joined) }
  | leave (n : Nat) (call : s.calls.get? n = some (.emptying [])) :
      Step s (.release n) { s with calls := s.calls.erase n, log := s.log ++ [.joined] }
  | pop (i : Nat) (c : Completion) (rest : List Completion) (duty : s.duties.get? i = some .ready)
      (items : s.executor.queue.items = c :: rest) :
      Step s (.pop i) { s with
        executor.queue.items := rest
        duties := s.duties.set i (.holding c) }
  | exit (i : Nat) (duty : s.duties.get? i = some .ready)
      (closed : s.executor.queue.closed = true) (items : s.executor.queue.items = []) :
      Step s (.pop i) { s with duties := s.duties.set i .exited }
  | arm (i : Nat) (c : Completion) (cb : κ) (duty : s.duties.get? i = some (.holding c))
      (found : (s.executor.cancel c.wrId).1 = some cb) :
      Step s (.take i) { s with
        executor := (s.executor.cancel c.wrId).2
        duties := s.duties.set i (.armed c cb)
        log := s.log ++ [.taken c cb] }
  | skip (i : Nat) (c : Completion) (duty : s.duties.get? i = some (.holding c))
      (missing : (s.executor.cancel c.wrId).1 = none) :
      Step s (.take i) { s with
        executor := (s.executor.cancel c.wrId).2
        duties := s.duties.set i .ready
        log := s.log ++ [.skipped c] }
  | invoke (i : Nat) (c : Completion) (cb : κ) (duty : s.duties.get? i = some (.armed c cb)) :
      Step s (.invoke i) { s with
        duties := s.duties.set i .running
        log := s.log ++ [.invoked c cb] }
  | finish (i : Nat) (breaks : Bool) (duty : s.duties.get? i = some .running) :
      Step s (.finish i breaks) { s with
        duties := s.duties.set i .ready
        log := s.log ++ if breaks then [.broke i] else [] }

lemma perform_step (s : Crew κ) (m : Move κ) : Step s m (s.perform m) := by
  cases m with
  | draw n cb =>
    simp only [perform]
    split
    · rename_i h
      exact .draw n cb h
    · exact .stay
  | insert n =>
    simp only [perform]
    split
    · rename_i token cb h
      exact .insert n token cb h
    · exact .stay
  | check n =>
    simp only [perform]
    split
    · rename_i token h
      split
      · rename_i hclosed
        exact .late n token h hclosed
      · rename_i hopen
        exact .keep n token h (by simpa using hopen)
    · exact .stay
  | revoke n =>
    simp only [perform]
    split
    · rename_i token h
      exact .revoke n token h
    · exact .stay
  | cancel token => exact .cancel token
  | process c =>
    simp only [perform, Executor.process?, ClosableQueue.push?]
    by_cases hclosed : s.executor.queue.closed = true
    · rw [if_pos hclosed]
      exact .stay
    · rw [if_neg hclosed]
      exact .process c (by simpa using hclosed)
  | shutdown => exact .shutdown
  | join n caller =>
    simp only [perform]
    split
    · rename_i h
      split
      · rename_i hmade
        exact .join n caller h hmade
      · exact .stay
    · exact .stay
  | await n =>
    simp only [perform]
    split
    · rename_i i rest h
      split
      · rename_i hexited
        exact .await n i rest h hexited
      · exact .stay
    · exact .stay
  | shut n =>
    simp only [perform]
    split
    · rename_i h
      exact .shut n h
    · exact .stay
  | look n =>
    simp only [perform]
    split
    · rename_i h
      exact .look n h
    · exact .stay
  | visit n token =>
    simp only [perform]
    split
    · rename_i present seen h
      split
      · exact .visit n token present seen h
      · exact .stay
    · exact .stay
  | gather n =>
    simp only [perform]
    split
    · rename_i present seen h
      split
      · rename_i hcovered
        refine .gather n present seen h fun t ht hstored => ?_
        have hseen := List.all_eq_true.mp hcovered t ht
        simpa [hstored] using hseen
      · exact .stay
    · exact .stay
  | release n =>
    simp only [perform]
    split
    · rename_i token rest h
      exact .release n token rest h
    · rename_i h
      exact .leave n h
    · exact .stay
  | pop i =>
    simp only [perform, ClosableQueue.take]
    split
    · rename_i h
      rcases hitems : s.executor.queue.items with - | ⟨c, rest⟩
      · by_cases hclosed : s.executor.queue.closed = true
        · simp only [hclosed, if_true]
          exact .exit i h hclosed hitems
        · simp only [hclosed]
          exact .stay
      · exact .pop i c rest h hitems
    · exact .stay
  | take i =>
    simp only [perform]
    split
    · rename_i c h
      split
      · rename_i cb executor hcancel
        have := Step.arm i c cb h (by rw [hcancel])
        rwa [hcancel] at this
      · rename_i executor hcancel
        have := Step.skip i c h (by rw [hcancel])
        rwa [hcancel] at this
    · exact .stay
  | invoke i =>
    simp only [perform]
    split
    · rename_i c cb h
      exact .invoke i c cb h
    · exact .stay
  | finish i breaks =>
    simp only [perform]
    split
    · rename_i h
      exact .finish i breaks h
    · exact .stay

/-! ### Calls and events, one at a time -/

/-- How a call comes to where it is. -/
inductive Enters (s : Crew κ) (n : Nat) : Move κ → Call κ → Prop where
  | draws (cb : κ) (free : s.calls.get? n = none) :
      Enters s n (.draw n cb) (.storing s.executor.registry.next cb)
  | inserts (token : UInt64) (cb : κ) (call : s.calls.get? n = some (.storing token cb)) :
      Enters s n (.insert n) (.checking token)
  | late (token : UInt64) (call : s.calls.get? n = some (.checking token))
      (closed : s.executor.registry.closed = true) : Enters s n (.check n) (.revoking token)
  | joins (caller : Option Nat) (free : s.calls.get? n = none) :
      Enters s n (.join n caller) (.awaiting (others s.executor caller))
  | passes (i : Nat) (rest : List Nat) (call : s.calls.get? n = some (.awaiting (i :: rest)))
      (exited : s.duties.get? i = some .exited) : Enters s n (.await n) (.awaiting rest)
  | shuts (call : s.calls.get? n = some (.awaiting [])) : Enters s n (.shut n) .closing
  | looks (call : s.calls.get? n = some .closing) :
      Enters s n (.look n) (.visiting s.executor.registry.callbacks.keys [])
  | visits (token : UInt64) (present seen : List UInt64)
      (call : s.calls.get? n = some (.visiting present seen)) :
      Enters s n (.visit n token) (.visiting present (seen ++ [token]))
  | gathers (present seen : List UInt64)
      (call : s.calls.get? n = some (.visiting present seen)) :
      Enters s n (.gather n) (.emptying seen)
  | releases (token : UInt64) (rest : List UInt64)
      (call : s.calls.get? n = some (.emptying (token :: rest))) :
      Enters s n (.release n) (.emptying rest)

/-- What there is to an event at the time when it is noted. -/
inductive Notes (s : Crew κ) : CrewEvent κ → Prop where
  | drew (n : Nat) (free : s.calls.get? n = none) : Notes s (.drew s.executor.registry.next)
  | registered (n : Nat) (token : UInt64) (cb : κ)
      (call : s.calls.get? n = some (.storing token cb)) : Notes s (.registered token cb)
  | kept (n : Nat) (token : UInt64) (call : s.calls.get? n = some (.checking token)) :
      Notes s (.returned token)
  | late (n : Nat) (token : UInt64) (cb : κ) (call : s.calls.get? n = some (.revoking token))
      (found : (s.executor.cancel token).1 = some cb) : Notes s (.released token cb .late)
  | revoked (n : Nat) (token : UInt64) (call : s.calls.get? n = some (.revoking token)) :
      Notes s (.returned token)
  | cancelled (token : UInt64) (cb : κ) (found : (s.executor.cancel token).1 = some cb) :
      Notes s (.released token cb .cancelled)
  | answered (token : UInt64) : Notes s (.answered token (s.executor.cancel token).1.isSome)
  | accepted (c : Completion) (isOpen : s.executor.queue.closed = false) : Notes s (.accepted c)
  | released (n : Nat) (token : UInt64) (rest : List UInt64) (cb : κ)
      (call : s.calls.get? n = some (.emptying (token :: rest)))
      (found : (s.executor.cancel token).1 = some cb) : Notes s (.released token cb .joined)
  | joined (n : Nat) (call : s.calls.get? n = some (.emptying [])) : Notes s .joined
  | taken (i : Nat) (c : Completion) (cb : κ) (duty : s.duties.get? i = some (.holding c))
      (found : (s.executor.cancel c.wrId).1 = some cb) : Notes s (.taken c cb)
  | skipped (i : Nat) (c : Completion) (duty : s.duties.get? i = some (.holding c))
      (missing : (s.executor.cancel c.wrId).1 = none) : Notes s (.skipped c)
  | invoked (i : Nat) (c : Completion) (cb : κ) (duty : s.duties.get? i = some (.armed c cb)) :
      Notes s (.invoked c cb)
  | broke (i : Nat) (duty : s.duties.get? i = some .running) : Notes s (.broke i)

variable {s s' : Crew κ} {m : Move κ} {n : Nat} {c : Call κ} {e : CrewEvent κ}

lemma enters_of_set {k : Nat} {c' : Call κ} (hc : (s.calls.set k c').get? n = some c)
    (h : s.Enters k m c') : s.calls.get? n = some c ∨ s.Enters n m c := by
  rw [Table.get?_set] at hc
  split at hc
  · rename_i hnk
    cases hc
    exact Or.inr (hnk ▸ h)
  · exact Or.inl hc

lemma Step.enters (h : Step s m s') (hc : s'.calls.get? n = some c) :
    s.calls.get? n = some c ∨ s.Enters n m c := by
  cases h with
  | draw k cb free => exact enters_of_set hc (.draws cb free)
  | insert k t cb call => exact enters_of_set hc (.inserts t cb call)
  | late k t call closed => exact enters_of_set hc (.late t call closed)
  | join k caller free made => exact enters_of_set hc (.joins caller free)
  | await k i rest call exited => exact enters_of_set hc (.passes i rest call exited)
  | shut k call => exact enters_of_set hc (.shuts call)
  | look k call => exact enters_of_set hc (.looks call)
  | visit k t present seen call => exact enters_of_set hc (.visits t present seen call)
  | gather k present seen call covered => exact enters_of_set hc (.gathers present seen call)
  | release k t rest call => exact enters_of_set hc (.releases t rest call)
  | keep | revoke | leave =>
    rw [Table.get?_erase] at hc
    split at hc
    · cases hc
    · exact Or.inl hc
  | stay | cancel | process | shutdown | pop | exit | arm | skip | invoke | finish =>
    exact Or.inl hc

lemma notes_of_mem {new : CrewEvent κ} (he : e ∈ s.log ++ [new]) (h : s.Notes new) :
    e ∈ s.log ∨ s.Notes e := by
  rcases List.mem_append.mp he with he | he
  · exact Or.inl he
  · exact Or.inr (List.mem_singleton.mp he ▸ h)

lemma Step.notes (h : Step s m s') (he : e ∈ s'.log) : e ∈ s.log ∨ s.Notes e := by
  cases h with
  | stay | late | shutdown | join | await | shut | look | visit | gather | pop | exit =>
    exact Or.inl he
  | draw n cb free => exact notes_of_mem he (.drew n free)
  | insert n t cb call => exact notes_of_mem he (.registered n t cb call)
  | keep n t call isOpen => exact notes_of_mem he (.kept n t call)
  | revoke n t call =>
    rw [← List.append_assoc] at he
    rcases List.mem_append.mp he with he | he
    · refine (List.mem_append.mp he).imp_right fun he => ?_
      obtain ⟨cb, hcb, rfl⟩ := List.mem_map.mp he
      exact .late n t cb call (Option.mem_toList.mp hcb)
    · exact Or.inr (List.mem_singleton.mp he ▸ .revoked n t call)
  | cancel t =>
    rw [← List.append_assoc] at he
    rcases List.mem_append.mp he with he | he
    · refine (List.mem_append.mp he).imp_right fun he => ?_
      obtain ⟨cb, hcb, rfl⟩ := List.mem_map.mp he
      exact .cancelled t cb (Option.mem_toList.mp hcb)
    · exact Or.inr (List.mem_singleton.mp he ▸ .answered t)
  | process c isOpen => exact notes_of_mem he (.accepted c isOpen)
  | release n t rest call =>
    refine (List.mem_append.mp he).imp_right fun he => ?_
    obtain ⟨cb, hcb, rfl⟩ := List.mem_map.mp he
    exact .released n t rest cb call (Option.mem_toList.mp hcb)
  | leave n call => exact notes_of_mem he (.joined n call)
  | arm i c cb duty found => exact notes_of_mem he (.taken i c cb duty found)
  | skip i c duty missing => exact notes_of_mem he (.skipped i c duty missing)
  | invoke i c cb duty => exact notes_of_mem he (.invoked i c cb duty)
  | finish i breaks duty =>
    cases breaks with
    | false => exact Or.inl (by simpa using he)
    | true => exact notes_of_mem he (.broke i duty)

end Crew

end Verbs
