import Mathlib.Tactic
import Verbs.Proofs.Registry.Desk

/-!
The calls to a registry. Inserting and closing take several steps, and any other call can come
between two of them. A call that is over keeps its number, so that what it was told and what it took
along can be looked up.
-/

namespace Verbs

/-- How far a call has come. One that inserts draws a token, stores the callback, and takes it out
again if it then finds the registry closed; one that closes marks the registry closed, looks through
it, and takes out what it saw. -/
inductive Errand (κ : Type) where
  | storing (token : UInt64) (cb : κ)
  | checking (token : UInt64)
  | revoking (token : UInt64)
  | inserted (token : UInt64)
  | took (token : UInt64) (cb : Option κ)
  | marked
  /-- It has seen some of the tokens, and has to see those that were there when it began and stay. -/
  | looking (present seen : List UInt64)
  | emptying (seen : List UInt64) (count : Nat)
  | closed (count : Nat)
  deriving DecidableEq

/-- The stage of a call. One that has closed the registry has nothing left to take out. -/
def Errand.stage {κ : Type} : Errand κ → Option Desk.Stage
  | checking token => some (.checking token)
  | revoking token => some (.revoking token)
  | marked => some .marked
  | looking present _ => some (.looking present)
  | emptying seen _ => some (.emptying seen)
  | closed _ => some (.emptying [])
  | _ => none

/-- A callback that came into the registry or left it, and the call that brought it or took it
along. -/
structure Passage (κ : Type) where
  token : UInt64
  cb : κ
  call : Nat
  deriving DecidableEq

/-- A step of a call. -/
inductive Traffic.Act (κ : Type) where
  | draw (call : Nat) (cb : κ)
  | store (call : Nat)
  | check (call : Nat)
  | revoke (call : Nat)
  | take (call : Nat) (token : UInt64)
  | mark (call : Nat)
  | look (call : Nat)
  | see (call : Nat) (token : UInt64)
  | gather (call : Nat)
  | remove (call : Nat)

/-- A registry, the calls to it, and what they did so far. -/
structure Traffic (κ : Type) where
  registry : Registry κ := {}
  calls : Table Nat (Errand κ) := {}
  drawn : List UInt64 := []
  arrivals : List (Passage κ) := []
  departures : List (Passage κ) := []

namespace Traffic

variable {κ : Type} {s : Traffic κ} {n : Nat}

/-- A call takes the callback of a token out, if there is one, and goes on. -/
def takeOut (s : Traffic κ) (n : Nat) (token : UInt64) (next : Option κ → Errand κ) :
    Traffic κ :=
  { s with
    registry := (s.registry.take token).2
    calls := s.calls.set n (next (s.registry.take token).1)
    departures := s.departures ++ (s.registry.take token).1.toList.map (⟨token, ·, n⟩) }

def perform (s : Traffic κ) : Act κ → Traffic κ
  | .draw n cb =>
    match s.calls.get? n with
    | none =>
      let (token, registry) := s.registry.draw
      { s with registry, calls := s.calls.set n (.storing token cb), drawn := s.drawn ++ [token] }
    | some _ => s
  | .store n =>
    match s.calls.get? n with
    | some (.storing token cb) =>
      { s with
        registry := s.registry.put token cb
        calls := s.calls.set n (.checking token)
        arrivals := s.arrivals ++ [⟨token, cb, n⟩] }
    | _ => s
  | .check n =>
    match s.calls.get? n with
    | some (.checking token) =>
      if s.registry.closed then { s with calls := s.calls.set n (.revoking token) }
      else { s with calls := s.calls.set n (.inserted token) }
    | _ => s
  | .revoke n =>
    match s.calls.get? n with
    | some (.revoking token) => s.takeOut n token fun _ => .inserted token
    | _ => s
  | .take n token =>
    match s.calls.get? n with
    | none => s.takeOut n token (.took token)
    | some _ => s
  | .mark n =>
    match s.calls.get? n with
    | none => { s with registry := s.registry.shut, calls := s.calls.set n .marked }
    | some _ => s
  | .look n =>
    match s.calls.get? n with
    | some .marked => { s with calls := s.calls.set n (.looking s.registry.callbacks.keys []) }
    | _ => s
  | .see n token =>
    -- any token, so that nothing hangs on what else is seen
    match s.calls.get? n with
    | some (.looking present seen) =>
      { s with calls := s.calls.set n (.looking present (seen ++ [token])) }
    | _ => s
  | .gather n =>
    match s.calls.get? n with
    | some (.looking present seen) =>
      -- tokens are not stored twice, so what is there now and was at first was there all the time
      if present.all fun t => !s.registry.callbacks.contains t || seen.contains t then
        { s with calls := s.calls.set n (.emptying seen 0) }
      else s
    | _ => s
  | .remove n =>
    match s.calls.get? n with
    | some (.emptying (token :: rest) count) =>
      s.takeOut n token fun cb => .emptying rest (count + cb.toList.length)
    | some (.emptying [] count) => { s with calls := s.calls.set n (.closed count) }
    | _ => s

def run (acts : List (Act κ)) : Traffic κ := acts.foldl perform {}

lemma run_snoc (acts : List (Act κ)) (act : Act κ) :
    run (acts ++ [act]) = (run acts).perform act := by
  simp [run]

/-! ### What a step can do -/

inductive Step (s : Traffic κ) : Traffic κ → Prop where
  | stay : Step s s
  | draw (n : Nat) (cb : κ) (free : s.calls.get? n = none) :
      Step s { s with
        registry := s.registry.draw.2
        calls := s.calls.set n (.storing s.registry.next cb)
        drawn := s.drawn ++ [s.registry.next] }
  | store (n : Nat) (token : UInt64) (cb : κ) (call : s.calls.get? n = some (.storing token cb)) :
      Step s { s with
        registry := s.registry.put token cb
        calls := s.calls.set n (.checking token)
        arrivals := s.arrivals ++ [⟨token, cb, n⟩] }
  | late (n : Nat) (token : UInt64) (call : s.calls.get? n = some (.checking token))
      (closed : s.registry.closed = true) :
      Step s { s with calls := s.calls.set n (.revoking token) }
  | keep (n : Nat) (token : UInt64) (call : s.calls.get? n = some (.checking token))
      (isOpen : s.registry.closed = false) :
      Step s { s with calls := s.calls.set n (.inserted token) }
  | revoke (n : Nat) (token : UInt64) (call : s.calls.get? n = some (.revoking token)) :
      Step s (s.takeOut n token fun _ => .inserted token)
  | take (n : Nat) (token : UInt64) (free : s.calls.get? n = none) :
      Step s (s.takeOut n token (.took token))
  | mark (n : Nat) (free : s.calls.get? n = none) :
      Step s { s with registry := s.registry.shut, calls := s.calls.set n .marked }
  | look (n : Nat) (call : s.calls.get? n = some .marked) :
      Step s { s with calls := s.calls.set n (.looking s.registry.callbacks.keys []) }
  | see (n : Nat) (token : UInt64) (present seen : List UInt64)
      (call : s.calls.get? n = some (.looking present seen)) :
      Step s { s with calls := s.calls.set n (.looking present (seen ++ [token])) }
  | gather (n : Nat) (present seen : List UInt64)
      (call : s.calls.get? n = some (.looking present seen))
      (covered : ∀ t ∈ present, s.registry.callbacks.contains t → t ∈ seen) :
      Step s { s with calls := s.calls.set n (.emptying seen 0) }
  | remove (n : Nat) (token : UInt64) (rest : List UInt64) (count : Nat)
      (call : s.calls.get? n = some (.emptying (token :: rest) count)) :
      Step s (s.takeOut n token fun cb => .emptying rest (count + cb.toList.length))
  | leave (n : Nat) (count : Nat) (call : s.calls.get? n = some (.emptying [] count)) :
      Step s { s with calls := s.calls.set n (.closed count) }

lemma perform_step (s : Traffic κ) (act : Act κ) : Step s (s.perform act) := by
  cases act with
  | draw n cb =>
    simp only [perform]
    split
    · rename_i h
      exact .draw n cb h
    · exact .stay
  | store n =>
    simp only [perform]
    split
    · rename_i token cb h
      exact .store n token cb h
    · exact .stay
  | check n =>
    simp only [perform]
    split
    · rename_i token h
      split
      · rename_i hclosed
        exact .late n token h hclosed
      · rename_i hopen
        exact .keep n token h (by simpa using hopen)
    · exact .stay
  | revoke n =>
    simp only [perform]
    split
    · rename_i token h
      exact .revoke n token h
    · exact .stay
  | take n token =>
    simp only [perform]
    split
    · rename_i h
      exact .take n token h
    · exact .stay
  | mark n =>
    simp only [perform]
    split
    · rename_i h
      exact .mark n h
    · exact .stay
  | look n =>
    simp only [perform]
    split
    · rename_i h
      exact .look n h
    · exact .stay
  | see n token =>
    simp only [perform]
    split
    · rename_i present seen h
      exact .see n token present seen h
    · exact .stay
  | gather n =>
    simp only [perform]
    split
    · rename_i present seen h
      split
      · rename_i hcovered
        refine .gather n present seen h fun t ht hstored => ?_
        have hseen := List.all_eq_true.mp hcovered t ht
        simpa [hstored] using hseen
      · exact .stay
    · exact .stay
  | remove n =>
    simp only [perform]
    split
    · rename_i token rest count h
      exact .remove n token rest count h
    · rename_i count h
      exact .leave n count h
    · exact .stay

/-! ### What the registry sees -/

variable {s' : Traffic κ} {e : Errand κ}

def desk (s : Traffic κ) : Desk κ :=
  ⟨s.registry, s.drawn, fun n => (s.calls.get? n).bind Errand.stage⟩

lemma stage_of_get? {call : Option (Errand κ)} (h : s.calls.get? n = call) :
    s.desk.stage n = call.bind Errand.stage := congrArg (·.bind Errand.stage) h

lemma desk_of_set (hc : s'.calls = s.calls.set n e)
    (h : s.desk.Step ⟨s'.registry, s'.drawn, Function.update s.desk.stage n e.stage⟩) :
    s.desk.Step s'.desk := by
  have hstage : s'.desk.stage = Function.update s.desk.stage n e.stage := by
    funext m
    show (s'.calls.get? m).bind Errand.stage = _
    rw [hc, Function.update_apply, Table.get?_set]
    split <;> rfl
  rwa [← hstage] at h

lemma desk_of_same (hc : s'.calls = s.calls.set n e) (hstage : s.desk.stage n = e.stage)
    (h : s.desk.Step ⟨s'.registry, s'.drawn, s.desk.stage⟩) : s.desk.Step s'.desk :=
  desk_of_set hc (by rwa [← hstage, Function.update_eq_self])

lemma Step.desk (h : Step s s') : s.desk.Step s'.desk := by
  cases h with
  | stay => exact .stay
  | draw n cb free => exact desk_of_same rfl (stage_of_get? free) .draw
  | store n token cb call => exact desk_of_set rfl (.store n token cb (stage_of_get? call))
  | late n token call closed => exact desk_of_set rfl (.late n token (stage_of_get? call) closed)
  | keep n token call isOpen => exact desk_of_set rfl (.keep n token (stage_of_get? call) isOpen)
  | revoke n token call => exact desk_of_set rfl (.revoke n token (stage_of_get? call))
  | take n token free => exact desk_of_same rfl (stage_of_get? free) (.take token)
  | mark n free => exact desk_of_set rfl (.mark n (stage_of_get? free))
  | look n call => exact desk_of_set rfl (.look n (stage_of_get? call))
  | see n token present seen call => exact desk_of_same rfl (stage_of_get? call) .stay
  | gather n present seen call covered =>
    exact desk_of_set rfl (.gather n present seen (stage_of_get? call) covered)
  | remove n token rest count call =>
    exact desk_of_set rfl (.remove n token rest (stage_of_get? call))
  | leave n count call => exact desk_of_same rfl (stage_of_get? call) .stay

lemma reached (acts : List (Act κ)) : (run acts).desk.Reached := by
  induction acts using List.reverseRecOn with
  | nil => exact .start
  | append_singleton acts act ih =>
    rw [run_snoc]
    exact .step ih (perform_step _ act).desk

/-! ### Calls that nobody interrupts -/

def insertActs (n : Nat) (cb : κ) : List (Act κ) := [.draw n cb, .store n, .check n, .revoke n]

/-- **Inserting without interruption.** -/
theorem insert_alone (free : s.calls.get? n = none) (cb : κ) :
    let s' := (insertActs n cb).foldl perform s
    s'.registry = (s.registry.insert cb).2.2 ∧
    s'.calls.get? n = some (.inserted (s.registry.insert cb).1) ∧
    s'.departures = s.departures ++
      (s.registry.insert cb).2.1.toList.map (⟨(s.registry.insert cb).1, ·, n⟩) := by
  rcases hclosed : s.registry.closed with - | -
  · simp [insertActs, perform, free, hclosed, Registry.draw, Registry.put, Registry.insert,
      Registry.store]
  · simp [insertActs, perform, takeOut, free, hclosed, Registry.draw, Registry.put,
      Registry.insert, Registry.store]

def closeActs (n : Nat) (tokens : List UInt64) : List (Act κ) :=
  [.mark n, .look n] ++ tokens.map (.see n) ++ [.gather n] ++
    List.replicate (tokens.length + 1) (.remove n)

lemma see_alone {present : List UInt64} (seen tokens : List UInt64)
    (call : s.calls.get? n = some (.looking present seen)) :
    ∃ calls, (tokens.map (.see n)).foldl perform s = { s with calls } ∧
      calls.get? n = some (.looking present (seen ++ tokens)) := by
  induction tokens generalizing s seen with
  | nil => exact ⟨s.calls, rfl, by rw [call, List.append_nil]⟩
  | cons t ts ih =>
    have hstep : s.perform (.see n t) =
        { s with calls := s.calls.set n (.looking present (seen ++ [t])) } := by
      simp only [perform, call]
    obtain ⟨calls, hrun, hcalls⟩ := ih (s := s.perform (.see n t)) (seen ++ [t])
      (by rw [hstep]; exact Table.get?_set_self _ _ _)
    refine ⟨calls, ?_, by rw [hcalls, List.append_assoc]; rfl⟩
    rw [List.map_cons, List.foldl_cons, hrun, hstep]

lemma remove_alone {tokens : List UInt64} (count : Nat)
    (call : s.calls.get? n = some (.emptying tokens count)) :
    let s' := (List.replicate (tokens.length + 1) (.remove n)).foldl perform s
    s'.registry = (s.registry.takeAll tokens).2 ∧
    s'.calls.get? n = some (.closed (count + (s.registry.takeAll tokens).1.length)) := by
  induction tokens generalizing s count with
  | nil => simp [perform, call, Registry.takeAll]
  | cons t ts ih =>
    have hstep : s.perform (.remove n) =
        s.takeOut n t fun cb => .emptying ts (count + cb.toList.length) := by
      simp only [perform, call]
    obtain ⟨hregistry, hcall⟩ := ih (s := s.perform (.remove n)) _
      (by rw [hstep]; exact Table.get?_set_self _ _ _)
    rw [List.length_cons, List.replicate_succ, List.foldl_cons]
    rw [s.registry.takeAll_cons]
    refine ⟨hregistry.trans (by rw [hstep]; rfl), hcall.trans ?_⟩
    rw [hstep, List.length_append, ← Nat.add_assoc]
    rfl

/-- **Closing without interruption.** The call counts what it releases. -/
theorem close_alone (free : s.calls.get? n = none) :
    let s' := (closeActs n s.registry.callbacks.keys).foldl perform s
    s'.registry = s.registry.close.2 ∧
    s'.calls.get? n = some (.closed s.registry.close.1.length) := by
  set tokens := s.registry.callbacks.keys with htokens
  have hlook : [.mark n, .look n].foldl perform s =
      { s with
        registry := s.registry.shut
        calls := (s.calls.set n .marked).set n (.looking tokens []) } := by
    simp [perform, free, Registry.shut, htokens]
  obtain ⟨calls, hsee, hcalls⟩ := see_alone (s := [.mark n, .look n].foldl perform s) [] tokens
    (by rw [hlook]; exact Table.get?_set_self _ _ _)
  have hgather : perform { [.mark n, .look n].foldl perform s with calls } (.gather n) =
      { s with
        registry := s.registry.shut
        calls := calls.set n (.emptying tokens 0) } := by
    have hcovered : tokens.all (fun t => !s.registry.shut.callbacks.contains t ||
        ([] ++ tokens).contains t) = true :=
      List.all_eq_true.mpr fun t ht => by simp [ht]
    rw [hlook]
    simp only [perform, hcalls]
    rw [if_pos hcovered]
    rfl
  have hremove := remove_alone (n := n)
    (s := { s with
      registry := s.registry.shut
      calls := calls.set n (.emptying tokens 0) }) 0 (Table.get?_set_self _ _ _)
  rw [Nat.zero_add] at hremove
  rw [closeActs, List.foldl_append, List.foldl_append, List.foldl_append, hsee,
    List.foldl_cons, List.foldl_nil, hgather]
  exact hremove

end Traffic

end Verbs
