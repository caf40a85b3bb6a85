import Mathlib.Logic.Function.Basic
import Mathlib.Tactic
import Verbs.Future
import Verbs.Proofs.Device.Once
import Verbs.Proofs.Executor.Growth

/-!
The way of a completion. Requests are posted under tokens that executors gave out; the device pushes
completions into rings, pollers move them in batches to the executors that the rings serve, and
workers run the callbacks, which resolve futures. All of them go on in any order.
-/

namespace Verbs

/-- Requests, completions and futures under way. -/
structure Pipeline where
  /-- What was done with the device. -/
  ops : List Operation := []
  crews : ExecutorId → Crew Callback
  /-- What pollers have taken and not handed over, with the ring that it comes from. -/
  batches : Table Nat (List (CqId × Completion)) := {}
  /-- The futures that were made, with the executor that is to resolve them. -/
  futures : Table FutureId (ExecutorId × Future) := {}
  /-- What pollers have handed over. -/
  handed : List (CqId × Completion) := []
  /-- What a poller still had when its executor took no more. -/
  lost : List (CqId × Completion) := []

def Work.operation (qp : QpId) (wrId : UInt64) : Work → Operation
  | .send sgl op => .postSend qp ⟨wrId, sgl, op⟩
  | .recv sgl => .postRecv qp ⟨wrId, sgl⟩

def Work.cq (q : QueuePair) : Work → CqId
  | .send _ _ => q.sendCq
  | .recv _ => q.recvCq

/-- The future that an event resolves, and how. -/
def CrewEvent.fate? : CrewEvent Callback → Option (FutureId × Fate)
  | .invoked c (.resolve f) => some (f, .invoked (.resolve f) c none)
  | .released _ (.resolve f) _ => some (f, .released (.resolve f))
  | _ => none

namespace Pipeline

/-- What can happen. Work is posted under a token, and the callback of a future is registered by a
call of its own; everything else that threads do with an executor is a move of its crew. -/
inductive Act where
  | device (op : Operation)
  | submit (e : ExecutorId) (call : Nat) (f : FutureId) (receives : Bool)
  | crew (e : ExecutorId) (m : Move Callback)
  | post (qp : QpId) (token : UInt64) (w : Work)
  | poll (poller : Nat) (cq : CqId) (n : Nat)
  | hand (poller : Nat)

def device (s : Pipeline) : Device := Device.run s.ops

/-- Whether anyone may do this with the device. Requests are posted and rings are polled in their
own way; queue pairs are made with rings that exist. -/
def permits (d : Device) : Operation → Bool
  | .poll _ _ | .postSend _ _ | .postRecv _ _ => false
  | .createQp plan =>
    match plan.sendCq, plan.recvCq with
    | some sendCq, some recvCq => d.rings.contains sendCq && d.rings.contains recvCq
    | _, _ => true
  | _ => true

/-- Whether a move of a crew is none of the pipeline's own: it hands over no completion and
registers no callback of a future. -/
def isFree : Move Callback → Bool
  | .process _ | .draw _ (.resolve _) => false
  | _ => true

def account (futures : Table FutureId (ExecutorId × Future)) (event : CrewEvent Callback) :
    Table FutureId (ExecutorId × Future) :=
  match event.fate? with
  | some (f, fate) => futures.modify f fun (e, future) => (e, future.settle fate)
  | none => futures

/-- A crew makes a move; futures learn what became of their callbacks. -/
def advance (s : Pipeline) (e : ExecutorId) (m : Move Callback) : Pipeline :=
  let crew := (s.crews e).perform m
  { s with
    crews := Function.update s.crews e crew
    futures := (crew.log.drop (s.crews e).log.length).foldl account s.futures }

/-- Whether a token that an executor gave out can be used: its registration has returned, and
nothing was posted under it. -/
def isUsable (serves : CqId → ExecutorId) (s : Pipeline) (e : ExecutorId) (token : UInt64) : Bool :=
  .returned token ∈ (s.crews e).log ∧
    ∀ p ∈ Device.accepted s.ops, ¬ (serves p.cq = e ∧ p.wrId = token)

variable (serves : CqId → ExecutorId)

def perform (s : Pipeline) : Act → Pipeline
  | .device op => if permits s.device op then { s with ops := s.ops ++ [op] } else s
  | .submit e n f receives =>
    match s.futures.get? f, (s.crews e).calls.get? n with
    | none, none =>
      { s with
        crews := Function.update s.crews e ((s.crews e).perform (.draw n (.resolve f)))
        futures := s.futures.set f
          (e, { wrId := (s.crews e).executor.registry.next, receives }) }
    | _, _ => s
  | .crew e m => if isFree m then s.advance e m else s
  | .post qp token w =>
    match s.device.qps.get? qp with
    | some q =>
      if isUsable serves s (serves (w.cq q)) token then
        { s with ops := s.ops ++ [w.operation qp token] }
      else s
    | none => s
  | .poll i cq n =>
    match s.batches.get? i with
    | none | some [] =>
      match CompletionQueue.poll { source := .ring cq } s.device n with
      | .ok (cs, _, _) =>
        { s with
          ops := s.ops ++ [.poll cq n]
          batches := s.batches.set i (cs.map (cq, ·)) }
      | .error _ => s
    | some (_ :: _) => s
  | .hand i =>
    match s.batches.get? i with
    | some ((cq, c) :: rest) =>
      if ((s.crews (serves cq)).executor.process? c).isSome then
        { s with
          crews := Function.update s.crews (serves cq)
            ((s.crews (serves cq)).perform (.process c))
          batches := s.batches.set i rest
          handed := s.handed ++ [(cq, c)] }
      else { s with batches := s.batches.set i [], lost := s.lost ++ ((cq, c) :: rest) }
    | _ => s

def start (workers : ExecutorId → Nat) : Pipeline where
  crews e := Crew.start (workers e)

def run (workers : ExecutorId → Nat) (acts : List Act) : Pipeline :=
  acts.foldl (perform serves) (start workers)

lemma run_snoc (workers : ExecutorId → Nat) (acts : List Act) (a : Act) :
    run serves workers (acts ++ [a]) = (run serves workers acts).perform serves a := by
  simp [run]

variable {serves} {s s' : Pipeline}

/-! ### What can happen -/

inductive Step (serves : CqId → ExecutorId) (s : Pipeline) : Pipeline → Prop where
  | stay : Step serves s s
  | device (op : Operation) (permitted : permits s.device op = true) :
      Step serves s { s with ops := s.ops ++ [op] }
  | submit (e : ExecutorId) (n : Nat) (f : FutureId) (receives : Bool)
      (new : s.futures.get? f = none) (free : (s.crews e).calls.get? n = none) :
      Step serves s { s with
        crews := Function.update s.crews e ((s.crews e).perform (.draw n (.resolve f)))
        futures := s.futures.set f
          (e, { wrId := (s.crews e).executor.registry.next, receives }) }
  | crew (e : ExecutorId) (m : Move Callback) (free : isFree m = true) :
      Step serves s (s.advance e m)
  | post (qp : QpId) (token : UInt64) (w : Work) (q : QueuePair)
      (found : s.device.qps.get? qp = some q)
      (usable : isUsable serves s (serves (w.cq q)) token = true) :
      Step serves s { s with ops := s.ops ++ [w.operation qp token] }
  | poll (i : Nat) (cq : CqId) (n : Nat) (cs : List Completion) (source : CompletionQueue)
      (d : Device) (idle : s.batches.get? i = none ∨ s.batches.get? i = some [])
      (polled : CompletionQueue.poll { source := .ring cq } s.device n = .ok (cs, source, d)) :
      Step serves s { s with
        ops := s.ops ++ [.poll cq n]
        batches := s.batches.set i (cs.map (cq, ·)) }
  | hand (i : Nat) (cq : CqId) (c : Completion) (rest : List (CqId × Completion))
      (batch : s.batches.get? i = some ((cq, c) :: rest))
      (taken : ((s.crews (serves cq)).executor.process? c).isSome = true) :
      Step serves s { s with
        crews := Function.update s.crews (serves cq)
          ((s.crews (serves cq)).perform (.process c))
        batches := s.batches.set i rest
        handed := s.handed ++ [(cq, c)] }
  | lose (i : Nat) (cq : CqId) (c : Completion) (rest : List (CqId × Completion))
      (batch : s.batches.get? i = some ((cq, c) :: rest))
      (refused : (s.crews (serves cq)).executor.queue.closed = true) :
      Step serves s { s with
        batches := s.batches.set i []
        lost := s.lost ++ ((cq, c) :: rest) }

lemma perform_step (serves : CqId → ExecutorId) (s : Pipeline) (a : Act) :
    Step serves s (s.perform serves a) := by
  cases a with
  | device op =>
    simp only [perform]
    split
    · rename_i h
      exact .device op h
    · exact .stay
  | submit e n f receives =>
    simp only [perform]
    split
    · rename_i hf hn
      exact .submit e n f receives hf hn
    · exact .stay
  | crew e m =>
    simp only [perform]
    split
    · rename_i h
      exact .crew e m h
    · exact .stay
  | post qp token w =>
    simp only [perform]
    split
    · rename_i q hq
      split
      · rename_i h
        exact .post qp token w q hq h
      · exact .stay
    · exact .stay
  | poll i cq n =>
    have hpoll : (s.batches.get? i = none ∨ s.batches.get? i = some []) → Step serves s
        (match CompletionQueue.poll { source := .ring cq } s.device n with
        | .ok (cs, _, _) =>
          { s with
            ops := s.ops ++ [.poll cq n]
            batches := s.batches.set i (cs.map (cq, ·)) }
        | .error _ => s) := by
      intro hidle
      split
      · rename_i cs source d h
        exact .poll i cq n cs source d hidle h
      · exact .stay
    simp only [perform]
    split
    · rename_i h
      exact hpoll (Or.inl h)
    · rename_i h
      exact hpoll (Or.inr h)
    · exact .stay
  | hand i =>
    simp only [perform]
    split
    · rename_i cq c rest h
      split
      · rename_i htaken
        exact .hand i cq c rest h htaken
      · rename_i hrefused
        refine .lose i cq c rest h ?_
        by_contra hopen
        exact hrefused (by simp [Executor.process?, ClosableQueue.push?, hopen])
    · exact .stay

end Pipeline

end Verbs
