import Verbs.Session.Requests
import Verbs.Session.Settle

/-!
Steps on executors and pollers.
-/

namespace Verbs.Session

def addExecutor (id : String) (workers : Nat) : Act Answer := do
  let e ← orRefuse .io (Executor.start workers)
  let n ← fresh
  modify fun s =>
    { s with
      executors := s.executors.set n ⟨id, e⟩
      executorNames := s.executorNames.set id n }
  return .workers workers

def register (name label : String) (reaction : Reaction) : Act Answer := do
  let id ← executorId name
  let e ← executor id
  let (token, released, after) := e.executor.register (.labelled label reaction)
  modify (accountAll id e (released.toList.map .released) after)
  return .token token

/-- Hand a completion to an executor; the result tells whether it was taken. -/
def offer (id : ExecutorId) (c : Completion) : Act Bool := do
  match (← executor id).executor.process? c with
  | none => return false
  | some e =>
    setExecutor id e
    return true

def process (name : String) (c : Completion) : Act Answer := do
  if ← offer (← executorId name) c then return .done else throw .queueClosed

def cancel (name : String) (token : UInt64) : Act Answer := do
  let id ← executorId name
  let e ← executor id
  let (cancelled, after) := e.executor.cancel token
  modify (accountAll id e (cancelled.toList.map .released) after)
  return .flag cancelled.isSome

def executorState (ref : ExecutorRef) : Act Answer := do
  let id ← match ref with
    | .named name => executorId name
    | .ofQp qp =>
      match (← qpHandle qp).executor with
      | some id => pure id
      | none => throw (.unknown qp)
  let e := (← executor id).executor
  return .executor e.pending e.isShutdown e.workers

def shutdown (name : String) : Act Answer := do
  let id ← executorId name
  setExecutor id (← executor id).executor.shutdown
  return .done

/-- Wait for the workers of an executor and release its callbacks; before the shutdown this would
wait for ever. -/
def join (name : String) : Act Answer := do
  let id ← executorId name
  let e ← executor id
  if e.executor.isShutdown then
    let (fates, after) := e.executor.join
    modify (accountAll id e fates after)
    return .done
  else return .wouldBlock

/-- Give an executor up, unless a queue pair or a poller refers to it. -/
def dropExecutor (name : String) : Act Answer := do
  let id ← executorId name
  if (← get).isUsed id then return .inUse
  else
    modify fun s => { s with executorNames := s.executorNames.erase name }
    return .done

def pump (cqName executor : String) (mode : PollMode) : Act Answer := do
  let id ← executorId executor
  let cs ← pollCq cqName mode
  return .pumped (← cs.mapM fun c => return (c, ← offer id c))

/-- Stop a poller; the result holds the error it ended with, unless told before. -/
def stopThread (p : PollerHandle) : Act (Except IoError Unit) := do
  let (result, q) := Poller.stop p.status (← cq p.cq)
  setCq p.cq q
  return result

/-- Start a poller; the one that had the name is stopped. -/
def addPoller (id cqName executor : String) (batch : Nat) : Act Answer := do
  let n ← cqId cqName
  let e ← executorId executor
  match (← cq n).claim? with
  | none => throw (.poller .alreadyPolled)
  | some q =>
    setCq n q
    let old := (← get).pollers.get? id
    modify fun s => { s with pollers := s.pollers.set id { cq := n, executor := e, batch } }
    old.forM fun p => do
      let _ ← stopThread p
    return .capacity (q.capacity (← get).device)

def stopPoller (name : String) : Act Answer := do
  let p ← pollerHandle name
  let result ← stopThread p
  modify fun s => { s with pollers := s.pollers.set name { p with status := .stopped } }
  orRefuse (.error ∘ .poll) result
  return .done

/-- Stop a poller and forget it. -/
def dropPoller (name : String) : Act Answer := do
  let p ← pollerHandle name
  modify fun s => { s with pollers := s.pollers.erase name }
  let _ ← stopThread p
  return .done

def pollerState (name : String) : Act Answer := do
  let p ← pollerHandle name
  return .poller p.status.isGone (← cq p.cq).claimed

def claimed (name : String) : Act Answer := do
  return .flag (← cq (← cqId name)).claimed

end Verbs.Session
