import Verbs.Completion
import Verbs.Error
import Verbs.Executor.Registry
import Verbs.Queue

/-!
Executors: a registry of callbacks, a queue of completions, and workers that take completions from
the queue and run the callback registered under each completion's number.
-/

namespace Verbs

/-- A dispatcher of completions to callbacks. -/
structure Executor (κ : Type) where
  workers : Nat
  queue : ClosableQueue Completion := {}
  registry : Registry κ := {}
  /-- Whether someone has already gone to wait for the workers. -/
  joined : Bool := false
  deriving Repr

namespace Executor

variable {κ : Type}

def defaultWorkers : Nat := 4

def start (workers : Nat) : Except IoError (Executor κ) :=
  if workers = 0 then .error (.ofText .invalidInput "executor needs at least one worker")
  else .ok { workers }

/-- The number of callbacks neither run nor released. -/
def pending (e : Executor κ) : Nat := e.registry.size

def isShutdown (e : Executor κ) : Bool := e.queue.closed

/-- Register a callback. The result is the number to post the request with, and the callback where
it is released at once. -/
def register (e : Executor κ) (cb : κ) : UInt64 × Option κ × Executor κ :=
  let (token, released, registry) := e.registry.insert cb
  (token, released, { e with registry })

/-- Take a callback back without running it. -/
def cancel (e : Executor κ) (token : UInt64) : Option κ × Executor κ :=
  let (cb, registry) := e.registry.take token
  (cb, { e with registry })

/-- Hand a completion to the workers; `none` once the executor is shut down. -/
def process? (e : Executor κ) (c : Completion) : Option (Executor κ) :=
  (e.queue.push? c).map fun queue => { e with queue }

/-- Hand completions to the workers until one is refused; the flag tells whether all were taken. -/
def processAll (e : Executor κ) : List Completion → Bool × Executor κ
  | [] => (true, e)
  | c :: cs =>
    match e.process? c with
    | none => (false, e)
    | some e => e.processAll cs

def shutdown (e : Executor κ) : Executor κ := { e with queue := e.queue.close }

/-- Release every outstanding callback, after the workers are gone. -/
def release (e : Executor κ) : List κ × Executor κ :=
  let (cbs, registry) := e.registry.close
  (cbs, { e with registry })

def record (e : Executor κ) : String :=
  Text.record "Executor"
    [("nr_workers", toString e.workers), ("pending", toString e.pending),
      ("closed", Text.bool e.isShutdown)]

end Executor

end Verbs
