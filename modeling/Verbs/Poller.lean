import Verbs.CompletionQueue
import Verbs.Executor

/-!
Pollers: a thread that moves completions from one queue to one executor, in batches. It ends when
it is told to stop, when polling fails, or when the executor takes no more; what it had polled and
not handed over by then is lost. A thread that breaks down leaves its claim behind until it is
stopped.
-/

namespace Verbs

inductive PollerStatus where
  | running
  /-- The thread has ended by itself, perhaps with an error that nobody was told yet. -/
  | ended (error : Option IoError)
  /-- The thread has broken down. -/
  | crashed
  /-- The poller was stopped. -/
  | stopped
  deriving DecidableEq, Repr

namespace PollerStatus

def isGone : PollerStatus → Bool
  | running => false
  | ended _ | crashed | stopped => true

end PollerStatus

namespace Poller

variable {κ : Type}

def defaultBatch : Nat := 16

/-- One round of a running poller: poll one batch and hand it over. -/
def round (batch : Nat) (q : CompletionQueue) (e : Executor κ) (d : Device) :
    PollerStatus × CompletionQueue × Executor κ × Device :=
  match q.poll d (max 1 batch) with
  | .error (.fault _) => (.crashed, q, e, d)
  | .error (.io error) => (.ended (some error), q.release, e, d)
  | .ok (cs, q, d) =>
    match e.processAll cs with
    | (true, e) => (.running, q, e, d)
    | (false, e) => (.ended none, q.release, e, d)

/-- Rounds until the queue is empty or the poller ends, `fuel` at most. Each round takes a
completion, so the backlog is fuel enough for all, and one round more meets an error that waits
behind them. -/
def rounds (batch : Nat) : (fuel : Nat) → CompletionQueue → Executor κ → Device →
    PollerStatus × CompletionQueue × Executor κ × Device
  | 0, q, e, d => (.running, q, e, d)
  | fuel + 1, q, e, d =>
    match round batch q e d with
    | (.running, q, e, d) => rounds batch fuel q e d
    | ended => ended

/-- Rounds until the queue is empty or the poller ends. -/
def drain (batch : Nat) (q : CompletionQueue) (e : Executor κ) (d : Device) :
    PollerStatus × CompletionQueue × Executor κ × Device :=
  rounds batch (q.backlog d + 1) q e d

/-- Stop a poller. An error that its thread ended with is told now, once; a claim that is still
held is released. -/
def stop (status : PollerStatus) (q : CompletionQueue) : Except IoError Unit × CompletionQueue :=
  match status with
  | .running | .crashed => (.ok (), q.release)
  | .ended (some error) => (.error error, q)
  | .ended none | .stopped => (.ok (), q)

end Poller

end Verbs
