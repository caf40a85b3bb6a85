import Verbs.Session.State

/-!
Between two steps a session comes to rest: running pollers move what is in their completion queues,
executors run the callbacks, and an executor that nothing refers to any more is torn down. Events of
the step are then put in order.
-/

namespace Verbs.Session

/-- Let a poller run until its queue is empty or it ends. -/
def settlePoller (s : Session) (name : String) : Session :=
  match s.pollers.get? name with
  | none => s
  | some p =>
    match p.status, s.cqs.get? p.cq, s.executors.get? p.executor with
    | .running, some q, some e =>
      let (status, q, executor, device) := Poller.drain p.batch q e.executor s.device
      { s with
        device
        cqs := s.cqs.set p.cq q
        executors := s.executors.set p.executor { e with executor }
        pollers := s.pollers.set name { p with status } }
    | _, _, _ => s

/-- Let the workers of an executor run until its queue is empty. -/
def settleExecutor (s : Session) (id : ExecutorId) : Session :=
  match s.executors.get? id with
  | none => s
  | some e =>
    let (fates, after) := e.executor.dispatchAll
    s.accountAll id e fates after

def isUsed (s : Session) (id : ExecutorId) : Bool :=
  s.qps.values.any (·.executor = some id) ||
    s.pollers.values.any fun p => p.executor = id && ! p.status.isGone

/-- Tear an executor down if nothing refers to it any more. -/
def reap (s : Session) (id : ExecutorId) : Session :=
  if s.isUsed id || s.executorNames.values.any (· = id) then s
  else
    match s.executors.get? id with
    | none => s
    | some e =>
      let (fates, after) := e.executor.tearDown
      let s := s.accountAll id e fates after
      { s with executors := s.executors.erase id }

def settle (s : Session) : Session :=
  let s := s.pollers.keys.foldl settlePoller s
  let s := s.executors.keys.foldl settleExecutor s
  s.executors.keys.foldl reap s

/-- Where a notice stands among the notices of its executor: runs come before releases, and where
one worker runs all, runs keep their order. -/
def Notice.rank (n : Notice) : Nat × String :=
  match n.event with
  | .invoked label _ _ => (0, if n.workers = 1 then "" else label)
  | .released label => (1, label)

def Notice.precedes (m n : Notice) : Bool :=
  m.executor < n.executor ||
    m.executor == n.executor &&
      (m.rank.1 < n.rank.1 || m.rank.1 == n.rank.1 && ! decide (n.rank.2 < m.rank.2))

def orderedEvents (s : Session) : List Event :=
  (s.notices.mergeSort Notice.precedes).map (·.event)

end Verbs.Session
