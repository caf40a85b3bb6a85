import Verbs.Queue

/-!
A queue with threads that wait in it. A thread that finds the queue open and empty falls asleep; a
push wakes one sleeper and closing wakes all, each in a step of its own after the change, and a
woken thread looks again. `push`, `close` and `wait` run these steps until no thread is left to
look.
-/

namespace Verbs

/-- A queue, the threads asleep in it, the threads about to look, and the wake-ups still owed. -/
structure Sleepers (α : Type) where
  queue : ClosableQueue α := {}
  asleep : Nat := 0
  awake : Nat := 0
  owedOne : Nat := 0
  owedAll : Nat := 0
  deriving DecidableEq, Repr

namespace Sleepers

variable {α : Type}

def enter (s : Sleepers α) : Sleepers α := { s with awake := s.awake + 1 }

/-- A thread that is awake looks into the queue: it leaves with an item, or because the queue is
closed, or falls asleep. -/
def look (s : Sleepers α) : Taken α × Sleepers α :=
  match s.queue.take with
  | (.nothing, queue) => (.nothing, { s with queue, awake := s.awake - 1, asleep := s.asleep + 1 })
  | (t, queue) => (t, { s with queue, awake := s.awake - 1 })

def append? (s : Sleepers α) (a : α) : Option (Sleepers α) :=
  (s.queue.push? a).map fun queue => { s with queue, owedOne := s.owedOne + 1 }

/-- Wake one sleeper, if there is any. -/
def wakeOne (s : Sleepers α) : Sleepers α :=
  { s with asleep := s.asleep - 1, awake := s.awake + min 1 s.asleep, owedOne := s.owedOne - 1 }

/-- Close the queue; a wake-up of all is owed. -/
def shut (s : Sleepers α) : Sleepers α :=
  { s with queue := s.queue.close, owedAll := s.owedAll + 1 }

def wakeAll (s : Sleepers α) : Sleepers α :=
  { s with asleep := 0, awake := s.awake + s.asleep, owedAll := s.owedAll - 1 }

/-- A sleeper wakes for no reason. -/
def stir (s : Sleepers α) : Sleepers α :=
  { s with asleep := s.asleep - 1, awake := s.awake + min 1 s.asleep }

/-- Let `n` threads look one after another; the result holds what those that leave got. -/
def lookAll (s : Sleepers α) : Nat → List (Taken α) × Sleepers α
  | 0 => ([], s)
  | n + 1 =>
    match s.look with
    | (.nothing, s) => s.lookAll n
    | (t, s) =>
      let (ts, s) := s.lookAll n
      (t :: ts, s)

/-- Append an item and let the thread it wakes go on; `none` where the queue is closed. -/
def push? (s : Sleepers α) (a : α) : Option (List (Taken α) × Sleepers α) :=
  (s.append? a).map fun s =>
    let s := s.wakeOne
    s.lookAll s.awake

/-- Close the queue and let every thread go on. -/
def close (s : Sleepers α) : List (Taken α) × Sleepers α :=
  let s := s.shut.wakeAll
  s.lookAll s.awake

/-- Let `n` threads come one after another. -/
def wait (s : Sleepers α) : Nat → List (Taken α) × Sleepers α
  | 0 => ([], s)
  | n + 1 =>
    let s := s.enter
    let (first, s) := s.lookAll s.awake
    let (ts, s) := s.wait n
    (first ++ ts, s)

def take (s : Sleepers α) : Taken α × Sleepers α :=
  let (t, queue) := s.queue.take
  (t, { s with queue })

end Sleepers

end Verbs
