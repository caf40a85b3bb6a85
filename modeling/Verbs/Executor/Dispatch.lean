import Verbs.Callback
import Verbs.Executor

/-!
Dispatching: workers take completions from the queue one by one and run the callback registered
under each; a completion without a callback is skipped. Here they take turns, and nobody hands
anything over meanwhile: of all the orders in which workers may go on, this is the one in which the
queue is filled before any of them looks. A callback that joins lets the other workers empty the
queue before the outstanding callbacks are released. A worker without others, or one that comes
second, waits for nobody.
-/

namespace Verbs.Executor

def join (e : Executor Callback) : List Fate × Executor Callback :=
  let (callbacks, e) := { e with joined := true }.release
  (callbacks.map .released, e)

/-- Run a callback. The flag tells whether its worker now waits for the others. -/
def invoke (e : Executor Callback) (c : Completion) (cb : Callback) :
    List Fate × Bool × Executor Callback :=
  match cb with
  | .resolve _ | .labelled _ .note | .labelled _ .crash => ([.invoked cb c none], false, e)
  | .labelled label .chain =>
    let (token, released, e) := e.register (.labelled (Callback.chainedLabel label) .note)
    (.invoked cb c (some token) :: released.toList.map .released, false, e)
  | .labelled _ .shutdown => ([.invoked cb c none], false, e.shutdown)
  | .labelled _ .join =>
    let e := e.shutdown
    if 1 < e.workers ∧ ¬ e.joined then ([.invoked cb c none], true, { e with joined := true })
    else
      let (fates, e) := e.join
      (.invoked cb c none :: fates, false, e)

/-- Take one completion from the queue and run its callback; `none` where the queue is empty. -/
def dispatch? (e : Executor Callback) : Option (List Fate × Bool × Executor Callback) :=
  match e.queue.take with
  | (.item c, queue) =>
    match { e with queue }.cancel c.wrId with
    | (none, e) => some ([], false, e)
    | (some cb, e) => some (e.invoke c cb)
  | (.closed, _) | (.nothing, _) => none

/-- Dispatch the completions in the queue, `fuel` at most; then a waiting worker goes on. -/
def dispatchUpTo : (fuel : Nat) → (waiting : Bool) → Executor Callback →
    List Fate × Executor Callback
  | 0, true, e => e.join
  | 0, false, e => ([], e)
  | fuel + 1, waiting, e =>
    match e.dispatch? with
    | none => dispatchUpTo fuel waiting e
    | some (fates, waits, e) =>
      let (rest, e) := dispatchUpTo fuel (waiting || waits) e
      (fates ++ rest, e)

def dispatchAll (e : Executor Callback) : List Fate × Executor Callback :=
  dispatchUpTo e.queue.items.length false e

/-- Tear an executor down: it takes nothing more, handles what it took and releases the rest. -/
def tearDown (e : Executor Callback) : List Fate × Executor Callback :=
  let (fates, e) := e.shutdown.dispatchAll
  let (released, e) := e.join
  (fates ++ released, e)

end Verbs.Executor
