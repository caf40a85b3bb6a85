import Verbs.Callback
import Verbs.Error

/-!
Futures: the outcome of one posted request, which its callback brings in. A request whose callback
was released without a completion is cancelled.
-/

namespace Verbs

inductive FutureState where
  | pending
  | completed (completion : Completion)
  | cancelled
  deriving DecidableEq, Repr

/-- The outcome of one posted request. -/
structure Future where
  wrId : UInt64
  /-- Whether the request was a receive. -/
  receives : Bool
  state : FutureState := .pending
  deriving DecidableEq, Repr

/-- What a request that succeeded yields. -/
inductive Yield where
  | bytes (len : Nat)
  | received (len : Nat) (imm : Option UInt32)
  deriving DecidableEq, Repr

namespace Future

def result? (f : Future) : Option (Except Error Yield) :=
  match f.state with
  | .pending => none
  | .cancelled => some (.error .cancelled)
  | .completed c =>
    match c.result with
    | .error status => some (.error (.completion c.wrId status))
    | .ok len => some (.ok (if f.receives then .received len c.imm else .bytes len))

/-- The future after its callback ended in some way; a future is resolved once. -/
def settle (f : Future) (fate : Fate) : Future :=
  match f.state, fate with
  | .pending, .invoked _ c _ => { f with state := .completed c }
  | .pending, .released _ => { f with state := .cancelled }
  | .completed _, _ | .cancelled, _ => f

def record (f : Future) : String := Text.record "WrFuture" [("wr_id", toString f.wrId)]

end Future

end Verbs
