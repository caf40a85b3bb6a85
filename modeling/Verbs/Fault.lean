/-!
Faults: calls that end without a result, because a number would leave its width, an index is out
of range, or the caller broke a rule. A fault leaves the state as the call found it, unless the
operation says otherwise.
-/

namespace Verbs

/-- Why a call ended without a result. -/
inductive Fault where
  /-- A sum does not fit its width. -/
  | overflow
  /-- A byte range does not lie in its region. -/
  | outOfRange
  /-- The queue pair already has a peer. -/
  | alreadyBound
  /-- The completion source broke down while it was polled. -/
  | brokenSource
  deriving DecidableEq, Repr

namespace Fault

/-- The words a fault is reported with, where it has any of its own. -/
def message? : Fault → Option String
  | .alreadyBound => some "QP already bound to a remote peer"
  | .overflow | .outOfRange | .brokenSource => none

end Fault

end Verbs
