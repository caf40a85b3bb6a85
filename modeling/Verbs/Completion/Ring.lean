import Verbs.Completion
import Verbs.IoError

/-!
The completion ring: a first-in first-out queue of bounded depth. A completion that finds the ring
full is lost, and from then on every poll fails.
-/

namespace Verbs

/-- A bounded queue of completions. -/
structure Ring where
  depth : UInt32
  entries : List Completion := []
  overrun : Bool := false
  deriving DecidableEq, Repr

namespace Ring

/-- Append a completion; a full ring loses it and stays overrun. -/
def push (r : Ring) (c : Completion) : Ring :=
  if r.depth.toNat ≤ r.entries.length then { r with overrun := true }
  else { r with entries := r.entries ++ [c] }

/-- Take the oldest completions, `n` at most. -/
def poll (r : Ring) (n : Nat) : Except IoError (List Completion × Ring) :=
  if r.overrun then .error .queueOverrun
  else .ok (r.entries.take n, { r with entries := r.entries.drop n })

end Ring

end Verbs
