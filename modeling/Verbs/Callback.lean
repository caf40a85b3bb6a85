import Verbs.Completion
import Verbs.Names

/-!
Callbacks: what is run when the completion of a request comes in. A callback resolves a future, or
carries a label under which its fate is noted, and may act on the executor that runs it.
-/

namespace Verbs

/-- What a labelled callback does when it is run. -/
inductive Reaction where
  | note
  /-- It breaks down; the worker that runs it goes on. -/
  | crash
  /-- It registers a further callback, labelled with a plus sign behind its own label. -/
  | chain
  /-- It shuts the executor down. -/
  | shutdown
  /-- It shuts the executor down and waits for the other workers. -/
  | join
  deriving DecidableEq, Repr

inductive Callback where
  | resolve (future : FutureId)
  | labelled (label : String) (reaction : Reaction)
  deriving DecidableEq, Repr

inductive Fate where
  /-- It was run; if it registered a further callback, the number of that. -/
  | invoked (callback : Callback) (completion : Completion) (chained : Option UInt64)
  | released (callback : Callback)
  deriving DecidableEq, Repr

/-- The label of the callback that a chaining callback registers. -/
def Callback.chainedLabel (label : String) : String := label ++ "+"

end Verbs
