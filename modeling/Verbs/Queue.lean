/-!
A first-in first-out queue that can be closed. A closed queue takes nothing more, and hands out what
it holds before it reports that it is closed.
-/

namespace Verbs

/-- A queue with a terminal closed state. -/
structure ClosableQueue (α : Type) where
  items : List α := []
  closed : Bool := false
  deriving DecidableEq, Repr

inductive Taken (α : Type) where
  | item (a : α)
  /-- The queue is closed and handed out everything. -/
  | closed
  /-- The queue is open and holds nothing. -/
  | nothing
  deriving DecidableEq, Repr

namespace ClosableQueue

variable {α : Type}

instance : Inhabited (ClosableQueue α) := ⟨{}⟩

/-- Append an item; a closed queue refuses it. -/
def push? (q : ClosableQueue α) (a : α) : Option (ClosableQueue α) :=
  if q.closed then none else some { q with items := q.items ++ [a] }

def take (q : ClosableQueue α) : Taken α × ClosableQueue α :=
  match q.items with
  | a :: rest => (.item a, { q with items := rest })
  | [] => (if q.closed then .closed else .nothing, q)

def close (q : ClosableQueue α) : ClosableQueue α := { q with closed := true }

end ClosableQueue

end Verbs
