import Verbs.Device

/-!
Completion queues as they are polled. Behind a queue stands a ring of the device, or a script that a
test fills and breaks at will. A queue is polled by one poller at a time, which claims it.
-/

namespace Verbs

/-- A completion source that is filled by hand, and can be made to fail or to break down. -/
structure ScriptedCq where
  capacity : UInt32
  entries : List Completion := []
  errno : Option Nat := none
  broken : Bool := false
  deriving DecidableEq, Repr

def ScriptedCq.poll (s : ScriptedCq) (n : Nat) : Except CallError (List Completion × ScriptedCq) :=
  if s.broken then .error (.fault .brokenSource)
  else
    match s.errno with
    | some e => .error (.io (.os e))
    | none => .ok (s.entries.take n, { s with entries := s.entries.drop n })

inductive CqSource where
  | ring (id : CqId)
  | scripted (script : ScriptedCq)
  deriving DecidableEq, Repr

/-- A completion queue and whether a poller has claimed it. -/
structure CompletionQueue where
  source : CqSource
  claimed : Bool := false
  deriving DecidableEq, Repr

inductive PollMode where
  /-- For as many completions as the queue can hold. -/
  | all
  /-- For one completion. -/
  | one
  /-- For some completions at most. -/
  | upTo (n : UInt32)
  /-- Into a buffer of the caller's own. -/
  | into (buffer : List Completion)
  deriving DecidableEq, Repr

def PollMode.limit (capacity : UInt32) : PollMode → Nat
  | all => capacity.toNat
  | one => 1
  | upTo n => n.toNat
  | into buffer => buffer.length

namespace CompletionQueue

/-- The depth of a queue that is made without one. -/
def defaultDepth : UInt32 := 128

def capacity (q : CompletionQueue) (d : Device) : UInt32 :=
  match q.source with
  | .ring id =>
    match d.rings.get? id with
    | some r => r.depth
    | none => 0
  | .scripted s => s.capacity

def backlog (q : CompletionQueue) (d : Device) : Nat :=
  match q.source with
  | .ring id =>
    match d.rings.get? id with
    | some r => r.entries.length
    | none => 0
  | .scripted s => s.entries.length

/-- Take the oldest completions, `n` at most; asking for none leaves the source alone. -/
def poll (q : CompletionQueue) (d : Device) (n : Nat) :
    Except CallError (List Completion × CompletionQueue × Device) :=
  if n = 0 then .ok ([], q, d)
  else
    match q.source with
    | .ring id =>
      match d.rings.get? id with
      | none => .ok ([], q, d)
      | some r =>
        match r.poll n with
        | .error e => .error (.io e)
        | .ok (cs, r) => .ok (cs, q, { d with rings := d.rings.set id r })
    | .scripted s => (s.poll n).map fun (cs, s) => (cs, { q with source := .scripted s }, d)

/-- A poll takes no more than it asks for, and leaves the claim alone. -/
theorem poll_ok {q q' : CompletionQueue} {d d' : Device} {n : Nat} {cs : List Completion}
    (h : q.poll d n = .ok (cs, q', d')) : cs.length ≤ n ∧ q'.claimed = q.claimed := by
  unfold poll at h
  split at h
  · cases h
    exact ⟨Nat.zero_le n, rfl⟩
  · split at h
    · split at h
      · cases h
        exact ⟨Nat.zero_le n, rfl⟩
      · rename_i r _
        by_cases hoverrun : r.overrun = true
        · simp [Ring.poll, hoverrun] at h
        · simp only [Ring.poll, if_neg hoverrun] at h
          cases h
          exact ⟨List.length_take_le _ _, rfl⟩
    · rename_i s _
      by_cases hbroken : s.broken = true
      · simp [ScriptedCq.poll, hbroken, Except.map] at h
      · cases herrno : s.errno <;> simp only [ScriptedCq.poll, if_neg hbroken, herrno] at h <;>
          cases h
        exact ⟨List.length_take_le _ _, rfl⟩

/-- Poll into a buffer: the completions taken stand in its first slots and are counted, and the
other slots are as they were. -/
def pollInto (q : CompletionQueue) (d : Device) (buffer : List Completion) :
    Except CallError (Nat × List Completion × CompletionQueue × Device) :=
  (q.poll d buffer.length).map fun (cs, q, d) =>
    (cs.length, cs ++ buffer.drop cs.length, q, d)

def pollOne (q : CompletionQueue) (d : Device) :
    Except CallError (Option Completion × CompletionQueue × Device) := do
  let (count, buffer, q, d) ← q.pollInto d [default]
  return (if 0 < count then buffer.head? else none, q, d)

/-- Poll `n` completions at most, into a buffer of `n` slots that is then cut to those taken. -/
def pollSome (q : CompletionQueue) (d : Device) (n : UInt32) :
    Except CallError (List Completion × CompletionQueue × Device) := do
  let (count, buffer, q, d) ← q.pollInto d (List.replicate n.toNat default)
  return (buffer.take count, q, d)

/-- Poll as many completions as the queue can hold. -/
def pollAll (q : CompletionQueue) (d : Device) :
    Except CallError (List Completion × CompletionQueue × Device) :=
  q.pollSome d (q.capacity d)

/-- Poll in the way the caller asks for; the result holds the completions taken. -/
def pollBy (q : CompletionQueue) (d : Device) :
    PollMode → Except CallError (List Completion × CompletionQueue × Device)
  | .all => q.pollAll d
  | .one => (q.pollOne d).map fun (c, q, d) => (c.toList, q, d)
  | .upTo n => q.pollSome d n
  | .into buffer => (q.pollInto d buffer).map fun (count, buffer, q, d) =>
      (buffer.take count, q, d)

/-- Claim the queue for a poller; only one can hold it. -/
def claim? (q : CompletionQueue) : Option CompletionQueue :=
  if q.claimed then none else some { q with claimed := true }

/-- Give the claim up. -/
def release (q : CompletionQueue) : CompletionQueue := { q with claimed := false }

def record (q : CompletionQueue) (d : Device) : String :=
  Text.record "Cq"
    [("capacity", toString (q.capacity d)), ("claimed", Text.bool q.claimed)]

end CompletionQueue

end Verbs
