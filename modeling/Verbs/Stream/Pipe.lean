import Verbs.Stream

/-!
Pipes in memory: bytes in order, up to a capacity. A pipe is closed when its writer ends its half or
goes, or its reader goes; what it holds can still be read, and a write to it fails.
-/

namespace Verbs

structure Pipe where
  capacity : Nat
  content : Bytes := []
  closed : Bool := false
  deriving DecidableEq, Repr

namespace Pipe

/-- Read up to `n` bytes; an empty pipe that is still open makes the reader wait. -/
def read (p : Pipe) (n : Nat) : Option (Except IoError Bytes × Pipe) :=
  if p.content = [] then if p.closed then some (.ok [], p) else none
  else some (.ok (p.content.take n), { p with content := p.content.drop n })

/-- Write as many bytes as fit; a full pipe makes the writer wait. -/
def write (p : Pipe) (data : Bytes) : Option (Except IoError Nat × Pipe) :=
  if p.closed then some (.error (.kind .brokenPipe none), p)
  else if p.capacity ≤ p.content.length then none
  else
    let n := min data.length (p.capacity - p.content.length)
    some (.ok n, { p with content := p.content ++ data.take n })

def close (p : Pipe) : Pipe := { p with closed := true }

end Pipe

structure PipeEnd where
  incoming : Pipe
  outgoing : Pipe
  deriving DecidableEq, Repr

namespace PipeEnd

def stream : Stream PipeEnd where
  read e n := (e.incoming.read n).map fun (r, incoming) => (r, { e with incoming })
  write e data := (e.outgoing.write data).map fun (r, outgoing) => (r, { e with outgoing })
  shutdown e := (.ok (), { e with outgoing := e.outgoing.close })

/-- The end after its owner is gone: nothing more comes through either pipe. -/
def abandon (e : PipeEnd) : PipeEnd := ⟨e.incoming.close, e.outgoing.close⟩

end PipeEnd

end Verbs
