import Verbs.Completion
import Verbs.Memory.Window

/-!
Work requests: one operation handed to a queue pair, with the list of local windows it works on. The
request's number comes back in its completion.
-/

namespace Verbs

/-- What a request on the send queue does. -/
inductive SendOp where
  /-- A message that consumes a receive of the peer. -/
  | send (imm : Option UInt32)
  /-- A write into peer memory; with immediate data it also consumes a receive of the peer. -/
  | write (remote : RemoteSlice) (imm : Option UInt32)
  /-- A read from peer memory. -/
  | read (remote : RemoteSlice)
  /-- A 64-bit compare-and-swap on peer memory. -/
  | compareSwap (remote : RemoteSlice) (compare swap : UInt64)
  /-- A 64-bit fetch-and-add on peer memory. -/
  | fetchAdd (remote : RemoteSlice) (add : UInt64)
  deriving DecidableEq, Repr

namespace SendOp

def opcode : SendOp → Opcode
  | send _ => .send
  | write _ _ => .rdmaWrite
  | read _ => .rdmaRead
  | compareSwap _ _ _ => .compSwap
  | fetchAdd _ _ => .fetchAdd

def isAtomic : SendOp → Bool
  | compareSwap _ _ _ | fetchAdd _ _ => true
  | send _ | write _ _ | read _ => false

/-- The peer memory that the operation names. -/
def remote? : SendOp → Option RemoteSlice
  | send _ => none
  | write r _ | read r | compareSwap r _ _ | fetchAdd r _ => some r

/-- The immediate data handed to the peer's receive. -/
def imm? : SendOp → Option UInt32
  | send imm | write _ imm => imm
  | read _ | compareSwap _ _ _ | fetchAdd _ _ => none

def record : SendOp → String
  | send imm => Text.record "Send" [("imm", Text.optional (imm.map toString))]
  | write r imm =>
    Text.record "Write" [("remote", r.record), ("imm", Text.optional (imm.map toString))]
  | read r => Text.record "Read" [("remote", r.record)]
  | compareSwap r compare swap =>
    Text.record "CompareSwap"
      [("remote", r.record), ("compare", toString compare), ("swap", toString swap)]
  | fetchAdd r add => Text.record "FetchAdd" [("remote", r.record), ("add", toString add)]

end SendOp

structure SendRequest where
  wrId : UInt64
  sgl : List LocalSlice
  op : SendOp
  deriving DecidableEq, Repr

structure RecvRequest where
  wrId : UInt64
  sgl : List LocalSlice
  deriving DecidableEq, Repr

end Verbs
