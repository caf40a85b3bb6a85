import Verbs.Bytes
import Verbs.Names
import Verbs.QueuePair.Caps
import Verbs.QueuePair.Endpoint
import Verbs.QueuePair.State
import Verbs.Request

/-!
Queue pairs as the device holds them: state, peer, receives waiting for messages and messages
waiting for receives. Every accepted request has a posting number of its own, which tells apart
requests that carry the same request number.
-/

namespace Verbs

/-- A receive waiting for a message. -/
structure Receive where
  posting : Nat
  wrId : UInt64
  sgl : List LocalSlice
  deriving DecidableEq, Repr

/-- What a message carries: the data of a send, or the length of a write that was already carried
out. -/
inductive Payload where
  | data (bytes : Bytes)
  | written (len : Nat)
  deriving DecidableEq, Repr

def Payload.length : Payload → Nat
  | data bytes => bytes.length
  | written len => len

/-- A message on its way to a receive, and where its outcome is to be reported. -/
structure Message where
  posting : Nat
  payload : Payload
  imm : Option UInt32
  wrId : UInt64
  opcode : Opcode
  sender : QpId
  senderCq : CqId
  deriving DecidableEq, Repr

/-- A completion for a ring, with the posting it belongs to. -/
structure Report where
  posting : Nat
  cq : CqId
  completion : Completion
  deriving DecidableEq, Repr

def Message.report (m : Message) (s : Status) : Report where
  posting := m.posting
  cq := m.senderCq
  completion :=
    { wrId := m.wrId
      status := s
      opcode := m.opcode
      byteLen := if s.isSuccess then UInt32.ofNat m.payload.length else 0 }

/-- A queue pair on a network adapter. -/
structure QueuePair where
  fabric : FabricId
  nic : NicId
  endpoint : Endpoint
  caps : Caps
  sendCq : CqId
  recvCq : CqId
  state : QpState := .reset
  remote : Option Endpoint := none
  recvs : List Receive := []
  inbox : List Message := []
  deriving DecidableEq, Repr

namespace QueuePair

/-- Whether a request from an endpoint reaches this queue pair. One that is not connected yet may
still become so, and lets every request through. -/
def acceptsFrom (q : QueuePair) (peer : Endpoint) : Bool :=
  match q.state with
  | .reset | .init => true
  | .error | .unknown => false
  | .rtr | .rts | .sqd | .sqe => q.remote = some peer

/-- The queue pair in the error state, with nothing outstanding. -/
def failed (q : QueuePair) : QueuePair := { q with state := .error, recvs := [], inbox := [] }

/-- The completions of the receives that a failing queue pair gives up. -/
def flushes (q : QueuePair) : List Report :=
  q.recvs.map fun r => ⟨r.posting, q.recvCq, .flushed r.wrId .recv⟩

def record (q : QueuePair) : String :=
  Text.record "SoftQp" [("endpoint", q.endpoint.record), ("state", q.state.name)]

end QueuePair

end Verbs
