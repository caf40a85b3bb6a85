import Verbs.CompletionQueue
import Verbs.Future
import Verbs.Setup.Scripted

/-!
The language of sessions: the steps that make, use and drop named objects, and the answers to them.
Memory is named relative to a region, for where a region lies is the session's own choice.
-/

namespace Verbs.Session

/-- A key: a number, or the local or remote key of a region, by default of the one at hand. -/
inductive KeyRef where
  | given (key : UInt32)
  | localOf (region : Option String)
  | remoteOf (region : Option String)
  deriving DecidableEq, Repr

/-- A stretch of a region: all of it, unless told otherwise. It may lie outside, too. -/
structure Stretch where
  region : String
  off : Int := 0
  len : Option UInt32 := none
  key : Option KeyRef := none
  deriving DecidableEq, Repr

inductive LocalRef where
  | within (stretch : Stretch)
  | absolute (slice : LocalSlice)
  deriving DecidableEq, Repr

/-- A window of a peer's memory; the last form is found in the user data that the peer of a queue
pair sent. -/
inductive RemoteRef where
  | within (stretch : Stretch)
  | absolute (slice : RemoteSlice)
  | ofPeer (qp : String) (off : UInt64) (len : Option UInt64)
  deriving DecidableEq, Repr

inductive OpRef where
  | send (imm : Option UInt32)
  | write (remote : RemoteRef) (imm : Option UInt32)
  | read (remote : RemoteRef)
  | compareSwap (remote : RemoteRef) (compare swap : UInt64)
  | fetchAdd (remote : RemoteRef) (add : UInt64)
  deriving DecidableEq, Repr

inductive WorkRef where
  | send (sgl : List LocalRef) (op : OpRef)
  | recv (sgl : List LocalRef)
  deriving DecidableEq, Repr

/-- An endpoint, or the queue pair that has it. -/
inductive PeerRef where
  | endpoint (endpoint : Endpoint)
  | named (qp : String)
  deriving DecidableEq, Repr

/-- A fabric by its own name or by that of an adapter on it. -/
inductive FabricRef where
  | named (fabric : String)
  | ofNic (nic : String)
  deriving DecidableEq, Repr

/-- An executor by its own name or by that of a queue pair on it. -/
inductive ExecutorRef where
  | named (executor : String)
  | ofQp (qp : String)
  deriving DecidableEq, Repr

/-- A factory for queue pairs. -/
inductive FactoryRef where
  | builder (builder : String)
  | scripted (outcome : Except IoError ScriptedQp)

/-- User data: bytes, or the descriptor of a region. -/
inductive UserData where
  | bytes (data : Bytes)
  | descriptor (region : String)
  deriving DecidableEq, Repr

structure Side where
  id : String
  factory : FactoryRef
  executor : String
  userData : UserData := .bytes []
  maxUserData : UInt64 := Setup.defaultMaxUserData
  /-- Whether answers give only the length of the peer's user data. -/
  hides : Bool := false

/-- The two parts in a connection attempt. -/
inductive Part where
  | acceptor | connector
  deriving DecidableEq, Repr

/-- What can be shown as text. -/
inductive Shown where
  | fabric | nic | cq | deviceCq | builder | executor | poller | link | deviceQp | future | region
  deriving DecidableEq, Repr

inductive Step where
  | fabric (id : String)
  | nic (id : String) (fabric : FabricRef) (attr : DeviceAttr)
  | skipLids (fabric : String) (count : Nat)
  | cq (id nic : String) (depth : UInt32)
  | scriptedCq (id : String) (capacity : UInt32)
  | feedCq (cq : String) (completions : List Completion)
  | failCq (cq : String) (errno : Option Nat)
  | breakCq (cq : String) (broken : Bool)
  | region (id nic : String) (len : UInt64) (perm : Permission)
  | fill (region : String) (off : UInt64) (data : Bytes)
  | dump (region : String)
  | word (region : String) (off : UInt64)
  | narrow (region : String) (narrowing : Narrowing)
  | descriptor (region : String)
  | dropRegion (region : String)
  | builder (id nic : String) (sendCq recvCq : Option String) (caps : Caps) (psn : UInt32)
  | qp (id builder : String) (executor : Option String)
  | scriptedQp (id executor : String) (script : ScriptedQp)
  | posted (qp : String)
  | describe (qp : String) (hides : Bool)
  | dropQp (qp : String)
  | render (what : Shown) (id : String)
  | connect (qp : String) (peer : PeerRef)
  | post (qp : String) (wrId : UInt64) (work : WorkRef)
  | poll (cq : String) (mode : PollMode)
  | executor (id : String) (workers : Nat)
  | register (executor label : String) (reaction : Reaction)
  | process (executor : String) (completion : Completion)
  | cancel (executor : String) (token : UInt64)
  | executorState (executor : ExecutorRef)
  | shutdown (executor : String)
  | join (executor : String)
  | dropExecutor (executor : String)
  | pump (cq executor : String) (mode : PollMode)
  | poller (id cq executor : String) (batch : Nat)
  | stopPoller (poller : String)
  | dropPoller (poller : String)
  | pollerState (poller : String)
  | claimed (cq : String)
  | submit (qp id : String) (work : WorkRef)
  | submitWith (qp label : String) (reaction : Reaction) (work : WorkRef)
  | await (future : String)
  | dropFuture (future : String)
  | bind (qp : String) (peer : PeerRef) (userData : Bytes)
  | bindBoth (first second : String)
  | attempt (part : Part) (side : Side) (script : Script)
  | pair (acceptor connector : Side) (capacity : Option Nat)
  | acceptDetached (side : Side)

/-- The peer of a queue pair, in full or without its user data. -/
inductive PeerView where
  | full (peer : Handshake)
  | outline (endpoint : Endpoint) (userDataLen : Nat)
  deriving DecidableEq, Repr

structure QpView where
  endpoint : Endpoint
  state : QpState
  caps : Caps
  /-- The posted receives and the number of a queue pair that is observed on the device. -/
  observed : Option (Nat × UInt32) := none
  /-- The peer, if any, of a queue pair that is driven through an executor. -/
  peer : Option (Option PeerView) := none
  deriving DecidableEq, Repr

inductive Answer where
  | done
  | wouldBlock
  | inUse
  | nic (lid : UInt16) (attr : DeviceAttr)
  | lid (lid : UInt16)
  | capacity (entries : UInt32)
  | region (len lkey rkey : UInt32) (perm : Permission)
  | bytes (data : Bytes)
  | number (n : Nat)
  | flag (b : Bool)
  | slice (window : Option (UInt64 × UInt32 × UInt32))
  | descriptor (off : UInt64) (len rkey : UInt32)
  | qp (view : QpView)
  | posted (requests : List (UInt64 × Work))
  | text (s : String)
  | completions (cs : List Completion)
  | workers (n : Nat)
  | token (token : UInt64)
  | executor (pending : Nat) (isShutdown : Bool) (workers : Nat)
  | pumped (cs : List (Completion × Bool))
  | poller (isStopped isClaimed : Bool)
  | pending
  | yielded (y : Yield)
  | attempt (result : Except Error QpView) (script : Script)
  | pair (acceptor connector : Except Error QpView)
  | detached (address : IoError) (accept : Error)

/-- Why a step was not carried out. -/
inductive Refusal where
  | io (error : IoError)
  | fault (fault : Fault)
  | cq (error : CqError)
  | qp (error : QpError)
  | poller (error : PollerError)
  | error (error : Error)
  | queueClosed
  /-- The step names something that is not there. -/
  | unknown (name : String)
  deriving DecidableEq, Repr

def Refusal.ofCall : CallError → Refusal
  | .io e => .io e
  | .fault f => .fault f

/-- What became of a labelled callback. -/
inductive Event where
  | invoked (label : String) (completion : Completion) (chained : Option (String × UInt64))
  | released (label : String)
  deriving DecidableEq, Repr

end Verbs.Session
