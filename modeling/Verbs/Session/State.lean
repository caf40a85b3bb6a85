import Verbs.Executor.Dispatch
import Verbs.Poller
import Verbs.Session.Step

/-!
The state of a session: a device and what an application holds of it, all under names. A name that
is given again goes over to the new object. Objects that something else still refers to outlive
their names: completion queues, executors and futures have numbers of their own.
-/

namespace Verbs.Session

/-- A region as the application knows it; a region that was dropped can still be named. -/
structure RegionHandle where
  region : RegionId
  window : Window
  lkey : UInt32
  rkey : UInt32
  live : Bool := true
  deriving DecidableEq, Repr

/-- A recipe for queue pairs. Completion queues are given by their own numbers. -/
structure Builder where
  nic : NicId
  sendCq : Option CqId
  recvCq : Option CqId
  caps : Caps
  psn : UInt32
  deriving DecidableEq, Repr

structure QpHandle where
  link : Link
  /-- The executor it is driven through, if any. -/
  executor : Option ExecutorId := none
  /-- Whether its place on the device is observed. -/
  observed : Bool := false
  deriving DecidableEq, Repr

/-- A poller: what it moves from where to where, and how it stands. -/
structure PollerHandle where
  cq : CqId
  executor : ExecutorId
  batch : Nat
  status : PollerStatus := .running
  deriving DecidableEq, Repr

structure NamedExecutor where
  name : String
  executor : Executor Callback
  deriving Repr

/-- An event on an executor. -/
structure Notice where
  executor : String
  workers : Nat
  event : Event
  deriving DecidableEq, Repr

end Session

open Session

structure Session where
  device : Device := {}
  cqs : Table CqId CompletionQueue := {}
  executors : Table ExecutorId NamedExecutor := {}
  futures : Table FutureId Future := {}
  /-- The next number for a completion queue, an executor or a future. -/
  nextId : Nat := 0
  /-- Where the next region may lie. -/
  nextBase : Nat := 4096
  fabricNames : Table String FabricId := {}
  nicNames : Table String NicId := {}
  cqNames : Table String CqId := {}
  regions : Table String RegionHandle := {}
  builders : Table String Builder := {}
  qps : Table String QpHandle := {}
  executorNames : Table String ExecutorId := {}
  pollers : Table String PollerHandle := {}
  futureNames : Table String FutureId := {}
  /-- What happened to labelled callbacks during this step. -/
  notices : List Notice := []
  deriving Repr

namespace Session

instance : Inhabited Session := ⟨{}⟩

/-- A computation on a session, which may be refused; what it did before it was refused stays. -/
abbrev Act := ExceptT Refusal (StateM Session)

/-- Go on with a result, or refuse with its error. -/
def orRefuse {ε α : Type} (refusal : ε → Refusal) : Except ε α → Act α
  | .ok a => return a
  | .error e => throw (refusal e)

def find {κ α : Type} [DecidableEq κ] (names : Session → Table κ α) (key : κ) (text : String) :
    Act α := do
  match (names (← get)).get? key with
  | some a => return a
  | none => throw (.unknown text)

def fabric (name : String) : Act FabricId := find fabricNames name name
def nicId (name : String) : Act NicId := find nicNames name name
def nic (id : NicId) : Act Nic := find (·.device.nics) id "nic"
def cqId (name : String) : Act CqId := find cqNames name name
def cq (id : CqId) : Act CompletionQueue := find cqs id "cq"
def regionHandle (name : String) : Act RegionHandle := find regions name name
def qpHandle (name : String) : Act QpHandle := find qps name name
def executorId (name : String) : Act ExecutorId := find executorNames name name
def executor (id : ExecutorId) : Act NamedExecutor := find executors id "executor"
def pollerHandle (name : String) : Act PollerHandle := find pollers name name
def futureId (name : String) : Act FutureId := find futureNames name name

/-- A number that was not given out before. -/
def fresh : Act Nat := modifyGet fun s => (s.nextId, { s with nextId := s.nextId + 1 })

def setDevice (device : Device) : Act Unit := modify ({ · with device })

def setCq (id : CqId) (q : CompletionQueue) : Act Unit :=
  modify fun s => { s with cqs := s.cqs.set id q }

def setExecutor (id : ExecutorId) (e : Executor Callback) : Act Unit :=
  modify fun s => { s with executors := s.executors.modify id ({ · with executor := e }) }

def discardQp (h : QpHandle) : Act Unit :=
  modify fun s => { s with device := h.link.source.discard s.device }

/-- Give a queue pair a name; the one that had the name is dropped. -/
def nameQp (id : String) (h : QpHandle) : Act Unit := do
  let old := (← get).qps.get? id
  modify fun s => { s with qps := s.qps.set id h }
  old.forM discardQp

def events : Fate → List Event
  | .invoked (.labelled label _) c chained =>
    [.invoked label c (chained.map fun token => (Callback.chainedLabel label, token))]
  | .released (.labelled label .chain) =>
    [.released label, .released (Callback.chainedLabel label)]
  | .released (.labelled label _) => [.released label]
  | .invoked (.resolve _) _ _ | .released (.resolve _) => []

def settled : Fate → Option FutureId
  | .invoked (.resolve f) _ _ | .released (.resolve f) => some f
  | .invoked (.labelled _ _) _ _ | .released (.labelled _ _) => none

def account (e : NamedExecutor) (s : Session) (fate : Fate) : Session :=
  let s := match settled fate with
    | some f => { s with futures := s.futures.modify f (·.settle fate) }
    | none => s
  { s with
    notices := s.notices ++ (events fate).map fun event => ⟨e.name, e.executor.workers, event⟩ }

/-- Take note of the fates of callbacks of an executor, which is as given afterwards. -/
def accountAll (id : ExecutorId) (e : NamedExecutor) (fates : List Fate) (after : Executor Callback)
    (s : Session) : Session :=
  fates.foldl (account e)
    { s with executors := s.executors.set id { e with executor := after } }

end Session

end Verbs
