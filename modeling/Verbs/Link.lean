import Verbs.Device.Post
import Verbs.Executor
import Verbs.Handshake

/-!
Links: a queue pair as an application drives it. Behind a link stands a queue pair of the device,
or a script with constant answers that keeps what was posted on it. A link is bound to its peer
once. Requests are submitted with a callback, which is registered first and taken back where the
post is refused.
-/

namespace Verbs

/-- What is handed to a queue pair, save for its number. -/
inductive Work where
  | send (sgl : List LocalSlice) (op : SendOp)
  | recv (sgl : List LocalSlice)
  deriving DecidableEq, Repr

/-- A queue pair with constant answers. -/
structure ScriptedQp where
  endpoint : Endpoint := {}
  state : QpState := .rts
  caps : Caps := {}
  sendError : Option IoError := none
  recvError : Option IoError := none
  connectError : Option IoError := none
  posted : List (UInt64 × Work) := []
  deriving DecidableEq, Repr

/-- Keep a request, unless the script refuses it. -/
def ScriptedQp.post (s : ScriptedQp) (wrId : UInt64) (w : Work) : Except IoError ScriptedQp :=
  let refusal := match w with
    | .send _ _ => s.sendError
    | .recv _ => s.recvError
  match refusal with
  | some e => .error e
  | none => .ok { s with posted := s.posted ++ [(wrId, w)] }

/-- A queue pair: one of the device, or a script. -/
inductive QpSource where
  | device (id : QpId)
  | scripted (script : ScriptedQp)
  deriving DecidableEq, Repr

namespace QpSource

def endpoint (d : Device) : QpSource → Endpoint
  | device id =>
    match d.qps.get? id with
    | some q => q.endpoint
    | none => {}
  | scripted s => s.endpoint

def state (d : Device) : QpSource → QpState
  | device id =>
    match d.qps.get? id with
    | some q => q.state
    | none => .unknown
  | scripted s => s.state

def caps (d : Device) : QpSource → Caps
  | device id =>
    match d.qps.get? id with
    | some q => q.caps
    | none => {}
  | scripted s => s.caps

def connect (d : Device) (peer : Endpoint) : QpSource → Except IoError Device
  | device id => d.connect id peer
  | scripted s =>
    match s.connectError with
    | some e => .error e
    | none => .ok d

def post (d : Device) (wrId : UInt64) (w : Work) : QpSource → Except IoError (QpSource × Device)
  | device id =>
    match w with
    | .send sgl op => (d.postSend id ⟨wrId, sgl, op⟩).map fun d => (device id, d)
    | .recv sgl => (d.postRecv id ⟨wrId, sgl⟩).map fun d => (device id, d)
  | scripted s => (s.post wrId w).map fun s => (scripted s, d)

def discard (d : Device) : QpSource → Device
  | device id => d.dropQp id
  | scripted _ => d

end QpSource

/-- What submitting a request led to: its number or a refusal, the callbacks released on the way,
and everything as it is afterwards. -/
structure Submission (κ : Type) where
  result : Except IoError UInt64
  released : List κ
  executor : Executor κ
  source : QpSource
  device : Device

/-- Register a callback and post a request under its number; a refused post takes the callback
back. -/
def QpSource.submit {κ : Type} (d : Device) (e : Executor κ) (cb : κ) (w : Work) (q : QpSource) :
    Submission κ :=
  let (token, early, e) := e.register cb
  match q.post d token w with
  | .ok (source, d) => ⟨.ok token, early.toList, e, source, d⟩
  | .error error =>
    let (cancelled, executor) := e.cancel token
    ⟨.error error, early.toList ++ cancelled.toList, executor, q, d⟩

/-- A queue pair and the peer it was bound to. -/
structure Link where
  source : QpSource
  peer : Option Handshake := none
  deriving DecidableEq, Repr

namespace Link

/-- Bind a link to its peer and connect the queue pair; a second peer is a fault. -/
def bind (l : Link) (d : Device) (peer : Handshake) : Except CallError (Link × Device) :=
  match l.peer with
  | some _ => .error (.fault .alreadyBound)
  | none =>
    match l.source.connect d peer.endpoint with
    | .error e => .error (.io e)
    | .ok d => .ok ({ l with peer := some peer }, d)

/-- Bind two links to each other without user data, the first before the second. What the first
bind did stays where the second fails. -/
def bindBoth (first second : Link) (d : Device) : Except CallError Unit × Link × Link × Device :=
  match first.bind d ⟨second.source.endpoint d, []⟩ with
  | .error e => (.error e, first, second, d)
  | .ok (first', d') =>
    match second.bind d' ⟨first.source.endpoint d, []⟩ with
    | .error e => (.error e, first', second, d')
    | .ok (second', d'') => (.ok (), first', second', d'')

def record (l : Link) (d : Device) : String :=
  Text.record "Qp"
    [("endpoint", (l.source.endpoint d).record), ("state", (l.source.state d).name),
      ("peer", Text.optional (l.peer.map (·.endpoint.record)))]

end Link

end Verbs
