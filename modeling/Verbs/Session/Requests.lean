import Verbs.Device.Direct
import Verbs.Session.Memory
import Verbs.Session.Objects

/-!
Steps that hand requests to queue pairs and take their outcomes: posting and polling by hand, and
submitting through an executor, with a future or a labelled callback.
-/

namespace Verbs.Session

def setSource (name : String) (source : QpSource) : Act Unit :=
  modify fun s =>
    { s with qps := s.qps.modify name fun h => { h with link := { h.link with source } } }

def endpoint : PeerRef → Act Endpoint
  | .endpoint e => return e
  | .named qp => return (← qpHandle qp).link.source.endpoint (← get).device

def connect (qp : String) (peer : PeerRef) : Act Answer := do
  let source := (← qpHandle qp).link.source
  setDevice (← orRefuse .io (source.connect (← get).device (← endpoint peer)))
  return .done

def post (qp : String) (wrId : UInt64) (w : WorkRef) : Act Answer := do
  let source := (← qpHandle qp).link.source
  let (source, device) ← orRefuse .io (source.postDirect (← get).device wrId (← work w))
  setDevice device
  setSource qp source
  return .done

def pollCq (name : String) (mode : PollMode) : Act (List Completion) := do
  let id ← cqId name
  let q ← cq id
  let d := (← get).device
  let (cs, q, device) ← orRefuse .ofCall (q.pollBy d mode)
  setDevice device
  setCq id q
  return cs

def poll (name : String) (mode : PollMode) : Act Answer := return .completions (← pollCq name mode)

/-- The requests a scripted queue pair kept; it forgets them. -/
def posted (qp : String) : Act Answer := do
  match (← qpHandle qp).link.source with
  | .device _ => throw (.unknown qp)
  | .scripted s =>
    setSource qp (.scripted { s with posted := [] })
    return .posted s.posted

/-- Submit a request with a callback; the result is the number of the request. -/
def submitCallback (qp : String) (w : Work) (cb : Callback) : Act UInt64 := do
  let h ← qpHandle qp
  match h.executor with
  | none => throw (.unknown qp)
  | some id =>
    let e ← executor id
    let sub := h.link.source.submit (← get).device e.executor cb w
    setDevice sub.device
    setSource qp sub.source
    modify (accountAll id e (sub.released.map .released) sub.executor)
    orRefuse (.error ∘ .post) sub.result

def submit (qp id : String) (w : WorkRef) : Act Answer := do
  let receives := match w with
    | .send _ _ => false
    | .recv _ => true
  let f ← fresh
  let w ← work w
  modify fun s => { s with futures := s.futures.set f { wrId := 0, receives } }
  let wrId ← submitCallback qp w (.resolve f)
  modify fun s =>
    { s with
      futures := s.futures.modify f ({ · with wrId })
      futureNames := s.futureNames.set id f }
  return .token wrId

def submitWith (qp label : String) (reaction : Reaction) (w : WorkRef) : Act Answer := do
  return .token (← submitCallback qp (← work w) (.labelled label reaction))

/-- Take the result of a future, which is gone then. -/
def await (name : String) : Act Answer := do
  let f ← find futures (← futureId name) name
  match f.result? with
  | none => return .pending
  | some result =>
    modify fun s => { s with futureNames := s.futureNames.erase name }
    let y ← orRefuse .error result
    return .yielded y

def dropFuture (name : String) : Act Answer := do
  let _ ← futureId name
  modify fun s => { s with futureNames := s.futureNames.erase name }
  return .done

end Verbs.Session
