import Verbs.Session.State

/-!
Steps that make and drop what a device holds, save for memory. An object is made before the one that
had its name is dropped, and a name changes hands only where the new object could be made.
-/

namespace Verbs.Session

def addFabric (id : String) : Act Answer := do
  let (device, f) := (← get).device.addFabric
  modify fun s => { s with device, fabricNames := s.fabricNames.set id f }
  return .done

def addNic (id : String) (ref : FabricRef) (attr : DeviceAttr) : Act Answer := do
  let f ← match ref with
    | .named name => fabric name
    | .ofNic name => pure (← nic (← nicId name)).fabric
  let (device, n) := (← get).device.openNic f attr
  modify fun s => { s with device, nicNames := s.nicNames.set id n }
  return .nic (← nic n).lid attr

def skipLids (name : String) (count : Nat) : Act Answer := do
  let (device, lid) := (← get).device.skipLids (← fabric name) count
  setDevice device
  return .lid lid

def nameCq (id : String) (source : CqSource) : Act Unit := do
  let q ← fresh
  setCq q { source }
  modify fun s => { s with cqNames := s.cqNames.set id q }

def addCq (id nicName : String) (depth : UInt32) : Act Answer := do
  let attr := (← nic (← nicId nicName)).attr
  let (device, ring) ← orRefuse .cq ((← get).device.createCq attr depth)
  setDevice device
  nameCq id (.ring ring)
  return .capacity depth

def addScriptedCq (id : String) (capacity : UInt32) : Act Answer := do
  nameCq id (.scripted { capacity })
  return .capacity capacity

def modifyScript (name : String) (f : ScriptedCq → ScriptedCq) : Act Answer := do
  let id ← cqId name
  let q ← cq id
  match q.source with
  | .ring _ => throw (.unknown name)
  | .scripted s =>
    setCq id { q with source := .scripted (f s) }
    return .done

def addBuilder (id nicName : String) (sendCq recvCq : Option String) (caps : Caps) (psn : UInt32) :
    Act Answer := do
  let b : Builder :=
    { nic := ← nicId nicName
      sendCq := ← sendCq.mapM cqId
      recvCq := ← recvCq.mapM cqId
      caps, psn }
  modify fun s => { s with builders := s.builders.set id b }
  return .done

def ring (id : CqId) : Act CqId := do
  match (← cq id).source with
  | .ring r => return r
  | .scripted _ => throw (.unknown "ring")

def plan (name : String) : Act QpPlan := do
  let b ← find builders name name
  return ⟨b.nic, ← b.sendCq.mapM ring, ← b.recvCq.mapM ring, b.caps, b.psn⟩

/-- The peer of a queue pair as answers give it. -/
def PeerView.of (hides : Bool) (peer : Handshake) : PeerView :=
  if hides then .outline peer.endpoint peer.userData.length else .full peer

def QpView.of (d : Device) (hides : Bool) (h : QpHandle) : QpView :=
  let source := h.link.source
  let endpoint := source.endpoint d
  { endpoint
    state := source.state d
    caps := source.caps d
    observed :=
      match h.observed, source with
      | true, .device id => (d.qps.get? id).map fun q => (q.recvs.length, endpoint.qpn)
      | _, _ => none
    peer := h.executor.map fun _ => h.link.peer.map (PeerView.of hides) }

def describe (name : String) (hides : Bool) : Act Answer := do
  return .qp (QpView.of (← get).device hides (← qpHandle name))

def addQp (id builder : String) (executor : Option String) : Act Answer := do
  let executor ← executor.mapM executorId
  let (device, q) ← orRefuse .qp ((← get).device.createQp (← plan builder))
  setDevice device
  nameQp id { link := { source := .device q }, executor, observed := true }
  describe id false

def addScriptedQp (id executor : String) (script : ScriptedQp) : Act Answer := do
  let e ← executorId executor
  nameQp id { link := { source := .scripted script }, executor := some e }
  describe id false

def dropQp (name : String) : Act Answer := do
  let h ← qpHandle name
  modify fun s => { s with qps := s.qps.erase name }
  discardQp h
  return .done

end Verbs.Session
