import Verbs.Completion.Ring
import Verbs.Device.Cascade
import Verbs.Error
import Verbs.Memory.Store

/-!
The device: fabrics, network adapters attached to them, completion rings, registered memory and
queue pairs, all named by numbers that are never used twice. Queue pairs are routed within a
fabric by adapter and queue pair number.
-/

namespace Verbs

/-- An interconnect; adapters get consecutive local identifiers, in 16 bits. -/
structure Fabric where
  nextLid : UInt16 := 1
  deriving DecidableEq, Repr

/-- A network adapter. Queue pair numbers and keys are counted in 32 bits; keys come in pairs. -/
structure Nic where
  fabric : FabricId
  lid : UInt16
  attr : DeviceAttr
  nextQpn : UInt32 := 1
  nextKey : UInt32 := 1
  deriving DecidableEq, Repr

def Nic.record (n : Nic) : String :=
  Text.record "SoftNic" [("lid", toString n.lid), ("attr", n.attr.record)]

/-- Where a queue pair is reached on a fabric. -/
structure Route where
  fabric : FabricId
  lid : UInt16
  qpn : UInt32
  deriving DecidableEq, Repr

/-- Everything a device holds. -/
structure Device where
  fabrics : Table FabricId Fabric := {}
  nics : Table NicId Nic := {}
  rings : Table CqId Ring := {}
  memory : Memory := {}
  qps : QueuePairs := {}
  routes : Table Route QpId := {}
  nextId : Nat := 0
  nextPosting : Nat := 0
  deriving Repr

/-- What queue pairs are made with. -/
structure QpPlan where
  nic : NicId
  sendCq : Option CqId
  recvCq : Option CqId
  caps : Caps
  psn : UInt32
  deriving DecidableEq, Repr

namespace Device

instance : Inhabited Device := ⟨{}⟩

/-- Append reports to the rings they are for. -/
def record (d : Device) (reports : List Report) : Device :=
  { d with rings := reports.foldl (fun rs r => rs.modify r.cq (·.push r.completion)) d.rings }

def addFabric (d : Device) : Device × FabricId :=
  ({ d with fabrics := d.fabrics.set d.nextId {}, nextId := d.nextId + 1 }, d.nextId)

def openNic (d : Device) (fabric : FabricId) (attr : DeviceAttr) : Device × NicId :=
  let lid := match d.fabrics.get? fabric with
    | some f => f.nextLid
    | none => 0
  ({ d with
      fabrics := d.fabrics.modify fabric fun f => { f with nextLid := f.nextLid + 1 }
      nics := d.nics.set d.nextId { fabric, lid, attr }
      nextId := d.nextId + 1 }, d.nextId)

/-- Use up `count` local identifiers of a fabric; the last of them is returned. -/
def skipLids (d : Device) (fabric : FabricId) (count : Nat) : Device × UInt16 :=
  let d' := { d with
    fabrics := d.fabrics.modify fabric fun f =>
      { f with nextLid := f.nextLid + UInt16.ofNat count } }
  match d'.fabrics.get? fabric with
  | some f => (d', f.nextLid - 1)
  | none => (d', 0)

def createCq (d : Device) (attr : DeviceAttr) (depth : UInt32) : Except CqError (Device × CqId) :=
  if attr.maxCqe < depth then .error (.tooManyEntries attr.maxCqe)
  else if depth = 0 then .error (.io (.ofText .invalidInput "CQ depth must be positive"))
  else .ok ({ d with rings := d.rings.set d.nextId { depth }, nextId := d.nextId + 1 }, d.nextId)

/-- Register a zeroed region of `len` bytes at a given address. The remote key is the one after
the local key; where there is none the keys are used up. -/
def register (d : Device) (nic : NicId) (base : UInt64) (len : UInt64) (perm : Permission) :
    Device × Except CallError RegionId :=
  match d.nics.get? nic with
  | none => (d, .error (.fault .outOfRange))
  | some n =>
    if UInt32.size ≤ len.toNat then
      (d, .error (.io (.ofText .invalidInput "memory region larger than 4 GiB")))
    else
      let lkey := n.nextKey
      let d := { d with nics := d.nics.modify nic fun n => { n with nextKey := n.nextKey + 2 } }
      if UInt32.size ≤ lkey.toNat + 1 then (d, .error (.fault .overflow))
      else
        let region : Region :=
          { nic, base, bytes := List.replicate len.toNat 0, lkey, rkey := lkey + 1, perm }
        ({ d with memory := d.memory.insert d.nextId region, nextId := d.nextId + 1 }, .ok d.nextId)

def deregister (d : Device) (id : RegionId) : Device := { d with memory := d.memory.remove id }

/-- The queue pair that a route leads to. -/
def route (d : Device) (r : Route) : Option (QpId × QueuePair) := do
  let id ← d.routes.get? r
  let q ← d.qps.get? id
  return (id, q)

/-- Make a queue pair and route it. -/
def createQp (d : Device) (p : QpPlan) : Except QpError (Device × QpId) :=
  match d.nics.get? p.nic with
  | none => .error (.io (.ofText .notFound "no such device"))
  | some n =>
    match p.caps.firstExcess n.attr, p.sendCq, p.recvCq with
    | some (name, max, required), _, _ => .error (.capability name max required)
    | none, none, _ => .error (.io (.ofText .invalidInput "send CQ must be set"))
    | none, some _, none => .error (.io (.ofText .invalidInput "recv CQ must be set"))
    | none, some sendCq, some recvCq =>
      let q : QueuePair :=
        { fabric := n.fabric, nic := p.nic, endpoint := ⟨n.lid, n.nextQpn, p.psn⟩
          caps := p.caps, sendCq, recvCq }
      .ok ({ d with
        nics := d.nics.modify p.nic fun n => { n with nextQpn := n.nextQpn + 1 }
        qps := d.qps.set d.nextId q
        routes := d.routes.set ⟨n.fabric, n.lid, n.nextQpn⟩ d.nextId
        nextId := d.nextId + 1 }, d.nextId)

/-- Take a queue pair and its route away. The reports say what it gave up. -/
def dropQpReports (d : Device) (id : QpId) : Device × List Report :=
  match d.qps.get? id with
  | none => (d, [])
  | some q =>
    let (qps, out) := d.qps.drop id
    ({ d with qps, routes := d.routes.erase ⟨q.fabric, q.endpoint.lid, q.endpoint.qpn⟩ }, out)

def dropQp (d : Device) (id : QpId) : Device :=
  let (d, out) := d.dropQpReports id
  d.record out

/-- Connect a queue pair to a peer, which takes it from the reset state to readiness at once. -/
def connect (d : Device) (id : QpId) (peer : Endpoint) : Except IoError Device :=
  match d.qps.get? id with
  | none => .error .invalidRequest
  | some q =>
    if q.state = .reset then
      .ok { d with qps := d.qps.set id { q with remote := some peer, state := .rts } }
    else .error (.ofText .invalidInput s!"cannot connect QP in state {q.state.name}")

end Device

end Verbs
