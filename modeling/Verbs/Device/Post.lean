import Verbs.Device

/-!
Posting work requests. An operation is carried out while it is posted: one-sided operations act on
the peer's memory, messages land in the peer's oldest receive or wait in its inbox. Each function
returns the device and the completions it gives rise to, in order; `post…` then appends them to
the rings.
-/

namespace Verbs.Memory

/-- Run an atomic on the first word of a peer's window; the old word goes into the local windows. -/
def atomic (m : Memory) (nic peerNic : NicId) (sgl : List LocalSlice) (remote : RemoteSlice)
    (f : UInt64 → UInt64) : Memory × Except Status Nat :=
  if LocalSlice.totalLen sgl ≠ 8 then (m, .error .locLenErr)
  else
    match m.updateRemote peerNic remote f with
    | .error e => (m, .error e)
    | .ok (old, m) =>
      let (m, result) := m.scatter nic sgl (Bytes.ofNatLE 8 old.toNat)
      (m, result.map fun _ => 8)

/-- Run a one-sided operation between two adapters; the result counts the bytes moved. -/
def oneSided (m : Memory) (nic peerNic : NicId) (sgl : List LocalSlice) :
    SendOp → Memory × Except Status Nat
  | .send _ => (m, .error .locQpOpErr)
  | .write remote _ =>
    match m.gather nic sgl with
    | .error e => (m, .error e)
    | .ok data =>
      match m.writeRemote peerNic remote data with
      | .error e => (m, .error e)
      | .ok m => (m, .ok data.length)
  | .read remote =>
    let len := LocalSlice.totalLen sgl
    match m.readRemote peerNic remote len with
    | .error e => (m, .error e)
    | .ok data =>
      let (m, result) := m.scatter nic sgl data
      (m, result.map fun _ => len)
  | .compareSwap remote compare swap =>
    m.atomic nic peerNic sgl remote fun v => if v = compare then swap else v
  | .fetchAdd remote add => m.atomic nic peerNic sgl remote (· + add)

end Verbs.Memory

namespace Verbs.Device

/-- Complete a receive of `id` with a message. A receive that cannot take it fails both ends. -/
def land (d : Device) (id : QpId) (q : QueuePair) (m : Message) (r : Receive) :
    Device × List Report :=
  let report (status : Status) (opcode : Opcode) : Report :=
    { posting := r.posting
      cq := q.recvCq
      completion :=
        { wrId := r.wrId, status, opcode
          byteLen := if status.isSuccess then UInt32.ofNat m.payload.length else 0
          imm := if status.isSuccess then m.imm else none } }
  match m.payload with
  | .written _ => (d, [report .success .recvRdmaImm, m.report .success])
  | .data bytes =>
    let (memory, result) := d.memory.scatter q.nic r.sgl bytes
    match result with
    | .ok () => ({ d with memory }, [report .success .recv, m.report .success])
    | .error status =>
      let (qps, flushed) := d.qps.fail id
      let (qps, finished) := qps.finish m .remOpErr
      ({ d with memory, qps }, report status .recv :: (flushed ++ finished))

def deliver (d : Device) (id : QpId) (q : QueuePair) (m : Message) : Device × List Report :=
  if q.state = .error ∨ q.state = .unknown then
    let (qps, out) := d.qps.finish m .retryExcErr
    ({ d with qps }, out)
  else
    match q.recvs with
    | r :: rest =>
      let q := { q with recvs := rest }
      { d with qps := d.qps.set id q }.land id q m r
    | [] => ({ d with qps := d.qps.set id { q with inbox := q.inbox ++ [m] } }, [])

/-- What a request comes to before anyone is told of it. -/
inductive Dispatch where
  /-- A message for a peer. -/
  | message (peerId : QpId) (peer : QueuePair) (m : Message)
  /-- An outcome, and the number of bytes moved. -/
  | outcome (status : Status) (len : Nat)

def dispatch (d : Device) (id : QpId) (q : QueuePair) (w : SendRequest) (remote : Endpoint) :
    Memory × Dispatch :=
  let message (payload : Payload) (imm : Option UInt32) : Message :=
    { posting := d.nextPosting, payload, imm, wrId := w.wrId, opcode := w.op.opcode, sender := id
      senderCq := q.sendCq }
  match d.route ⟨q.fabric, remote.lid, remote.qpn⟩ with
  | none => (d.memory, .outcome .retryExcErr 0)
  | some (peerId, peer) =>
    if ¬ peer.acceptsFrom q.endpoint then (d.memory, .outcome .retryExcErr 0)
    else
      match w.op with
      | .send imm =>
        match d.memory.gather q.nic w.sgl with
        | .ok data => (d.memory, .message peerId peer (message (.data data) imm))
        | .error status => (d.memory, .outcome status 0)
      | .write _ (some imm) =>
        match d.memory.oneSided q.nic peer.nic w.sgl w.op with
        | (memory, .ok len) => (memory, .message peerId peer (message (.written len) (some imm)))
        | (memory, .error status) => (memory, .outcome status 0)
      | .write _ none | .read _ | .compareSwap _ _ _ | .fetchAdd _ _ =>
        match d.memory.oneSided q.nic peer.nic w.sgl w.op with
        | (memory, .ok len) => (memory, .outcome .success len)
        | (memory, .error status) => (memory, .outcome status 0)

/-- The report of a request that is done without a message. -/
def sendReport (d : Device) (q : QueuePair) (w : SendRequest) (status : Status) (len : Nat) :
    Report where
  posting := d.nextPosting
  cq := q.sendCq
  completion := { wrId := w.wrId, status, opcode := w.op.opcode, byteLen := UInt32.ofNat len }

def execute (d : Device) (id : QpId) (q : QueuePair) (w : SendRequest) (remote : Endpoint) :
    Device × List Report :=
  let (memory, result) := d.dispatch id q w remote
  let accepted := { d with memory, nextPosting := d.nextPosting + 1 }
  match result with
  | .message peerId peer m => accepted.deliver peerId peer m
  | .outcome status len =>
    let (qps, out) := d.qps.complete id (d.sendReport q w status len)
    ({ accepted with qps }, out)

/-- Accept a request on the send queue, or refuse it without a trace. A queue pair in the error
state completes it at once, flushed. -/
def sendReports (d : Device) (id : QpId) (w : SendRequest) :
    Except IoError (Device × List Report) :=
  match d.qps.get? id with
  | none => .error .invalidRequest
  | some q =>
    if q.caps.maxSendSge.toNat < w.sgl.length then .error .invalidRequest
    else
      match q.state, q.remote with
      | .rts, some remote => .ok (d.execute id q w remote)
      | .error, _ =>
        .ok ({ d with nextPosting := d.nextPosting + 1 },
          [⟨d.nextPosting, q.sendCq, .flushed w.wrId w.op.opcode⟩])
      | _, _ => .error .invalidRequest

/-- Accept a receive, or refuse it without a trace. The oldest waiting message lands in it at
once. -/
def recvReports (d : Device) (id : QpId) (w : RecvRequest) :
    Except IoError (Device × List Report) :=
  match d.qps.get? id with
  | none => .error .invalidRequest
  | some q =>
    if q.caps.maxRecvSge.toNat < w.sgl.length then .error .invalidRequest
    else
      let posting := d.nextPosting
      let accepted := { d with nextPosting := posting + 1 }
      match q.state with
      | .reset | .unknown => .error .invalidRequest
      | .error => .ok (accepted, [⟨posting, q.recvCq, .flushed w.wrId .recv⟩])
      | .init | .rtr | .rts | .sqd | .sqe =>
        match q.inbox with
        | m :: rest =>
          let q := { q with inbox := rest }
          .ok ({ accepted with qps := d.qps.set id q }.land id q m ⟨posting, w.wrId, w.sgl⟩)
        | [] =>
          if q.caps.maxRecvWr.toNat ≤ q.recvs.length then .error .recvQueueFull
          else
            let q := { q with recvs := q.recvs ++ [⟨posting, w.wrId, w.sgl⟩] }
            .ok ({ accepted with qps := d.qps.set id q }, [])

def postSend (d : Device) (id : QpId) (w : SendRequest) : Except IoError Device :=
  (d.sendReports id w).map fun (d, out) => d.record out

def postRecv (d : Device) (id : QpId) (w : RecvRequest) : Except IoError Device :=
  (d.recvReports id w).map fun (d, out) => d.record out

end Verbs.Device
