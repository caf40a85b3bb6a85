import Verbs.Link
import Verbs.Memory.Transfer

/-!
Posting sends to a peer that waits for them. The data of such a send need not be written out between
the windows it comes from and those it goes to.
-/

namespace Verbs

namespace Device

/-- The device after a receive has taken the data of a send. -/
def taken (d : Device) (memory : Memory) (b : QpId) (peer : QueuePair) (rest : List Receive) :
    Device :=
  { d with
    memory
    qps := d.qps.set b { peer with recvs := rest }
    nextPosting := d.nextPosting + 1 }

def takenReport (peer : QueuePair) (r : Receive) (imm : Option UInt32) (len : Nat) : Report where
  posting := r.posting
  cq := peer.recvCq
  completion :=
    { wrId := r.wrId, status := .success, opcode := .recv, byteLen := UInt32.ofNat len, imm }

/-- Post a send whose data goes from one region into another at once, since the peer has a receive
for it. There is no result where anything stands in the way. -/
def handOver (d : Device) (id : QpId) (w : SendRequest) : Option Device := do
  let q ← d.qps.get? id
  let remote ← q.remote
  let (peerId, peer) ← d.route ⟨q.fabric, remote.lid, remote.qpn⟩
  match w.op, peer.recvs with
  | .send imm, r :: rest =>
    if q.state = .rts ∧ w.sgl.length ≤ q.caps.maxSendSge.toNat ∧ peer.acceptsFrom q.endpoint then
      let (memory, len) ← d.memory.transfer q.nic w.sgl peer.nic r.sgl
      return (d.taken memory peerId peer rest).record
        [takenReport peer r imm len, d.sendReport q w .success len]
    else none
  | _, _ => none

/-- Post a request on the send queue, with its data written out only where this is needed. -/
def postSendDirect (d : Device) (id : QpId) (w : SendRequest) : Except IoError Device :=
  match d.handOver id w with
  | some d' => .ok d'
  | none => d.postSend id w

end Device

def QpSource.postDirect (d : Device) (wrId : UInt64) :
    Work → QpSource → Except IoError (QpSource × Device)
  | .send sgl op, .device id => (d.postSendDirect id ⟨wrId, sgl, op⟩).map fun d => (.device id, d)
  | w, source => source.post d wrId w

end Verbs
