import Verbs.Device.Direct
import Verbs.Proofs.Device.Timing
import Verbs.Proofs.Memory.Transfer

/-!
Sends that a waiting receive takes at once, with success at both ends. Handing their data over from
region to region is posting them: whether the data is written out between gathering and scattering
it makes no difference to the device.
-/

namespace Verbs

namespace Device

variable {d d' : Device} {a b : QpId} {q peer : QueuePair} {target : Endpoint} {w : SendRequest}
  {imm : Option UInt32} {data : Bytes} {memory : Memory} {r : Receive} {rest : List Receive}

lemma Facing.sendReports_taken (h : d.Facing a q target b peer)
    (hsge : w.sgl.length ≤ q.caps.maxSendSge.toNat) (haccepts : peer.acceptsFrom q.endpoint)
    (hop : w.op = .send imm) (hrecvs : peer.recvs = r :: rest)
    (hgather : d.memory.gather q.nic w.sgl = .ok data)
    (hscatter : d.memory.scatter peer.nic r.sgl data = (memory, .ok ())) :
    d.sendReports a w = .ok (d.taken memory b peer rest,
      [takenReport peer r imm data.length, d.sendReport q w .success data.length]) := by
  have hdispatch : d.dispatch a q w target = (d.memory, .message b peer
      { posting := d.nextPosting, payload := .data data, imm, wrId := w.wrId
        opcode := w.op.opcode, sender := a, senderCq := q.sendCq }) := by
    simp [dispatch, h.route, haccepts, hop, hgather]
  have halive : ¬ (peer.state = .error ∨ peer.state = .unknown) :=
    not_or.mpr (alive_of_acceptsFrom haccepts)
  simp only [sendReports_ready h.found h.ready h.bound hsge, Device.execute, hdispatch, deliver,
    if_neg halive, hrecvs, land, hscatter]
  rfl

lemma postSend_of_handOver (h : d.handOver a w = some d') : d.postSend a w = .ok d' := by
  simp only [handOver, Option.bind_eq_bind, Option.bind_eq_some_iff] at h
  obtain ⟨q, hq, target, hbound, ⟨b, peer⟩, hroute, h⟩ := h
  dsimp only at h
  split at h
  · rename_i imm r rest hop hrecvs
    split at h
    · rename_i hready
      obtain ⟨hstate, hsge, haccepts⟩ := hready
      obtain ⟨⟨memory, len⟩, htransfer, h⟩ := Option.bind_eq_some_iff.mp h
      obtain ⟨data, hgather, rfl, hscatter⟩ := Memory.transfer_eq_some htransfer
      have hfacing : d.Facing a q target b peer := ⟨hq, hstate, hbound, hroute⟩
      rw [postSend, hfacing.sendReports_taken hsge haccepts hop hrecvs hgather hscatter]
      cases h
      rfl
    · cases h
  · cases h

/-- Posting directly is posting. -/
theorem postSendDirect_eq (d : Device) (id : QpId) (w : SendRequest) :
    d.postSendDirect id w = d.postSend id w := by
  rw [postSendDirect]
  split
  · rename_i h
    exact (postSend_of_handOver h).symm
  · rfl

end Device

/-- Posting directly is posting, whatever stands behind a queue pair. -/
theorem QpSource.postDirect_eq (d : Device) (wrId : UInt64) (w : Work) (source : QpSource) :
    source.postDirect d wrId w = source.post d wrId w := by
  cases w <;> cases source <;> simp [postDirect, post, Device.postSendDirect_eq]

end Verbs
