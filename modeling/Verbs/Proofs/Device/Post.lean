import Mathlib.Tactic
import Verbs.Device.Post
import Verbs.Proofs.Device.Cascade

/-!
What posting does to the queue pairs. A request changes the queue pairs and the memory of a device
and nothing else; what is owed afterwards, with what was reported, is what was owed before and the
completion of the request itself.
-/

namespace Verbs.Device

variable {d : Device} {id : QpId} {q : QueuePair} {m : Message} {r : Receive}

/-! ### What a request comes to -/

lemma get?_of_route {route : Route} (h : d.route route = some (id, q)) :
    d.routes.get? route = some id ∧ d.qps.get? id = some q := by
  simp only [Device.route, Option.bind_eq_bind, Option.bind_eq_some_iff, Option.pure_def,
    Option.some.injEq, Prod.mk.injEq] at h
  obtain ⟨i, hi, p, hp, rfl, rfl⟩ := h
  exact ⟨hi, hp⟩

/-- What a message says of the request that it was sent for. -/
structure Carries (d : Device) (id : QpId) (q : QueuePair) (w : SendRequest) (m : Message) :
    Prop where
  posting : m.posting = d.nextPosting
  wrId : m.wrId = w.wrId
  opcode : m.opcode = w.op.opcode
  imm : m.imm = w.op.imm?
  sender : m.sender = id
  senderCq : m.senderCq = q.sendCq
  /-- The data of a send is what its windows hold when it is posted; a write went its own way. -/
  payload : match w.op with
    | .send _ => ∃ data, d.memory.gather q.nic w.sgl = .ok data ∧ m.payload = .data data
    | .write _ (some _) => ∃ len, m.payload = .written len
    | _ => False

lemma dispatch_message {w : SendRequest} {remote : Endpoint} {memory : Memory} {peerId : QpId}
    {peer : QueuePair} (h : d.dispatch id q w remote = (memory, .message peerId peer m)) :
    d.route ⟨q.fabric, remote.lid, remote.qpn⟩ = some (peerId, peer) ∧
      peer.acceptsFrom q.endpoint ∧ d.Carries id q w m := by
  unfold dispatch at h
  dsimp only at h
  split at h
  · cases h
  · rename_i peerId₀ peer₀ hroute
    split at h
    · cases h
    · rename_i haccepts
      rw [not_not] at haccepts
      split at h
      · rename_i imm hop
        split at h
        · rename_i data hgather
          cases h
          exact ⟨hroute, haccepts, rfl, rfl, rfl, by rw [hop]; rfl, rfl, rfl,
            by rw [hop]; exact ⟨data, hgather, rfl⟩⟩
        · cases h
      · rename_i remote imm hop
        split at h
        · rename_i len _
          cases h
          exact ⟨hroute, haccepts, rfl, rfl, rfl, by rw [hop]; rfl, rfl, rfl,
            by rw [hop]; exact ⟨len, rfl⟩⟩
        · cases h
      all_goals
        split at h <;> cases h

/-! ### Landing and delivering -/

lemma land_frame (d : Device) (id : QpId) (q : QueuePair) (m : Message) (r : Receive) :
    ∃ memory qps, (d.land id q m r).1 = { d with memory, qps } := by
  unfold land
  dsimp only
  split
  · exact ⟨d.memory, d.qps, rfl⟩
  · split
    · exact ⟨_, d.qps, rfl⟩
    · exact ⟨_, _, rfl⟩

lemma deliver_frame (d : Device) (id : QpId) (q : QueuePair) (m : Message) :
    ∃ memory qps, (d.deliver id q m).1 = { d with memory, qps } := by
  unfold deliver
  split
  · exact ⟨d.memory, _, rfl⟩
  · split
    · obtain ⟨memory, qps, h⟩ := land_frame { d with qps := d.qps.set id _ } id _ m _
      exact ⟨memory, qps, h⟩
    · exact ⟨d.memory, _, rfl⟩

lemma land_failed (d : Device) (id : QpId) (q : QueuePair) (m : Message) (r : Receive) :
    QueuePairs.Failed d.qps (d.land id q m r).1.qps := by
  unfold land
  dsimp only
  split
  · exact .refl _
  · split
    · exact .refl _
    · exact (QueuePairs.fail_failed d.qps id).trans (QueuePairs.finish_failed _ m .remOpErr)

lemma land_unique (hu : Table.Unique d.qps) (id : QpId) (q : QueuePair) (m : Message)
    (r : Receive) : Table.Unique (d.land id q m r).1.qps := by
  unfold land
  dsimp only
  split
  · exact hu
  · split
    · exact hu
    · exact QueuePairs.finish_unique (QueuePairs.fail_unique hu id) m .remOpErr

lemma land_dues (hu : Table.Unique d.qps) (id : QpId) (q : QueuePair) (m : Message) (r : Receive) :
    paid (d.land id q m r).2 + (d.land id q m r).1.qps.dues =
      d.qps.dues + {m.due} + {r.due q.recvCq} := by
  unfold land
  dsimp only
  split
  · simp only [paid_cons, paid_nil, Message.due_report]
    rw [add_zero, add_comm, add_right_comm, add_assoc]
    rfl
  · split
    · simp only [paid_cons, paid_nil, Message.due_report]
      rw [add_zero, add_comm, add_right_comm, add_assoc]
      rfl
    · have hfail := QueuePairs.fail_dues hu id
      have hfinish := QueuePairs.finish_dues (QueuePairs.fail_unique hu id) m .remOpErr
      simp only [paid_cons, paid_append]
      rw [add_assoc, add_assoc, hfinish, ← add_assoc (paid _), hfail, add_comm]
      rfl

lemma deliver_unique (hu : Table.Unique d.qps) (id : QpId) (q : QueuePair) (m : Message) :
    Table.Unique (d.deliver id q m).1.qps := by
  unfold deliver
  split
  · exact QueuePairs.finish_unique hu m _
  · split
    · exact land_unique (Table.unique_set hu id _) _ _ _ _
    · exact Table.unique_set hu id _

lemma deliver_dues (hu : Table.Unique d.qps) (hq : d.qps.get? id = some q) (m : Message) :
    paid (d.deliver id q m).2 + (d.deliver id q m).1.qps.dues = d.qps.dues + {m.due} := by
  unfold deliver
  split
  · exact QueuePairs.finish_dues hu m _
  · split
    · rename_i r rest hrecvs
      have htake := QueuePairs.dues_set_add hu hq (QueuePair.dues_of_recvs_cons hrecvs)
      rw [land_dues (Table.unique_set hu id _), add_right_comm]
      exact congrArg (· + {m.due}) htake
    · rw [paid_nil, zero_add]
      exact QueuePairs.dues_set_of_add hu hq (q.dues_inbox_append m)

lemma deliver_every {P : QpId → QueuePair → Prop} (h : QueuePairs.Every P d.qps)
    (hP : ∀ id q, P id q → P id q.failed)
    (htake : ∀ r rest, q.recvs = r :: rest → P id { q with recvs := rest })
    (hput : P id { q with inbox := q.inbox ++ [m] }) :
    QueuePairs.Every P (d.deliver id q m).1.qps := by
  unfold deliver
  split
  · exact h.failed (QueuePairs.finish_failed d.qps m _) hP
  · split
    · rename_i r rest hrecvs
      exact (h.set (htake r rest hrecvs)).failed
        (land_failed { d with qps := d.qps.set id _ } id _ m r) hP
    · exact h.set hput

/-! ### Sending -/

variable {w : SendRequest} {remote : Endpoint}

def sendDue (d : Device) (q : QueuePair) (w : SendRequest) : Due :=
  ⟨d.nextPosting, q.sendCq, w.wrId, w.op.opcode.owed⟩

lemma Carries.due (h : d.Carries id q w m) : m.due = d.sendDue q w := by
  simp [Message.due, sendDue, h.posting, h.senderCq, h.wrId, h.opcode]

lemma execute_cases (d : Device) (id : QpId) (q : QueuePair) (w : SendRequest)
    (remote : Endpoint) :
    (∃ memory peerId peer m, d.dispatch id q w remote = (memory, .message peerId peer m) ∧
      d.execute id q w remote =
        { d with memory, nextPosting := d.nextPosting + 1 }.deliver peerId peer m) ∨
    (∃ memory status len, d.dispatch id q w remote = (memory, .outcome status len) ∧
      d.execute id q w remote =
        ({ d with
            memory
            nextPosting := d.nextPosting + 1
            qps := (d.qps.complete id (d.sendReport q w status len)).1 },
          (d.qps.complete id (d.sendReport q w status len)).2)) := by
  unfold execute
  rcases heq : d.dispatch id q w remote with ⟨memory, result⟩
  cases result with
  | message peerId peer m => exact Or.inl ⟨memory, peerId, peer, m, rfl, rfl⟩
  | outcome status len => exact Or.inr ⟨memory, status, len, rfl, rfl⟩

lemma execute_frame (d : Device) (id : QpId) (q : QueuePair) (w : SendRequest)
    (remote : Endpoint) :
    ∃ memory qps, (d.execute id q w remote).1 =
      { d with memory, qps, nextPosting := d.nextPosting + 1 } := by
  rcases execute_cases d id q w remote with ⟨memory, peerId, peer, m, -, h⟩ |
    ⟨memory, status, len, -, h⟩
  · obtain ⟨memory', qps, hd⟩ :=
      deliver_frame { d with memory, nextPosting := d.nextPosting + 1 } peerId peer m
    rw [h]
    exact ⟨memory', qps, hd⟩
  · rw [h]
    exact ⟨memory, _, rfl⟩

lemma execute_unique (hu : Table.Unique d.qps) (id : QpId) (q : QueuePair) (w : SendRequest)
    (remote : Endpoint) : Table.Unique (d.execute id q w remote).1.qps := by
  rcases execute_cases d id q w remote with ⟨memory, peerId, peer, m, -, h⟩ |
    ⟨memory, status, len, -, h⟩
  · rw [h]
    exact deliver_unique (by exact hu) peerId peer m
  · rw [h]
    exact QueuePairs.complete_unique hu id _

lemma execute_dues (hu : Table.Unique d.qps) (id : QpId) (q : QueuePair) (w : SendRequest)
    (remote : Endpoint) :
    paid (d.execute id q w remote).2 + (d.execute id q w remote).1.qps.dues =
      d.qps.dues + {d.sendDue q w} := by
  rcases execute_cases d id q w remote with ⟨memory, peerId, peer, m, hd, h⟩ |
    ⟨memory, status, len, -, h⟩
  · obtain ⟨hroute, -, hcarries⟩ := dispatch_message hd
    rw [h, deliver_dues (by exact hu) (by exact (get?_of_route hroute).2), hcarries.due]
  · rw [h]
    exact QueuePairs.complete_dues hu id _

lemma execute_every {P : QpId → QueuePair → Prop} (id : QpId) (q : QueuePair) (w : SendRequest)
    (remote : Endpoint) (h : QueuePairs.Every P d.qps)
    (hP : ∀ id q, P id q → P id q.failed)
    (htake : ∀ id p r rest, P id p → p.recvs = r :: rest → P id { p with recvs := rest })
    (hput : ∀ peerId peer m, P peerId peer → peer.acceptsFrom q.endpoint → d.Carries id q w m →
      P peerId { peer with inbox := peer.inbox ++ [m] }) :
    QueuePairs.Every P (d.execute id q w remote).1.qps := by
  rcases execute_cases d id q w remote with ⟨memory, peerId, peer, m, hd, he⟩ |
    ⟨memory, status, len, -, he⟩
  · obtain ⟨hroute, haccepts, hcarries⟩ := dispatch_message hd
    have hpeer := h _ _ (get?_of_route hroute).2
    rw [he]
    exact deliver_every (by exact h) hP (fun r rest => htake _ _ r rest hpeer)
      (hput _ _ _ hpeer haccepts hcarries)
  · rw [he]
    exact h.failed (QueuePairs.complete_failed d.qps id _) hP

/-! ### Accepting requests -/

variable {d' : Device} {out : List Report}

lemma sendReports_cases (h : d.sendReports id w = .ok (d', out)) :
    ∃ q, d.qps.get? id = some q ∧
      ((∃ remote, q.state = .rts ∧ q.remote = some remote ∧
        d.execute id q w remote = (d', out)) ∨
      (q.state = .error ∧ d' = { d with nextPosting := d.nextPosting + 1 } ∧
        out = [⟨d.nextPosting, q.sendCq, .flushed w.wrId w.op.opcode⟩])) := by
  unfold sendReports at h
  split at h
  · cases h
  · rename_i q hq
    refine ⟨q, hq, ?_⟩
    split at h
    · cases h
    · split at h
      · rename_i remote hstate hremote
        exact Or.inl ⟨remote, hstate, hremote, Except.ok.inj h⟩
      · rename_i hstate
        cases h
        exact Or.inr ⟨hstate, rfl, rfl⟩
      · cases h

def receive (d : Device) (w : RecvRequest) : Receive := ⟨d.nextPosting, w.wrId, w.sgl⟩

/-- The device on which a receive meets the oldest message, which is taken out of the inbox. -/
def unboxed (d : Device) (id : QpId) (q : QueuePair) (rest : List Message) : Device :=
  { d with nextPosting := d.nextPosting + 1, qps := d.qps.set id { q with inbox := rest } }

lemma recvReports_cases {w : RecvRequest} (h : d.recvReports id w = .ok (d', out)) :
    ∃ q, d.qps.get? id = some q ∧
      ((q.state = .error ∧ d' = { d with nextPosting := d.nextPosting + 1 } ∧
        out = [⟨d.nextPosting, q.recvCq, .flushed w.wrId .recv⟩]) ∨
      (q.state.canPostRecv ∧ q.state ≠ .error ∧
        ((∃ m rest, q.inbox = m :: rest ∧
          (d.unboxed id q rest).land id { q with inbox := rest } m (d.receive w) = (d', out)) ∨
        (q.inbox = [] ∧ q.recvs.length < q.caps.maxRecvWr.toNat ∧ out = [] ∧
          d' = { d with
            nextPosting := d.nextPosting + 1
            qps := d.qps.set id { q with recvs := q.recvs ++ [d.receive w] } })))) := by
  unfold recvReports at h
  split at h
  · cases h
  · rename_i q hq
    refine ⟨q, hq, ?_⟩
    split at h
    · cases h
    · dsimp only at h
      split at h
      case h_1 | h_2 => cases h
      case h_3 =>
        rename_i hstate
        cases h
        exact Or.inl ⟨hstate, rfl, rfl⟩
      all_goals
        rename_i hstate
        refine Or.inr ⟨by rw [hstate]; rfl, by rw [hstate]; decide, ?_⟩
        split at h
        · rename_i m rest hinbox
          exact Or.inl ⟨m, rest, hinbox, Except.ok.inj h⟩
        · rename_i hinbox
          split at h
          · cases h
          · rename_i hroom
            cases h
            exact Or.inr ⟨hinbox, by omega, rfl, rfl⟩

/-! ### Recording reports -/

@[simp] lemma record_qps (d : Device) (out : List Report) : (d.record out).qps = d.qps := rfl

@[simp] lemma record_memory (d : Device) (out : List Report) : (d.record out).memory = d.memory := rfl

@[simp] lemma record_nextPosting (d : Device) (out : List Report) :
    (d.record out).nextPosting = d.nextPosting := rfl

@[simp] lemma record_nextId (d : Device) (out : List Report) :
    (d.record out).nextId = d.nextId := rfl

def pushAll (cq : CqId) (out : List Report) (ring : Ring) : Ring :=
  (out.filter (·.cq = cq)).foldl (fun ring r => ring.push r.completion) ring

@[simp] lemma pushAll_nil (cq : CqId) (ring : Ring) : pushAll cq [] ring = ring := rfl

lemma pushAll_cons (cq : CqId) (r : Report) (out : List Report) (ring : Ring) :
    pushAll cq (r :: out) ring =
      pushAll cq out (if r.cq = cq then ring.push r.completion else ring) := by
  by_cases h : r.cq = cq <;> simp [pushAll, h]

lemma record_rings (d : Device) (out : List Report) (cq : CqId) :
    (d.record out).rings.get? cq = (d.rings.get? cq).map (pushAll cq out) := by
  unfold record
  dsimp only
  induction out generalizing d with
  | nil =>
    rcases h : d.rings.get? cq with - | ring <;> simp [h]
  | cons r out ih =>
    rw [List.foldl_cons, ih { d with rings := d.rings.modify r.cq (·.push r.completion) },
      Table.get?_modify]
    by_cases hcq : cq = r.cq
    · rcases h : d.rings.get? cq with - | ring <;> simp [pushAll_cons, hcq]
    · rcases h : d.rings.get? cq with - | ring <;> simp [pushAll_cons, hcq, Ne.symm hcq]

end Verbs.Device
