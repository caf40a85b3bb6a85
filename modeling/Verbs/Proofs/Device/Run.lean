import Mathlib.Tactic
import Verbs.CompletionQueue
import Verbs.Link
import Verbs.Proofs.Device.Post

/-!
Runs of a device: what its users may do with it in any order, the requests that are accepted on the
way, and the completions that are pushed.
-/

namespace Verbs

/-- The opcode under which a request is completed; a receive may also be completed by a write. -/
def Work.opcode : Work → Opcode
  | .send _ op => op.opcode
  | .recv _ => .recv

structure Posting where
  number : Nat
  qp : QpId
  cq : CqId
  wrId : UInt64
  work : Work
  deriving DecidableEq

def Posting.due (p : Posting) : Due := ⟨p.number, p.cq, p.wrId, p.work.opcode.owed⟩

/-- What can be done with a device and what it holds. -/
inductive Operation where
  | addFabric
  | openNic (fabric : FabricId) (attr : DeviceAttr)
  | skipLids (fabric : FabricId) (count : Nat)
  | createCq (attr : DeviceAttr) (depth : UInt32)
  | poll (cq : CqId) (n : Nat)
  | register (nic : NicId) (base len : UInt64) (perm : Permission)
  | deregister (region : RegionId)
  | fill (region : RegionId) (off : UInt64) (data : Bytes)
  | createQp (plan : QpPlan)
  | connect (qp : QpId) (peer : Endpoint)
  | postSend (qp : QpId) (w : SendRequest)
  | postRecv (qp : QpId) (w : RecvRequest)
  | dropQp (qp : QpId)
  deriving DecidableEq

structure QueuePair.New (q : QueuePair) (plan : QpPlan) : Prop where
  sendCq : plan.sendCq = some q.sendCq
  recvCq : plan.recvCq = some q.recvCq
  state : q.state = .reset
  remote : q.remote = none
  recvs : q.recvs = []
  inbox : q.inbox = []

def QueuePair.connected (q : QueuePair) (peer : Endpoint) : QueuePair :=
  { q with remote := some peer, state := .rts }

namespace Device

/-- The device after an operation. One that is refused leaves the device as it was. -/
def perform (d : Device) : Operation → Device
  | .addFabric => d.addFabric.1
  | .openNic fabric attr => (d.openNic fabric attr).1
  | .skipLids fabric count => (d.skipLids fabric count).1
  | .createCq attr depth =>
    match d.createCq attr depth with
    | .ok (d', _) => d'
    | .error _ => d
  | .poll cq n =>
    match CompletionQueue.poll { source := .ring cq } d n with
    | .ok (_, _, d') => d'
    | .error _ => d
  | .register nic base len perm => (d.register nic base len perm).1
  | .deregister region => d.deregister region
  | .fill region off data =>
    match d.memory.regions.get? region with
    | none => d
    | some r =>
      match r.fill? off data with
      | .ok r => { d with memory.regions := d.memory.regions.set region r }
      | .error _ => d
  | .createQp plan =>
    match d.createQp plan with
    | .ok (d', _) => d'
    | .error _ => d
  | .connect qp peer =>
    match d.connect qp peer with
    | .ok d' => d'
    | .error _ => d
  | .postSend qp w =>
    match d.postSend qp w with
    | .ok d' => d'
    | .error _ => d
  | .postRecv qp w =>
    match d.postRecv qp w with
    | .ok d' => d'
    | .error _ => d
  | .dropQp qp => d.dropQp qp

/-- The completions that an operation pushes, in order. -/
def pushes (d : Device) : Operation → List Report
  | .postSend qp w =>
    match d.sendReports qp w with
    | .ok (_, out) => out
    | .error _ => []
  | .postRecv qp w =>
    match d.recvReports qp w with
    | .ok (_, out) => out
    | .error _ => []
  | .dropQp qp => (d.dropQpReports qp).2
  | _ => []

def sendPosting (d : Device) (id : QpId) (q : QueuePair) (w : SendRequest) : Posting :=
  ⟨d.nextPosting, id, q.sendCq, w.wrId, .send w.sgl w.op⟩

def recvPosting (d : Device) (id : QpId) (q : QueuePair) (w : RecvRequest) : Posting :=
  ⟨d.nextPosting, id, q.recvCq, w.wrId, .recv w.sgl⟩

/-- The request that an operation makes, where it is accepted. -/
def accepts (d : Device) : Operation → List Posting
  | .postSend qp w =>
    match d.sendReports qp w with
    | .ok _ => (d.qps.get? qp).toList.map (d.sendPosting qp · w)
    | .error _ => []
  | .postRecv qp w =>
    match d.recvReports qp w with
    | .ok _ => (d.qps.get? qp).toList.map (d.recvPosting qp · w)
    | .error _ => []
  | _ => []

section Requests

variable {d d' : Device} {id : QpId} {out : List Report} {e : IoError}

lemma postSend_of_ok {w : SendRequest} (h : d.sendReports id w = .ok (d', out)) :
    d.perform (.postSend id w) = d'.record out ∧ d.pushes (.postSend id w) = out := by
  simp only [perform, pushes, postSend, h, Except.map, and_self]

lemma postSend_of_error {w : SendRequest} (h : d.sendReports id w = .error e) :
    d.perform (.postSend id w) = d ∧ d.pushes (.postSend id w) = [] := by
  simp only [perform, pushes, postSend, h, Except.map, and_self]

lemma postRecv_of_ok {w : RecvRequest} (h : d.recvReports id w = .ok (d', out)) :
    d.perform (.postRecv id w) = d'.record out ∧ d.pushes (.postRecv id w) = out := by
  simp only [perform, pushes, postRecv, h, Except.map, and_self]

lemma postRecv_of_error {w : RecvRequest} (h : d.recvReports id w = .error e) :
    d.perform (.postRecv id w) = d ∧ d.pushes (.postRecv id w) = [] := by
  simp only [perform, pushes, postRecv, h, Except.map, and_self]

end Requests

/-- Each operation of a run with the device that it meets. -/
def steps : Device → List Operation → List (Device × Operation)
  | _, [] => []
  | d, op :: ops => (d, op) :: steps (d.perform op) ops

def run (ops : List Operation) : Device := ops.foldl perform {}

/-- What the operations of a run contribute, one after another. -/
def along {β : Type} (f : Device → Operation → List β) (ops : List Operation) : List β :=
  (steps {} ops).flatMap fun s => f s.1 s.2

def pushed (ops : List Operation) : List Report := along pushes ops

def accepted (ops : List Operation) : List Posting := along accepts ops

@[simp] lemma run_nil : run [] = {} := rfl

lemma run_snoc (ops : List Operation) (op : Operation) :
    run (ops ++ [op]) = (run ops).perform op := by
  simp [run]

lemma steps_append (d : Device) (ops ops' : List Operation) :
    steps d (ops ++ ops') = steps d ops ++ steps (ops.foldl perform d) ops' := by
  induction ops generalizing d with
  | nil => rfl
  | cons op ops ih => simp [steps, ih]

variable {β : Type} (f : Device → Operation → List β)

@[simp] lemma along_nil : along f [] = [] := rfl

lemma along_snoc (ops : List Operation) (op : Operation) :
    along f (ops ++ [op]) = along f ops ++ f (run ops) op := by
  simp [along, steps_append, steps, run]

lemma accepted_snoc (ops : List Operation) (op : Operation) :
    accepted (ops ++ [op]) = accepted ops ++ (run ops).accepts op := along_snoc _ ops op

lemma pushed_snoc (ops : List Operation) (op : Operation) :
    pushed (ops ++ [op]) = pushed ops ++ (run ops).pushes op := along_snoc _ ops op

lemma mem_along {ops : List Operation} {x : β} :
    x ∈ along f ops ↔ ∃ s ∈ steps {} ops, x ∈ f s.1 s.2 :=
  List.mem_flatMap

lemma sublist_along {α γ : Type} {f : Device → Operation → List α} {g : Device → Operation → List β}
    {u : α → γ} {v : β → γ} (h : ∀ d op, ((f d op).map u).Sublist ((g d op).map v))
    (ops : List Operation) : ((along f ops).map u).Sublist ((along g ops).map v) := by
  induction ops using List.reverseRecOn with
  | nil => exact List.Sublist.refl _
  | append_singleton ops op ih =>
    rw [along_snoc, along_snoc, List.map_append, List.map_append]
    exact ih.append (h (run ops) op)

lemma split_of_mem_steps {ops : List Operation} {s : Device × Operation} (hs : s ∈ steps {} ops) :
    ∃ before after, ops = before ++ s.2 :: after ∧ s.1 = run before := by
  induction ops using List.reverseRecOn with
  | nil => cases hs
  | append_singleton ops op ih =>
    rw [steps_append] at hs
    rcases List.mem_append.mp hs with hs | hs
    · obtain ⟨before, after, hops, hbefore⟩ := ih hs
      exact ⟨before, after ++ [op], by rw [hops, List.append_assoc, List.cons_append], hbefore⟩
    · rw [List.mem_singleton.mp hs]
      exact ⟨ops, [], rfl, rfl⟩

lemma found_of_mem_accepts {d : Device} {op : Operation} {p : Posting} (h : p ∈ d.accepts op) :
    ∃ q, d.qps.get? p.qp = some q ∧ (p.cq = q.sendCq ∨ p.cq = q.recvCq) := by
  cases op with
  | postSend id w =>
    simp only [accepts] at h
    split at h
    · obtain ⟨q, hq, rfl⟩ := List.mem_map.mp h
      exact ⟨q, Option.mem_toList.mp hq, Or.inl rfl⟩
    · cases h
  | postRecv id w =>
    simp only [accepts] at h
    split at h
    · obtain ⟨q, hq, rfl⟩ := List.mem_map.mp h
      exact ⟨q, Option.mem_toList.mp hq, Or.inr rfl⟩
    · cases h
  | _ => cases h

/-! ### What the other operations can do -/

section Change

variable {d d' : Device} {id : QpId}

lemma sendReports_frame {w : SendRequest} {out : List Report}
    (h : d.sendReports id w = .ok (d', out)) :
    ∃ memory qps, d' = { d with memory, qps, nextPosting := d.nextPosting + 1 } := by
  obtain ⟨q, -, ⟨remote, -, -, hexecute⟩ | ⟨-, rfl, -⟩⟩ := sendReports_cases h
  · obtain ⟨memory, qps, hframe⟩ := execute_frame d id q w remote
    rw [hexecute] at hframe
    exact ⟨memory, qps, hframe⟩
  · exact ⟨d.memory, d.qps, rfl⟩

lemma recvReports_frame {w : RecvRequest} {out : List Report}
    (h : d.recvReports id w = .ok (d', out)) :
    ∃ memory qps, d' = { d with memory, qps, nextPosting := d.nextPosting + 1 } := by
  obtain ⟨q, -, ⟨-, rfl, -⟩ | ⟨-, -, ⟨m, rest, -, hland⟩ | ⟨-, -, -, rfl⟩⟩⟩ :=
    recvReports_cases h
  · exact ⟨d.memory, d.qps, rfl⟩
  · obtain ⟨memory, qps, hframe⟩ :=
      land_frame (d.unboxed id q rest) id { q with inbox := rest } m (d.receive w)
    rw [hland] at hframe
    exact ⟨memory, qps, hframe⟩
  · exact ⟨d.memory, _, rfl⟩

lemma postSend_frame (d : Device) (id : QpId) (w : SendRequest) :
    ∃ memory qps nextPosting rings,
      d.perform (.postSend id w) = { d with memory, qps, nextPosting, rings } := by
  rcases h : d.sendReports id w with e | ⟨d', out⟩
  · exact ⟨_, _, _, _, (postSend_of_error h).1⟩
  · obtain ⟨memory, qps, rfl⟩ := sendReports_frame h
    exact ⟨_, _, _, _, (postSend_of_ok h).1⟩

lemma postRecv_frame (d : Device) (id : QpId) (w : RecvRequest) :
    ∃ memory qps nextPosting rings,
      d.perform (.postRecv id w) = { d with memory, qps, nextPosting, rings } := by
  rcases h : d.recvReports id w with e | ⟨d', out⟩
  · exact ⟨_, _, _, _, (postRecv_of_error h).1⟩
  · obtain ⟨memory, qps, rfl⟩ := recvReports_frame h
    exact ⟨_, _, _, _, (postRecv_of_ok h).1⟩

lemma createCq_spec {attr : DeviceAttr} {depth : UInt32} {cq : CqId}
    (h : d.createCq attr depth = .ok (d', cq)) :
    cq = d.nextId ∧
      d' = { d with rings := d.rings.set d.nextId { depth }, nextId := d.nextId + 1 } := by
  unfold createCq at h
  split_ifs at h
  cases h
  exact ⟨rfl, rfl⟩

lemma createQp_spec {plan : QpPlan} (h : d.createQp plan = .ok (d', id)) :
    id = d.nextId ∧ ∃ n q, d.nics.get? plan.nic = some n ∧ q.New plan ∧ q.nic = plan.nic ∧
      q.fabric = n.fabric ∧ q.endpoint = ⟨n.lid, n.nextQpn, plan.psn⟩ ∧
      d' = { d with
        nics := d.nics.modify plan.nic fun n => { n with nextQpn := n.nextQpn + 1 }
        qps := d.qps.set d.nextId q
        routes := d.routes.set ⟨q.fabric, q.endpoint.lid, q.endpoint.qpn⟩ d.nextId
        nextId := d.nextId + 1 } := by
  unfold createQp at h
  split at h
  · cases h
  · rename_i n hn
    split at h
    case h_4 hsend hrecv =>
      cases h
      exact ⟨rfl, n, _, hn, ⟨hsend, hrecv, rfl, rfl, rfl, rfl⟩, rfl, rfl, rfl, rfl⟩
    all_goals cases h

lemma connect_spec {e : Endpoint} (h : d.connect id e = .ok d') :
    ∃ q, d.qps.get? id = some q ∧ q.state = .reset ∧
      d' = { d with qps := d.qps.set id { q with remote := some e, state := .rts } } := by
  unfold connect at h
  split at h
  · cases h
  · rename_i q hq
    split at h
    · rename_i hstate
      cases h
      exact ⟨q, hq, hstate, rfl⟩
    · cases h

lemma poll_cases {cq : CqId} {n : Nat} {cs : List Completion} {source : CompletionQueue}
    (h : CompletionQueue.poll { source := .ring cq } d n = .ok (cs, source, d')) :
    (cs = [] ∧ d' = d) ∨ ∃ ring ring', d.rings.get? cq = some ring ∧
      ring.poll n = .ok (cs, ring') ∧ d' = { d with rings := d.rings.set cq ring' } := by
  simp only [CompletionQueue.poll] at h
  split at h
  · cases h
    exact Or.inl ⟨rfl, rfl⟩
  · split at h
    · cases h
      exact Or.inl ⟨rfl, rfl⟩
    · rename_i ring hring
      split at h
      · cases h
      · rename_i hpoll
        cases h
        exact Or.inr ⟨ring, _, hring, hpoll, rfl⟩

/-- The device after an operation; a request that is posted is left to itself here. -/
inductive Change (d : Device) : Operation → Device → Prop where
  | refused {op : Operation} (pushes : d.pushes op = []) (accepts : d.accepts op = []) :
      Change d op d
  | addFabric : Change d .addFabric d.addFabric.1
  | openNic {fabric : FabricId} {attr : DeviceAttr} :
      Change d (.openNic fabric attr) (d.openNic fabric attr).1
  | skipLids {fabric : FabricId} {count : Nat} :
      Change d (.skipLids fabric count)
        { d with
          fabrics := d.fabrics.modify fabric fun f =>
            { f with nextLid := f.nextLid + UInt16.ofNat count } }
  | createCq {attr : DeviceAttr} {depth : UInt32} :
      Change d (.createCq attr depth)
        { d with rings := d.rings.set d.nextId { depth }, nextId := d.nextId + 1 }
  | poll {cq : CqId} {n : Nat} {cs : List Completion} (ring ring' : Ring)
      (found : d.rings.get? cq = some ring) (polled : ring.poll n = .ok (cs, ring')) :
      Change d (.poll cq n) { d with rings := d.rings.set cq ring' }
  /-- The last keys of an adapter are used up, and there is no region for them. -/
  | overflow {nic : NicId} {base len : UInt64} {perm : Permission} (n : Nic)
      (there : d.nics.get? nic = some n) (fits : len.toNat < UInt32.size) :
      Change d (.register nic base len perm)
        { d with nics := d.nics.modify nic fun n => { n with nextKey := n.nextKey + 2 } }
  | register {nic : NicId} {base len : UInt64} {perm : Permission} (n : Nic)
      (there : d.nics.get? nic = some n) (fits : len.toNat < UInt32.size) (r : Region)
      (own : r.nic = nic) :
      Change d (.register nic base len perm)
        { d with
          nics := d.nics.modify nic fun n => { n with nextKey := n.nextKey + 2 }
          memory := d.memory.insert d.nextId r
          nextId := d.nextId + 1 }
  | deregister {region : RegionId} : Change d (.deregister region) (d.deregister region)
  | fill {region : RegionId} {off : UInt64} {data : Bytes} (r r' : Region)
      (found : d.memory.regions.get? region = some r) (filled : r.fill? off data = .ok r') :
      Change d (.fill region off data)
        { d with memory.regions := d.memory.regions.set region r' }
  | createQp {plan : QpPlan} (n : Nic) (there : d.nics.get? plan.nic = some n) (q : QueuePair)
      (new : q.New plan) :
      Change d (.createQp plan)
        { d with
          nics := d.nics.modify plan.nic fun n => { n with nextQpn := n.nextQpn + 1 }
          qps := d.qps.set d.nextId q
          routes := d.routes.set ⟨q.fabric, q.endpoint.lid, q.endpoint.qpn⟩ d.nextId
          nextId := d.nextId + 1 }
  | connect {id : QpId} {peer : Endpoint} (q : QueuePair) (found : d.qps.get? id = some q)
      (state : q.state = .reset) :
      Change d (.connect id peer)
        { d with qps := d.qps.set id { q with remote := some peer, state := .rts } }
  | postSend {id : QpId} {w : SendRequest} :
      Change d (.postSend id w) (d.perform (.postSend id w))
  | postRecv {id : QpId} {w : RecvRequest} :
      Change d (.postRecv id w) (d.perform (.postRecv id w))
  | dropQp {id : QpId} (q : QueuePair) (found : d.qps.get? id = some q) :
      Change d (.dropQp id)
        ({ d with
            qps := (d.qps.drop id).1
            routes := d.routes.erase ⟨q.fabric, q.endpoint.lid, q.endpoint.qpn⟩ }.record
          (d.qps.drop id).2)

lemma perform_change (d : Device) (op : Operation) : Change d op (d.perform op) := by
  cases op with
  | addFabric => exact .addFabric
  | openNic => exact .openNic
  | skipLids fabric count =>
    simp only [perform, skipLids]
    split <;> exact .skipLids
  | createCq attr depth =>
    rcases h : d.createCq attr depth with e | ⟨d', cq⟩ <;> simp only [perform, h]
    · exact .refused rfl rfl
    · obtain ⟨-, rfl⟩ := createCq_spec h
      exact .createCq
  | poll cq n =>
    rcases h : CompletionQueue.poll { source := .ring cq } d n with e | ⟨cs, source, d'⟩ <;>
      simp only [perform, h]
    · exact .refused rfl rfl
    · rcases poll_cases h with ⟨-, rfl⟩ | ⟨ring, ring', hring, hpoll, rfl⟩
      · exact .refused rfl rfl
      · exact .poll ring ring' hring hpoll
  | register nic base len perm =>
    simp only [perform, Device.register]
    split
    · exact .refused rfl rfl
    · rename_i n hn
      split
      · exact .refused rfl rfl
      · rename_i hlen
        split
        · exact .overflow n hn (Nat.lt_of_not_le hlen)
        · exact .register n hn (Nat.lt_of_not_le hlen) _ rfl
  | deregister => exact .deregister
  | fill region off data =>
    rcases hr : d.memory.regions.get? region with - | r
    · simp only [perform, hr]
      exact .refused rfl rfl
    · rcases hfill : r.fill? off data with e | r' <;> simp only [perform, hr, hfill]
      · exact .refused rfl rfl
      · exact .fill r r' hr hfill
  | createQp plan =>
    rcases h : d.createQp plan with e | ⟨d', id⟩ <;> simp only [perform, h]
    · exact .refused rfl rfl
    · obtain ⟨-, n, q, hn, hnew, -, -, -, rfl⟩ := createQp_spec h
      exact .createQp n hn q hnew
  | connect id peer =>
    rcases h : d.connect id peer with e | d' <;> simp only [perform, h]
    · exact .refused rfl rfl
    · obtain ⟨q, hq, hstate, rfl⟩ := connect_spec h
      exact .connect q hq hstate
  | postSend => exact .postSend
  | postRecv => exact .postRecv
  | dropQp id =>
    rcases h : d.qps.get? id with - | q
    · have hsilent : d.pushes (.dropQp id) = [] := by simp only [pushes, dropQpReports, h]
      simp only [perform, dropQp, dropQpReports, h]
      exact .refused hsilent rfl
    · simp only [perform, dropQp, dropQpReports, h]
      exact .dropQp q h

end Change

/-! ### What an operation does to the queue pairs -/

/-- What an operation can do: the device after it, what it pushes and what it accepts. -/
inductive Effect (d : Device) : Operation → Device → List Report → List Posting → Prop where
  /-- It is refused, or is no business of the queue pairs. -/
  | quiet {op : Operation} {d' : Device} (qps : d'.qps = d.qps)
      (nextPosting : d'.nextPosting = d.nextPosting) (nextId : d.nextId ≤ d'.nextId) :
      Effect d op d' [] []
  | create {plan : QpPlan} {d' : Device} (q : QueuePair) (new : q.New plan)
      (qps : d'.qps = d.qps.set d.nextId q)
      (nextPosting : d'.nextPosting = d.nextPosting) (nextId : d'.nextId = d.nextId + 1) :
      Effect d (.createQp plan) d' [] []
  | connect {id : QpId} {peer : Endpoint} (q : QueuePair) (found : d.qps.get? id = some q)
      (state : q.state = .reset) :
      Effect d (.connect id peer)
        { d with qps := d.qps.set id { q with remote := some peer, state := .rts } } [] []
  | execute {id : QpId} {w : SendRequest} (q : QueuePair) (remote : Endpoint)
      (found : d.qps.get? id = some q) (state : q.state = .rts) (bound : q.remote = some remote) :
      Effect d (.postSend id w)
        ((d.execute id q w remote).1.record (d.execute id q w remote).2)
        (d.execute id q w remote).2 [d.sendPosting id q w]
  | flushSend {id : QpId} {w : SendRequest} (q : QueuePair) (found : d.qps.get? id = some q)
      (state : q.state = .error) (out : List Report)
      (flushed : out = [⟨d.nextPosting, q.sendCq, .flushed w.wrId w.op.opcode⟩]) :
      Effect d (.postSend id w) ({ d with nextPosting := d.nextPosting + 1 }.record out) out
        [d.sendPosting id q w]
  | flushRecv {id : QpId} {w : RecvRequest} (q : QueuePair) (found : d.qps.get? id = some q)
      (state : q.state = .error) (out : List Report)
      (flushed : out = [⟨d.nextPosting, q.recvCq, .flushed w.wrId .recv⟩]) :
      Effect d (.postRecv id w) ({ d with nextPosting := d.nextPosting + 1 }.record out) out
        [d.recvPosting id q w]
  /-- The receive takes the oldest message that waits. -/
  | land {id : QpId} {w : RecvRequest} (q : QueuePair) (found : d.qps.get? id = some q)
      (state : q.state.canPostRecv) (alive : q.state ≠ .error) (m : Message) (rest : List Message)
      (inbox : q.inbox = m :: rest)
      (landed : Device × List Report)
      (land : (d.unboxed id q rest).land id { q with inbox := rest } m (d.receive w) = landed) :
      Effect d (.postRecv id w) (landed.1.record landed.2) landed.2 [d.recvPosting id q w]
  /-- The receive waits for a message. -/
  | wait {id : QpId} {w : RecvRequest} (q : QueuePair) (found : d.qps.get? id = some q)
      (state : q.state.canPostRecv) (alive : q.state ≠ .error) (inbox : q.inbox = [])
      (room : q.recvs.length < q.caps.maxRecvWr.toNat) :
      Effect d (.postRecv id w)
        { d with
          nextPosting := d.nextPosting + 1
          qps := d.qps.set id { q with recvs := q.recvs ++ [d.receive w] } } []
        [d.recvPosting id q w]
  | drop {id : QpId} (q : QueuePair) (found : d.qps.get? id = some q) :
      Effect d (.dropQp id)
        ({ d with
            qps := (d.qps.drop id).1
            routes := d.routes.erase ⟨q.fabric, q.endpoint.lid, q.endpoint.qpn⟩ }.record
          (d.qps.drop id).2)
        (d.qps.drop id).2 []

lemma effect_refl (d : Device) (op : Operation) : Effect d op d [] [] :=
  .quiet rfl rfl le_rfl

lemma postSend_effect (d : Device) (id : QpId) (w : SendRequest) :
    Effect d (.postSend id w) (d.perform (.postSend id w)) (d.pushes (.postSend id w))
      (d.accepts (.postSend id w)) := by
  rcases h : d.sendReports id w with e | ⟨d', out⟩
  · simp only [perform, pushes, accepts, postSend, h, Except.map]
    exact effect_refl d _
  · obtain ⟨q, hq, ⟨remote, hstate, hremote, hexecute⟩ | ⟨hstate, rfl, hout⟩⟩ :=
      sendReports_cases h
    · simp only [perform, pushes, accepts, postSend, h, Except.map, hq, Option.toList_some]
      have := Effect.execute (w := w) q remote hq hstate hremote
      rwa [hexecute] at this
    · simp only [perform, pushes, accepts, postSend, h, Except.map, hq, Option.toList_some]
      exact .flushSend q hq hstate out hout

lemma postRecv_effect (d : Device) (id : QpId) (w : RecvRequest) :
    Effect d (.postRecv id w) (d.perform (.postRecv id w)) (d.pushes (.postRecv id w))
      (d.accepts (.postRecv id w)) := by
  rcases h : d.recvReports id w with e | ⟨d', out⟩
  · simp only [perform, pushes, accepts, postRecv, h, Except.map]
    exact effect_refl d _
  · obtain ⟨q, hq, ⟨hstate, rfl, hout⟩ | ⟨hstate, halive, ⟨m, rest, hinbox, hland⟩ |
      ⟨hinbox, hroom, rfl, rfl⟩⟩⟩ := recvReports_cases h
    · simp only [perform, pushes, accepts, postRecv, h, Except.map, hq, Option.toList_some]
      exact .flushRecv q hq hstate out hout
    · simp only [perform, pushes, accepts, postRecv, h, Except.map, hq, Option.toList_some]
      exact .land q hq hstate halive m rest hinbox _ hland
    · simp only [perform, pushes, accepts, postRecv, h, Except.map, hq, Option.toList_some]
      exact .wait q hq hstate halive hinbox hroom

lemma perform_effect (d : Device) (op : Operation) :
    Effect d op (d.perform op) (d.pushes op) (d.accepts op) := by
  have h := perform_change d op
  generalize d.perform op = d' at h ⊢
  cases h with
  | refused pushes accepts =>
    rw [pushes, accepts]
    exact effect_refl d op
  | addFabric | openNic | createCq | register => exact .quiet rfl rfl (Nat.le_succ _)
  | skipLids | poll | overflow | deregister | fill => exact .quiet rfl rfl le_rfl
  | createQp n there q new => exact .create q new rfl rfl rfl
  | connect q found state => exact .connect q found state
  | postSend => exact postSend_effect d _ _
  | postRecv => exact postRecv_effect d _ _
  | dropQp q found =>
    simp only [pushes, dropQpReports, found]
    exact .drop q found

end Device

end Verbs
