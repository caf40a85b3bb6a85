import Mathlib.Tactic
import Verbs.Proofs.Device.Balance
import Verbs.Proofs.Memory.Spots

/-!
Messages and the receives that they meet. A message that is handed to a queue pair takes its oldest
receive, and a receive takes the oldest message; what is left over waits. Both ends are told the
outcome, and where it is bad both have failed.
-/

namespace Verbs

def Receive.report (r : Receive) (cq : CqId) (m : Message) (status : Status) : Report where
  posting := r.posting
  cq := cq
  completion :=
    { wrId := r.wrId
      status
      opcode := match m.payload with
        | .data _ => .recv
        | .written _ => .recvRdmaImm
      byteLen := if status.isSuccess then UInt32.ofNat m.payload.length else 0
      imm := if status.isSuccess then m.imm else none }

namespace Device

variable {d d' : Device} {b id : QpId} {q : QueuePair} {m : Message} {r : Receive} {op : Operation}

/-! ### One message and one receive -/

inductive Landed (d d' : Device) (b : QpId) (q : QueuePair) (m : Message) (r : Receive) :
    List Report → Prop where
  | taken (filled : ∀ bytes, m.payload = .data bytes →
        d.memory.Filled d'.memory q.nic r.sgl bytes) :
      Landed d d' b q m r [r.report q.recvCq m .success, m.report .success]
  | refused (status : Status) (flushed rest : List Report)
      (data : ∃ bytes, m.payload = .data bytes)
      (reason : status = .locLenErr ∨ status = .locProtErr)
      (receiver : ∀ q, d'.qps.get? b = some q → q.state = .error)
      (sender : ∀ q, d'.qps.get? m.sender = some q → q.state = .error) :
      Landed d d' b q m r
        (r.report q.recvCq m status :: (flushed ++ m.report .remOpErr :: rest))

lemma land_cases (d : Device) (id : QpId) (q : QueuePair) (m : Message) (r : Receive) :
    (∃ memory, (∀ bytes, m.payload = .data bytes →
        d.memory.Filled memory q.nic r.sgl bytes) ∧
      d.land id q m r =
        ({ d with memory }, [r.report q.recvCq m .success, m.report .success])) ∨
    ∃ memory status, (∃ bytes, m.payload = .data bytes) ∧
      (status = .locLenErr ∨ status = .locProtErr) ∧
      d.land id q m r =
        ({ d with memory, qps := ((d.qps.fail id).1.finish m .remOpErr).1 },
          r.report q.recvCq m status ::
            ((d.qps.fail id).2 ++ ((d.qps.fail id).1.finish m .remOpErr).2)) := by
  rcases hm : m.payload with bytes | len
  · rcases hs : d.memory.scatter q.nic r.sgl bytes with ⟨memory, status | ⟨⟩⟩
    · have hreason := Memory.scatter_error (congrArg Prod.snd hs)
      refine Or.inr ⟨memory, status, ⟨bytes, rfl⟩, hreason, ?_⟩
      simp [land, hm, hs, Receive.report]
    · refine Or.inl ⟨memory, fun bytes' hbytes => ?_, ?_⟩
      · cases hbytes
        exact Memory.filled_of_scatter hs
      · simp [land, hm, hs, Receive.report]
  · refine Or.inl ⟨d.memory, fun bytes hbytes => (nomatch hbytes), ?_⟩
    simp [land, hm, Receive.report]

lemma land_landed (d : Device) (id : QpId) (q : QueuePair) (m : Message) (r : Receive) :
    Landed d (d.land id q m r).1 id q m r (d.land id q m r).2 := by
  rcases land_cases d id q m r with ⟨memory, hfilled, hland⟩ |
    ⟨memory, status, hdata, hreason, hland⟩
  · rw [hland]
    exact .taken hfilled
  · have hfinish : ((d.qps.fail id).1.finish m .remOpErr).2 =
        m.report .remOpErr :: ((d.qps.fail id).1.fail m.sender).2 := by
      simp [QueuePairs.finish, Status.isSuccess]
    rw [hland, hfinish]
    refine .refused status _ _ hdata hreason ?_ ?_
    · exact (QueuePairs.finish_failed _ m .remOpErr).state_error
        (QueuePairs.state_error_of_fail d.qps id)
    · intro q hq
      exact QueuePairs.state_error_of_fail (d.qps.fail id).1 m.sender q (by
        simpa [QueuePairs.finish, Status.isSuccess] using hq)

lemma Landed.congr {e e' : Device} {q' : QueuePair} {out : List Report}
    (h : Landed e e' b q' m r out)
    (before : ∀ bytes, m.payload = .data bytes → e.memory = d.memory)
    (memory : e'.memory = d'.memory) (qps : e'.qps = d'.qps)
    (nic : q'.nic = q.nic) (recvCq : q'.recvCq = q.recvCq) : Landed d d' b q m r out := by
  cases h with
  | taken filled =>
    rw [recvCq]
    refine .taken fun bytes hbytes => ?_
    rw [← before bytes hbytes, ← memory, ← nic]
    exact filled bytes hbytes
  | refused status flushed rest data reason receiver sender =>
    rw [qps] at receiver sender
    rw [recvCq]
    exact .refused status flushed rest data reason receiver sender

/-! ### Messages and receives of one operation -/

def sends (d : Device) : Operation → Option (QpId × QueuePair × Message)
  | .postSend id w =>
    match d.sendReports id w, d.qps.get? id with
    | .ok _, some q =>
      match q.state, q.remote with
      | .rts, some remote =>
        match (d.dispatch id q w remote).2 with
        | .message peerId peer m => some (peerId, peer, m)
        | .outcome _ _ => none
      | _, _ => none
    | _, _ => none
  | _ => none

/-- The messages handed to a queue pair that is not in the error state. -/
def hands (b : QpId) (d : Device) (op : Operation) : List Message :=
  match d.sends op with
  | some (peerId, peer, m) => if peerId = b ∧ peer.state ≠ .error then [m] else []
  | none => []

def takes (b : QpId) (d : Device) : Operation → List Receive
  | .postRecv id w =>
    match d.recvReports id w, d.qps.get? id with
    | .ok _, some q => if id = b ∧ q.state = .rts then [d.receive w] else []
    | _, _ => []
  | _ => []

/-- The messages and receives that meet: a message meets the oldest receive that waits, a receive
the oldest message. -/
def landings (b : QpId) (d : Device) (op : Operation) : List (Message × Receive) :=
  match d.qps.get? b with
  | some q => (d.hands b op).zip q.recvs ++ q.inbox.zip (d.takes b op)
  | none => []

lemma dispatch_memory {w : SendRequest} {remote : Endpoint} {memory : Memory} {peerId : QpId}
    {peer : QueuePair} (h : d.dispatch id q w remote = (memory, .message peerId peer m))
    {bytes : Bytes} (hm : m.payload = .data bytes) : memory = d.memory := by
  unfold dispatch at h
  dsimp only at h
  split at h
  · cases h
  · split at h
    · cases h
    · split at h
      · split at h <;> cases h
        rfl
      · split at h <;> cases h
        cases hm
      all_goals split at h <;> cases h

def posted (d : Device) (memory : Memory) : Device :=
  { d with memory, nextPosting := d.nextPosting + 1 }

lemma sends_spec {peerId : QpId} {peer : QueuePair} (h : d.sends op = some (peerId, peer, m)) :
    ∃ id w q remote memory, op = .postSend id w ∧ d.qps.get? id = some q ∧ q.state = .rts ∧
      d.dispatch id q w remote = (memory, .message peerId peer m) ∧
      d.accepts op = [d.sendPosting id q w] ∧
      d.perform op = (d.posted memory |>.deliver peerId peer m).1.record
        (d.posted memory |>.deliver peerId peer m).2 ∧
      d.pushes op = (d.posted memory |>.deliver peerId peer m).2 := by
  unfold sends at h
  split at h
  · rename_i id w
    split at h
    · rename_i result q hreports hq
      split at h
      · rename_i remote hstate hremote
        split at h
        · rename_i hdispatch
          cases h
          rcases hd : d.dispatch id q w remote with ⟨memory, result⟩
          rw [hd] at hdispatch
          cases hdispatch
          refine ⟨id, w, q, remote, memory, rfl, hq, hstate, hd, ?_⟩
          have hexecute : d.execute id q w remote =
              (d.posted memory).deliver peerId peer m := by
            simp only [execute, hd, posted]
          obtain ⟨q', hq', ⟨remote', -, hremote', hresult⟩ | ⟨herror, -, -⟩⟩ :=
            sendReports_cases hreports
          · cases hq.symm.trans hq'
            cases hremote.symm.trans hremote'
            rw [hexecute] at hresult
            simp [perform, pushes, accepts, postSend, hreports, hq, hresult, Except.map]
          · cases hq.symm.trans hq'
            cases hstate.symm.trans herror
        · cases h
      · cases h
    · cases h
  · cases h

/-! ### Where a message and a receive meet -/

lemma alive_of_acceptsFrom {peer : QueuePair} {e : Endpoint} (h : peer.acceptsFrom e) :
    peer.state ≠ .error ∧ peer.state ≠ .unknown := by
  constructor <;> intro hstate <;> simp [QueuePair.acceptsFrom, hstate] at h

lemma deliver_cases {peer : QueuePair} (d : Device) (b : QpId)
    (halive : peer.state ≠ .error ∧ peer.state ≠ .unknown) (m : Message) :
    (peer.recvs = [] ∧ d.deliver b peer m =
        ({ d with qps := d.qps.set b { peer with inbox := peer.inbox ++ [m] } }, [])) ∨
      ∃ r rest, peer.recvs = r :: rest ∧ d.deliver b peer m =
        { d with qps := d.qps.set b { peer with recvs := rest } }.land b
          { peer with recvs := rest } m r := by
  have hnot : ¬ (peer.state = .error ∨ peer.state = .unknown) := not_or.mpr halive
  rcases hrecvs : peer.recvs with - | ⟨r, rest⟩
  · exact Or.inl ⟨rfl, by simp [deliver, hnot, hrecvs]⟩
  · exact Or.inr ⟨r, rest, rfl, by simp [deliver, hnot, hrecvs]⟩

lemma perform_of_sends_none {w : SendRequest} (h : d.sends (.postSend id w) = none) :
    ((d.perform (.postSend id w)).qps = d.qps ∧
        ∀ r ∈ d.pushes (.postSend id w), r.posting = d.nextPosting) ∨
      ∃ report, report.posting = d.nextPosting ∧
        (d.perform (.postSend id w)).qps = (d.qps.complete id report).1 ∧
        d.pushes (.postSend id w) = (d.qps.complete id report).2 := by
  rcases hreports : d.sendReports id w with e | ⟨d', out⟩
  · refine Or.inl ⟨by simp only [perform, postSend, hreports, Except.map], ?_⟩
    simp [pushes, hreports]
  · obtain ⟨hperform, hpushes⟩ := postSend_of_ok hreports
    rw [hpushes, hperform, record_qps]
    obtain ⟨q, hq, ⟨remote, hstate, hremote, hresult⟩ | ⟨-, rfl, rfl⟩⟩ := sendReports_cases hreports
    · rcases execute_cases d id q w remote with ⟨memory, peerId, peer, m, hdispatch, -⟩ |
        ⟨memory, status, len, -, hexecute⟩
      · simp [sends, hreports, hq, hstate, hremote, hdispatch] at h
      · cases hresult.symm.trans hexecute
        exact Or.inr ⟨_, rfl, rfl, rfl⟩
    · exact Or.inl ⟨rfl, by simp⟩

lemma sends_of_mem_hands (h : m ∈ d.hands b op) :
    ∃ peer, d.sends op = some (b, peer, m) ∧ d.hands b op = [m] := by
  unfold hands at h ⊢
  split at h
  · rename_i peerId peer m' hsends
    split at h
    · rename_i hcond
      obtain ⟨rfl, halive⟩ := hcond
      cases List.mem_singleton.mp h
      exact ⟨peer, hsends, by simp [halive]⟩
    · cases h
  · cases h

lemma landings_of_sends {w : SendRequest} {peer : QueuePair}
    (hsends : d.sends (.postSend id w) = some (b, peer, m)) (hpeer : d.qps.get? b = some peer)
    (halive : peer.state ≠ .error) :
    d.landings b (.postSend id w) = [m].zip peer.recvs := by
  simp [landings, hpeer, hands, hsends, halive, takes]

lemma landings_of_recvReports {w : RecvRequest} {out : List Report}
    (hreports : d.recvReports b w = .ok (d', out)) (hq : d.qps.get? b = some q)
    (hstate : q.state = .rts) :
    d.landings b (.postRecv b w) = q.inbox.zip [d.receive w] := by
  simp [landings, hq, hands, sends, takes, hreports, hstate]

lemma recv_of_mem_takes (h : r ∈ d.takes b op) :
    ∃ w q d' out, op = .postRecv b w ∧ d.qps.get? b = some q ∧ q.state = .rts ∧ r = d.receive w ∧
      d.takes b op = [r] ∧ d.recvReports b w = .ok (d', out) := by
  unfold takes at h ⊢
  split at h
  · rename_i id w
    split at h
    · rename_i result q hreports hq
      split at h
      · rename_i hcond
        obtain ⟨rfl, hstate⟩ := hcond
        cases List.mem_singleton.mp h
        exact ⟨w, q, result.1, result.2, rfl, hq, hstate, rfl, by simp [hstate], hreports⟩
      · cases h
    · cases h
  · cases h

lemma landed_of_mem_landings (h : (m, r) ∈ d.landings b op) :
    ∃ q, d.qps.get? b = some q ∧ Landed d (d.perform op) b q m r (d.pushes op) := by
  unfold landings at h
  split at h
  · rename_i q hq
    refine ⟨q, hq, ?_⟩
    rcases List.mem_append.mp h with h | h
    · obtain ⟨peer, hsends, hhands⟩ := sends_of_mem_hands (List.of_mem_zip h).1
      obtain ⟨id, w, q', remote, memory, rfl, -, -, hdispatch, -, hperform, hpushes⟩ :=
        sends_spec hsends
      obtain ⟨hroute, hreaches, -⟩ := dispatch_message hdispatch
      cases hq.symm.trans (get?_of_route hroute).2
      rw [hhands] at h
      rw [hperform, hpushes]
      rcases deliver_cases (d.posted memory) b (alive_of_acceptsFrom hreaches) m with
        ⟨hrecvs, -⟩ | ⟨r', rest, hrecvs, hdeliver⟩
      · rw [hrecvs] at h
        cases h
      · rw [hrecvs, List.zip_cons_cons, List.zip_nil_left, List.mem_singleton] at h
        cases h
        rw [hdeliver]
        exact (land_landed _ _ _ _ _).congr (fun bytes hbytes => dispatch_memory hdispatch hbytes)
          rfl rfl rfl rfl
    · obtain ⟨w, q', d', out, rfl, hq', hstate, rfl, htakes, hreports⟩ :=
        recv_of_mem_takes (List.of_mem_zip h).2
      cases hq.symm.trans hq'
      rw [htakes] at h
      obtain ⟨hperform, hpushes⟩ := postRecv_of_ok hreports
      obtain ⟨q', hq', ⟨herror, -, -⟩ | ⟨-, -, ⟨m', rest, hinbox, hland⟩ | ⟨hinbox, -⟩⟩⟩ :=
        recvReports_cases hreports
      · cases hq.symm.trans hq'
        cases hstate.symm.trans herror
      · cases hq.symm.trans hq'
        rw [hinbox, List.zip_cons_cons, List.zip_nil_right, List.mem_singleton] at h
        cases h
        have hlanded := land_landed (d.unboxed b q rest) b { q with inbox := rest } m (d.receive w)
        rw [hland] at hlanded
        rw [hperform, hpushes]
        exact hlanded.congr (fun _ _ => rfl) rfl rfl rfl rfl
      · cases hq.symm.trans hq'
        rw [hinbox] at h
        cases h
  · cases h

end Device

end Verbs
