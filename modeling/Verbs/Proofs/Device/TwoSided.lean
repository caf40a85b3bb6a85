import Mathlib.Tactic
import Verbs.Proofs.Device.Receives

/-!
Messages and receives from end to end. The request behind a message and the receive that it meets
are completed together and say the same, the bytes of a send go from windows to windows, and
receives are completed in the order in which they were accepted.
-/

namespace Verbs

def SendOp.receiveOpcode : SendOp → Opcode
  | .send _ => .recv
  | .write _ _ | .read _ | .compareSwap _ _ _ | .fetchAdd _ _ => .recvRdmaImm

/-- What the completion `c` of a message and the completion `c'` of the receive that it met say of
each other. -/
structure Agree (op : SendOp) (c c' : Completion) : Prop where
  success : c.status.isSuccess = c'.status.isSuccess
  imm : c'.status.isSuccess = true → c'.imm = op.imm?
  opcode : c'.status.isSuccess = true → c'.opcode = op.receiveOpcode
  byteLen : c'.status.isSuccess = true → c'.byteLen = c.byteLen
  refused : c'.status.isSuccess = false →
    (c'.status = .locLenErr ∨ c'.status = .locProtErr) ∧ c.status = .remOpErr

namespace Device

variable {d d' : Device} {b id : QpId} {q : QueuePair} {m : Message} {r : Receive} {op : Operation}
  {ops : List Operation}

/-- The data of a send is what the sender's windows hold when it is posted, and goes into the
windows of the receive, entry after entry, when the two meet; so it can be read there, if they name
no byte twice. -/
def Carried (b : QpId) (ops : List Operation) (w : SendRequest) (m : Message) (r : Receive)
    (c : Completion) : Prop :=
  ∃ s ∈ steps {} ops, ∃ s' ∈ steps {} ops, ∃ q q' data,
    s.2 = .postSend m.sender w ∧ s.1.nextPosting = m.posting ∧
    s.1.qps.get? m.sender = some q ∧ s.1.memory.contents q.nic w.sgl = data.map some ∧
    (m, r) ∈ s'.1.landings b s'.2 ∧ s'.1.qps.get? b = some q' ∧
    s'.1.memory.Filled (s'.1.perform s'.2).memory q'.nic r.sgl data ∧
    ((s'.1.memory.spots q'.nic r.sgl).Nodup →
      ((s'.1.perform s'.2).memory.contents q'.nic r.sgl).take data.length = data.map some) ∧
    c.byteLen = UInt32.ofNat data.length

/-- Both ends of a message that met a receive are told, and they agree. -/
lemma Landed.agree {out : List Report} (h : Landed d d' b q m r out) {e : Device} {id : QpId}
    {p : QueuePair} {w : SendRequest} (hcarries : e.Carries id p w m) :
    ∃ report ∈ out, ∃ report' ∈ out, report.posting = m.posting ∧ report'.posting = r.posting ∧
      Agree w.op report.completion report'.completion ∧
      (report'.completion.status.isSuccess = true →
        report'.completion.byteLen = UInt32.ofNat m.payload.length ∧
        ∀ bytes, m.payload = .data bytes → d.memory.Filled d'.memory q.nic r.sgl bytes) ∧
      (report'.completion.status.isSuccess = false → ∀ j, j = b ∨ j = m.sender →
        ∀ q, d'.qps.get? j = some q → q.state = .error) := by
  cases h with
  | taken filled =>
    refine ⟨m.report .success, by simp, r.report q.recvCq m .success, by simp, rfl, rfl, ?_,
      fun _ => ⟨rfl, filled⟩, fun h => by cases h⟩
    refine ⟨rfl, fun _ => hcarries.imm, fun _ => ?_, fun _ => rfl, fun h => by cases h⟩
    have hpayload := hcarries.payload
    rcases hw : w.op with imm | ⟨s, - | imm⟩ | s | ⟨s, old, new⟩ | ⟨s, add⟩ <;>
      rw [hw] at hpayload
    · obtain ⟨data, -, hdata⟩ := hpayload
      simp [Receive.report, hdata, SendOp.receiveOpcode]
    · exact hpayload.elim
    · obtain ⟨len, hlen⟩ := hpayload
      simp [Receive.report, hlen, SendOp.receiveOpcode]
    all_goals exact hpayload.elim
  | refused status flushed rest data reason receiver sender =>
    have hfailed : status.isSuccess = false := by rcases reason with rfl | rfl <;> rfl
    refine ⟨m.report .remOpErr, by simp, r.report q.recvCq m status, by simp, rfl, rfl, ?_, ?_, ?_⟩
    · refine ⟨hfailed.symm, fun h => ?_, fun h => ?_, fun h => ?_, fun _ => ⟨reason, rfl⟩⟩ <;>
        cases hfailed.symm.trans h
    · intro h
      cases hfailed.symm.trans h
    · rintro - j (rfl | rfl)
      · exact receiver
      · exact sender

/-! ### Runs -/

lemma qp_lt {p : Posting} (hp : p ∈ accepted ops) : p.qp < (run ops).nextId := by
  induction ops using List.reverseRecOn with
  | nil => cases hp
  | append_singleton ops op ih =>
    have hle := (perform_effect (run ops) op).nextId_le
    rw [run_snoc]
    rw [accepted_snoc] at hp
    rcases List.mem_append.mp hp with hp | hp
    · exact (ih hp).trans_le hle
    · obtain ⟨q, hq, -⟩ := found_of_mem_accepts hp
      have hlt : p.qp < (run ops).nextId := (balanced ops).named _ _ hq
      exact hlt.trans_le hle

lemma nodup_along {α : Type} (f : Device → Operation → List α) (number : α → Nat)
    (h : ∀ d op, ((f d op).map number).Sublist ((d.accepts op).map (·.number)))
    (ops : List Operation) : ((along f ops).map number).Nodup :=
  (balanced ops).nodup.sublist (sublist_along h ops)

lemma nodup_handed (b : QpId) (ops : List Operation) :
    ((handed b ops).map (·.posting)).Nodup := by
  refine nodup_along _ _ (fun d op => ?_) ops
  rcases hhands : d.hands b op with - | ⟨m, rest⟩
  · exact List.nil_sublist _
  · have hmem : m ∈ d.hands b op := by rw [hhands]; exact List.mem_cons_self
    obtain ⟨peer, hsends, hone⟩ := sends_of_mem_hands hmem
    obtain ⟨id, w, q, remote, memory, -, -, -, hdispatch, haccepts, -⟩ := sends_spec hsends
    obtain ⟨-, -, hcarries⟩ := dispatch_message hdispatch
    rw [← hhands, hone, haccepts, List.map_singleton, List.map_singleton, hcarries.posting]
    exact List.Sublist.refl _

lemma nodup_received (b : QpId) (ops : List Operation) :
    ((received b ops).map (·.posting)).Nodup := by
  refine nodup_along _ _ (fun d op => ?_) ops
  rcases htakes : d.takes b op with - | ⟨r, rest⟩
  · exact List.nil_sublist _
  · have hmem : r ∈ d.takes b op := by rw [htakes]; exact List.mem_cons_self
    obtain ⟨w, q, d', out, rfl, hq, -, rfl, hone, hreports⟩ := recv_of_mem_takes hmem
    rw [← htakes, hone]
    simp [accepts, hreports, hq, recvPosting, receive]

lemma landed_completed (h : (m, r) ∈ landed b ops) :
    ∃ p ∈ accepted ops, ∃ p' ∈ accepted ops, ∃ w c c',
      p.number = m.posting ∧ p.qp = m.sender ∧ p.wrId = w.wrId ∧ p.work = .send w.sgl w.op ∧
      w.op.twoSided ∧ p'.number = r.posting ∧ p'.qp = b ∧ p'.work = .recv r.sgl ∧
      (reportsOf ops p).map (·.completion) = [c] ∧
      (reportsOf ops p').map (·.completion) = [c'] ∧ Agree w.op c c' ∧
      (c'.status.isSuccess = true → ∀ imm, w.op = .send imm → Carried b ops w m r c') ∧
      (c'.status.isSuccess = false → ∀ j, j = b ∨ j = m.sender →
        ∀ q, (run ops).qps.get? j = some q → q.state = .error) := by
  have hbalanced := balanced ops
  have hzip : (m, r) ∈ (handed b ops).zip (received b ops) := (inOrder b ops).landed ▸ h
  obtain ⟨hm, hr⟩ := List.of_mem_zip hzip
  obtain ⟨s, hs, w, q, hop, hq, haccepts, hcarries⟩ := accepted_of_mem_handed hm
  obtain ⟨cq, hp'⟩ := accepted_of_mem_received hr
  have hp : ⟨m.posting, m.sender, m.senderCq, m.wrId, .send w.sgl w.op⟩ ∈ accepted ops :=
    (mem_along _).mpr ⟨s, hs, by rw [haccepts]; exact List.mem_singleton_self _⟩
  obtain ⟨s', hs', hmeet⟩ := (mem_along _).mp h
  obtain ⟨q', hq', hlanded⟩ := landed_of_mem_landings hmeet
  obtain ⟨report, hreport, report', hreport', hposting, hposting', hagree, hsuccess, hfailure⟩ :=
    hlanded.agree hcarries
  -- what is told where the two meet is among what the run pushes, and a request is told once
  have hpushed : report ∈ pushed ops := (mem_along _).mpr ⟨s', hs', hreport⟩
  have hpushed' : report' ∈ pushed ops := (mem_along _).mpr ⟨s', hs', hreport'⟩
  refine ⟨_, hp, _, hp', w, report.completion, report'.completion, rfl, rfl, hcarries.wrId, rfl,
    hcarries.twoSided, rfl, rfl, rfl, ?_, ?_, hagree, fun hok imm hsend => ?_,
    fun hfailed j hj => ?_⟩
  · rw [hbalanced.reportsOf_eq hp hpushed hposting]
    rfl
  · rw [hbalanced.reportsOf_eq hp' hpushed' hposting']
    rfl
  · have hpayload := hcarries.payload
    rw [hsend] at hpayload
    obtain ⟨data, hgather, hdata⟩ := hpayload
    obtain ⟨hlen, hfilled⟩ := hsuccess hok
    rw [hdata] at hlen
    exact ⟨s, hs, s', hs', q, q', data, hop, hcarries.posting.symm, hq,
      Memory.contents_of_gather hgather, hmeet, hq', hfilled data hdata,
      (hfilled data hdata).contents, hlen⟩
  · -- the queue pair has failed where the two met, and stays so until the end of the run
    obtain ⟨before, after, hops, hbefore⟩ := split_of_mem_steps hs'
    have hrun : run ops = after.foldl perform (s'.1.perform s'.2) := by
      rw [hops, hbefore, run, List.foldl_append, List.foldl_cons]
      rfl
    have hnamed : j < (s'.1.perform s'.2).nextId := by
      have hmet : (m, r) ∈ landed b (before ++ [s'.2]) := by
        rw [landed, along_snoc, ← hbefore]
        exact List.mem_append_right _ hmeet
      rw [(inOrder b _).landed] at hmet
      obtain ⟨hm, hr⟩ := List.of_mem_zip hmet
      rw [hbefore, ← run_snoc]
      rcases hj with rfl | rfl
      · obtain ⟨cq, hp⟩ := accepted_of_mem_received hr
        exact qp_lt hp
      · obtain ⟨sgl, op, hp⟩ := mem_accepted_of_mem_handed hm
        exact qp_lt hp
    rw [hrun]
    exact state_error_foldl hnamed (hfailure hfailed j hj) after

/-- **Messages and receives are matched in order, and both ends agree.** At every point of every run
the messages handed to a queue pair and the receives that it accepted have been paired off one by
one; what waits, until the queue pair fails, is what one side is ahead of the other. Where a message
has met a receive, both requests are completed, and their completions agree: either both are a
success and the bytes of a send have gone from windows to windows, or the receive could not take
them and both queue pairs are in the error state. The receives of the queue pair are completed in
the order in which they were accepted, and those that met no message with nothing but a flush. -/
theorem matched_in_order (b : QpId) (ops : List Operation) :
    landed b ops = (handed b ops).zip (received b ops) ∧
    (∀ q, (run ops).qps.get? b = some q → q.state ≠ .error →
      q.inbox = (handed b ops).drop (received b ops).length ∧
      q.recvs = (received b ops).drop (handed b ops).length) ∧
    ((handed b ops).map (·.posting)).Nodup ∧ ((received b ops).map (·.posting)).Nodup ∧
    (∀ m r, (m, r) ∈ landed b ops →
      ∃ p ∈ accepted ops, ∃ p' ∈ accepted ops, ∃ w c c',
        p.number = m.posting ∧ p.qp = m.sender ∧ p.wrId = w.wrId ∧ p.work = .send w.sgl w.op ∧
        w.op.twoSided ∧ p'.number = r.posting ∧ p'.qp = b ∧ p'.work = .recv r.sgl ∧
        (reportsOf ops p).map (·.completion) = [c] ∧
        (reportsOf ops p').map (·.completion) = [c'] ∧ Agree w.op c c' ∧
        (c'.status.isSuccess = true → ∀ imm, w.op = .send imm → Carried b ops w m r c') ∧
        (c'.status.isSuccess = false → ∀ j, j = b ∨ j = m.sender →
          ∀ q, (run ops).qps.get? j = some q → q.state = .error)) ∧
    (completionsOf b ops).map (·.posting) ++ ((run ops).qps.flushesOf b).map (·.posting) =
      (receivesOf b ops).map (·.number) ∧
    ∀ report ∈ completionsOf b ops, report.completion.status = .wrFlushErr ∨
      ∃ m r, (m, r) ∈ landed b ops ∧ r.posting = report.posting := by
  have horder := inOrder b ops
  have htold := told b ops
  refine ⟨horder.landed, fun q hq hstate => ?_, nodup_handed b ops, nodup_received b ops,
    fun m r hmr => ?_, ?_, fun report hreport => ?_⟩
  · have hlive := live_of_found hq hstate
    exact ⟨horder.inbox _ _ hlive, horder.recvs _ _ hlive⟩
  · exact landed_completed hmr
  · have h := htold.order
    rwa [List.map_nil, List.nil_append] at h
  · rcases htold.outcome report hreport with h | h
    · exact Or.inl h
    · obtain ⟨⟨m, r⟩, hmr, hposting⟩ := List.mem_map.mp h
      exact Or.inr ⟨m, r, hmr, hposting⟩

theorem matched_in_order_exchange :
    ∃ m r, landed 3 exchange = [(m, r)] ∧ m.posting = 1 ∧ r.posting = 0 ∧
      ∃ p ∈ accepted exchange, ∃ p' ∈ accepted exchange, ∃ (w : SendRequest) (c c' : Completion),
        p.number = 1 ∧ p'.number = 0 ∧ (reportsOf exchange p).map (·.completion) = [c] ∧
          (reportsOf exchange p').map (·.completion) = [c'] ∧ Agree w.op c c' := by
  obtain ⟨m, r, hlanded, hm, hr⟩ : ∃ m r, landed 3 exchange = [(m, r)] ∧ m.posting = 1 ∧
      r.posting = 0 := ⟨_, _, rfl, rfl, rfl⟩
  obtain ⟨p, hp, p', hp', w, c, c', hnumber, -, -, -, -, hnumber', -, -, hc, hc', hagree, -⟩ :=
    (matched_in_order 3 exchange).2.2.2.2.1 m r (by rw [hlanded]; exact List.mem_singleton_self _)
  exact ⟨m, r, hlanded, hm, hr, p, hp, p', hp', w, c, c', hnumber.trans hm, hnumber'.trans hr,
    hc, hc', hagree⟩

end Device

end Verbs
