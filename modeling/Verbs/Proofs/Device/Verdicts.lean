import Mathlib.Tactic
import Verbs.Proofs.Device.SendOrder

/-!
What a completion says of the queue pair that it is for. Without success it condemns it: when the
operation that pushes it returns, the queue pair of the request is in the error state or gone, and
this stays so. A success is that of a request that a connected queue pair has done while it was
posted, or of a message and a receive that have met.
-/

namespace Verbs

def MadeBy (ps : List Posting) (number : Nat) (id : QpId) : Prop :=
  ∃ p ∈ ps, p.number = number ∧ p.qp = id

lemma MadeBy.mono {ps ps' : List Posting} {number : Nat} {id : QpId} (h : MadeBy ps number id)
    (hsub : ps ⊆ ps') : MadeBy ps' number id := by
  obtain ⟨p, hp, hposting⟩ := h
  exact ⟨p, hsub hp, hposting⟩

namespace QueuePair.Backed

variable {ps : List Posting} {id : QpId} {q : QueuePair}

lemma madeBy_recv (h : q.Backed ps id) {r : Receive} (hr : r ∈ q.recvs) :
    MadeBy ps r.posting id :=
  ⟨_, h.recvs r hr, rfl, rfl⟩

lemma madeBy_message (h : q.Backed ps id) {m : Message} (hm : m ∈ q.inbox) :
    MadeBy ps m.posting m.sender := by
  obtain ⟨sgl, op, -, -, hp⟩ := h.inbox m hm
  exact ⟨_, hp, rfl, rfl⟩

end QueuePair.Backed

namespace QueuePairs

variable {qps qps' : QueuePairs} {ps : List Posting} {id : QpId} {q : QueuePair} {m : Message}
  {report : Report}

def Down (qps : QueuePairs) (id : QpId) : Prop := ∀ q, qps.get? id = some q → q.state = .error

lemma Down.of_none (h : qps.get? id = none) : qps.Down id := by
  intro q hq
  rw [h] at hq
  cases hq

lemma Down.of_found (h : qps.get? id = some q) (hstate : q.state = .error) : qps.Down id := by
  intro p hp
  cases h.symm.trans hp
  exact hstate

lemma Down.failed (h : qps.Down id) (hf : Failed qps qps') : qps'.Down id := hf.state_error h

/-- A completion without success, of a request whose queue pair is down. -/
structure Condemned (ps : List Posting) (qps : QueuePairs) (report : Report) : Prop where
  status : report.completion.status.isSuccess = false
  poster : ∃ id, MadeBy ps report.posting id ∧ qps.Down id

lemma Condemned.failed (h : Condemned ps qps report) (hf : Failed qps qps') :
    Condemned ps qps' report := by
  obtain ⟨id, hmade, hdown⟩ := h.poster
  exact ⟨h.status, id, hmade, hdown.failed hf⟩

lemma condemned_of_mem_flushes (hq : q.Backed ps id) (hdown : qps.Down id)
    (h : report ∈ q.flushes) : Condemned ps qps report := by
  obtain ⟨r, hr, rfl⟩ := List.mem_map.mp h
  exact ⟨rfl, id, hq.madeBy_recv hr, hdown⟩

lemma down_modify_failed (qps : QueuePairs) (id : QpId) (q : QueuePair) :
    Down (qps.modify id fun _ => q.failed) id := by
  intro p hp
  rw [Table.get?_modify, if_pos rfl] at hp
  obtain ⟨-, -, rfl⟩ := Option.map_eq_some_iff.mp hp
  rfl

lemma every_backed_modify (hall : qps.Every fun id q => q.Backed ps id)
    (hq : qps.get? id = some q) :
    Every (fun id q => q.Backed ps id) (qps.modify id fun _ => q.failed) :=
  hall.failed (.of_modify hq) fun _ q _ => .of_failed q

lemma refuse_condemned (hall : qps.Every fun id q => q.Backed ps id) (ms : List Message)
    (hms : ∀ m ∈ ms, MadeBy ps m.posting m.sender) :
    ∀ report ∈ (refuse qps ms).2, Condemned ps (refuse qps ms).1 report := by
  fun_induction refuse qps ms with
  | case1 qps =>
    intro report hreport
    cases hreport
  | case2 qps m rest h qps' out heq ih =>
    have hrest := ih hall fun n hn => hms n (List.mem_cons_of_mem _ hn)
    have hfailed := refuse_failed qps rest
    rw [heq] at hrest hfailed
    intro report hreport
    rcases List.mem_cons.mp hreport with rfl | hreport
    · exact ⟨rfl, m.sender, hms m List.mem_cons_self, (Down.of_none h).failed hfailed⟩
    · exact hrest report hreport
  | case3 qps m rest s h qps' out heq ih =>
    have hrest := ih (every_backed_modify hall h) fun n hn => by
      rcases List.mem_append.mp hn with hn | hn
      · exact (hall _ _ h).madeBy_message hn
      · exact hms n (List.mem_cons_of_mem _ hn)
    have hfailed := refuse_failed (qps.modify m.sender fun _ => s.failed) (s.inbox ++ rest)
    rw [heq] at hrest hfailed
    have hdown := (down_modify_failed qps m.sender s).failed hfailed
    intro report hreport
    rcases List.mem_cons.mp hreport with rfl | hreport
    · exact ⟨rfl, m.sender, hms m List.mem_cons_self, hdown⟩
    · rcases List.mem_append.mp hreport with hreport | hreport
      · exact condemned_of_mem_flushes (hall _ _ h) hdown hreport
      · exact hrest report hreport

lemma fail_condemned (hall : qps.Every fun id q => q.Backed ps id) (id : QpId) :
    ∀ report ∈ (fail qps id).2, Condemned ps (fail qps id).1 report := by
  have hdown : (fail qps id).1.Down id := state_error_of_fail qps id
  unfold fail at hdown ⊢
  split
  · intro report hreport
    cases hreport
  · rename_i q h
    rw [h] at hdown
    intro report hreport
    rcases List.mem_append.mp hreport with hreport | hreport
    · exact condemned_of_mem_flushes (hall _ _ h) hdown hreport
    · exact refuse_condemned (every_backed_modify hall h) q.inbox
        (fun m hm => (hall _ _ h).madeBy_message hm) report hreport

lemma finish_condemned (hall : qps.Every fun id q => q.Backed ps id)
    (hm : MadeBy ps m.posting m.sender) {s : Status} (hs : s.isSuccess = false) :
    ∀ report ∈ (finish qps m s).2, Condemned ps (finish qps m s).1 report := by
  simp only [finish, hs, Bool.false_eq_true, if_false]
  intro report hreport
  rcases List.mem_cons.mp hreport with rfl | hreport
  · exact ⟨hs, m.sender, hm, state_error_of_fail qps m.sender⟩
  · exact fail_condemned hall m.sender report hreport

lemma complete_condemned (hall : qps.Every fun id q => q.Backed ps id) {own : Report}
    (hown : MadeBy ps own.posting id) (hs : own.completion.status.isSuccess = false) :
    ∀ report ∈ (complete qps id own).2, Condemned ps (complete qps id own).1 report := by
  simp only [complete, hs, Bool.false_eq_true, if_false]
  intro report hreport
  rcases List.mem_cons.mp hreport with rfl | hreport
  · exact ⟨hs, id, hown, state_error_of_fail qps id⟩
  · exact fail_condemned hall id report hreport

lemma drop_condemned (hall : qps.Every fun id q => q.Backed ps id) (id : QpId) :
    ∀ report ∈ (drop qps id).2, Condemned ps (drop qps id).1 report := by
  have hdown : (drop qps id).1.Down id :=
    (Down.of_none (Table.get?_erase_self qps id)).failed (drop_failed qps id)
  unfold drop at hdown ⊢
  split
  · intro report hreport
    cases hreport
  · rename_i q h
    rw [h] at hdown
    intro report hreport
    rcases List.mem_append.mp hreport with hreport | hreport
    · exact condemned_of_mem_flushes (hall _ _ h) hdown hreport
    · exact refuse_condemned (hall.erase id) q.inbox
        (fun m hm => (hall _ _ h).madeBy_message hm) report hreport

end QueuePairs

namespace Device

open QueuePairs

variable {d : Device} {ps : List Posting} {b id : QpId} {q : QueuePair} {m : Message} {r : Receive}
  {op : Operation} {ops : List Operation} {report : Report}

/-- A completion of an operation without success condemns its queue pair; with success it is that of
the request itself, done by a queue pair that is connected and stays so, or one of the two of a
message and a receive that meet. -/
inductive Verdict (d : Device) (op : Operation) (ps : List Posting) (report : Report) : Prop where
  | condemned (h : Condemned ps (d.perform op).qps report)
  | done {id : QpId} {w : SendRequest} {q : QueuePair} (hop : op = .postSend id w)
      (found : d.qps.get? id = some q) (state : q.state = .rts)
      (made : MadeBy ps report.posting id) (qps : (d.perform op).qps = d.qps)
      (status : report.completion.status.isSuccess = true)
  | met {b : QpId} {m : Message} {r : Receive} (landing : (m, r) ∈ d.landings b op)
      (sender : MadeBy ps m.posting m.sender) (receiver : MadeBy ps r.posting b)
      (posting : report.posting = m.posting ∨ report.posting = r.posting)
      (status : report.completion.status.isSuccess = true)

lemma land_verdict (hall : d.qps.Every fun id q => q.Backed ps id)
    (hm : MadeBy ps m.posting m.sender) (hr : MadeBy ps r.posting id) (q : QueuePair) :
    ∀ report ∈ (d.land id q m r).2, Condemned ps (d.land id q m r).1.qps report ∨
      ((report.posting = m.posting ∨ report.posting = r.posting) ∧
        report.completion.status.isSuccess = true) := by
  intro report hreport
  rcases land_cases d id q m r with ⟨memory, -, hland⟩ | ⟨memory, status, -, hreason, hland⟩
  · rw [hland] at hreport
    rcases List.mem_cons.mp hreport with rfl | hreport
    · exact Or.inr ⟨Or.inr rfl, rfl⟩
    · rw [List.mem_singleton.mp hreport]
      exact Or.inr ⟨Or.inl rfl, rfl⟩
  · have hfinished := finish_failed (d.qps.fail id).1 m .remOpErr
    refine Or.inl ?_
    rw [hland] at hreport ⊢
    rcases List.mem_cons.mp hreport with rfl | hreport
    · refine ⟨by rcases hreason with rfl | rfl <;> rfl, id, hr, ?_⟩
      exact Down.failed (state_error_of_fail d.qps id) hfinished
    · rcases List.mem_append.mp hreport with hreport | hreport
      · exact (fail_condemned hall id report hreport).failed hfinished
      · exact finish_condemned (hall.failed (fail_failed d.qps id) fun _ q _ => .of_failed q) hm
          rfl report hreport

lemma every_backed_mono {ps' : List Posting} {qps : QueuePairs}
    (hall : qps.Every fun id q => q.Backed ps id) (hsub : ps ⊆ ps') :
    qps.Every fun id q => q.Backed ps' id :=
  fun id q hq => (hall id q hq).mono hsub

lemma sends_met (hall : d.qps.Every fun id q => q.Backed ps id) {w : SendRequest}
    {peerId : QpId} {peer : QueuePair} (hsends : d.sends (.postSend id w) = some (peerId, peer, m))
    (hmade : MadeBy ps d.nextPosting id) :
    ∀ report ∈ d.pushes (.postSend id w),
      Condemned ps (d.perform (.postSend id w)).qps report ∨
        ∃ r, (m, r) ∈ d.landings peerId (.postSend id w) ∧ MadeBy ps m.posting m.sender ∧
          MadeBy ps r.posting peerId ∧
          (report.posting = m.posting ∨ report.posting = r.posting) ∧
          report.completion.status.isSuccess = true := by
  intro report hreport
  obtain ⟨_, _, q, remote, memory, hop, -, -, hdispatch, -, hperform, hpushes⟩ :=
    sends_spec hsends
  cases hop
  obtain ⟨hroute, hreaches, hcarries⟩ := dispatch_message hdispatch
  have hpeer := (get?_of_route hroute).2
  have halive := alive_of_acceptsFrom hreaches
  rw [hpushes] at hreport
  rcases deliver_cases (d.posted memory) peerId halive m with
    ⟨-, hdeliver⟩ | ⟨r, rest, hrecvs, hdeliver⟩
  · rw [hdeliver] at hreport
    cases hreport
  · have hbacked := hall _ _ hpeer
    have hall' : QueuePairs.Every (fun id q => q.Backed ps id)
        (d.qps.set peerId { peer with recvs := rest }) :=
      hall.set (hbacked.of_recvs_cons hrecvs)
    rw [hdeliver] at hreport hperform
    have hm : MadeBy ps m.posting m.sender := by
      rw [hcarries.posting, hcarries.sender]
      exact hmade
    have hr : MadeBy ps r.posting peerId := hbacked.madeBy_recv (hrecvs ▸ List.mem_cons_self)
    rcases land_verdict (d := { d.posted memory with
        qps := d.qps.set peerId { peer with recvs := rest } }) hall' hm hr _ report hreport with
      h | h
    · refine Or.inl ?_
      rw [hperform, record_qps]
      exact h
    · refine Or.inr ⟨r, ?_, hm, hr, h⟩
      rw [landings_of_sends hsends hpeer halive.1, hrecvs]
      exact List.mem_cons_self

lemma sends_verdict (hall : d.qps.Every fun id q => q.Backed ps id) {w : SendRequest}
    {peerId : QpId} {peer : QueuePair} (hsends : d.sends (.postSend id w) = some (peerId, peer, m))
    (hmade : MadeBy ps d.nextPosting id) :
    ∀ report ∈ d.pushes (.postSend id w), Verdict d (.postSend id w) ps report := by
  intro report hreport
  rcases sends_met hall hsends hmade report hreport with h | ⟨r, hmet, hm, hr, hposting, hok⟩
  · exact .condemned h
  · exact .met hmet hm hr hposting hok

lemma postSend_verdict (hall : d.qps.Every fun id q => q.Backed ps id) (id : QpId)
    (w : SendRequest) :
    ∀ report ∈ d.pushes (.postSend id w),
      Verdict d (.postSend id w) (ps ++ d.accepts (.postSend id w)) report := by
  intro report hreport
  rcases hreports : d.sendReports id w with e | ⟨d', out⟩
  · rw [(postSend_of_error hreports).2] at hreport
    cases hreport
  · obtain ⟨hperform, hpushes⟩ := postSend_of_ok hreports
    obtain ⟨q, hq, hcases⟩ := sendReports_cases hreports
    have hall' := every_backed_mono hall
      (List.subset_append_left ps (d.accepts (.postSend id w)))
    have hmade : MadeBy (ps ++ d.accepts (.postSend id w)) d.nextPosting id :=
      ⟨d.sendPosting id q w, by simp [accepts, hreports, hq], rfl, rfl⟩
    rcases hcases with ⟨remote, hstate, hremote, hexecute⟩ | ⟨hstate, rfl, rfl⟩
    · rcases execute_cases d id q w remote with ⟨memory, peerId, peer, m, hdispatch, -⟩ |
        ⟨memory, status, len, -, hdone⟩
      · have hsends : d.sends (.postSend id w) = some (peerId, peer, m) := by
          simp [sends, hreports, hq, hstate, hremote, hdispatch]
        exact sends_verdict hall' hsends hmade report hreport
      · cases hexecute.symm.trans hdone
        rw [hpushes] at hreport
        rcases hstatus : (d.sendReport q w status len).completion.status.isSuccess with - | -
        · refine .condemned ?_
          rw [hperform, record_qps]
          exact complete_condemned hall' hmade hstatus report hreport
        · simp only [complete, hstatus, if_true] at hreport hperform
          rw [List.mem_singleton.mp hreport]
          exact .done rfl hq hstate hmade (by rw [hperform, record_qps]) hstatus
    · rw [hpushes] at hreport
      rw [List.mem_singleton.mp hreport]
      refine .condemned ⟨rfl, id, hmade, ?_⟩
      rw [hperform]
      exact Down.of_found hq hstate

lemma postRecv_verdict (hall : d.qps.Every fun id q => q.Backed ps id)
    (hp : d.qps.Every fun _ q => q.Proper) (id : QpId) (w : RecvRequest) :
    ∀ report ∈ d.pushes (.postRecv id w),
      Verdict d (.postRecv id w) (ps ++ d.accepts (.postRecv id w)) report := by
  intro report hreport
  rcases hreports : d.recvReports id w with e | ⟨d', out⟩
  · rw [(postRecv_of_error hreports).2] at hreport
    cases hreport
  · obtain ⟨hperform, hpushes⟩ := postRecv_of_ok hreports
    obtain ⟨q, hq, hcases⟩ := recvReports_cases hreports
    have haccepts : d.accepts (.postRecv id w) = [d.recvPosting id q w] := by
      simp [accepts, hreports, hq]
    have hall' := every_backed_mono hall
      (List.subset_append_left ps (d.accepts (.postRecv id w)))
    have hmade : MadeBy (ps ++ d.accepts (.postRecv id w)) d.nextPosting id :=
      ⟨d.recvPosting id q w, by simp [haccepts], rfl, rfl⟩
    rw [hpushes] at hreport
    rcases hcases with ⟨hstate, rfl, rfl⟩ | ⟨hcan, halive, ⟨m, rest, hinbox, hland⟩ |
      ⟨-, -, rfl, -⟩⟩
    · rw [List.mem_singleton.mp hreport]
      refine .condemned ⟨rfl, id, hmade, ?_⟩
      rw [hperform]
      exact Down.of_found hq hstate
    · have hbacked := hall' _ _ hq
      have hm : MadeBy (ps ++ d.accepts (.postRecv id w)) m.posting m.sender :=
        hbacked.madeBy_message (hinbox ▸ List.mem_cons_self)
      have hverdict := land_verdict (d := d.unboxed id q rest) (r := d.receive w)
        (hall'.set (hbacked.of_inbox_cons hinbox)) hm hmade { q with inbox := rest }
      rw [hland] at hverdict
      rcases hverdict report hreport with h | h
      · refine .condemned ?_
        rw [hperform, record_qps]
        exact h
      · refine .met (b := id) (m := m) (r := d.receive w) ?_ hm hmade h.1 h.2
        rw [landings_of_recvReports hreports hq ((hp _ _ hq).rts hcan halive), hinbox]
        exact List.mem_cons_self
    · cases hreport

lemma perform_verdict (hall : d.qps.Every fun id q => q.Backed ps id)
    (hp : d.qps.Every fun _ q => q.Proper) (op : Operation) :
    ∀ report ∈ d.pushes op, Verdict d op (ps ++ d.accepts op) report := by
  cases op with
  | postSend id w => exact postSend_verdict hall id w
  | postRecv id w => exact postRecv_verdict hall hp id w
  | dropQp id =>
    intro report hreport
    refine .condemned ?_
    simp only [pushes, dropQpReports] at hreport
    split at hreport
    · cases hreport
    · rename_i q hq
      simp only [perform, dropQp, dropQpReports, hq, accepts, List.append_nil]
      exact drop_condemned hall id report hreport
  | addFabric | openNic | skipLids | createCq | poll | register | deregister | fill | createQp
  | connect =>
    intro report hreport
    cases hreport

/-! ### Runs -/

lemma verdict (ops : List Operation) (op : Operation) :
    ∀ report ∈ (run ops).pushes op, Verdict (run ops) op (accepted (ops ++ [op])) report := by
  rw [accepted_snoc]
  exact perform_verdict (balanced ops).backed (proper ops) op

lemma qp_of_madeBy {p : Posting} (hp : p ∈ accepted ops)
    (h : MadeBy (accepted ops) p.number id) : p.qp = id := by
  obtain ⟨p', hp', hnumber, hid⟩ := h
  rw [(balanced ops).eq_of_number hp hp' hnumber.symm, hid]

lemma down_foldl (hid : id < d.nextId) (h : d.qps.Down id) (ops : List Operation) :
    (ops.foldl perform d).qps.Down id :=
  fun q hq => state_error_foldl hid h ops q hq

lemma run_append (ops later : List Operation) :
    run (ops ++ later) = later.foldl perform (run ops) :=
  List.foldl_append

lemma along_extends {β : Type} (f : Device → Operation → List β) (ops later : List Operation) :
    along f ops <+: along f (ops ++ later) := by
  rw [along, along, steps_append, List.flatMap_append]
  exact List.prefix_append _ _

lemma nextId_le_foldl (d : Device) (ops : List Operation) :
    d.nextId ≤ (ops.foldl perform d).nextId := by
  induction ops generalizing d with
  | nil => exact le_rfl
  | cons op ops ih => exact (perform_effect d op).nextId_le.trans (ih (d.perform op))

end Device

end Verbs
