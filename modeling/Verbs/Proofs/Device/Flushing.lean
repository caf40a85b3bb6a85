import Mathlib.Tactic
import Verbs.Proofs.Device.Verdicts

/-!
What a queue pair leaves behind when it fails or is dropped. Its receives and the messages that wait
for it are given up, but its own messages stay where they are, in the inboxes of its peers. Until
the peer takes them or fails in turn they have no completion, and the peer may still take them;
there are no others, and no new ones.
-/

namespace Verbs.Device

open QueuePairs

variable {d : Device} {b id : QpId} {q : QueuePair} {m : Message} {r : Receive} {op : Operation}
  {ops : List Operation} {p : Posting}

/-- The name was given away, and there is no queue pair under it any more but a failed one. -/
structure Ended (d : Device) (id : QpId) : Prop where
  made : id < d.nextId
  down : d.qps.Down id

lemma Ended.run_append (h : (run ops).Ended id) (later : List Operation) :
    (run (ops ++ later)).Ended id := by
  rw [Device.run_append]
  exact ⟨h.made.trans_le (nextId_le_foldl _ later), down_foldl h.made h.down later⟩

/-! ### One operation -/

lemma not_down_of_mem_hands (h : m ∈ d.hands b op) : ¬ d.qps.Down m.sender := by
  intro hdown
  obtain ⟨peer, hsends, -⟩ := sends_of_mem_hands h
  obtain ⟨id, w, q, remote, memory, -, hq, hstate, hdispatch, -⟩ := sends_spec hsends
  obtain ⟨-, -, hcarries⟩ := dispatch_message hdispatch
  have herror := hdown q (hcarries.sender ▸ hq)
  cases hstate.symm.trans herror

lemma not_down_of_mem_landings (h : (m, r) ∈ d.landings b op) : ¬ d.qps.Down b := by
  intro hdown
  unfold landings at h
  split at h
  · rcases List.mem_append.mp h with h | h
    · obtain ⟨_, _, peer, -, -, -, hpeer, haccepts⟩ := sender_of_mem_hands (List.of_mem_zip h).1
      exact (alive_of_acceptsFrom haccepts).1 (hdown peer hpeer)
    · obtain ⟨-, q, -, -, -, hq, hstate, -⟩ := recv_of_mem_takes (List.of_mem_zip h).2
      cases hstate.symm.trans (hdown q hq)
  · cases h

lemma waited_of_mem_landings (h : (m, r) ∈ d.landings b op) (hdown : d.qps.Down m.sender) :
    m ∈ waitingFrom m.sender b d := by
  unfold landings at h
  split at h
  · rename_i q hq
    simp only [waitingFrom, hq]
    rcases List.mem_append.mp h with h | h
    · exact absurd hdown (not_down_of_mem_hands (List.of_mem_zip h).1)
    · exact List.mem_filter.mpr ⟨(List.of_mem_zip h).1, by simp⟩
  · cases h

lemma postSend_of_down (hdown : d.qps.Down id) (w : SendRequest) :
    (d.perform (.postSend id w)).qps = d.qps := by
  rcases hreports : d.sendReports id w with e | ⟨d', out⟩
  · rw [(postSend_of_error hreports).1]
  · rw [(postSend_of_ok hreports).1, record_qps]
    obtain ⟨q, hq, ⟨-, hstate, -⟩ | ⟨-, rfl, -⟩⟩ := sendReports_cases hreports
    · cases hstate.symm.trans (hdown q hq)
    · rfl

lemma waitingFrom_perform (hdown : d.qps.Down id) (op : Operation) (b : QpId) :
    (waitingFrom id b (d.perform op)).Sublist (waitingFrom id b d) := by
  have hself : d.qps.Every fun b q =>
      (q.inbox.filter (·.sender = id)).Sublist (waitingFrom id b d) := by
    intro b q hq
    simp only [waitingFrom, hq]
    exact List.Sublist.refl _
  have hall : (d.perform op).qps.Every fun b q =>
      (q.inbox.filter (·.sender = id)).Sublist (waitingFrom id b d) := by
    by_cases hop : ∃ w, op = .postSend id w
    · obtain ⟨w, rfl⟩ := hop
      rw [postSend_of_down hdown w]
      exact hself
    · refine (perform_effect d op).every hself ⟨?_, ?_, ?_, ?_⟩ ?_ ?_ ?_
      · exact fun b q _ => List.nil_sublist _
      · exact fun _ _ _ h _ => h
      · exact fun _ _ _ _ h _ => h
      · intro b q m rest h hinbox
        rw [hinbox] at h
        exact ((List.sublist_cons_self m rest).filter _).trans h
      · intro plan q _ hnew _
        rw [hnew.inbox]
        exact List.nil_sublist _
      · intro id' w q peerId peer m hpost _ hpeer _ hcarries
        have hother : m.sender ≠ id := by
          rw [hcarries.sender]
          rintro rfl
          exact hop ⟨w, hpost⟩
        simpa [List.filter_append, hother] using hpeer
      · exact fun _ _ _ _ _ h _ _ _ => h
  rcases hq : (d.perform op).qps.get? b with - | q
  · simp [waitingFrom, hq]
  · simpa only [waitingFrom, hq] using hall b q hq

lemma flushed_of_mem_accepts (hp : p ∈ d.accepts op) (hdown : d.qps.Down p.qp) :
    ∃ report ∈ d.pushes op, p.CompletedBy report ∧ report.completion.status = .wrFlushErr := by
  cases op with
  | postSend id w =>
    rcases hreports : d.sendReports id w with e | ⟨d', out⟩
    · simp [accepts, hreports] at hp
    · obtain ⟨q, hq, hcases⟩ := sendReports_cases hreports
      obtain rfl : p = d.sendPosting id q w := by simpa [accepts, hreports, hq] using hp
      rw [(postSend_of_ok hreports).2]
      rcases hcases with ⟨-, hstate, -⟩ | ⟨-, -, rfl⟩
      · cases hstate.symm.trans (hdown q hq)
      · exact ⟨_, List.mem_singleton_self _, ⟨rfl, rfl, rfl, rfl⟩, rfl⟩
  | postRecv id w =>
    rcases hreports : d.recvReports id w with e | ⟨d', out⟩
    · simp [accepts, hreports] at hp
    · obtain ⟨q, hq, hcases⟩ := recvReports_cases hreports
      obtain rfl : p = d.recvPosting id q w := by simpa [accepts, hreports, hq] using hp
      rw [(postRecv_of_ok hreports).2]
      rcases hcases with ⟨-, -, rfl⟩ | ⟨-, halive, -⟩
      · exact ⟨_, List.mem_singleton_self _, ⟨rfl, rfl, rfl, Or.inl rfl⟩, rfl⟩
      · exact absurd (hdown q hq) halive
  | _ => cases hp

/-! ### Runs -/

lemma waitingFrom_run (h : (run ops).Ended id) (later : List Operation) (b : QpId) :
    (waitingFrom id b (run (ops ++ later))).Sublist (waitingFrom id b (run ops)) := by
  induction later using List.reverseRecOn with
  | nil => rw [List.append_nil]
  | append_singleton later op ih =>
    rw [← List.append_assoc, run_snoc]
    exact (waitingFrom_perform (h.run_append later).down op b).trans ih

lemma waits_of_mem_waitingFrom (hm : m ∈ waitingFrom id b (run ops)) :
    ∃ p ∈ accepted ops, p.qp = id ∧ p.number = m.posting ∧ reportsOf ops p = [] := by
  have hbalanced := balanced ops
  rcases hq : (run ops).qps.get? b with - | q
  · simp [waitingFrom, hq] at hm
  · simp only [waitingFrom, hq] at hm
    obtain ⟨hm, hsender⟩ := List.mem_filter.mp hm
    obtain ⟨p, hp, hnumber, hqp⟩ := (hbalanced.backed b q hq).madeBy_message hm
    refine ⟨p, hp, hqp.trans (of_decide_eq_true hsender), hnumber, ?_⟩
    have hplace : Place.inbox b m ∈ (run ops).placesOf p := by
      refine List.mem_filter.mpr ⟨?_, by simp [Place.posting, hnumber]⟩
      refine List.mem_flatMap.mpr ⟨(b, q), (Table.mem_entries_iff hbalanced.unique).mpr hq, ?_⟩
      exact List.mem_append_right _ (List.mem_map_of_mem hm)
    rcases hbalanced.waits_or_completed hp with ⟨-, -, -, hnone⟩ | ⟨hnowhere, -⟩
    · exact hnone
    · rw [hnowhere] at hplace
      cases hplace

/-- A request of a queue pair that has ended is completed, or waits as a message at a peer. -/
lemma completed_or_waits (h : (run ops).Ended id) (hp : p ∈ accepted ops) (hid : p.qp = id) :
    (∃ report, reportsOf ops p = [report] ∧ p.CompletedBy report) ∨
      (reportsOf ops p = [] ∧ p.isMessageOf id ∧
        ∃ b, b ≠ id ∧ ∃ m ∈ waitingFrom id b (run ops), p.WaitsAt (.inbox b m)) := by
  have hbalanced := balanced ops
  rcases hbalanced.waits_or_completed hp with ⟨place, hplaces, hwaits, hnone⟩ | ⟨-, hdone⟩
  · have hplace : place ∈ (run ops).places :=
      List.mem_of_mem_filter (hplaces ▸ List.mem_singleton_self place :
        place ∈ (run ops).placesOf p)
    obtain ⟨b, q, hq, hthere⟩ := mem_places hbalanced.unique hplace
    have hproper := proper ops b q hq
    rcases List.mem_append.mp hthere with hthere | hthere
    · -- a receive waits at its own queue pair, where nothing is left
      obtain ⟨r, hr, rfl⟩ := List.mem_map.mp hthere
      rcases hwork : p.work with ⟨sgl, op⟩ | sgl
      · simp [Posting.WaitsAt, hwork] at hwaits
      · simp only [Posting.WaitsAt, hwork] at hwaits
        obtain ⟨rfl, -⟩ := hwaits
        rw [hproper.recvs (h.down q (hid ▸ hq))] at hr
        cases hr
    · obtain ⟨m, hm, rfl⟩ := List.mem_map.mp hthere
      refine Or.inr ⟨hnone, ?_, b, ?_, m, ?_, hwaits⟩
      · rcases hwork : p.work with ⟨sgl, op⟩ | sgl
        · simp only [Posting.WaitsAt, hwork] at hwaits
          exact Posting.isMessageOf_iff.mpr ⟨hid, sgl, op, hwork, hwaits.1⟩
        · simp [Posting.WaitsAt, hwork] at hwaits
      · rintro rfl
        rw [hproper.inbox (h.down q hq)] at hm
        cases hm
      · rcases hwork : p.work with ⟨sgl, op⟩ | sgl
        · simp only [Posting.WaitsAt, hwork] at hwaits
          simp only [waitingFrom, hq]
          exact List.mem_filter.mpr ⟨hm, by simp [hwaits.2.2.1, hid]⟩
        · simp [Posting.WaitsAt, hwork] at hwaits
  · exact Or.inl hdone

/-- What succeeds of a queue pair that has ended is a message that has waited. -/
lemma waited_of_success (h : (run ops).Ended id) {report : Report}
    (hreport : report ∈ (run ops).pushes op) (hstatus : report.completion.status.isSuccess = true)
    (hp : p ∈ accepted (ops ++ [op])) (hnumber : p.number = report.posting) (hid : p.qp = id) :
    ∃ b, ∃ m ∈ waitingFrom id b (run ops), m.posting = report.posting := by
  have hmine : ∀ {id'}, MadeBy (accepted (ops ++ [op])) report.posting id' → id' = id := by
    intro id' hmade
    rw [← hid, qp_of_madeBy hp (hnumber ▸ hmade)]
  cases verdict ops op report hreport with
  | condemned hcondemned =>
    rw [hcondemned.status] at hstatus
    cases hstatus
  | @done id' w q hop found state made =>
    cases state.symm.trans (h.down q (hmine made ▸ found))
  | @met b m r landing sender receiver posting =>
    rcases posting with hposting | hposting
    · have hsender : m.sender = id := hmine (hposting ▸ sender)
      exact ⟨b, m, hsender ▸ waited_of_mem_landings landing (hsender ▸ h.down), hposting.symm⟩
    · have hb : b = id := hmine (hposting ▸ receiver)
      exact absurd (hb ▸ h.down) (not_down_of_mem_landings landing)

/-- **A queue pair that has failed or was dropped owes the messages that wait at its peers, and
nothing else.** Each of its requests has its completion, or is a message that waits at another queue
pair; so all of them are completed just when nothing of it waits anywhere. From then on its requests
are flushed at once and what waits only gets less; but what waits may still land and succeed, and
nothing else of it does. -/
theorem owes_waiting_messages (ops : List Operation) (id : QpId) (h : (run ops).Ended id) :
    (∀ p ∈ accepted ops, p.qp = id →
      (∃ report, reportsOf ops p = [report] ∧ p.CompletedBy report) ∨
        (reportsOf ops p = [] ∧ p.isMessageOf id ∧
          ∃ b, b ≠ id ∧ ∃ m ∈ waitingFrom id b (run ops), p.WaitsAt (.inbox b m))) ∧
    ((∀ p ∈ accepted ops, p.qp = id →
        ∃ report, reportsOf ops p = [report] ∧ p.CompletedBy report) ↔
      ∀ b, waitingFrom id b (run ops) = []) ∧
    ∀ later, (∀ b, (waitingFrom id b (run (ops ++ later))).Sublist (waitingFrom id b (run ops))) ∧
      ∀ op, (∀ p ∈ (run (ops ++ later)).accepts op, p.qp = id →
          ∃ report ∈ (run (ops ++ later)).pushes op, p.CompletedBy report ∧
            report.completion.status = .wrFlushErr) ∧
        (∀ b m r, (m, r) ∈ (run (ops ++ later)).landings b op →
          b ≠ id ∧ (m.sender = id → m ∈ waitingFrom id b (run ops))) ∧
        ∀ report ∈ (run (ops ++ later)).pushes op, report.completion.status.isSuccess = true →
          ∀ p ∈ accepted (ops ++ later ++ [op]), p.number = report.posting → p.qp = id →
            ∃ b, ∃ m ∈ waitingFrom id b (run ops), m.posting = report.posting := by
  refine ⟨fun p hp hid => completed_or_waits h hp hid, ⟨fun hall b => ?_, fun hnone p hp hid => ?_⟩,
    fun later => ⟨waitingFrom_run h later, fun op => ?_⟩⟩
  · refine List.eq_nil_iff_forall_not_mem.mpr fun m hm => ?_
    obtain ⟨p, hp, hid, -, hwaits⟩ := waits_of_mem_waitingFrom hm
    obtain ⟨report, hreports, -⟩ := hall p hp hid
    cases hwaits.symm.trans hreports
  · rcases completed_or_waits h hp hid with hdone | ⟨-, -, b, -, m, hm, -⟩
    · exact hdone
    · rw [hnone b] at hm
      cases hm
  · have hended := h.run_append later
    refine ⟨fun p hp hid => flushed_of_mem_accepts hp (hid ▸ hended.down),
      fun b m r hlands => ⟨?_, ?_⟩, fun report hreport hstatus p hp hnumber hid => ?_⟩
    · rintro rfl
      exact not_down_of_mem_landings hlands hended.down
    · rintro rfl
      exact (waitingFrom_run h later b).subset (waited_of_mem_landings hlands hended.down)
    · obtain ⟨b, m, hm, hposting⟩ := waited_of_success hended hreport hstatus hp hnumber hid
      exact ⟨b, m, (waitingFrom_run h later b).subset hm, hposting⟩

def abandoned (op : Operation) : List Operation :=
  [.addFabric, .openNic 0 {}, .createCq {} 8, .createQp ⟨1, some 2, some 2, {}, 0⟩,
    .createQp ⟨1, some 2, some 2, {}, 0⟩, .connect 3 ⟨1, 2, 0⟩, .connect 4 ⟨1, 1, 0⟩,
    .postSend 3 ⟨10, [], .send none⟩, op]

def misguided : Operation := .postSend 3 ⟨11, [⟨⟨0, 0⟩, 9⟩], .send none⟩

theorem owes_waiting_messages_abandoned :
    (run (abandoned misguided)).Ended 3 ∧
      ∀ b, (waitingFrom 3 b (run (abandoned misguided ++ [.postRecv 4 ⟨12, []⟩]))).Sublist
        (waitingFrom 3 b (run (abandoned misguided))) := by
  have hstate : ((run (abandoned misguided)).qps.get? 3).map (·.state) = some .error := by cbv
  obtain ⟨q, hq, hstate⟩ := Option.map_eq_some_iff.mp hstate
  have hended : (run (abandoned misguided)).Ended 3 := ⟨by decide, Down.of_found hq hstate⟩
  exact ⟨hended, ((owes_waiting_messages (abandoned misguided) 3 hended).2.2 _).1⟩

/-- The queue pair is down and a request of it has no completion; when the peer posts a receive, the
request succeeds. -/
def SucceedsLate (ops : List Operation) : Prop :=
  (run ops).Ended 3 ∧ ∃ p ∈ accepted ops, p.qp = 3 ∧ reportsOf ops p = [] ∧
    ∃ report ∈ (run ops).pushes (.postRecv 4 ⟨12, []⟩),
      report.posting = p.number ∧ report.completion.status = .success

/-- A queue pair that fails or is dropped while its message waits leaves the request behind the
message without a completion, and the message is delivered afterwards. -/
theorem abandoned_succeeds :
    SucceedsLate (abandoned misguided) ∧ SucceedsLate (abandoned (.dropQp 3)) := by
  constructor
  · have hstate : ((run (abandoned misguided)).qps.get? 3).map (·.state) = some .error := by cbv
    obtain ⟨q, hq, hstate⟩ := Option.map_eq_some_iff.mp hstate
    refine ⟨⟨by decide, Down.of_found hq hstate⟩, ⟨0, 3, 2, 10, .send [] (.send none)⟩, by decide,
      rfl, by cbv, ⟨0, 2, { wrId := 10, status := .success, opcode := .send, byteLen := 0 }⟩, ?_,
      rfl, rfl⟩
    cbv
    exact List.mem_cons_of_mem _ List.mem_cons_self
  · refine ⟨⟨by decide, Down.of_none (by cbv)⟩, ⟨0, 3, 2, 10, .send [] (.send none)⟩, by decide,
      rfl, by cbv, ⟨0, 2, { wrId := 10, status := .success, opcode := .send, byteLen := 0 }⟩, ?_,
      rfl, rfl⟩
    cbv
    exact List.mem_cons_of_mem _ List.mem_cons_self

end Verbs.Device
