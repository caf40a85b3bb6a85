import Mathlib.Algebra.BigOperators.Group.Multiset.Basic
import Mathlib.Tactic
import Verbs.Proofs.Device.Balance
import Verbs.Proofs.Device.Rings

/-!
Every accepted request is completed once. Until then it waits in one place, a receive at its own
queue pair and a message at one peer; the completion goes to the ring of its queue pair, under its
own number.
-/

namespace Verbs

inductive Place where
  | recvs (qp : QpId) (r : Receive)
  | inbox (qp : QpId) (m : Message)
  deriving DecidableEq

def Place.posting : Place → Nat
  | recvs _ r => r.posting
  | inbox _ m => m.posting

def QueuePair.places (id : QpId) (q : QueuePair) : List Place :=
  q.recvs.map (.recvs id) ++ q.inbox.map (.inbox id)

lemma QueuePair.places_posting (id : QpId) (q : QueuePair) :
    ((q.places id).map (·.posting) : Multiset Nat) = q.dues.map (·.posting) := by
  simp [places, dues, owedFor, Function.comp_def, Place.posting, Receive.due, Message.due]

namespace Posting

variable {p : Posting} {r : Report}

/-- A receive waits at its own queue pair; a request on the send queue waits as a message. -/
def WaitsAt (p : Posting) (place : Place) : Prop :=
  match p.work, place with
  | .recv sgl, .recvs qp r => qp = p.qp ∧ r = ⟨p.number, p.wrId, sgl⟩
  | .send _ op, .inbox _ m => op.twoSided ∧ m.posting = p.number ∧ m.sender = p.qp ∧
      m.senderCq = p.cq ∧ m.wrId = p.wrId ∧ m.opcode = op.opcode
  | _, _ => False

def CompletedBy (p : Posting) (r : Report) : Prop :=
  r.posting = p.number ∧ r.cq = p.cq ∧ r.completion.wrId = p.wrId ∧
    match p.work with
    | .send _ op => r.completion.opcode = op.opcode
    | .recv _ => r.completion.opcode = .recv ∨ r.completion.opcode = .recvRdmaImm

lemma completedBy_of_due (h : r.due = p.due) : p.CompletedBy r := by
  simp only [Report.due, Posting.due, Due.mk.injEq] at h
  obtain ⟨hnumber, hcq, hwr, hopcode⟩ := h
  refine ⟨hnumber, hcq, hwr, ?_⟩
  rcases hw : p.work with ⟨sgl, op⟩ | sgl
  · rw [hw] at hopcode
    cases op <;> cases ho : r.completion.opcode <;>
      simp_all [Work.opcode, Opcode.owed, SendOp.opcode]
  · rw [hw] at hopcode
    cases ho : r.completion.opcode <;> simp_all [Work.opcode, Opcode.owed]

end Posting

namespace Device

def places (d : Device) : List Place := d.qps.entries.flatMap fun e => e.2.places e.1

def placesOf (d : Device) (p : Posting) : List Place := d.places.filter (·.posting = p.number)

def reportsOf (ops : List Operation) (p : Posting) : List Report :=
  (pushed ops).filter (·.posting = p.number)

lemma places_posting (d : Device) :
    (d.places.map (·.posting) : Multiset Nat) = d.qps.dues.map (·.posting) := by
  simp only [places, QueuePairs.dues, Table.total]
  induction d.qps.entries with
  | nil => rfl
  | cons e r ih =>
    rw [List.flatMap_cons, List.map_append, ← Multiset.coe_add, ih, e.2.places_posting]
    simp

lemma mem_places {d : Device} (hu : Table.Unique d.qps) {place : Place} (h : place ∈ d.places) :
    ∃ id q, d.qps.get? id = some q ∧ place ∈ q.places id := by
  obtain ⟨⟨id, q⟩, he, hplace⟩ := List.mem_flatMap.mp h
  exact ⟨id, q, (Table.mem_entries_iff hu).mp he, hplace⟩

namespace Balanced

variable {ops : List Operation} {p p' : Posting}

lemma nodup (h : Balanced ops) : ((accepted ops).map (·.number)).Nodup := by
  rw [h.numbers]
  exact List.nodup_range

lemma eq_of_number (h : Balanced ops) (hp : p ∈ accepted ops) (hp' : p' ∈ accepted ops)
    (hn : p.number = p'.number) : p = p' :=
  List.inj_on_of_nodup_map h.nodup hp hp' hn

lemma length_add_length (h : Balanced ops) (hp : p ∈ accepted ops) :
    (reportsOf ops p).length + ((run ops).placesOf p).length = 1 := by
  have hbalance :=
    congrArg (Multiset.count p.number) (congrArg (Multiset.map Due.posting) h.balance)
  rw [Multiset.map_add, Multiset.count_add, ← places_posting, paid, Multiset.map_coe,
    Multiset.map_coe, Multiset.coe_count, Multiset.coe_count, Multiset.coe_count, List.map_map,
    List.map_map] at hbalance
  have hone : (((accepted ops).map (Due.posting ∘ Posting.due)).count p.number) = 1 :=
    List.count_eq_one_of_mem h.nodup (List.mem_map.mpr ⟨p, hp, rfl⟩)
  rw [hone, List.count_eq_countP, List.count_eq_countP, List.countP_map,
    List.countP_map] at hbalance
  rw [reportsOf, placesOf, ← List.countP_eq_length_filter, ← List.countP_eq_length_filter,
    ← hbalance]
  congr 1

lemma completedBy (h : Balanced ops) {r : Report} (hr : r ∈ pushed ops) :
    ∃ p ∈ accepted ops, p.CompletedBy r := by
  have hmem : r.due ∈ ((accepted ops).map (·.due) : Multiset Due) := by
    rw [← h.balance]
    exact Multiset.mem_add.mpr (Or.inl (List.mem_map.mpr ⟨r, hr, rfl⟩))
  obtain ⟨p, hp, hdue⟩ := List.mem_map.mp hmem
  exact ⟨p, hp, Posting.completedBy_of_due hdue.symm⟩

lemma waitsAt (h : Balanced ops) {place : Place} (hplace : place ∈ (run ops).places) :
    ∃ p ∈ accepted ops, p.number = place.posting ∧ p.WaitsAt place := by
  obtain ⟨id, q, hq, hmem⟩ := mem_places h.unique hplace
  have hb := h.backed id q hq
  rcases List.mem_append.mp hmem with hmem | hmem
  · obtain ⟨r, hr, rfl⟩ := List.mem_map.mp hmem
    exact ⟨_, hb.recvs r hr, rfl, rfl, rfl⟩
  · obtain ⟨m, hm, rfl⟩ := List.mem_map.mp hmem
    obtain ⟨sgl, op, htwo, hop, hp⟩ := hb.inbox m hm
    exact ⟨_, hp, rfl, htwo, rfl, rfl, rfl, rfl, hop⟩

lemma waits_or_completed (h : Balanced ops) (hp : p ∈ accepted ops) :
    (∃ place, (run ops).placesOf p = [place] ∧ p.WaitsAt place ∧ reportsOf ops p = []) ∨
      ((run ops).placesOf p = [] ∧ ∃ r, reportsOf ops p = [r] ∧ p.CompletedBy r) := by
  have hone := h.length_add_length hp
  rcases hplaces : (run ops).placesOf p with - | ⟨place, rest⟩
  · right
    rw [hplaces, List.length_nil, add_zero] at hone
    obtain ⟨r, hr⟩ := List.length_eq_one_iff.mp hone
    have hmem : r ∈ reportsOf ops p := by rw [hr]; exact List.mem_singleton_self r
    obtain ⟨hpushed, hnumber⟩ := List.mem_filter.mp hmem
    obtain ⟨p', hp', hcompleted⟩ := h.completedBy hpushed
    have hpp : p = p' :=
      h.eq_of_number hp hp' ((of_decide_eq_true hnumber).symm.trans hcompleted.1)
    exact ⟨rfl, r, hr, hpp ▸ hcompleted⟩
  · left
    rw [hplaces, List.length_cons] at hone
    have hrest : rest = [] := List.length_eq_zero_iff.mp (by omega)
    have hmem : place ∈ (run ops).placesOf p := by rw [hplaces]; exact List.mem_cons_self
    obtain ⟨hplace, hnumber⟩ := List.mem_filter.mp hmem
    obtain ⟨p', hp', hn, hwaits⟩ := h.waitsAt hplace
    have hpp : p = p' := h.eq_of_number hp hp' ((of_decide_eq_true hnumber).symm.trans hn.symm)
    exact ⟨place, by rw [hrest], hpp ▸ hwaits, List.length_eq_zero_iff.mp (by omega)⟩

lemma reportsOf_eq (h : Balanced ops) (hp : p ∈ accepted ops) {r : Report} (hr : r ∈ pushed ops)
    (hn : r.posting = p.number) : reportsOf ops p = [r] := by
  have hmem : r ∈ reportsOf ops p := List.mem_filter.mpr ⟨hr, by simp [hn]⟩
  have hone := h.length_add_length hp
  have hpos := List.length_pos_of_mem hmem
  obtain ⟨r', hr'⟩ := List.length_eq_one_iff.mp (show (reportsOf ops p).length = 1 by omega)
  rw [hr', List.mem_singleton] at hmem
  rw [hr', hmem]

lemma report_unique (h : Balanced ops) (hp : p ∈ accepted ops) {r r' : Report}
    (hr : r ∈ pushed ops) (hn : r.posting = p.number) (hr' : r' ∈ pushed ops)
    (hn' : r'.posting = p.number) : r = r' :=
  (List.cons.inj ((h.reportsOf_eq hp hr hn).symm.trans (h.reportsOf_eq hp hr' hn'))).1

end Balanced

/-! ### The result -/

lemma accepts_postSend (d : Device) (id : QpId) (w : SendRequest) :
    match d.postSend id w with
    | .ok d' => d.perform (.postSend id w) = d' ∧ ∃ q, d.qps.get? id = some q ∧
        d.accepts (.postSend id w) = [d.sendPosting id q w]
    | .error _ => d.perform (.postSend id w) = d ∧ d.accepts (.postSend id w) = [] ∧
        d.pushes (.postSend id w) = [] := by
  rcases h : d.sendReports id w with e | ⟨d', out⟩
  · simp [perform, accepts, pushes, postSend, h, Except.map]
  · obtain ⟨q, hq, -⟩ := sendReports_cases h
    simp [perform, accepts, postSend, h, hq, Except.map]

lemma accepts_postRecv (d : Device) (id : QpId) (w : RecvRequest) :
    match d.postRecv id w with
    | .ok d' => d.perform (.postRecv id w) = d' ∧ ∃ q, d.qps.get? id = some q ∧
        d.accepts (.postRecv id w) = [d.recvPosting id q w]
    | .error _ => d.perform (.postRecv id w) = d ∧ d.accepts (.postRecv id w) = [] ∧
        d.pushes (.postRecv id w) = [] := by
  rcases h : d.recvReports id w with e | ⟨d', out⟩
  · simp [perform, accepts, pushes, postRecv, h, Except.map]
  · obtain ⟨q, hq, -⟩ := recvReports_cases h
    simp [perform, accepts, postRecv, h, hq, Except.map]

/-- **Every accepted request is completed once.** It waits in one place and nothing was pushed for
it, or it waits nowhere and one completion was pushed that it calls for; so it is completed when no
queue pair is left. Nothing is pushed for a request that is refused, and the rings get what is
pushed, in order. -/
theorem completed_once (ops : List Operation) :
    ((accepted ops).map (·.number)).Nodup ∧
    (∀ p ∈ accepted ops,
      (∃ place, (run ops).placesOf p = [place] ∧ p.WaitsAt place ∧ reportsOf ops p = []) ∨
        ((run ops).placesOf p = [] ∧ ∃ r, reportsOf ops p = [r] ∧ p.CompletedBy r)) ∧
    (∀ r ∈ pushed ops, ∃ p ∈ accepted ops, p.CompletedBy r) ∧
    (∀ place ∈ (run ops).places, ∃ p ∈ accepted ops, p.WaitsAt place) ∧
    ((run ops).qps.keys = [] → ∀ p ∈ accepted ops, ∃ r, reportsOf ops p = [r] ∧ p.CompletedBy r) ∧
    (∀ (d : Device) id w, match d.postSend id w with
      | .ok d' => d.perform (.postSend id w) = d' ∧ ∃ q, d.qps.get? id = some q ∧
          d.accepts (.postSend id w) = [d.sendPosting id q w]
      | .error _ => d.perform (.postSend id w) = d ∧ d.accepts (.postSend id w) = [] ∧
          d.pushes (.postSend id w) = []) ∧
    (∀ (d : Device) id w, match d.postRecv id w with
      | .ok d' => d.perform (.postRecv id w) = d' ∧ ∃ q, d.qps.get? id = some q ∧
          d.accepts (.postRecv id w) = [d.recvPosting id q w]
      | .error _ => d.perform (.postRecv id w) = d ∧ d.accepts (.postRecv id w) = [] ∧
          d.pushes (.postRecv id w) = []) ∧
    ∀ s ∈ steps {} ops, ∀ cq ring, s.1.rings.get? cq = some ring → (∀ n, s.2 ≠ .poll cq n) →
      (s.1.perform s.2).rings.get? cq = some (pushAll cq (s.1.pushes s.2) ring) := by
  have h := balanced ops
  refine ⟨h.nodup, fun p hp => h.waits_or_completed hp, fun r hr => h.completedBy hr, ?_, ?_,
    accepts_postSend, accepts_postRecv, fun s hs cq ring => rings_of_mem_steps hs⟩
  · intro place hplace
    obtain ⟨p, hp, -, hwaits⟩ := h.waitsAt hplace
    exact ⟨p, hp, hwaits⟩
  · intro hnone p hp
    have hplaces : (run ops).places = [] := by
      have : (run ops).qps.entries = [] := List.map_eq_nil_iff.mp hnone
      rw [places, this]
      rfl
    rcases h.waits_or_completed hp with ⟨place, hplace, -, -⟩ | ⟨-, hr⟩
    · rw [placesOf, hplaces] at hplace
      cases hplace
    · exact hr

/-- A queue pair sends itself a message, and goes away while a receive waits. -/
def exchange : List Operation :=
  [.addFabric, .openNic 0 {}, .createCq {} 8, .createQp ⟨1, some 2, some 2, {}, 0⟩,
    .connect 3 ⟨1, 1, 0⟩, .postRecv 3 ⟨10, []⟩, .postSend 3 ⟨11, [], .send none⟩,
    .postRecv 3 ⟨12, []⟩, .dropQp 3]

theorem completed_once_exchange :
    (accepted exchange).map (·.wrId) = [10, 11, 12] ∧ (run exchange).qps.keys = [] ∧
    ∀ p ∈ accepted exchange, ∃ r, reportsOf exchange p = [r] ∧ p.CompletedBy r :=
  have hnone : (run exchange).qps.keys = [] := by cbv
  ⟨by decide, hnone, (completed_once exchange).2.2.2.2.1 hnone⟩

end Device

end Verbs
