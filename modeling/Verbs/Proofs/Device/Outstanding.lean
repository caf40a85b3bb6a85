import Mathlib.Tactic
import Verbs.Proofs.Device.Lifecycle
import Verbs.Proofs.Device.SendOrder

/-!
Requests on a send queue that have no completion yet. They are messages, and each of them waits in
the inbox of one peer. A queue pair is made for a number of them, and nothing that happens to it or
to a peer makes them more; but a request that is posted is not refused for their number, so that
they are more than this by as many as were posted when they were enough.
-/

namespace Verbs

def Place.isMessageOf (id : QpId) : Place → Bool
  | .inbox _ m => m.sender = id
  | .recvs _ _ => false

def Posting.isSendOf (id : QpId) (p : Posting) : Bool :=
  p.qp = id && match p.work with
    | .send _ _ => true
    | .recv _ => false

namespace Device

/-- The requests on the send queue of a queue pair that were accepted and not completed yet. -/
def outstanding (id : QpId) (ops : List Operation) : List Posting :=
  (accepted ops).filter fun p => p.isSendOf id && (reportsOf ops p).isEmpty

def afloat (d : Device) (id : QpId) : List Place := d.places.filter (·.isMessageOf id)

/-- As many messages of a queue pair wait as it was made for, or more. -/
def full (d : Device) (id : QpId) : Bool :=
  match d.qps.get? id with
  | some q => q.caps.maxSendWr.toNat ≤ (d.afloat id).length
  | none => false

/-- The requests that a queue pair has accepted when it was full. -/
def overposts (id : QpId) (ops : List Operation) : List Posting :=
  along (fun d op => if d.full id then (d.accepts op).filter (·.isSendOf id) else []) ops

variable {d : Device} {id : QpId} {q q' : QueuePair} {ops : List Operation} {op : Operation}
  {p : Posting}

lemma isSendOf_iff : p.isSendOf id ↔ p.qp = id ∧ ∃ sgl op, p.work = .send sgl op := by
  rw [Posting.isSendOf, Bool.and_eq_true, decide_eq_true_eq]
  refine and_congr_right fun _ => ?_
  cases p.work <;> simp

lemma mem_outstanding_iff :
    p ∈ outstanding id ops ↔ p ∈ accepted ops ∧ p.isSendOf id ∧ reportsOf ops p = [] := by
  rw [outstanding, List.mem_filter, Bool.and_eq_true, List.isEmpty_iff]

/-! ### Where they wait -/

lemma Balanced.places_nodup (h : Balanced ops) : ((run ops).places.map (·.posting)).Nodup := by
  rw [← Multiset.coe_nodup, places_posting]
  refine Multiset.nodup_of_le ?_ (Multiset.coe_nodup.mpr h.nodup)
  have hbalance := congrArg (Multiset.map Due.posting) h.balance
  rw [Multiset.map_add, Multiset.map_coe, List.map_map] at hbalance
  exact hbalance ▸ Multiset.le_add_left _ _

lemma waits_of_outstanding (hp : p ∈ outstanding id ops) :
    p.isMessageOf id ∧
      ∃ place ∈ (run ops).afloat id, place.posting = p.number ∧ p.WaitsAt place := by
  obtain ⟨haccepted, hsend, hnone⟩ := mem_outstanding_iff.mp hp
  obtain ⟨hqp, sgl, op, hwork⟩ := isSendOf_iff.mp hsend
  rcases (balanced ops).waits_or_completed haccepted with
    ⟨place, hplaces, hwaits, -⟩ | ⟨-, r, hr, -⟩
  · have hmem : place ∈ (run ops).placesOf p := hplaces ▸ List.mem_singleton_self place
    obtain ⟨hplace, hnumber⟩ := List.mem_filter.mp hmem
    cases place with
    | recvs => simp [Posting.WaitsAt, hwork] at hwaits
    | inbox b m =>
      have hmessage := hwaits
      simp only [Posting.WaitsAt, hwork] at hmessage
      obtain ⟨htwo, -, hsender, -⟩ := hmessage
      refine ⟨Posting.isMessageOf_iff.mpr ⟨hqp, sgl, op, hwork, htwo⟩, _, ?_,
        of_decide_eq_true hnumber, hwaits⟩
      exact List.mem_filter.mpr ⟨hplace, by simp [Place.isMessageOf, hsender, hqp]⟩
  · cases hnone.symm.trans hr

lemma outstanding_of_afloat {place : Place} (h : place ∈ (run ops).afloat id) :
    ∃ p ∈ outstanding id ops, p.number = place.posting := by
  obtain ⟨hplace, hmessage⟩ := List.mem_filter.mp h
  obtain ⟨p, hp, hnumber, hwaits⟩ := (balanced ops).waitsAt hplace
  refine ⟨p, mem_outstanding_iff.mpr ⟨hp, ?_, ?_⟩, hnumber⟩
  · cases place with
    | recvs => simp [Place.isMessageOf] at hmessage
    | inbox b m =>
      rcases hwork : p.work with ⟨sgl, op⟩ | sgl
      · simp only [Posting.WaitsAt, hwork] at hwaits
        exact isSendOf_iff.mpr ⟨hwaits.2.2.1.symm.trans (of_decide_eq_true hmessage), sgl, op, hwork⟩
      · simp [Posting.WaitsAt, hwork] at hwaits
  · rcases (balanced ops).waits_or_completed hp with ⟨-, -, -, hnone⟩ | ⟨hnowhere, -⟩
    · exact hnone
    · have hthere : place ∈ (run ops).placesOf p :=
        List.mem_filter.mpr ⟨hplace, by simp [hnumber]⟩
      rw [hnowhere] at hthere
      cases hthere

lemma outstanding_perm (id : QpId) (ops : List Operation) :
    ((outstanding id ops).map (·.number)).Perm (((run ops).afloat id).map (·.posting)) := by
  have hbalanced := balanced ops
  have hleft : ((outstanding id ops).map (·.number)).Nodup :=
    hbalanced.nodup.sublist (List.filter_sublist.map _)
  have hright : (((run ops).afloat id).map (·.posting)).Nodup :=
    hbalanced.places_nodup.sublist (List.filter_sublist.map _)
  refine (List.perm_ext_iff_of_nodup hleft hright).mpr fun n => ⟨fun hn => ?_, fun hn => ?_⟩
  · obtain ⟨p, hp, rfl⟩ := List.mem_map.mp hn
    obtain ⟨-, place, hplace, hposting, -⟩ := waits_of_outstanding hp
    exact List.mem_map.mpr ⟨place, hplace, hposting⟩
  · obtain ⟨place, hplace, rfl⟩ := List.mem_map.mp hn
    obtain ⟨p, hp, hnumber⟩ := outstanding_of_afloat hplace
    exact List.mem_map.mpr ⟨p, hp, hnumber⟩

lemma length_afloat (id : QpId) (ops : List Operation) :
    ((run ops).afloat id).length = (outstanding id ops).length := by
  have hlength := (outstanding_perm id ops).length_eq
  rw [List.length_map, List.length_map] at hlength
  exact hlength.symm

/-! ### How many there are -/

lemma Effect.length_le {d' : Device} {out : List Report} {ps : List Posting}
    (h : Effect d op d' out ps) : ps.length ≤ 1 := by
  cases h <;> simp

lemma reportsOf_eq_nil_of_snoc (h : reportsOf (ops ++ [op]) p = []) : reportsOf ops p = [] := by
  rw [reportsOf, pushed_snoc, List.filter_append] at h
  exact (List.append_eq_nil_iff.mp h).1

lemma length_outstanding_snoc_le (id : QpId) (ops : List Operation) (op : Operation) :
    (outstanding id (ops ++ [op])).length ≤
      (outstanding id ops).length + (((run ops).accepts op).filter (·.isSendOf id)).length := by
  rw [outstanding, accepted_snoc, List.filter_append, List.length_append]
  refine Nat.add_le_add ?_ ?_
  · refine (List.monotone_filter_right _ fun p hp => ?_).length_le
    rw [Bool.and_eq_true, List.isEmpty_iff] at hp ⊢
    exact ⟨hp.1, reportsOf_eq_nil_of_snoc hp.2⟩
  · refine (List.monotone_filter_right _ fun p hp => ?_).length_le
    exact (Bool.and_eq_true _ _ ▸ hp).1

lemma caps_run_append (hq : (run ops).qps.get? id = some q) (later : List Operation)
    (hq' : (run (ops ++ later)).qps.get? id = some q') : q'.caps = q.caps := by
  have hmade : id < (run ops).nextId := (balanced ops).named id q hq
  have hall : (run (ops ++ later)).qps.Every fun j p => j = id → p.caps = q.caps := by
    clear hq'
    induction later using List.reverseRecOn with
    | nil =>
      rintro j p hp rfl
      rw [List.append_nil, hq] at hp
      cases hp
      rfl
    | append_singleton later op ih =>
      rw [← List.append_assoc, run_snoc]
      refine (perform_effect _ op).every ih ⟨?_, ?_, ?_, ?_⟩ ?_ ?_ ?_
      · exact fun _ _ h => h
      · exact fun _ _ _ h _ => h
      · exact fun _ _ _ _ h _ => h
      · exact fun _ _ _ _ h _ => h
      · rintro plan p - - - rfl
        rw [run_append] at hmade
        exact absurd (nextId_le_foldl _ later) (Nat.not_le_of_lt hmade)
      · exact fun _ _ _ _ _ _ _ _ h _ _ => h
      · exact fun _ _ _ _ _ h _ _ _ => h
  exact hall id q' hq' rfl

/-- They are more than a queue pair was made for by what it accepted when it was full, at most. -/
lemma length_outstanding_le {c : Nat} (hc : ∀ s ∈ steps {} ops, ∀ q,
    s.1.qps.get? id = some q → q.caps.maxSendWr.toNat = c) :
    (outstanding id ops).length ≤ c + (overposts id ops).length := by
  induction ops using List.reverseRecOn with
  | nil => exact Nat.zero_le _
  | append_singleton ops op ih =>
    rw [steps_append] at hc
    have hbefore := ih fun s hs => hc s (List.mem_append_left _ hs)
    have hgrows := length_outstanding_snoc_le id ops op
    rw [overposts, along_snoc, List.length_append, ← overposts]
    rcases hnew : ((run ops).accepts op).filter (·.isSendOf id) with - | ⟨p, rest⟩
    · rw [hnew, List.length_nil] at hgrows
      omega
    · have hmem : p ∈ ((run ops).accepts op).filter (·.isSendOf id) :=
        hnew ▸ List.mem_cons_self
      obtain ⟨haccepts, hsend⟩ := List.mem_filter.mp hmem
      obtain ⟨q, hq, -⟩ := found_of_mem_accepts haccepts
      rw [(isSendOf_iff.mp hsend).1] at hq
      have hone : (p :: rest).length ≤ 1 :=
        hnew ▸ List.filter_sublist.length_le.trans (perform_effect _ op).length_le
      have hcap : q.caps.maxSendWr.toNat = c :=
        hc (run ops, op) (List.mem_append_right _ List.mem_cons_self) q hq
      have hfull : (run ops).full id = decide (c ≤ (outstanding id ops).length) := by
        simp only [full, hq, hcap, length_afloat]
      rw [hnew] at hgrows
      rw [hfull, hnew]
      by_cases hroom : c ≤ (outstanding id ops).length
      · rw [decide_eq_true hroom, if_pos rfl]
        omega
      · rw [decide_eq_false hroom, if_neg Bool.false_ne_true]
        omega

/-! ### Posting -/

lemma postSend_error {w : SendRequest} {e : IoError} (h : d.postSend id w = .error e) :
    e = .invalidRequest ∧ d.perform (.postSend id w) = d := by
  rcases hreports : d.sendReports id w with e' | ⟨d', out⟩
  · have he : e' = e := by simpa [postSend, hreports, Except.map] using h
    refine ⟨?_, (postSend_of_error hreports).1⟩
    rw [← he]
    unfold sendReports at hreports
    split at hreports
    · exact (Except.error.inj hreports).symm
    · split at hreports
      · exact (Except.error.inj hreports).symm
      · split at hreports
        · cases hreports
        · cases hreports
        · exact (Except.error.inj hreports).symm
  · simp [postSend, hreports, Except.map] at h

/-- **Nothing but posting takes a queue pair beyond what it was made for.** What a queue pair has
outstanding on its send queue is what waits of it, message by message, in the inboxes of its peers.
These are no more than it was made for and those together that it accepted when it was full. Whether
it is full makes no difference when a request is posted: the request is refused when its list is too
long or the queue pair is yet to be connected, as invalid and without a trace, and else accepted. -/
theorem outstanding_le_of_overposts (ops : List Operation) (id : QpId) (q : QueuePair)
    (hq : (run ops).qps.get? id = some q) :
    ((outstanding id ops).map (·.number)).Perm (((run ops).afloat id).map (·.posting)) ∧
    (∀ p ∈ outstanding id ops, p.isMessageOf id ∧
      ∃ place ∈ (run ops).afloat id, place.posting = p.number ∧ p.WaitsAt place) ∧
    (outstanding id ops).length ≤ q.caps.maxSendWr.toNat + (overposts id ops).length ∧
    ∀ w, ((∃ e, (run ops).postSend id w = .error e) ↔
        q.caps.maxSendSge.toNat < w.sgl.length ∨ q.state = .reset) ∧
      ∀ e, (run ops).postSend id w = .error e →
        e = .invalidRequest ∧ (run ops).perform (.postSend id w) = run ops := by
  have hcaps : ∀ s ∈ steps {} ops, ∀ p, s.1.qps.get? id = some p →
      p.caps.maxSendWr.toNat = q.caps.maxSendWr.toNat := by
    intro s hs p hp
    obtain ⟨before, after, rfl, hbefore⟩ := split_of_mem_steps hs
    rw [caps_run_append (hbefore ▸ hp) (s.2 :: after) hq]
  exact ⟨outstanding_perm id ops, fun p => waits_of_outstanding, length_outstanding_le hcaps,
    fun w => ⟨postSend_error_iff hq (proper ops id q hq) (fit ops id q hq), fun e => postSend_error⟩⟩

def overfull : List Operation :=
  [.addFabric, .openNic 0 {}, .createCq {} 8, .createQp ⟨1, some 2, some 2, { maxSendWr := 1 }, 0⟩,
    .createQp ⟨1, some 2, some 2, {}, 0⟩, .connect 3 ⟨1, 2, 0⟩, .connect 4 ⟨1, 1, 0⟩,
    .postSend 3 ⟨10, [], .send none⟩, .postSend 3 ⟨11, [], .send none⟩]

theorem outstanding_le_of_overposts_overfull :
    ∃ q, (run overfull).qps.get? 3 = some q ∧ q.caps.maxSendWr = 1 ∧
      (overposts 3 overfull).map (·.wrId) = [11] ∧
      (outstanding 3 overfull).length ≤ q.caps.maxSendWr.toNat + (overposts 3 overfull).length := by
  have hcap : ((run overfull).qps.get? 3).map (·.caps.maxSendWr) = some 1 := by cbv
  obtain ⟨q, hq, hcap⟩ := Option.map_eq_some_iff.mp hcap
  exact ⟨q, hq, hcap, by cbv, (outstanding_le_of_overposts overfull 3 q hq).2.2.1⟩

/-- Both requests are outstanding, and a third one would be accepted too. -/
theorem overfull_exceeds :
    ((run overfull).qps.get? 3).map (·.caps.maxSendWr) = some 1 ∧
      (outstanding 3 overfull).length = 2 ∧
      ((run overfull).postSend 3 ⟨12, [], .send none⟩).isOk := by
  refine ⟨by cbv, by cbv, by cbv⟩

end Device

end Verbs
