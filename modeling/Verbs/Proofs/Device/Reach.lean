import Mathlib.Logic.Relation
import Mathlib.Tactic
import Verbs.Proofs.Device.Identity
import Verbs.Proofs.Device.Receives

/-!
How far a failure reaches. A queue pair that fails takes along the senders of the messages that wait
at it, as far as they are still there, and these take others along. The senders may form circles;
an inbox is emptied before its messages are refused, so the calls return, and those that have failed
are those that can be reached. Everything they held is reported once.
-/

namespace Verbs

namespace QueuePairs

variable {qps qps' : QueuePairs} {id j p r : QpId} {q s : QueuePair} {m : Message}
  {ms : List Message} {out : List Report}

/-! ### The calls -/

/-- Refusing messages as nested calls. The sender of a message fails, and with it the senders of
those that wait at it, before the next message is refused; a derivation is a finite tree of calls. -/
inductive Refusing : QueuePairs → List Message → QueuePairs → List Report → Prop where
  | done (qps : QueuePairs) : Refusing qps [] qps []
  | gone {qps qps' : QueuePairs} {m : Message} {ms : List Message} {out : List Report}
      (sender : qps.get? m.sender = none) (rest : Refusing qps ms qps' out) :
      Refusing qps (m :: ms) qps' (m.report .rnrRetryExcErr :: out)
  | fails {qps between qps' : QueuePairs} {m : Message} {s : QueuePair} {ms : List Message}
      {inner out : List Report} (sender : qps.get? m.sender = some s)
      (inbox : Refusing (qps.modify m.sender fun _ => s.failed) s.inbox between inner)
      (rest : Refusing between ms qps' out) :
      Refusing qps (m :: ms) qps' (m.report .rnrRetryExcErr :: (s.flushes ++ inner ++ out))

/-- Failing a queue pair as a call. -/
inductive Failing (qps : QueuePairs) (id : QpId) : QueuePairs → List Report → Prop where
  | gone (absent : qps.get? id = none) : Failing qps id qps []
  | fails {qps' : QueuePairs} {q : QueuePair} {out : List Report} (found : qps.get? id = some q)
      (inbox : Refusing (qps.modify id fun _ => q.failed) q.inbox qps' out) :
      Failing qps id qps' (q.flushes ++ out)

lemma refuse_nil (qps : QueuePairs) : refuse qps [] = (qps, []) := by rw [refuse]

lemma refuse_of_gone (h : qps.get? m.sender = none) (ms : List Message) :
    refuse qps (m :: ms) = ((refuse qps ms).1, m.report .rnrRetryExcErr :: (refuse qps ms).2) := by
  rw [refuse]
  split
  · rfl
  · rename_i s hs
    cases h.symm.trans hs

lemma refuse_of_found (h : qps.get? m.sender = some s) (ms : List Message) :
    refuse qps (m :: ms) =
      ((refuse (qps.modify m.sender fun _ => s.failed) (s.inbox ++ ms)).1,
        m.report .rnrRetryExcErr :: (s.flushes ++
          (refuse (qps.modify m.sender fun _ => s.failed) (s.inbox ++ ms)).2)) := by
  rw [refuse]
  split
  · rename_i hs
    cases h.symm.trans hs
  · rename_i s' hs
    cases h.symm.trans hs
    rfl

lemma refuse_append (qps : QueuePairs) (ms ms' : List Message) :
    refuse qps (ms ++ ms') =
      ((refuse (refuse qps ms).1 ms').1, (refuse qps ms).2 ++ (refuse (refuse qps ms).1 ms').2) := by
  fun_induction refuse qps ms with
  | case1 qps => rfl
  | case2 qps m rest h qps' out heq ih =>
    rw [heq] at ih
    rw [List.cons_append, refuse_of_gone h, ih]
    rfl
  | case3 qps m rest s h qps' out heq ih =>
    rw [heq, List.append_assoc] at ih
    rw [List.cons_append, refuse_of_found h, ih]
    simp only [List.cons_append, List.append_assoc]

lemma Refusing.refuse_eq (h : Refusing qps ms qps' out) : refuse qps ms = (qps', out) := by
  induction h with
  | done qps => exact refuse_nil qps
  | gone sender rest ih => rw [refuse_of_gone sender, ih]
  | fails sender inbox rest ihInbox ihRest =>
    rw [refuse_of_found sender, refuse_append, ihInbox, ihRest, List.append_assoc]

lemma Refusing.split {ms' : List Message} (h : Refusing qps (ms ++ ms') qps' out) :
    ∃ between first second, Refusing qps ms between first ∧ Refusing between ms' qps' second ∧
      out = first ++ second := by
  induction ms generalizing qps out with
  | nil => exact ⟨qps, [], out, .done qps, h, rfl⟩
  | cons m ms ih =>
    cases h with
    | gone sender rest =>
      obtain ⟨between, first, second, hfirst, hsecond, rfl⟩ := ih rest
      exact ⟨between, _, second, .gone sender hfirst, hsecond, rfl⟩
    | fails sender inbox rest =>
      obtain ⟨between, first, second, hfirst, hsecond, rfl⟩ := ih rest
      exact ⟨between, _, second, .fails sender inbox hfirst, hsecond, by simp⟩

lemma refusing (qps : QueuePairs) (ms : List Message) :
    Refusing qps ms (refuse qps ms).1 (refuse qps ms).2 := by
  fun_induction refuse qps ms with
  | case1 qps => exact .done qps
  | case2 qps m rest h qps' out heq ih =>
    rw [heq] at ih
    exact .gone h ih
  | case3 qps m rest s h qps' out heq ih =>
    rw [heq] at ih
    obtain ⟨between, first, second, hinbox, hrest, rfl⟩ := ih.split
    rw [← List.append_assoc]
    exact .fails h hinbox hrest

lemma failing_iff : Failing qps id qps' out ↔ fail qps id = (qps', out) := by
  constructor
  · rintro (absent | ⟨found, inbox⟩)
    · simp [fail, absent]
    · simp [fail, found, inbox.refuse_eq]
  · intro h
    rcases hq : qps.get? id with - | q
    · simp only [fail, hq] at h
      cases h
      exact .gone hq
    · simp only [fail, hq] at h
      cases h
      exact .fails hq (refusing _ _)

/-! ### Who is reached -/

/-- A message of `p` waits at `r`, and `p` is still there: when `r` fails, so does `p`. -/
structure Drags (qps : QueuePairs) (r p : QpId) : Prop where
  waits : ∃ q, qps.get? r = some q ∧ ∃ m ∈ q.inbox, m.sender = p
  alive : (qps.get? p).isSome

/-- Queue pairs that fail when the first one does. -/
def Reaches (qps : QueuePairs) : QpId → QpId → Prop := Relation.ReflTransGen qps.Drags

/-- Queue pairs that fail when messages are refused. -/
def Reached (qps : QueuePairs) (ms : List Message) (p : QpId) : Prop :=
  ∃ m ∈ ms, (qps.get? m.sender).isSome ∧ qps.Reaches m.sender p

lemma isSome_modify (f : QueuePair → QueuePair) :
    (Table.get? (qps.modify j f) p).isSome = (qps.get? p).isSome := by
  rw [Table.get?_modify]
  split <;> simp

lemma drags_modify_failed (h : qps.get? j = some s) :
    Drags (qps.modify j fun _ => s.failed) r p ↔ r ≠ j ∧ qps.Drags r p := by
  constructor
  · rintro ⟨⟨q, hq, m, hm, hsender⟩, halive⟩
    rw [isSome_modify] at halive
    rw [Table.get?_modify] at hq
    by_cases hr : r = j
    · rw [if_pos hr, hr, h] at hq
      cases hq
      cases hm
    · rw [if_neg hr] at hq
      exact ⟨hr, ⟨q, hq, m, hm, hsender⟩, halive⟩
  · rintro ⟨hr, ⟨q, hq, hm⟩, halive⟩
    exact ⟨⟨q, by rwa [Table.get?_modify, if_neg hr], hm⟩, by rwa [isSome_modify]⟩

lemma Reaches.of_modify_failed (h : qps.get? j = some s)
    (hr : Reaches (qps.modify j fun _ => s.failed) r p) : qps.Reaches r p :=
  Relation.ReflTransGen.mono (fun _ _ hd => ((drags_modify_failed h).mp hd).2) _ _ hr

/-- What is reached at all is reached without `j`, or it is `j`, or it is reached from the senders of
the messages that wait at `j`. -/
lemma Reaches.without (h : qps.get? j = some s) (hr : qps.Reaches r p) :
    p = j ∨ Reaches (qps.modify j fun _ => s.failed) r p ∨
      Reached (qps.modify j fun _ => s.failed) s.inbox p := by
  induction hr with
  | refl => exact Or.inr (Or.inl .refl)
  | @tail b c _ hdrag ih =>
    by_cases hb : b = j
    · subst hb
      obtain ⟨⟨q, hq, m, hm, rfl⟩, halive⟩ := hdrag
      cases h.symm.trans hq
      exact Or.inr (Or.inr ⟨m, hm, by rwa [isSome_modify], .refl⟩)
    · have hdrag' := (drags_modify_failed h).mpr ⟨hb, hdrag⟩
      rcases ih with hb' | ih | ⟨m, hm, halive, hreaches⟩
      · exact absurd hb' hb
      · exact Or.inr (Or.inl (ih.tail hdrag'))
      · exact Or.inr (Or.inr ⟨m, hm, halive, hreaches.tail hdrag'⟩)

lemma reaches_iff (h : qps.get? j = some s) :
    qps.Reaches j p ↔ p = j ∨ Reached (qps.modify j fun _ => s.failed) s.inbox p := by
  constructor
  · intro hr
    rcases hr.without h with hp | hp | hp
    · exact Or.inl hp
    · rcases hp.cases_head with rfl | ⟨c, hdrag, -⟩
      · exact Or.inl rfl
      · exact absurd rfl ((drags_modify_failed h).mp hdrag).1
    · exact Or.inr hp
  · rintro (rfl | ⟨m, hm, halive, hreaches⟩)
    · exact .refl
    · rw [isSome_modify] at halive
      exact .head ⟨⟨s, h, m, hm, rfl⟩, halive⟩ (hreaches.of_modify_failed h)

lemma reached_of_gone (h : qps.get? m.sender = none) :
    qps.Reached (m :: ms) p ↔ qps.Reached ms p := by
  simp [Reached, h]

lemma reached_of_found (h : qps.get? m.sender = some s) :
    qps.Reached (m :: ms) p ↔
      p = m.sender ∨ Reached (qps.modify m.sender fun _ => s.failed) (s.inbox ++ ms) p := by
  constructor
  · rintro ⟨n, hn, halive, hreaches⟩
    rcases List.mem_cons.mp hn with rfl | hn
    · rcases (reaches_iff h).mp hreaches with hp | ⟨k, hk, hreached⟩
      · exact Or.inl hp
      · exact Or.inr ⟨k, List.mem_append_left _ hk, hreached⟩
    · rcases hreaches.without h with hp | hp | ⟨k, hk, hreached⟩
      · exact Or.inl hp
      · exact Or.inr ⟨n, List.mem_append_right _ hn, by rwa [isSome_modify], hp⟩
      · exact Or.inr ⟨k, List.mem_append_left _ hk, hreached⟩
  · rintro (rfl | ⟨n, hn, halive, hreaches⟩)
    · exact ⟨m, List.mem_cons_self, by simp [h], .refl⟩
    · rcases List.mem_append.mp hn with hn | hn
      · exact ⟨m, List.mem_cons_self, by simp [h],
          (reaches_iff h).mpr (Or.inr ⟨n, hn, halive, hreaches⟩)⟩
      · rw [isSome_modify] at halive
        exact ⟨n, List.mem_cons_of_mem _ hn, halive, hreaches.of_modify_failed h⟩

lemma get?_refuse (qps : QueuePairs) (ms : List Message) (p : QpId) :
    (qps.Reached ms p → (refuse qps ms).1.get? p = (qps.get? p).map QueuePair.failed) ∧
      (¬ qps.Reached ms p → (refuse qps ms).1.get? p = qps.get? p) := by
  fun_induction refuse qps ms with
  | case1 qps =>
    refine ⟨fun hreached => ?_, fun _ => rfl⟩
    obtain ⟨m, hm, -⟩ := hreached
    exact absurd hm List.not_mem_nil
  | case2 qps m rest h qps' out heq ih =>
    rw [heq] at ih
    rwa [reached_of_gone h]
  | case3 qps m rest s h qps' out heq ih =>
    rw [heq] at ih
    rw [reached_of_found h]
    have hfailed := refuse_failed (qps.modify m.sender fun _ => s.failed) (s.inbox ++ rest)
    rw [heq] at hfailed
    have hother : p ≠ m.sender →
        Table.get? (qps.modify m.sender fun _ => s.failed) p = qps.get? p := fun hp => by
      rw [Table.get?_modify, if_neg hp]
    refine ⟨fun hreached => ?_, fun hreached => ?_⟩
    · by_cases hp : p = m.sender
      · have hmodified : Table.get? (qps.modify m.sender fun _ => s.failed) p = some s.failed := by
          simp [Table.get?_modify, hp, h]
        rw [hp, h, ← hp]
        rcases hfailed.get? hmodified with hq | hq <;> exact hq
      · rw [← hother hp]
        exact ih.1 (hreached.resolve_left hp)
    · rw [not_or] at hreached
      rw [← hother hreached.1]
      exact ih.2 hreached.2

lemma get?_fail (h : qps.get? id = some q) (p : QpId) :
    (qps.Reaches id p → (fail qps id).1.get? p = (qps.get? p).map QueuePair.failed) ∧
      (¬ qps.Reaches id p → (fail qps id).1.get? p = qps.get? p) := by
  have hrefuse := get?_refuse (qps.modify id fun _ => q.failed) q.inbox p
  have hother : p ≠ id → Table.get? (qps.modify id fun _ => q.failed) p = qps.get? p :=
    fun hp => by rw [Table.get?_modify, if_neg hp]
  rw [reaches_iff h]
  refine ⟨fun hreached => ?_, fun hreached => ?_⟩
  · by_cases hp : p = id
    · rw [hp, get?_fail_self]
    · simp only [fail, h]
      rw [← hother hp]
      exact hrefuse.1 (hreached.resolve_left hp)
  · rw [not_or] at hreached
    simp only [fail, h]
    rw [← hother hreached.1]
    exact hrefuse.2 hreached.2

/-! ### What is reported -/

lemma holder_unique (hu : Table.Unique qps) (hn : ((held qps).map (·.posting)).Nodup)
    (hq : qps.get? id = some q) (hs : qps.get? j = some s) {x y : Report}
    (hx : x ∈ q.surrendered) (hy : y ∈ s.surrendered) (hxy : x.posting = y.posting) : id = j := by
  by_contra hne
  have herase : held (qps.erase id) + (q.surrendered : Multiset Report) = held qps :=
    Table.total_erase_add hu hq fun _ q => (q.surrendered : Multiset Report)
  have hmem : y ∈ held (qps.erase id) :=
    (Table.mem_total (Table.unique_erase hu id)).mpr
      ⟨j, s, by rwa [Table.get?_erase, if_neg (Ne.symm hne)], hy⟩
  rw [← herase, Multiset.map_add, Multiset.nodup_add] at hn
  exact Multiset.disjoint_left.mp hn.2.2 (Multiset.mem_map_of_mem _ hmem)
    (hxy ▸ Multiset.mem_map_of_mem _ (Multiset.mem_coe.mpr hx))

variable (hu : Table.Unique qps) (hn : ((held qps).map (·.posting)).Nodup)

include hu hn in
lemma nodup_fail (id : QpId) :
    ((fail qps id).2.map (·.posting)).Nodup ∧
      Disjoint (((fail qps id).2 : Multiset Report).map (·.posting))
        ((held (fail qps id).1).map (·.posting)) := by
  rw [← fail_held hu id, Multiset.map_add, Multiset.nodup_add, Multiset.map_coe,
    Multiset.coe_nodup] at hn
  exact ⟨hn.1, hn.2.2⟩

include hu hn in
lemma reached_of_mem_fail (h : qps.get? id = some q) {x : Report} (hx : x ∈ (fail qps id).2) :
    ∃ p s, qps.Reaches id p ∧ qps.get? p = some s ∧ x ∈ s.surrendered := by
  have hheld : x ∈ held qps := by
    rw [← fail_held hu id]
    exact Multiset.mem_add.mpr (Or.inl hx)
  obtain ⟨p, s, hs, hsurrendered⟩ := (Table.mem_total hu).mp hheld
  refine ⟨p, s, ?_, hs, hsurrendered⟩
  by_contra hreaches
  have hkept : x ∈ held (fail qps id).1 :=
    (Table.mem_total (fail_unique hu id)).mpr
      ⟨p, s, ((get?_fail h p).2 hreaches).trans hs, hsurrendered⟩
  exact Multiset.disjoint_left.mp (nodup_fail hu hn id).2
    (Multiset.mem_map_of_mem _ (Multiset.mem_coe.mpr hx)) (Multiset.mem_map_of_mem _ hkept)

include hu hn in
lemma mem_fail_of_reached (h : qps.get? id = some q) (hs : qps.get? p = some s)
    (hreaches : qps.Reaches id p) {x : Report} (hx : x ∈ s.surrendered) : x ∈ (fail qps id).2 := by
  have hheld : x ∈ held qps := (Table.mem_total hu).mpr ⟨p, s, hs, hx⟩
  rw [← fail_held hu id] at hheld
  rcases Multiset.mem_add.mp hheld with hheld | hheld
  · exact hheld
  · -- it would be held by a queue pair that the failure does not reach, which is another one
    obtain ⟨j, t, ht, hkept⟩ := (Table.mem_total (fail_unique hu id)).mp hheld
    by_cases hj : qps.Reaches id j
    · rw [(get?_fail h j).1 hj] at ht
      obtain ⟨t₀, -, rfl⟩ := Option.map_eq_some_iff.mp ht
      cases hkept
    · rw [(get?_fail h j).2 hj] at ht
      exact absurd (holder_unique hu hn hs ht hx hkept rfl ▸ hreaches) hj

end QueuePairs

lemma own_singleton {out : List Report} (hn : (out.map (·.posting)).Nodup) {x : Report}
    (hx : x ∈ out) : own [x.posting] out = [x] := by
  obtain ⟨before, after, rfl⟩ := List.append_of_mem hx
  rw [List.map_append, List.map_cons, List.nodup_middle, List.nodup_cons, List.mem_append,
    not_or] at hn
  have hnone : ∀ l : List Report, x.posting ∉ l.map (·.posting) → own [x.posting] l = [] := by
    intro l hl
    refine List.filter_eq_nil_iff.mpr fun y hy => ?_
    simpa using fun hxy => hl (List.mem_map.mpr ⟨y, hy, hxy⟩)
  rw [own_append, own_cons_of_mem (List.mem_singleton_self _), hnone _ hn.1.1, hnone _ hn.1.2]
  rfl

namespace Device

variable {ops : List Operation} {id p : QpId} {q s : QueuePair}

def failQp (d : Device) (id : QpId) : Device :=
  { d with qps := (d.qps.fail id).1 }.record (d.qps.fail id).2

structure GivenUp (ops : List Operation) (out : List Report) (s : QueuePair) : Prop where
  /-- Each receive is flushed, once and in order. -/
  receives : own (s.recvs.map (·.posting)) out = s.flushes
  /-- They are in the order in which they were posted. -/
  order : (s.recvs.map (·.posting)).Pairwise (· < ·)
  /-- Each message is refused, once. -/
  messages : ∀ m ∈ s.inbox, own [m.posting] out = [m.report .rnrRetryExcErr]
  /-- This is told where its sender looks for it, who need not be there any more. -/
  posted : ∀ m ∈ s.inbox, ∃ sgl op,
    ⟨m.posting, m.sender, m.senderCq, m.wrId, .send sgl op⟩ ∈ accepted ops
  senders : ∀ m ∈ s.inbox, ∀ t, (run ops).qps.get? m.sender = some t → m.senderCq = t.sendCq

lemma nodup_held (ops : List Operation) : ((run ops).qps.held.map (·.posting)).Nodup := by
  have hbalanced := balanced ops
  have hnumbers : (((accepted ops).map (·.due) : Multiset Due).map (·.posting)).Nodup := by
    rw [Multiset.map_coe, List.map_map, Multiset.coe_nodup]
    exact hbalanced.nodup
  have hheld : (run ops).qps.held.map (·.posting) = (run ops).qps.dues.map (·.posting) := by
    rw [← QueuePairs.map_due_held, Multiset.map_map]
    rfl
  rw [hheld]
  rw [← hbalanced.balance, Multiset.map_add, Multiset.nodup_add] at hnumbers
  exact hnumbers.2.1

lemma recvs_sorted (hs : (run ops).qps.get? p = some s) :
    (s.recvs.map (·.posting)).Pairwise (· < ·) := by
  have horder := (told p ops).order
  rw [QueuePairs.flushesOf_of_found hs, List.map_nil, List.nil_append] at horder
  have hsorted : ((receivesOf p ops).map (·.number)).Pairwise (· < ·) := by
    refine List.Pairwise.sublist (List.filter_sublist.map _) ?_
    rw [(balanced ops).numbers]
    exact List.pairwise_lt_range
  rw [← horder] at hsorted
  simpa [QueuePair.flushes, Function.comp_def] using (List.pairwise_append.mp hsorted).2.1

lemma fail_receives (hq : (run ops).qps.get? id = some q) (hs : (run ops).qps.get? p = some s)
    (hreaches : (run ops).qps.Reaches id p) :
    own (s.recvs.map (·.posting)) ((run ops).qps.fail id).2 = s.flushes := by
  have hall := apart p ops .addFabric
  have hown := QueuePairs.fail_own hall id
  have hfailed : ((run ops).qps.fail id).1.get? p = some s.failed := by
    rw [(QueuePairs.get?_fail hq p).1 hreaches, hs]
    rfl
  rw [QueuePairs.flushesOf_of_found hs, QueuePairs.flushesOf_of_found hfailed] at hown
  have hmine : ∀ r ∈ s.recvs, r.posting ∈ (receivesOf p (ops ++ [.addFabric])).map (·.number) :=
    fun r hr => ((hall p s hs).recvs r hr).mpr rfl
  have hself : own (s.recvs.map (·.posting)) s.flushes = s.flushes := by
    refine List.filter_eq_self.mpr fun report hreport => ?_
    obtain ⟨r, hr, rfl⟩ := List.mem_map.mp hreport
    simpa using ⟨r, hr, rfl⟩
  have hnone : s.failed.flushes = [] := rfl
  rw [hnone, List.append_nil] at hown
  rw [← hself, ← hown, own, own, own, List.filter_filter]
  refine List.filter_congr fun report _ => ?_
  by_cases hin : report.posting ∈ s.recvs.map (·.posting)
  · obtain ⟨r, hr, hposting⟩ := List.mem_map.mp hin
    have := hmine r hr
    rw [hposting] at this
    simp [hin, this]
  · simp [hin]

/-- **A failure reaches exactly those that it drags along.** Whatever circles the waiting messages
make, the calls return, in one way. Those that are reached are in the error state with nothing left,
and nobody else has changed, nor has the memory; each receive that they held is flushed and each
message refused, once, and nothing else is reported. -/
theorem failure_reaches (ops : List Operation) (id : QpId) (q : QueuePair)
    (hq : (run ops).qps.get? id = some q) :
    ∃ qps out, (run ops).qps.Failing id qps out ∧
      (∀ qps' out', (run ops).qps.Failing id qps' out' → qps' = qps ∧ out' = out) ∧
      (run ops).qps.fail id = (qps, out) ∧
      (∀ p t, qps.get? p = some t → (t.state = .error ↔
        (∃ s, (run ops).qps.get? p = some s ∧ s.state = .error) ∨ (run ops).qps.Reaches id p)) ∧
      (∀ p, (run ops).qps.Reaches id p →
        qps.get? p = ((run ops).qps.get? p).map QueuePair.failed) ∧
      (∀ p, ¬ (run ops).qps.Reaches id p → qps.get? p = (run ops).qps.get? p) ∧
      (∀ p s, (run ops).qps.Reaches id p → (run ops).qps.get? p = some s → GivenUp ops out s) ∧
      (∀ report ∈ out, ∃ p s, (run ops).qps.Reaches id p ∧ (run ops).qps.get? p = some s ∧
        report ∈ s.surrendered) ∧
      ((run ops).failQp id).qps = qps ∧ ((run ops).failQp id).memory = (run ops).memory ∧
      ∀ cq, ((run ops).failQp id).rings.get? cq =
        ((run ops).rings.get? cq).map (pushAll cq out) := by
  have hbalanced := balanced ops
  have hu := hbalanced.unique
  have hn := nodup_held ops
  refine ⟨((run ops).qps.fail id).1, ((run ops).qps.fail id).2, QueuePairs.failing_iff.mpr rfl,
    fun qps' out' hfailing => ?_, rfl, fun p t ht => ?_,
    fun p => (QueuePairs.get?_fail hq p).1, fun p => (QueuePairs.get?_fail hq p).2,
    fun p s hreaches hs => ?_,
    fun report hreport => QueuePairs.reached_of_mem_fail hu hn hq hreport, rfl, rfl,
    fun cq => record_rings _ _ cq⟩
  · have heq := QueuePairs.failing_iff.mp hfailing
    exact ⟨(congrArg Prod.fst heq).symm, (congrArg Prod.snd heq).symm⟩
  · -- a queue pair in error that is not reached was in error before
    by_cases hreaches : (run ops).qps.Reaches id p
    · rw [(QueuePairs.get?_fail hq p).1 hreaches] at ht
      obtain ⟨s, -, rfl⟩ := Option.map_eq_some_iff.mp ht
      exact ⟨fun _ => Or.inr hreaches, fun _ => rfl⟩
    · rw [(QueuePairs.get?_fail hq p).2 hreaches] at ht
      constructor
      · exact fun hstate => Or.inl ⟨t, ht, hstate⟩
      · rintro (⟨s, hs, hstate⟩ | h)
        · cases ht.symm.trans hs
          exact hstate
        · exact absurd h hreaches
  · have hbacked := hbalanced.backed p s hs
    refine ⟨fail_receives hq hs hreaches, recvs_sorted hs, fun m hm => ?_, fun m hm => ?_,
      fun m hm t ht => ?_⟩
    · have hx : m.report .rnrRetryExcErr ∈ s.surrendered :=
        List.mem_append_right _ (List.mem_map.mpr ⟨m, hm, rfl⟩)
      exact own_singleton (QueuePairs.nodup_fail hu hn id).1
        (QueuePairs.mem_fail_of_reached hu hn hq hs hreaches hx)
    · obtain ⟨sgl, op, -, -, hp⟩ := hbacked.inbox m hm
      exact ⟨sgl, op, hp⟩
    · obtain ⟨sgl, op, -, -, hp⟩ := hbacked.inbox m hm
      exact cq_of_mem_accepted hp ht

/-- Two queue pairs wait for each other's receives. A message of a third waits at the first of them,
which was not connected yet; that one waits for a message. -/
def circle : List Operation :=
  [.addFabric, .openNic 0 {}, .createCq {} 8, .createQp ⟨1, some 2, some 2, {}, 0⟩,
    .createQp ⟨1, some 2, some 2, {}, 0⟩, .createQp ⟨1, some 2, some 2, {}, 0⟩,
    .connect 5 ⟨1, 1, 0⟩, .postSend 5 ⟨10, [], .send none⟩, .postRecv 5 ⟨11, []⟩,
    .connect 3 ⟨1, 2, 0⟩, .connect 4 ⟨1, 1, 0⟩,
    .postSend 3 ⟨12, [], .send none⟩, .postSend 4 ⟨13, [], .send none⟩]

theorem failure_reaches_circle :
    ∃ qps out, (run circle).qps.Failing 4 qps out ∧
      (run circle).qps.Reaches 4 5 ∧ (run circle).qps.Drags 3 4 ∧
      own [1] out = [⟨1, 2, .flushed 11 .recv⟩] ∧ ((run circle).failQp 4).qps = qps := by
  have hwaits : (run circle).qps.Drags 4 3 := ⟨⟨_, rfl, _, List.mem_cons_self, rfl⟩, rfl⟩
  have hback : (run circle).qps.Drags 3 4 :=
    ⟨⟨_, rfl, _, List.mem_cons_of_mem _ List.mem_cons_self, rfl⟩, rfl⟩
  have hthird : (run circle).qps.Drags 3 5 := ⟨⟨_, rfl, _, List.mem_cons_self, rfl⟩, rfl⟩
  have hreaches : (run circle).qps.Reaches 4 5 :=
    Relation.ReflTransGen.head hwaits (Relation.ReflTransGen.single hthird)
  obtain ⟨qps, out, hfailing, -, -, -, -, -, hgiven, -, hqps, -⟩ :=
    failure_reaches circle 4 _ rfl
  exact ⟨qps, out, hfailing, hreaches, hback, (hgiven 5 _ hreaches rfl).receives, hqps⟩

end Device

end Verbs
