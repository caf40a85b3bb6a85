import Mathlib.Tactic
import Verbs.Proofs.Registry.Departures

/-!
Closing a registry while callbacks come in: whoever comes second finds nothing, and what the calls
that close have told their callers adds up to what they took along.
-/

namespace Verbs

variable {κ : Type}

namespace Errand

def inserts : Errand κ → Bool
  | storing _ _ | checking _ | revoking _ => true
  | _ => false

def count? : Errand κ → Option Nat
  | closed count => some count
  | _ => none

end Errand

namespace Traffic

variable {s : Traffic κ} {n : Nat} {token : UInt64}

lemma inserts_of_registering (h : s.desk.Registering token) :
    ∃ n e, s.calls.get? n = some e ∧ e.inserts := by
  obtain ⟨n, g, hn, hreg⟩ := h
  obtain ⟨e, he, hstage⟩ := Option.bind_eq_some_iff.mp hn
  refine ⟨n, e, he, ?_⟩
  cases e with
  | checking | revoking => rfl
  | storing | inserted | took => cases hstage
  | marked | looking | emptying | closed =>
    cases hstage
    cases hreg

/-! ### Counts -/

/-- The calls that have closed the registry, and what they told their callers. -/
def closings (s : Traffic κ) : List (Nat × Nat) :=
  s.calls.entries.filterMap fun c => c.2.count?.map (c.1, ·)

lemma mem_closings (h : s.calls.Unique) {count : Nat} :
    (n, count) ∈ s.closings ↔ s.calls.get? n = some (.closed count) := by
  rw [closings, List.mem_filterMap]
  constructor
  · rintro ⟨⟨m, e⟩, hmem, hcount⟩
    obtain ⟨count', hclosed, heq⟩ := Option.map_eq_some_iff.mp hcount
    cases heq
    cases e with
    | closed =>
      cases hclosed
      exact (Table.mem_entries_iff h).mp hmem
    | _ => cases hclosed
  · exact fun hclosed => ⟨(n, .closed count), (Table.mem_entries_iff h).mpr hclosed, rfl⟩

lemma nodup_closings (h : s.calls.Unique) : (s.closings.map (·.1)).Nodup := by
  rw [List.Nodup, List.pairwise_map, closings, List.pairwise_filterMap]
  refine (List.pairwise_map.mp h).imp fun hne c hc d hd => ?_
  obtain ⟨-, -, rfl⟩ := Option.map_eq_some_iff.mp hc
  obtain ⟨-, -, rfl⟩ := Option.map_eq_some_iff.mp hd
  exact hne

lemma sum_length_filter (l : List (Passage κ)) {calls : List Nat} (h : calls.Nodup) :
    (calls.map fun n => (l.filter (·.call = n)).length).sum =
      (l.filter (·.call ∈ calls)).length := by
  induction calls with
  | nil => simp
  | cons n calls ih =>
    obtain ⟨hn, hcalls⟩ := List.nodup_cons.mp h
    rw [List.map_cons, List.sum_cons, ih hcalls]
    simp only [← List.countP_eq_length_filter, List.mem_cons]
    clear ih
    induction l with
    | nil => rfl
    | cons p l ih =>
      simp only [List.countP_cons, decide_eq_true_eq]
      by_cases hp : p.call = n
      · have hnot : p.call ∉ calls := hp ▸ hn
        rw [if_pos hp, if_neg hnot, if_pos (Or.inl hp), ← ih]
        omega
      · simp only [hp, false_or, if_false]
        omega

lemma Accounted.sum_closings (h : s.Accounted) : (s.closings.map (·.2)).sum =
    (s.departures.filter (·.call ∈ s.closings.map (·.1))).length := by
  rw [← sum_length_filter _ (nodup_closings h.calls), List.map_map]
  refine congrArg List.sum (List.map_congr_left fun c hc => ?_)
  have hgot : (s.takenBy c.1).length = c.2 := h.got_of_get? ((mem_closings h.calls).mp hc)
  rw [← hgot, takenBy, List.length_map]
  rfl

/-! ### The result -/

/-- **Closing leaves nothing behind.** Here is what holds after any steps of any calls that draw
fewer tokens than there are. No two calls have the same token. A callback that has arrived under the
token of its call is there and has not departed, or it is not there and has departed once: with a
call that took it, with its own call, or with one that closes. A call that closes tells how many it
took along, and these numbers add up. Once such a call is over, the registry is empty whenever
nothing is being inserted. -/
theorem closing_leaves_nothing (acts : List (Act κ))
    (hbound : (run acts).drawn.length < 2 ^ 64) :
    let s := run acts
    (s.drawn.Nodup ∧
      ∀ n m token, s.tokenOf n = some token → s.tokenOf m = some token → n = m) ∧
    (∀ a ∈ s.arrivals, s.tokenOf a.call = some a.token ∧
      (s.registry.callbacks.get? a.token = some a.cb ∧ (∀ d ∈ s.departures, d.token ≠ a.token) ∨
      s.registry.callbacks.get? a.token = none ∧
        ∃ d, s.departures.filter (·.token = a.token) = [d] ∧ d.cb = a.cb ∧ s.Exit a d)) ∧
    (∀ d ∈ s.departures, ∃ a ∈ s.arrivals, a.entry = d.entry) ∧
    (∀ n count, s.calls.get? n = some (.closed count) → (s.takenBy n).length = count) ∧
    (s.closings.map (·.2)).sum =
      (s.departures.filter (·.call ∈ s.closings.map (·.1))).length ∧
    (s.closings ≠ [] → (∀ n e, s.calls.get? n = some e → ¬ e.inserts) → s.registry.size = 0) := by
  intro s
  have ho : s.Owned := owned hbound
  have hb : s.Balanced := balanced hbound
  have hg : s.Accounted := accounted acts
  refine ⟨⟨nodup_drawn hbound, ho.own⟩, fun a ha => ?_, fun d hd => ?_, fun n count hclosed => ?_,
    hg.sum_closings, fun hsome hidle => ?_⟩
  · obtain ⟨e, he, hstored⟩ := ho.arrived a ha
    exact ⟨(tokenOf_of_get? he).trans (Errand.token_of_stored hstored),
      present_or_departed ho hb hg ha⟩
  · have hmem : d.entry ∈ (s.arrivals.map Passage.entry : Multiset (UInt64 × κ)) := by
      rw [hb.arrived]
      exact Multiset.mem_add.mpr (Or.inr (List.mem_map_of_mem hd))
    exact List.mem_map.mp hmem
  · exact hg.got_of_get? hclosed
  · obtain ⟨⟨n, count⟩, hmem⟩ := List.exists_mem_of_ne_nil _ hsome
    have hclosed := (mem_closings hg.calls).mp hmem
    have hcovered : s.desk.Covered [] :=
      (reached acts).closing.covered n _ [] (stage_of_get? hclosed) rfl
    rw [Registry.size, Table.size, List.length_eq_zero_iff, List.eq_nil_iff_forall_not_mem]
    rintro ⟨token, cb⟩ hstored
    have hcb := (Table.mem_entries_iff hb.callbacks).mp hstored
    have hreg := (hcovered token (hcb ▸ Option.some_ne_none cb)).resolve_right List.not_mem_nil
    obtain ⟨m, e, he, hinserts⟩ := inserts_of_registering hreg
    exact hidle m e he hinserts

/-- Two calls close at once. Of four callbacks one is taken meanwhile, one comes too late and is
taken out by its own call, and each of the two calls gets one of the others. -/
def rush : List (Act Nat) :=
  [.draw 0 10, .store 0, .check 0, .draw 1 20, .store 1, .draw 2 30, .draw 3 40, .store 3, .check 3,
    .mark 5, .look 5, .mark 7, .look 7, .take 6 4, .see 5 1, .see 5 2, .gather 5,
    .store 2, .check 2, .revoke 2, .see 7 1, .see 7 2, .see 7 4, .gather 7,
    .remove 5, .remove 7, .remove 7, .remove 5, .check 1, .revoke 1,
    .remove 7, .remove 7, .remove 5]

theorem closing_leaves_nothing_rush :
    (run rush).drawn.length < 2 ^ 64 ∧
    (∃ d, (run rush).departures.filter (·.token = 3) = [d] ∧ d.cb = 30 ∧
      (run rush).Exit ⟨3, 30, 2⟩ d) ∧
    ((run rush).takenBy 5).length = 1 ∧
    (run rush).closings = [(5, 1), (7, 1)] ∧
    ((run rush).departures.filter (·.call ∈ (run rush).closings.map (·.1))).length = 2 ∧
    (run rush).registry.size = 0 := by
  have hbound : (run rush).drawn.length < 2 ^ 64 := by decide
  have hclosings : (run rush).closings = [(5, 1), (7, 1)] := by decide
  have hidle : ∀ n e, (run rush).calls.get? n = some e → ¬ e.inserts := fun n e he =>
    (show ∀ c ∈ (run rush).calls.entries, ¬ c.2.inserts by decide) _ (Table.mem_of_find? he)
  obtain ⟨-, harrived, -, hcount, hsum, hempty⟩ := closing_leaves_nothing rush hbound
  have hgone : (run rush).registry.callbacks.get? 3 = none := by decide
  refine ⟨hbound, ?_, hcount 5 1 (by decide), hclosings, ?_, hempty (by simp [hclosings]) hidle⟩
  · rcases (harrived ⟨3, 30, 2⟩ (by decide)).2 with ⟨hthere, -⟩ | ⟨-, hdeparted⟩
    · cases hgone.symm.trans hthere
    · exact hdeparted
  · rw [← hsum, hclosings]
    rfl

end Traffic

end Verbs
