import Mathlib.Algebra.BigOperators.Group.Multiset.Basic
import Mathlib.Tactic
import Verbs.Proofs.Registry.Traffic

/-!
Who takes a callback out of a registry. Every callback comes under a token of its own, and what has
arrived is there or has departed, with one call; each call knows what it took along, and one that
closes knows how much.
-/

namespace Verbs

variable {κ : Type}

namespace Errand

def token? : Errand κ → Option UInt64
  | storing token _ | checking token | revoking token | inserted token => some token
  | _ => none

def stored? : Errand κ → Option UInt64
  | checking token | revoking token | inserted token => some token
  | _ => none

/-- Whether a call is closing the registry and takes callbacks out, or has done so. -/
def empties : Errand κ → Bool
  | emptying _ _ | closed _ => true
  | _ => false

lemma token_of_stored {e : Errand κ} {t : UInt64} (h : e.stored? = some t) :
    e.token? = some t := by
  cases e <;> first | exact h | cases h

end Errand

def Passage.entry (p : Passage κ) : UInt64 × κ := (p.token, p.cb)

namespace Traffic

variable {s s' : Traffic κ} {e : Errand κ} {n : Nat} {token : UInt64}

def tokenOf (s : Traffic κ) (n : Nat) : Option UInt64 := (s.calls.get? n).bind Errand.token?

def takenBy (s : Traffic κ) (n : Nat) : List (UInt64 × κ) :=
  (s.departures.filter (·.call = n)).map Passage.entry

/-! ### Tokens -/

lemma Step.drawn_le (h : Step s s') : s.drawn.length ≤ s'.drawn.length := by
  cases h with
  | draw => simp
  | stay | store | late | keep | revoke | take | mark | look | see | gather | remove | leave =>
    exact le_rfl

lemma nodup_drawn {acts : List (Act κ)} (hbound : (run acts).drawn.length < 2 ^ 64) :
    (run acts).drawn.Nodup :=
  (reached acts).numbered.nodup hbound

/-- Every callback comes into the registry under the token of one call, and no other call has that
token. -/
structure Owned (s : Traffic κ) : Prop where
  drawn : ∀ n token, s.tokenOf n = some token → token ∈ s.drawn
  own : ∀ n m token, s.tokenOf n = some token → s.tokenOf m = some token → n = m
  arrived : ∀ a ∈ s.arrivals, ∃ e, s.calls.get? a.call = some e ∧ e.stored? = some a.token
  nodup : (s.arrivals.map (·.token)).Nodup

lemma tokenOf_of_set (hc : s'.calls = s.calls.set n e) (m : Nat) :
    s'.tokenOf m = if m = n then e.token? else s.tokenOf m := by
  rw [tokenOf, hc, Table.get?_set]
  split <;> rfl

lemma tokenOf_of_get? (h : s.calls.get? n = some e) : s.tokenOf n = e.token? := by
  rw [tokenOf, h]
  rfl

namespace Owned

lemma arrived_of_set (h : s.Owned) (hc : s'.calls = s.calls.set n e)
    (old : ∀ e', s.calls.get? n = some e' → ∀ t, e'.stored? = some t → e.stored? = some t) :
    ∀ a ∈ s.arrivals, ∃ e, s'.calls.get? a.call = some e ∧ e.stored? = some a.token := by
  intro a ha
  obtain ⟨e', he', hstored⟩ := h.arrived a ha
  by_cases hn : a.call = n
  · subst hn
    exact ⟨e, by rw [hc]; exact Table.get?_set_self _ _ _, old e' he' _ hstored⟩
  · exact ⟨e', by rw [hc, Table.get?_set_of_ne _ _ hn, he'], hstored⟩

lemma of_set (h : s.Owned) (hd : s'.drawn = s.drawn) (ha : s'.arrivals = s.arrivals)
    (hc : s'.calls = s.calls.set n e) (htoken : e.token? = s.tokenOf n)
    (old : ∀ e', s.calls.get? n = some e' → ∀ t, e'.stored? = some t → e.stored? = some t) :
    s'.Owned := by
  have hsame : ∀ m, s'.tokenOf m = s.tokenOf m := by
    intro m
    rw [tokenOf_of_set hc]
    split
    · rename_i hm
      rw [hm, htoken]
    · rfl
  refine ⟨fun m t hm => ?_, fun m l t hm hl => ?_, ?_, by rw [ha]; exact h.nodup⟩
  · rw [hd]
    exact h.drawn m t (hsame m ▸ hm)
  · exact h.own m l t (hsame m ▸ hm) (hsame l ▸ hl)
  · rw [ha]
    exact h.arrived_of_set hc old

lemma draw {cb : κ} (h : s.Owned) (hnew : token ∉ s.drawn) (free : s.calls.get? n = none)
    (hd : s'.drawn = s.drawn ++ [token]) (ha : s'.arrivals = s.arrivals)
    (hc : s'.calls = s.calls.set n (.storing token cb)) : s'.Owned := by
  have hcases : ∀ m t, s'.tokenOf m = some t → m = n ∧ t = token ∨ s.tokenOf m = some t := by
    intro m t hm
    rw [tokenOf_of_set hc] at hm
    split at hm
    · rename_i hmn
      exact Or.inl ⟨hmn, (Option.some.inj hm).symm⟩
    · exact Or.inr hm
  refine ⟨fun m t hm => ?_, fun m l t hm hl => ?_, ?_, by rw [ha]; exact h.nodup⟩
  · rw [hd]
    rcases hcases m t hm with ⟨-, ht⟩ | hold
    · exact List.mem_append_right _ (List.mem_singleton.mpr ht)
    · exact List.mem_append_left _ (h.drawn m t hold)
  · rcases hcases m t hm with ⟨hmn, ht⟩ | hold <;> rcases hcases l t hl with ⟨hln, ht'⟩ | hold'
    · rw [hmn, hln]
    · exact absurd (ht ▸ h.drawn l t hold') hnew
    · exact absurd (ht' ▸ h.drawn m t hold) hnew
    · exact h.own m l t hold hold'
  · rw [ha]
    exact h.arrived_of_set hc (by simp [free])

lemma notMem_arrivals {cb : κ} (h : s.Owned)
    (call : s.calls.get? n = some (.storing token cb)) : token ∉ s.arrivals.map (·.token) := by
  intro hmem
  obtain ⟨a, ha, rfl⟩ := List.mem_map.mp hmem
  obtain ⟨e, he, hstored⟩ := h.arrived a ha
  have hown : a.call = n := h.own _ _ a.token
    ((tokenOf_of_get? he).trans (Errand.token_of_stored hstored)) (tokenOf_of_get? call)
  rw [hown, call] at he
  cases he
  cases hstored

end Owned

lemma Step.owned (h : Step s s') (hd : s'.drawn.Nodup) (hs : s.Owned) : s'.Owned := by
  cases h with
  | stay => exact hs
  | draw n cb free =>
    have hnew := (List.nodup_append.mp hd).2.2
    exact hs.draw (fun hmem => hnew _ hmem _ (List.mem_singleton_self _) rfl) free rfl rfl rfl
  | store n t cb call =>
    have hadvanced : Owned { s with
        registry := s.registry.put t cb
        calls := s.calls.set n (.checking t) } :=
      hs.of_set rfl rfl rfl (tokenOf_of_get? call).symm (by simp [call, Errand.stored?])
    refine ⟨hadvanced.drawn, hadvanced.own, fun a ha => ?_, ?_⟩
    · rcases List.mem_append.mp ha with ha | ha
      · exact hadvanced.arrived a ha
      · obtain rfl := List.mem_singleton.mp ha
        exact ⟨.checking t, Table.get?_set_self _ _ _, rfl⟩
    · rw [List.map_append]
      refine hs.nodup.append (List.nodup_singleton _) ?_
      exact List.disjoint_singleton.mpr (hs.notMem_arrivals call)
  | late n t call | keep n t call | revoke n t call =>
    exact hs.of_set rfl rfl rfl (tokenOf_of_get? call).symm (by simp [call, Errand.stored?])
  | take n t free | mark n free =>
    exact hs.of_set rfl rfl rfl (by simp [tokenOf, free, Errand.token?]) (by simp [free])
  | look n call | see n t present seen call | gather n present seen call
    | remove n t rest count call | leave n count call =>
    exact hs.of_set rfl rfl rfl (tokenOf_of_get? call).symm (by simp [call, Errand.stored?])

lemma owned {acts : List (Act κ)} (hbound : (run acts).drawn.length < 2 ^ 64) :
    (run acts).Owned := by
  induction acts using List.reverseRecOn with
  | nil => exact ⟨nofun, nofun, nofun, List.nodup_nil⟩
  | append_singleton acts act ih =>
    have hstep := perform_step (run acts) act
    have hnodup := nodup_drawn hbound
    rw [run_snoc] at hbound hnodup ⊢
    exact hstep.owned hnodup (ih (hstep.drawn_le.trans_lt hbound))

/-! ### Arrivals and departures -/

structure Balanced (s : Traffic κ) : Prop where
  callbacks : s.registry.callbacks.Unique
  arrived : (s.arrivals.map Passage.entry : Multiset (UInt64 × κ)) =
    s.registry.callbacks.contents + (s.departures.map Passage.entry : Multiset (UInt64 × κ))

namespace Balanced

lemma takeOut (h : s.Balanced) (n : Nat) (token : UInt64) (next : Option κ → Errand κ) :
    (s.takeOut n token next).Balanced := by
  refine ⟨Registry.unique_take token h.callbacks, ?_⟩
  have hentries : ((s.takeOut n token next).departures.map Passage.entry) =
      s.departures.map Passage.entry ++ (s.registry.take token).1.toList.map (token, ·) := by
    simp [Traffic.takeOut, Function.comp_def, Passage.entry]
  rw [hentries, ← Multiset.coe_add]
  show (s.arrivals.map Passage.entry : Multiset (UInt64 × κ)) = _
  rw [h.arrived, ← Registry.contents_take token h.callbacks]
  show _ = (s.registry.take token).2.callbacks.contents + _
  abel

lemma mem_arrivals {cb : κ} (h : s.Balanced)
    (hcb : s.registry.callbacks.get? token = some cb) : token ∈ s.arrivals.map (·.token) := by
  have hmem : (token, cb) ∈ (s.arrivals.map Passage.entry : Multiset (UInt64 × κ)) := by
    rw [h.arrived]
    exact Multiset.mem_add.mpr (Or.inl ((Table.mem_contents h.callbacks).mpr hcb))
  obtain ⟨a, ha, heq⟩ := List.mem_map.mp hmem
  exact List.mem_map.mpr ⟨a, ha, congrArg Prod.fst heq⟩

lemma tokens (h : s.Balanced) : (s.arrivals.map (·.token) : Multiset UInt64) =
    s.registry.callbacks.contents.map Prod.fst + (s.departures.map (·.token) : Multiset UInt64) := by
  have := congrArg (Multiset.map Prod.fst) h.arrived
  simpa [Function.comp_def, Passage.entry] using this

end Balanced

lemma Step.balanced (h : Step s s') (ho : s.Owned) (hs : s.Balanced) : s'.Balanced := by
  cases h with
  | store n t cb call =>
    -- the token is new to the registry, so nothing is replaced
    have hnone : s.registry.callbacks.get? t = none := by
      by_contra hsome
      obtain ⟨cb', hcb'⟩ := Option.ne_none_iff_exists'.mp hsome
      exact ho.notMem_arrivals call (hs.mem_arrivals hcb')
    refine ⟨Table.unique_set hs.callbacks _ _, ?_⟩
    have hput : (s.registry.put t cb).callbacks.contents =
        s.registry.callbacks.contents + {(t, cb)} := Table.total_set_of_none hnone cb _
    show (↑((s.arrivals ++ [⟨t, cb, n⟩] : List (Passage κ)).map Passage.entry) :
      Multiset (UInt64 × κ)) = (s.registry.put t cb).callbacks.contents + _
    rw [List.map_append, ← Multiset.coe_add, hs.arrived, hput]
    show _ + {(t, cb)} = _
    abel
  | revoke | take | remove => exact hs.takeOut _ _ _
  | stay | draw | late | keep | mark | look | see | gather | leave =>
    exact ⟨hs.callbacks, hs.arrived⟩

lemma balanced {acts : List (Act κ)} (hbound : (run acts).drawn.length < 2 ^ 64) :
    (run acts).Balanced := by
  induction acts using List.reverseRecOn with
  | nil => exact ⟨Table.unique_empty, rfl⟩
  | append_singleton acts act ih =>
    have hstep := perform_step (run acts) act
    rw [run_snoc] at hbound ⊢
    have hbefore := hstep.drawn_le.trans_lt hbound
    exact hstep.balanced (owned hbefore) (ih hbefore)

/-! ### What each call took along -/

/-- What a call can have taken along: one that inserts, its own callback at most; one that takes,
the one it was told; one that closes, as many as it has counted. -/
def Got : Option (Errand κ) → List (UInt64 × κ) → Prop
  | some (.inserted token), got => got = [] ∨ ∃ cb, got = [(token, cb)]
  | some (.took token cb), got => got = cb.toList.map (token, ·)
  | some (.emptying _ count), got | some (.closed count), got => got.length = count
  | _, got => got = []

structure Accounted (s : Traffic κ) : Prop where
  calls : s.calls.Unique
  got : ∀ n, Got (s.calls.get? n) (s.takenBy n)

lemma takenBy_takeOut (s : Traffic κ) (n : Nat) (token : UInt64) (next : Option κ → Errand κ)
    (m : Nat) : (s.takeOut n token next).takenBy m = s.takenBy m ++
      if m = n then (s.registry.take token).1.toList.map (token, ·) else [] := by
  rw [takenBy, takeOut, List.filter_append, List.map_append]
  rcases (s.registry.take token).1 with - | cb
  · simp [takenBy]
  · by_cases hm : n = m
    · simp [takenBy, Passage.entry, hm]
    · simp [takenBy, hm, Ne.symm hm]

namespace Accounted

lemma of_set (h : s.Accounted) (hc : s'.calls = s.calls.set n e)
    (hd : s'.departures = s.departures) (hgot : Got (some e) (s.takenBy n)) : s'.Accounted := by
  refine ⟨hc ▸ Table.unique_set h.calls n e, fun m => ?_⟩
  have htaken : s'.takenBy m = s.takenBy m := by rw [takenBy, hd, takenBy]
  rw [htaken, hc, Table.get?_set]
  split
  · rename_i hm
    rw [hm]
    exact hgot
  · exact h.got m

lemma takeOut {next : Option κ → Errand κ} (h : s.Accounted)
    (hgot : Got (some (next (s.registry.take token).1))
      (s.takenBy n ++ (s.registry.take token).1.toList.map (token, ·))) :
    (s.takeOut n token next).Accounted := by
  refine ⟨Table.unique_set h.calls n _, fun m => ?_⟩
  rw [takenBy_takeOut]
  show Got ((s.calls.set n _).get? m) _
  rw [Table.get?_set]
  by_cases hm : m = n
  · subst hm
    rw [if_pos rfl, if_pos rfl]
    exact hgot
  · rw [if_neg hm, if_neg hm, List.append_nil]
    exact h.got m

lemma got_of_get? (h : s.Accounted) {c : Option (Errand κ)} (call : s.calls.get? n = c) :
    Got c (s.takenBy n) := call ▸ h.got n

end Accounted

lemma Step.accounted (h : Step s s') (hs : s.Accounted) : s'.Accounted := by
  cases h with
  | stay => exact hs
  | draw n cb free | mark n free =>
    exact hs.of_set rfl rfl (show s.takenBy n = [] from hs.got_of_get? free)
  | store n t cb call | late n t call | look n call | see n t present seen call =>
    exact hs.of_set rfl rfl (show s.takenBy n = [] from hs.got_of_get? call)
  | keep n t call =>
    exact hs.of_set rfl rfl (Or.inl (show s.takenBy n = [] from hs.got_of_get? call))
  | revoke n t call =>
    have hnone : s.takenBy n = [] := hs.got_of_get? call
    refine hs.takeOut ?_
    rw [hnone]
    rcases (s.registry.take t).1 with - | cb
    · exact Or.inl rfl
    · exact Or.inr ⟨cb, rfl⟩
  | take n t free =>
    have hnone : s.takenBy n = [] := hs.got_of_get? free
    refine hs.takeOut ?_
    rw [hnone]
    rfl
  | gather n present seen call covered =>
    have hnone : s.takenBy n = [] := hs.got_of_get? call
    exact hs.of_set rfl rfl (show (s.takenBy n).length = 0 by rw [hnone]; rfl)
  | remove n t rest count call =>
    have hcount : (s.takenBy n).length = count := hs.got_of_get? call
    refine hs.takeOut ?_
    show (s.takenBy n ++ _).length = _
    rw [List.length_append, hcount, List.length_map]
  | leave n count call =>
    exact hs.of_set rfl rfl (show (s.takenBy n).length = count from hs.got_of_get? call)

lemma accounted (acts : List (Act κ)) : (run acts).Accounted := by
  induction acts using List.reverseRecOn with
  | nil => exact ⟨Table.unique_empty, fun n => rfl⟩
  | append_singleton acts act ih =>
    rw [run_snoc]
    exact (perform_step _ act).accounted ih

lemma Accounted.taker (h : s.Accounted) {d : Passage κ} (hd : d ∈ s.departures) :
    s.calls.get? d.call = some (.took d.token (some d.cb)) ∨
    s.calls.get? d.call = some (.inserted d.token) ∨
    ∃ e, s.calls.get? d.call = some e ∧ e.empties := by
  have hmem : d.entry ∈ s.takenBy d.call :=
    List.mem_map_of_mem (List.mem_filter.mpr ⟨hd, decide_eq_true rfl⟩)
  have hgot := h.got d.call
  rcases hcall : s.calls.get? d.call with - | e <;> rw [hcall] at hgot
  · rw [show s.takenBy d.call = [] from hgot] at hmem
    cases hmem
  · cases e with
    | storing | checking | revoking | marked | looking =>
      rw [show s.takenBy d.call = [] from hgot] at hmem
      cases hmem
    | inserted t =>
      rcases hgot with hnone | ⟨cb, hone⟩
      · rw [hnone] at hmem
        cases hmem
      · rw [hone, List.mem_singleton] at hmem
        cases hmem
        exact Or.inr (Or.inl rfl)
    | took t cb =>
      rw [show s.takenBy d.call = cb.toList.map (t, ·) from hgot] at hmem
      obtain ⟨cb', hcb', heq⟩ := List.mem_map.mp hmem
      obtain rfl : cb = some cb' := by simpa using hcb'
      cases heq
      exact Or.inl rfl
    | emptying | closed => exact Or.inr (Or.inr ⟨_, rfl, rfl⟩)

/-! ### The way out -/

inductive Exit (s : Traffic κ) (a d : Passage κ) : Prop where
  | taken (call : s.calls.get? d.call = some (.took a.token (some a.cb)))
  /-- The call that brought it has found the registry closed. -/
  | revoked (own : d.call = a.call) (call : s.calls.get? a.call = some (.inserted a.token))
  | removed (e : Errand κ) (call : s.calls.get? d.call = some e) (empties : e.empties)

lemma filter_token {l : List (Passage κ)} (h : (l.map (·.token)).Nodup) {d : Passage κ}
    (hd : d ∈ l) : l.filter (·.token = d.token) = [d] := by
  induction l with
  | nil => cases hd
  | cons p l ih =>
    rw [List.map_cons, List.nodup_cons] at h
    rcases List.mem_cons.mp hd with rfl | hd
    · rw [List.filter_cons_of_pos (by simp), List.cons.injEq, List.filter_eq_nil_iff]
      refine ⟨rfl, fun q hq heq => h.1 ?_⟩
      exact List.mem_map.mpr ⟨q, hq, of_decide_eq_true heq⟩
    · have hne : p.token ≠ d.token := fun heq => h.1 (List.mem_map.mpr ⟨d, hd, heq.symm⟩)
      rw [List.filter_cons_of_neg (by simpa using hne)]
      exact ih h.2 hd

lemma departed_once (ho : s.Owned) (hb : s.Balanced) {d : Passage κ} (hd : d ∈ s.departures) :
    s.registry.callbacks.get? d.token = none ∧
      s.departures.filter (·.token = d.token) = [d] := by
  have hnodup := Multiset.coe_nodup.mpr ho.nodup
  rw [hb.tokens, Multiset.nodup_add] at hnodup
  obtain ⟨-, hdepartures, hdisjoint⟩ := hnodup
  refine ⟨?_, filter_token hdepartures hd⟩
  by_contra hsome
  obtain ⟨cb, hcb⟩ := Option.ne_none_iff_exists'.mp hsome
  have hthere := (Table.mem_contents hb.callbacks).mpr hcb
  exact Multiset.disjoint_left.mp hdisjoint (Multiset.mem_map_of_mem Prod.fst hthere)
    (List.mem_map.mpr ⟨d, hd, rfl⟩)

lemma exit_of_departed (ho : s.Owned) (hg : s.Accounted) {a d : Passage κ} (ha : a ∈ s.arrivals)
    (hd : d ∈ s.departures) (htoken : d.token = a.token) (hcb : d.cb = a.cb) : s.Exit a d := by
  rcases hg.taker hd with htook | hinserted | ⟨e, he, hempties⟩
  · exact .taken (by rw [htook, htoken, hcb])
  · -- the token tells which call has brought the callback
    obtain ⟨e, he, hstored⟩ := ho.arrived a ha
    have hown : d.call = a.call := ho.own _ _ a.token
      ((tokenOf_of_get? hinserted).trans (congrArg some htoken))
      ((tokenOf_of_get? he).trans (Errand.token_of_stored hstored))
    exact .revoked hown (by rw [← hown, hinserted, htoken])
  · exact .removed e he hempties

lemma present_or_departed (ho : s.Owned) (hb : s.Balanced) (hg : s.Accounted) {a : Passage κ}
    (ha : a ∈ s.arrivals) :
    s.registry.callbacks.get? a.token = some a.cb ∧ (∀ d ∈ s.departures, d.token ≠ a.token) ∨
    s.registry.callbacks.get? a.token = none ∧
      ∃ d, s.departures.filter (·.token = a.token) = [d] ∧ d.cb = a.cb ∧ s.Exit a d := by
  have hmem : a.entry ∈ (s.arrivals.map Passage.entry : Multiset (UInt64 × κ)) :=
    List.mem_map_of_mem ha
  rw [hb.arrived] at hmem
  rcases Multiset.mem_add.mp hmem with hthere | hgone
  · have hpresent := (Table.mem_contents hb.callbacks).mp hthere
    refine Or.inl ⟨hpresent, fun d hd htoken => ?_⟩
    cases (htoken ▸ (departed_once ho hb hd).1).symm.trans hpresent
  · obtain ⟨d, hd, hentry⟩ := List.mem_map.mp hgone
    have htoken : d.token = a.token := congrArg Prod.fst hentry
    have hcb : d.cb = a.cb := congrArg Prod.snd hentry
    obtain ⟨habsent, honce⟩ := departed_once ho hb hd
    rw [htoken] at habsent honce
    exact Or.inr ⟨habsent, d, honce, hcb, exit_of_departed ho hg ha hd htoken hcb⟩

end Traffic

end Verbs
