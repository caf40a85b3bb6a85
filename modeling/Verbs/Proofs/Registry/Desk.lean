import Mathlib.Logic.Function.Basic
import Mathlib.Tactic
import Verbs.Proofs.Registry

/-!
A registry and the calls that are at work with it. A call that inserts stores its callback before it
looks whether the registry is closed, and a call that closes marks the registry before it looks what
is stored; so a callback that the one misses is found by the other. Whoever makes these calls, and
whatever else is going on meanwhile, this is all that it depends on.
-/

namespace Verbs

namespace Desk

/-- How far a call has come that has stored its callback, or that closes. -/
inductive Stage where
  | checking (token : UInt64)
  | revoking (token : UInt64)
  | marked
  | looking (present : List UInt64)
  | emptying (seen : List UInt64)

namespace Stage

def registers (token : UInt64) : Stage → Bool
  | checking t | revoking t => t = token
  | _ => false

/-- Whether a call has marked the registry closed or found it so. -/
def closes : Stage → Bool
  | checking _ => false
  | _ => true

/-- What a call that closes has left to take out. -/
def found? : Stage → Option (List UInt64)
  | looking present => some present
  | emptying seen => some seen
  | _ => none

lemma closes_of_found {g : Stage} {ts : List UInt64} (h : g.found? = some ts) :
    g.closes = true := by
  cases g <;> first | rfl | cases h

end Stage

end Desk

structure Desk (κ : Type) where
  registry : Registry κ := {}
  drawn : List UInt64 := []
  stage : Nat → Option Desk.Stage := fun _ => none

namespace Desk

variable {κ : Type}

/-- What can happen to a registry. A call is at no stage before it stores its callback or marks the
registry, and when it is over. -/
inductive Step (d : Desk κ) : Desk κ → Prop where
  | stay : Step d d
  | draw : Step d { d with
      registry := d.registry.draw.2
      drawn := d.drawn ++ [d.registry.next] }
  | store (n : Nat) (token : UInt64) (cb : κ) (none : d.stage n = none) :
      Step d { d with
        registry := d.registry.put token cb
        stage := Function.update d.stage n (some (.checking token)) }
  | late (n : Nat) (token : UInt64) (stage : d.stage n = some (.checking token))
      (closed : d.registry.closed = true) :
      Step d { d with stage := Function.update d.stage n (some (.revoking token)) }
  | keep (n : Nat) (token : UInt64) (stage : d.stage n = some (.checking token))
      (isOpen : d.registry.closed = false) :
      Step d { d with stage := Function.update d.stage n none }
  | revoke (n : Nat) (token : UInt64) (stage : d.stage n = some (.revoking token)) :
      Step d { d with
        registry := (d.registry.take token).2
        stage := Function.update d.stage n none }
  | take (token : UInt64) : Step d { d with registry := (d.registry.take token).2 }
  | mark (n : Nat) (none : d.stage n = none) :
      Step d { d with
        registry := d.registry.shut
        stage := Function.update d.stage n (some .marked) }
  | look (n : Nat) (stage : d.stage n = some .marked) :
      Step d { d with
        stage := Function.update d.stage n (some (.looking d.registry.callbacks.keys)) }
  | gather (n : Nat) (present seen : List UInt64) (stage : d.stage n = some (.looking present))
      (covered : ∀ t ∈ present, d.registry.callbacks.contains t → t ∈ seen) :
      Step d { d with stage := Function.update d.stage n (some (.emptying seen)) }
  | remove (n : Nat) (token : UInt64) (rest : List UInt64)
      (stage : d.stage n = some (.emptying (token :: rest))) :
      Step d { d with
        registry := (d.registry.take token).2
        stage := Function.update d.stage n (some (.emptying rest)) }
  | leave (n : Nat) (stage : d.stage n = some (.emptying [])) :
      Step d { d with stage := Function.update d.stage n none }

inductive Reached : Desk κ → Prop where
  | start : Reached {}
  | step {d d' : Desk κ} (before : Reached d) (step : Step d d') : Reached d'

variable {d d' : Desk κ} {n : Nat} {token : UInt64} {ts : List UInt64}

/-! ### Tokens -/

/-- Tokens are drawn one after another. -/
structure Numbered (d : Desk κ) : Prop where
  next : d.registry.next = UInt64.ofNat (d.drawn.length + 1)
  drawn : d.drawn = (List.range d.drawn.length).map fun k => UInt64.ofNat (k + 1)

lemma Step.numbered (h : Step d d') (hd : d.Numbered) : d'.Numbered := by
  cases h with
  | draw =>
    have hlength : (d.drawn ++ [d.registry.next]).length = d.drawn.length + 1 := by simp
    refine ⟨?_, ?_⟩
    · show d.registry.next + 1 = UInt64.ofNat ((d.drawn ++ [d.registry.next]).length + 1)
      rw [hlength, hd.next]
      simp
    · show d.drawn ++ [d.registry.next] = _
      rw [hlength, List.range_succ, List.map_append, ← hd.drawn, hd.next]
      rfl
  | revoke | take | remove => exact ⟨(Registry.take_next _ _).trans hd.next, hd.drawn⟩
  | stay | store | late | keep | mark | look | gather | leave => exact ⟨hd.next, hd.drawn⟩

lemma Reached.numbered (h : d.Reached) : d.Numbered := by
  induction h with
  | start => exact ⟨rfl, rfl⟩
  | step _ hstep ih => exact hstep.numbered ih

namespace Numbered

lemma nodup (h : d.Numbered) (hbound : d.drawn.length < 2 ^ 64) : d.drawn.Nodup := by
  rw [h.drawn]
  exact Registry.nodup_tokens hbound

/-- As long as there are tokens left, the next one is new. -/
lemma next_notMem (h : d.Numbered) (hbound : d.drawn.length + 1 < 2 ^ 64) :
    d.registry.next ∉ d.drawn := by
  intro hmem
  rw [h.next, h.drawn] at hmem
  obtain ⟨k, hk, heq⟩ := List.mem_map.mp hmem
  rw [List.length_map, List.length_range] at heq
  have hk' := List.mem_range.mp hk
  exact hk'.ne (Registry.ofNat_succ_inj (by omega) hbound heq)

end Numbered

/-! ### What a call that closes leaves -/

def Registering (d : Desk κ) (token : UInt64) : Prop :=
  ∃ n g, d.stage n = some g ∧ g.registers token

/-- The callbacks that the registry holds have certain tokens, or are being inserted. -/
def Covered (d : Desk κ) (ts : List UInt64) : Prop :=
  ∀ token, d.registry.callbacks.get? token ≠ none → d.Registering token ∨ token ∈ ts

/-- A call goes on. Whatever is there still was there before and is not given up by the call, or is
what the call has just stored. -/
lemma Covered.of_update {g : Option Stage} (h : d.Covered ts)
    (hstage : d'.stage = Function.update d.stage n g)
    (held : ∀ token, d'.registry.callbacks.get? token ≠ none →
      (∃ g', g = some g' ∧ g'.registers token) ∨
        d.registry.callbacks.get? token ≠ none ∧
          ∀ g', d.stage n = some g' → ¬ g'.registers token) : d'.Covered ts := by
  intro token ht
  rcases held token ht with ⟨g', rfl, hreg⟩ | ⟨hbefore, hold⟩
  · exact Or.inl ⟨n, g', by rw [hstage, Function.update_self], hreg⟩
  · refine (h token hbefore).imp_left fun ⟨m, g', hm, hreg⟩ => ⟨m, g', ?_, hreg⟩
    have hne : m ≠ n := by
      rintro rfl
      exact hold g' hm hreg
    rw [hstage, Function.update_of_ne hne, hm]

lemma get?_of_take {r : Registry κ} {t : UInt64}
    (h : (r.take t).2.callbacks.get? token ≠ none) : r.callbacks.get? token ≠ none ∧ token ≠ t := by
  rw [Registry.get?_take] at h
  split at h
  · exact absurd rfl h
  · rename_i ht
    exact ⟨h, ht⟩

lemma Step.covered (h : Step d d') (hclosed : d.registry.closed = true) (hc : d.Covered ts) :
    d'.Covered ts := by
  cases h with
  | stay | draw => exact hc
  | store n t cb hnone =>
    refine hc.of_update rfl fun token ht => ?_
    by_cases htt : token = t
    · exact Or.inl ⟨_, rfl, by simp [Stage.registers, htt]⟩
    · refine Or.inr ⟨fun hbefore => ht ?_, by simp [hnone]⟩
      exact (Table.get?_set_of_ne _ _ htt).trans hbefore
  | late n t stage closed =>
    refine hc.of_update rfl fun token ht => ?_
    by_cases htt : t = token
    · exact Or.inl ⟨_, rfl, by simp [Stage.registers, htt]⟩
    · exact Or.inr ⟨ht, by simp [stage, Stage.registers, htt]⟩
  | keep n t stage isOpen => cases hclosed.symm.trans isOpen
  | revoke n t stage =>
    refine hc.of_update rfl fun token ht => Or.inr ?_
    obtain ⟨hbefore, hne⟩ := get?_of_take ht
    exact ⟨hbefore, by simp [stage, Stage.registers, hne.symm]⟩
  | take t => exact fun token ht => hc token (get?_of_take ht).1
  | mark n hnone => exact hc.of_update rfl fun token ht => Or.inr ⟨ht, by simp [hnone]⟩
  | remove n t rest stage =>
    exact hc.of_update rfl fun token ht =>
      Or.inr ⟨(get?_of_take ht).1, by simp [stage, Stage.registers]⟩
  | look n stage | gather n present seen stage | leave n stage =>
    exact hc.of_update rfl fun token ht => Or.inr ⟨ht, by simp [stage, Stage.registers]⟩

lemma Step.closed (h : Step d d') (hclosed : d.registry.closed = true) :
    d'.registry.closed = true := by
  cases h with
  | mark => rfl
  | revoke | take | remove => exact (Registry.take_closed _ _).trans hclosed
  | stay | draw | store | late | keep | look | gather | leave => exact hclosed

/-- A call that closes takes out whatever is there, apart from what is being inserted. -/
structure Closing (d : Desk κ) : Prop where
  closed : ∀ n g, d.stage n = some g → g.closes → d.registry.closed = true
  covered : ∀ n g ts, d.stage n = some g → g.found? = some ts → d.Covered ts

lemma Closing.of_update {g : Option Stage} (h : d.Closing) (hs : Step d d')
    (hstage : d'.stage = Function.update d.stage n g)
    (hclosed : ∀ g', g = some g' → g'.closes → d'.registry.closed = true)
    (hfound : ∀ g' ts, g = some g' → g'.found? = some ts → d'.Covered ts) : d'.Closing := by
  refine ⟨fun m g' hm hcloses => ?_, fun m g' ts hm hts => ?_⟩
  · rw [hstage, Function.update_apply] at hm
    split at hm
    · exact hclosed g' hm hcloses
    · exact hs.closed (h.closed m g' hm hcloses)
  · rw [hstage, Function.update_apply] at hm
    split at hm
    · exact hfound g' ts hm hts
    · exact hs.covered (h.closed m g' hm (Stage.closes_of_found hts)) (h.covered m g' ts hm hts)

lemma Closing.of_eq (h : d.Closing) (hs : Step d d') (hstage : d'.stage = d.stage) :
    d'.Closing := by
  refine ⟨fun m g hm hcloses => ?_, fun m g ts hm hts => ?_⟩
  · exact hs.closed (h.closed m g (hstage ▸ hm) hcloses)
  · have hm := hstage ▸ hm
    exact hs.covered (h.closed m g hm (Stage.closes_of_found hts)) (h.covered m g ts hm hts)

lemma Step.closing (h : Step d d') (hc : d.Closing) : d'.Closing := by
  have hs := h
  cases h with
  | stay => exact hc
  | draw | take => exact hc.of_eq hs rfl
  | store n t cb none =>
    refine hc.of_update hs rfl ?_ ?_
    · rintro g' ⟨⟩
      nofun
    · rintro g' ts ⟨⟩
      nofun
  | keep | revoke | leave => exact hc.of_update hs rfl nofun nofun
  | late n t stage closed =>
    refine hc.of_update hs rfl (fun _ _ _ => closed) ?_
    rintro g' ts ⟨⟩
    nofun
  | mark n none =>
    refine hc.of_update hs rfl (fun _ _ _ => rfl) ?_
    rintro g' ts ⟨⟩
    nofun
  | look n stage =>
    refine hc.of_update hs rfl (fun _ _ _ => hc.closed n _ stage rfl) ?_
    rintro g' ts ⟨⟩ ⟨⟩ token ht
    right
    by_contra hmem
    exact ht (Table.get?_eq_none_iff.mpr hmem)
  | gather n present seen stage covered =>
    have hclosed := hc.closed n _ stage rfl
    refine hc.of_update hs rfl (fun _ _ _ => hclosed) ?_
    rintro g' ts ⟨⟩ ⟨⟩ token ht
    -- what was there when the call began to look and still is has been seen
    have hpresent := hs.covered hclosed (hc.covered n _ present stage rfl)
    exact (hpresent token ht).imp_right fun hmem =>
      covered token hmem (Option.isSome_iff_ne_none.mpr ht)
  | remove n t rest stage =>
    have hclosed := hc.closed n _ stage rfl
    refine hc.of_update hs rfl (fun _ _ _ => hs.closed hclosed) ?_
    rintro g' ts ⟨⟩ ⟨⟩ token ht
    have hall := hs.covered hclosed (hc.covered n _ (t :: rest) stage rfl)
    have hne : token ≠ t := (get?_of_take ht).2
    exact (hall token ht).imp_right fun hmem => (List.mem_cons.mp hmem).resolve_left hne

lemma Reached.closing (h : d.Reached) : d.Closing := by
  induction h with
  | start => exact ⟨nofun, nofun⟩
  | step _ hstep ih => exact hstep.closing ih

end Desk

end Verbs
